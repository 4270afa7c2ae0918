import ServingCatalog.CommandLine.Basic
import ServingCatalog.Configuration.Basic
import ServingCatalog.InstanceType
import ServingCatalog.Json.Printer
import ServingCatalog.Lookup

/-!
# Running a command

A command is answered from the configured catalog. Its answer is printed as JSON; a fault prints
nothing.
-/

namespace ServingCatalog

namespace Command

/-- A value as it is printed: JSON over several lines, and a line break. -/
def printed (value : Json) : String := value.pretty ++ "\n"

/-- The answer to a volume check. -/
def volumeAnswer (instanceType : String) (supported : Bool) : Json :=
  .object
    [("instance_type", .string instanceType), ("volume_size_supported", .bool supported)]

/-- The answer of a resolver to a command. -/
def answer (r : Resolver) : Command → Inquiry Json
  | .acceptTypes q => return .array ((← Lookup.acceptTypes r q).map .string)
  | .defaultAcceptType q => return .string (← Lookup.defaultAcceptType r q)
  | .instanceTypes q scope => return .array ((← Lookup.instanceTypes r q scope).map .string)
  | .defaultInstanceType q scope => return .string (← Lookup.defaultInstanceType r q scope)
  | .volumeSizeSupported text =>
    .settled ((ServingCatalog.volumeSizeSupported text).map (volumeAnswer text))

/-- The event of a catalog that is ready. -/
def loadedEvent (c : Catalog) : Event :=
  ⟨.debug, "model_accessors::cli", "Catalog loaded", [("models", .count c.size)]⟩

/-- What a command prints, answered from the configured catalog. -/
def run (config : CatalogConfig) (command : Command) : Inquiry String := do
  let catalog := config.build
  Inquiry.emit (loadedEvent catalog)
  return printed (← command.answer catalog.resolver)

end Command

end ServingCatalog
