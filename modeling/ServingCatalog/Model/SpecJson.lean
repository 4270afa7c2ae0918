import ServingCatalog.Json.Decode
import ServingCatalog.Json.Printer
import ServingCatalog.Model.SpecRecord

/-!
# Scopes and model specs in JSON

The variants of a scope are renamed for JSON, and apart from the names that are parsed or shown. A
scope is written as the name of its variant; it is read from that or from an object with the name as
its only key and `null` for a value; an object with another key than a string is malformed. A spec
is written as an object with its fields in order, those that are absent left out, and read from a
text (`ModelSpec.ofText`) or from a value (`ModelSpec.ofJson`).
-/

namespace ServingCatalog

open Json

/-! ## Scopes -/

namespace Scope

/-- The name of a variant in JSON: its identifier in small letters. -/
def renamed (identifier : String) : String :=
  String.ofList (identifier.toList.map Char.toLower)

/-- The name that a scope is written as. -/
def written : Scope → String
  | .training => renamed "Training"
  | .inference => renamed "Inference"

/-- The names that scopes are read from, in the order in which messages list them. -/
def variants : List (String × Scope) :=
  [(renamed "Training", .training), (renamed "Inference", .inference)]

/-- A scope as a value. -/
def toJson (scope : Scope) : Json := .string scope.written

/-- The scope of a name, for a reader. -/
def select (name : String) : Except Failure Scope :=
  match variants.find? fun variant => variant.1 = name with
  | some (_, scope) => .ok scope
  | none => .error (.misfit (.unknownVariant name (variants.map Prod.fst)))

/-- Reads a value that has to be `null`. -/
def readNull : List Char → Except Failure (List Char) := fun text =>
  match skipBlanks text with
  | [] => .error .cutShort
  | c :: rest =>
    if c = 'n' then readWord "ull".toList rest else .error (mismatch "unit" (c :: rest))

/-- Reads the closing brace behind the only member of an object. -/
def readClosing : List Char → Except Failure (List Char) := fun text =>
  match skipBlanks text with
  | [] => .error .cutShort
  | c :: rest => if c = '\x7d' then .ok rest else .error .malformed

/-- Reads a scope. -/
def read : Reader Scope := fun text => do
  match skipBlanks text with
  | [] => throw .cutShort
  | c :: rest =>
    if c = '"' then
      let (name, rest) ← Quoted.read rest
      return (← select name, rest)
    else if c = '\x7b' then
      match skipBlanks rest with
      | [] => throw .cutShort
      | d :: rest =>
        if d ≠ '"' then throw .malformed
        let (name, rest) ← Quoted.read rest
        let scope ← select name
        let rest ← readColon rest
        let rest ← readNull rest
        return (scope, ← readClosing rest)
    else throw .malformed

/-- The scope that a text is. -/
def ofText (text : String) : Except Failure Scope := readWhole read text.toList

end Scope

/-! ## Specs -/

/-- A list of strings as a value. -/
def Json.ofTexts (texts : List String) : Json := .array (texts.map .string)

/-- A member that is left out where there is no value. -/
def Json.optionalMember {α : Type} (key : String) (encode : α → Json) :
    Option α → List (String × Json)
  | none => []
  | some value => [(key, encode value)]

namespace ScopeSpec

/-- The instance types of a scope as a value. -/
def toJson (spec : ScopeSpec) : Json :=
  .object
    ((Field.instanceTypes.name, ofTexts spec.instanceTypes) ::
      optionalMember Field.default.name .string spec.default)

/-- The text of the instance types of a scope. -/
def toText (spec : ScopeSpec) : String := spec.toJson.compact

/-- Reads the value of a field. -/
def readField : (f : Field) → Reader f.Value
  | .instanceTypes => readList readText
  | .default => readOption readText

/-- Decodes the value of a field. -/
def decodeField : (f : Field) → Json → Except Misfit f.Value
  | .instanceTypes => decodeList decodeText
  | .default => decodeOption decodeText

/-- Reads the instance types of a scope. -/
def read : Reader ScopeSpec := readRecord record readField

/-- The instance types of a scope that a value stands for. -/
def ofJson : Json → Except Misfit ScopeSpec := decodeRecord record decodeField

end ScopeSpec

namespace ModelSpec

/-- A spec as a value. -/
def toJson (spec : ModelSpec) : Json :=
  .object
    ([(Field.modelId.name, .string spec.modelId),
        (Field.version.name, .string spec.version),
        (Field.regions.name, ofTexts spec.regions),
        (Field.acceptTypes.name, ofTexts spec.acceptTypes)] ++
      optionalMember Field.defaultAcceptType.name .string spec.defaultAcceptType ++
      optionalMember Field.training.name ScopeSpec.toJson spec.training ++
      optionalMember Field.inference.name ScopeSpec.toJson spec.inference)

/-- The text of a spec. -/
def toText (spec : ModelSpec) : String := spec.toJson.compact

/-- Reads the value of a field. -/
def readField : (f : Field) → Reader f.Value
  | .modelId => readText
  | .version => readText
  | .regions => readList readText
  | .acceptTypes => readList readText
  | .defaultAcceptType => readOption readText
  | .training => readOption ScopeSpec.read
  | .inference => readOption ScopeSpec.read

/-- Decodes the value of a field. -/
def decodeField : (f : Field) → Json → Except Misfit f.Value
  | .modelId => decodeText
  | .version => decodeText
  | .regions => decodeList decodeText
  | .acceptTypes => decodeList decodeText
  | .defaultAcceptType => decodeOption decodeText
  | .training => decodeOption ScopeSpec.ofJson
  | .inference => decodeOption ScopeSpec.ofJson

/-- Reads a spec. -/
def read : Reader ModelSpec := readRecord record readField

/-- The spec that a text is. -/
def ofText (text : String) : Except Failure ModelSpec := readWhole read text.toList

/-- The spec that a value stands for. -/
def ofJson : Json → Except Misfit ModelSpec := decodeRecord record decodeField

end ModelSpec

end ServingCatalog
