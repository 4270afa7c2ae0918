import ServingCatalog.Configuration.OfSettings
import ServingCatalog.Proofs.Json.Spelling
import ServingCatalog.Proofs.Model.SpecText
import ServingCatalog.Proofs.Settings.OfSlots

/-!
# Model specs among settings

In a file of settings a spec takes another way than on its own: its object is sorted, becomes a
table, and is decoded by the rules for settings.  It comes back all the same (`ModelSpec.returns`),
from the same slots as in `SpecText`.  The written text of a spec also fits into larger texts
(`ModelSpec.spells_toJson`), where it takes three levels of nesting.
-/

namespace ServingCatalog

open Json Setting

namespace ScopeSpec

/-- The fields of a scope, written and decoded. -/
def coding : Coding record where
  encode := encodeField
  decode
    | .instanceTypes => decodeList decodeText
    | .default => decodeOption decodeText
  lawful := record_lawful
  returns f value := by
    cases f with
    | instanceTypes => exact returns_texts value
    | default => exact returns_optionalText value

/-- **Scopes.**  The instance types of a scope come back. -/
theorem returns (spec : ScopeSpec) : Returns decodeSetting toJson spec :=
  coding.returns_of_slots (toJson_eq_slots spec) (ofMembers_slots spec)

theorem spells_toJson (spec : ScopeSpec) (depth : Nat) :
    Spells (depth + 2) spec.toJson (compactChars spec.toJson) := by
  rw [toJson_eq_slots]
  refine spells_ofSlots record ?_ spec.slots
  intro f value
  cases f with
  | instanceTypes => exact spells_ofTexts depth value
  | default => exact spells_option (spells_string _) value

end ScopeSpec

namespace ModelSpec

/-- The fields of a spec, written and decoded. -/
def coding : Coding record where
  encode := encodeField
  decode
    | .modelId => decodeText
    | .version => decodeText
    | .regions => decodeList decodeText
    | .acceptTypes => decodeList decodeText
    | .defaultAcceptType => decodeOption decodeText
    | .training => decodeOption ScopeSpec.decodeSetting
    | .inference => decodeOption ScopeSpec.decodeSetting
  lawful := record_lawful
  returns f value := by
    cases f with
    | modelId => exact returns_text value
    | version => exact returns_text value
    | regions => exact returns_texts value
    | acceptTypes => exact returns_texts value
    | defaultAcceptType => exact returns_optionalText value
    | training => exact returns_option ScopeSpec.returns (fun _ => nofun) value
    | inference => exact returns_option ScopeSpec.returns (fun _ => nofun) value

/-- **Specs.**  A spec comes back. -/
theorem returns (spec : ModelSpec) : Returns decodeSetting toJson spec :=
  coding.returns_of_slots (toJson_eq_slots spec) (ofMembers_slots spec)

theorem spells_toJson (spec : ModelSpec) (depth : Nat) :
    Spells (depth + 3) spec.toJson (compactChars spec.toJson) := by
  rw [toJson_eq_slots]
  refine spells_ofSlots record ?_ spec.slots
  intro f value
  cases f with
  | modelId => exact spells_string _ value
  | version => exact spells_string _ value
  | regions => exact spells_ofTexts _ value
  | acceptTypes => exact spells_ofTexts _ value
  | defaultAcceptType => exact spells_option (spells_string _) value
  | training => exact spells_option (fun scope => scope.spells_toJson depth) value
  | inference => exact spells_option (fun scope => scope.spells_toJson depth) value

end ModelSpec

end ServingCatalog
