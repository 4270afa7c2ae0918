import ServingCatalog.Settings.Basic
import ServingCatalog.Settings.Fault

/-!
# Typed values from settings

Settings are forgiving where a text is wanted: booleans and numbers are written out. All other
shapes are as strict as elsewhere. A setting that cannot be a text is reported with the path that
leads to it and the place it was written in; other misfits are reported by themselves.
-/

namespace ServingCatalog

/-- How a scalar shows in a message. -/
def Scalar.found : Scalar → Found
  | .null => .null
  | .bool b => .bool b
  | .int i => .int i
  | .float x => .float x
  | .text s => .text s

/-- The text of a scalar; null has none. -/
def Scalar.text? : Scalar → Option String
  | .null => none
  | .bool b => some (toString b)
  | .int i => some (toString i)
  | .float x => some x.plain
  | .text s => some s

namespace Setting

/-- How a setting shows in a message. -/
def found : Setting → Found
  | .scalar _ value => value.found
  | .list _ _ => .sequence
  | .table _ _ => .map

/-- Makes a typed value of a setting. -/
abbrev Decoder (α : Type) := Setting → Except SettingFault α

/-- The fault of a setting that is of another type than wanted. -/
def unwanted (wanted : String) (setting : Setting) : SettingFault :=
  .misfit (.wrongType setting.found wanted)

/-- A text, or what can be written out as one. -/
def decodeText : Decoder String
  | .scalar origin value =>
    match value.text? with
    | some text => .ok text
    | none => .error (.noText value.found none origin)
  | other => .error (.noText other.found none other.origin)

/-- Decodes items one after the other, from a position on. -/
def decodeItems {α : Type} (item : Decoder α) : Nat → List Setting → Except SettingFault (List α)
  | _, [] => .ok []
  | index, setting :: settings =>
    match item setting with
    | .error fault => .error (fault.underIndex index)
    | .ok decoded => (decodeItems item (index + 1) settings).map (decoded :: ·)

/-- A list of values. -/
def decodeList {α : Type} (item : Decoder α) : Decoder (List α)
  | .list _ settings => decodeItems item 0 settings
  | other => .error (unwanted "a sequence" other)

/-- A value, or none where there is null. -/
def decodeOption {α : Type} (decode : Decoder α) : Decoder (Option α)
  | .scalar _ .null => .ok none
  | other => (decode other).map some

/-- One of several names, in any letter case: a text, or the only key of a table. -/
def decodeChoice {α : Type} (choice : String) (name : α → String) (known : List α) : Decoder α :=
  let select (text : String) : Except SettingFault α :=
    match known.find? fun value => Text.lower (name value) = Text.lower text with
    | some value => .ok value
    | none => .error (.unknownChoice choice text)
  fun
    | .scalar _ (.text s) => select s
    | .table _ [(key, _)] => select key
    | _ => .error (.noChoice choice)

section Records

variable {φ : Type} {Value : φ → Type} {α : Type} [DecidableEq φ]

/-- A misfit as a fault of settings. -/
def liftMisfit : Except Misfit α → Except SettingFault α
  | .ok value => .ok value
  | .error reason => .error (.misfit reason)

/-- Decodes the entries of a table into a draft, those of unknown keys left out. -/
def draftOfEntries (r : Record φ Value α) (decode : (f : φ) → Decoder (Value f)) :
    Entries → Draft φ Value → Except SettingFault (Draft φ Value)
  | [], draft => .ok draft
  | (key, setting) :: rest, draft =>
    match r.field? key with
    | none => draftOfEntries r decode rest draft
    | some f =>
      match decode f setting with
      | .error fault => .error (fault.underKey key)
      | .ok value => draftOfEntries r decode rest (draft.put f value)

/-- Decodes items for the fields that remain; items beyond the last field are left out. -/
def decodeRecordItems (r : Record φ Value α) (decode : (f : φ) → Decoder (Value f)) :
    List φ → List Setting → Nat → Draft φ Value → Except SettingFault α
  | f :: fields, setting :: settings, count, draft =>
    match decode f setting with
    | .error fault => .error (fault.underIndex count)
    | .ok value => decodeRecordItems r decode fields settings (count + 1) (draft.put f value)
  | _, _, count, draft => liftMisfit (r.ofItems count draft)

/-- A record, from a table or from a list. -/
def decodeRecord (r : Record φ Value α) (decode : (f : φ) → Decoder (Value f)) : Decoder α
  | .table _ entries =>
    match draftOfEntries r decode entries Draft.empty with
    | .error fault => .error fault
    | .ok draft => liftMisfit (r.ofMembers draft)
  | .list _ settings => decodeRecordItems r decode r.fields settings 0 Draft.empty
  | other => .error (unwanted r.label other)

end Records

end Setting

end ServingCatalog
