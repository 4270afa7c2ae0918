import ServingCatalog.Json.Tree
import ServingCatalog.Record

/-!
# Typed values from JSON

Two ways to a typed value. A reader decodes it straight from a text and raises the first fault met
from left to right, be it of form or of shape. A decoder takes a value that has been read already.
Both refuse the same shapes in the same words, and both take records as objects or as arrays.
-/

namespace ServingCatalog

namespace Json

/-! ## From a text -/

/-- The failure of a value that starts here and is of another type than wanted. Strings, numbers
and words are read first, and may be no JSON at all. -/
def mismatch (wanted : String) (start : List Char) : Failure :=
  match start with
  | [] => .cutShort
  | c :: rest =>
    if c = '[' then .misfit (.wrongType .sequence wanted)
    else if c = '\x7b' then .misfit (.wrongType .map wanted)
    else
      match value .keep 0 (c :: rest) with
      | .ok (found, _) => .misfit (.wrongType found.found wanted)
      | .error failure => failure

/-- Reads a string. -/
def readText : Reader String := fun text =>
  match skipBlanks text with
  | [] => .error .cutShort
  | c :: rest => if c = '"' then Quoted.read rest else .error (mismatch "a string" (c :: rest))

/-- Reads an array of values. -/
def readList {α : Type} (item : Reader α) : Reader (List α) := fun text =>
  match skipBlanks text with
  | [] => .error .cutShort
  | c :: rest => if c = '[' then items item rest else .error (mismatch "a sequence" (c :: rest))

/-- Reads a value or `null`. -/
def readOption {α : Type} (reader : Reader α) : Reader (Option α) := fun text =>
  match skipBlanks text with
  | [] => .error .cutShort
  | c :: rest => if c = 'n' then word "ull" none rest else reader.map some (c :: rest)

section Records

variable {φ : Type} {Value : φ → Type} {α : Type} [DecidableEq φ]

/-- Reads what follows the key of a record's member. A field that has a value already is refused
before its second one is looked at; the value of an unknown key is stepped over. -/
def recordMember (r : Record φ Value α) (read : (f : φ) → Reader (Value f)) (key : String)
    (draft : Draft φ Value) : Reader (Draft φ Value) := fun text =>
  match r.field? key with
  | some f =>
    if (draft f).isSome then .error (.misfit (.duplicateField key))
    else
      match readColon text with
      | .error failure => .error failure
      | .ok rest => (read f).map (draft.put f) rest
  | none =>
    match readColon text with
    | .error failure => .error failure
    | .ok rest => skipValue.map (fun _ => draft) rest

/-- The outcome of building a record, with what is left of the text. -/
def finish (outcome : Except Misfit α) (rest : List Char) : Except Failure (α × List Char) :=
  match outcome with
  | .ok value => .ok (value, rest)
  | .error reason => .error (.misfit reason)

/-- Reads an object's members into a record, behind the opening brace. -/
def recordMembers (r : Record φ Value α) (read : (f : φ) → Reader (Value f)) : Reader α :=
  fun text =>
    match members Quoted.read (recordMember r read) Draft.empty text with
    | .error failure => .error failure
    | .ok (draft, rest) => finish (r.ofMembers draft) rest

/-- Reads items for the fields that remain. A list that ends early may still make a record; one
that goes on after the last field does not. -/
def recordItems (r : Record φ Value α) (read : (f : φ) → Reader (Value f)) :
    List φ → Nat → Draft φ Value → Reader α
  | [], count, draft, text =>
    match finish (r.ofItems count draft) text with
    | .error failure => .error failure
    | .ok (value, text) =>
      match skipBlanks text with
      | [] => .error .cutShort
      | c :: rest => if c = ']' then .ok (value, rest) else .error .malformed
  | f :: fields, count, draft, text =>
    match nextItem (count = 0) text with
    | .error failure => .error failure
    | .ok (.done rest) => finish (r.ofItems count draft) rest
    | .ok (.more start) =>
      match read f start with
      | .error failure => .error failure
      | .ok (value, rest) => recordItems r read fields (count + 1) (draft.put f value) rest

/-- Reads a record, from an object or from an array. -/
def readRecord (r : Record φ Value α) (read : (f : φ) → Reader (Value f)) : Reader α :=
  fun text =>
    match skipBlanks text with
    | [] => .error .cutShort
    | c :: rest =>
      if c = '[' then recordItems r read r.fields 0 Draft.empty rest
      else if c = '\x7b' then recordMembers r read rest
      else .error (mismatch r.label (c :: rest))

end Records

/-! ## From a value -/

/-- The misfit of a value that is of another type than wanted. -/
def unwanted (wanted : String) (value : Json) : Misfit := .wrongType value.found wanted

/-- A string. -/
def decodeText : Json → Except Misfit String
  | .string s => .ok s
  | other => .error (unwanted "a string" other)

/-- Decodes items one after the other. -/
def decodeItems {α : Type} (item : Json → Except Misfit α) : List Json → Except Misfit (List α)
  | [] => .ok []
  | value :: values =>
    match item value with
    | .error reason => .error reason
    | .ok decoded => (decodeItems item values).map (decoded :: ·)

/-- An array of values. -/
def decodeList {α : Type} (item : Json → Except Misfit α) : Json → Except Misfit (List α)
  | .array values => decodeItems item values
  | other => .error (unwanted "a sequence" other)

/-- A value or `null`. -/
def decodeOption {α : Type} (decode : Json → Except Misfit α) : Json → Except Misfit (Option α)
  | .null => .ok none
  | other => (decode other).map some

section Records

variable {φ : Type} {Value : φ → Type} {α : Type} [DecidableEq φ]

/-- Decodes the members of an object into a draft, those of unknown keys left out. -/
def draftOfMembers (r : Record φ Value α) (decode : (f : φ) → Json → Except Misfit (Value f)) :
    List (String × Json) → Draft φ Value → Except Misfit (Draft φ Value)
  | [], draft => .ok draft
  | (key, value) :: rest, draft =>
    match r.field? key with
    | none => draftOfMembers r decode rest draft
    | some f =>
      match decode f value with
      | .error reason => .error reason
      | .ok decoded => draftOfMembers r decode rest (draft.put f decoded)

/-- Decodes items for the fields that remain. -/
def decodeRecordItems (r : Record φ Value α) (decode : (f : φ) → Json → Except Misfit (Value f))
    (length : Nat) : List φ → List Json → Nat → Draft φ Value → Except Misfit α
  | [], values, count, draft =>
    match r.ofItems count draft with
    | .error reason => .error reason
    | .ok value =>
      if values.isEmpty then .ok value
      else .error (.wrongLength length "fewer elements in array")
  | _ :: _, [], count, draft => r.ofItems count draft
  | f :: fields, value :: values, count, draft =>
    match decode f value with
    | .error reason => .error reason
    | .ok decoded =>
      decodeRecordItems r decode length fields values (count + 1) (draft.put f decoded)

/-- A record, from an object or from an array. -/
def decodeRecord (r : Record φ Value α) (decode : (f : φ) → Json → Except Misfit (Value f)) :
    Json → Except Misfit α
  | .object members =>
    match draftOfMembers r decode members Draft.empty with
    | .error reason => .error reason
    | .ok draft => r.ofMembers draft
  | .array values => decodeRecordItems r decode values.length r.fields values 0 Draft.empty
  | other => .error (unwanted r.label other)

end Records

end Json

end ServingCatalog
