import ServingCatalog.Json.Misfit

/-!
# Records and their drafts

A record is read from the members of an object, in any order, or from the items of a list, in the
order of its fields. Either way the values found are collected in a `Draft`, which has a place for
each field, and `Record.build` makes the record of it or says which field is lacking.
-/

namespace ServingCatalog

/-- How values of type `α` are put together from fields `φ` with values of type `Value`. -/
structure Record (φ : Type) (Value : φ → Type) (α : Type) where
  label : String
  fields : List φ
  name : φ → String
  build : (φ → Misfit) → ((f : φ) → Option (Value f)) → Except Misfit α

/-- The values found so far, at most one for each field. -/
abbrev Draft (φ : Type) (Value : φ → Type) := (f : φ) → Option (Value f)

namespace Draft

variable {φ : Type} {Value : φ → Type} [DecidableEq φ]

/-- The draft in which nothing has been found. -/
def empty : Draft φ Value := fun _ => none

/-- Writes the value of a field. -/
def put (f : φ) (value : Value f) (draft : Draft φ Value) : Draft φ Value :=
  fun g => if h : f = g then some (h ▸ value) else draft g

@[simp] theorem put_same (f : φ) (value : Value f) (draft : Draft φ Value) :
    put f value draft f = some value := by simp [put]

theorem put_other {f g : φ} (h : f ≠ g) (value : Value f) (draft : Draft φ Value) :
    put f value draft g = draft g := by simp [put, h]

end Draft

namespace Record

variable {φ : Type} {Value : φ → Type} {α : Type}

/-- The field of a name. -/
def field? (r : Record φ Value α) (name : String) : Option φ :=
  r.fields.find? (r.name · = name)

/-- A field is found by its own name only. -/
theorem name_of_field? {r : Record φ Value α} {name : String} {f : φ} (h : r.field? name = some f) :
    r.name f = name := by
  have hname := List.find?_some h
  exact of_decide_eq_true hname

/-- The label with the number of fields. -/
def labelWithSize (r : Record φ Value α) : String :=
  r.label ++ " with " ++ toString r.fields.length ++ " elements"

/-- The record of an object whose members have all been read. -/
def ofMembers (r : Record φ Value α) (draft : Draft φ Value) : Except Misfit α :=
  r.build (fun f => .missingField (r.name f)) draft

/-- The record of a list that ended after so many items. -/
def ofItems (r : Record φ Value α) (count : Nat) (draft : Draft φ Value) : Except Misfit α :=
  r.build (fun _ => .wrongLength count r.labelWithSize) draft

end Record

end ServingCatalog
