import ServingCatalog.Json.Basic
import ServingCatalog.Text.LowerCase

/-!
# Settings

A setting is a scalar, a list or a table of settings, and knows where it was written; a table that
came about by laying tables over each other was written nowhere. The keys of tables do not
distinguish capital from small letters, so they are held in small ones.
-/

namespace ServingCatalog

/-- The value of a setting that holds no others. -/
inductive Scalar where
  | null
  | bool (value : Bool)
  | int (value : Int)
  | float (value : Binary64)
  | text (value : String)
  deriving DecidableEq

/-- A setting, with the place it was written in. -/
inductive Setting where
  | scalar (origin : Option String) (value : Scalar)
  | list (origin : Option String) (items : List Setting)
  | table (origin : Option String) (entries : List (String × Setting))

/-- The entries of a table. -/
abbrev Entries := List (String × Setting)

namespace Setting

/-- The place a setting was written in. -/
def origin : Setting → Option String
  | .scalar origin _ => origin
  | .list origin _ => origin
  | .table origin _ => origin

/-- The null that stands where a list was filled up. -/
def filler : Setting := .scalar none .null

/-- The entries of a table; other settings have none. -/
def entries : Setting → Entries
  | .table _ entries => entries
  | _ => []

/-- The items of a list; other settings have none. -/
def items : Setting → List Setting
  | .list _ items => items
  | _ => []

/-- The place a table was written in; other settings, which a table would replace, give none. -/
def tableOrigin : Setting → Option String
  | .table origin _ => origin
  | _ => none

/-- The place a list was written in; other settings, which a list would replace, give none. -/
def listOrigin : Setting → Option String
  | .list origin _ => origin
  | _ => none

end Setting

namespace Entries

/-- The setting of a key. -/
def get? (key : String) (entries : Entries) : Option Setting := entries.lookup key

/-- Changes the setting of a key, or puts one there; the other keys keep their places. -/
def alter (key : String) (change : Option Setting → Setting) : Entries → Entries
  | [] => [(key, change none)]
  | (k, s) :: rest =>
    if k = key then (k, change (some s)) :: rest else (k, s) :: alter key change rest

/-- Gives a key a setting, in the place of the one it has. -/
def put (key : String) (setting : Setting) (entries : Entries) : Entries :=
  entries.alter key fun _ => setting

@[simp] theorem get?_alter_same (key : String) (change : Option Setting → Setting)
    (entries : Entries) :
    (entries.alter key change).get? key = some (change (entries.get? key)) := by
  induction entries with
  | nil => simp [alter, get?]
  | cons entry rest ih =>
    obtain ⟨k, s⟩ := entry
    by_cases h : k = key
    · simp [alter, get?, h]
    · have hk : (key == k) = false := by simpa using Ne.symm h
      simpa [alter, get?, h, List.lookup_cons, hk] using ih

theorem get?_alter_other {key other : String} (h : key ≠ other)
    (change : Option Setting → Setting) (entries : Entries) :
    (entries.alter key change).get? other = entries.get? other := by
  induction entries with
  | nil =>
    have ho : (other == key) = false := by simpa using Ne.symm h
    simp [alter, get?, List.lookup_cons, ho]
  | cons entry rest ih =>
    obtain ⟨k, s⟩ := entry
    by_cases hk : k = key
    · have ho : (other == key) = false := by simpa using Ne.symm h
      simp [alter, get?, hk, List.lookup_cons, ho]
    · simp only [alter, get?, hk, if_false, List.lookup_cons] at ih ⊢
      cases other == k
      · exact ih
      · rfl

@[simp] theorem get?_put_same (key : String) (setting : Setting) (entries : Entries) :
    (entries.put key setting).get? key = some setting :=
  get?_alter_same key _ entries

theorem get?_put_other {key other : String} (h : key ≠ other) (setting : Setting)
    (entries : Entries) : (entries.put key setting).get? other = entries.get? other :=
  get?_alter_other h _ entries

end Entries

namespace Setting

mutual
/-- What a key holds after a setting is laid over what it held. A table is laid over a table entry
by entry, and an empty one leaves what is there; anything else replaces. -/
def overlay (below : Option Setting) : Setting → Setting
  | .scalar origin value => .scalar origin value
  | .list origin items => .list origin items
  | .table _ [] => below.getD (.table none [])
  | .table _ (entry :: rest) =>
    .table (below.bind tableOrigin)
      (overlayEntries ((below.map entries).getD []) (entry :: rest))

/-- Lays entries over a table's entries one after the other. -/
def overlayEntries (below : Entries) : List (String × Setting) → Entries
  | [] => below
  | (key, setting) :: rest =>
    overlayEntries (below.alter (Text.lower key) (fun held => overlay held setting)) rest
end

end Setting

end ServingCatalog
