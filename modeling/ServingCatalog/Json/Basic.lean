import ServingCatalog.Decimal.Shortest

/-!
# JSON values

The tree of a JSON text. Objects are lists of members; `insertMember` keeps such a list sorted by
key and free of repeated keys, the later value of a key winning.
-/

namespace ServingCatalog

/-- A JSON number: an integer where it is written as one and fits in 64 bits, else a
floating-point number. -/
inductive Number where
  | int (value : Int)
  | float (value : Binary64)
  deriving DecidableEq

/-- A JSON value. -/
inductive Json where
  | null
  | bool (value : Bool)
  | number (value : Number)
  | string (value : String)
  | array (items : List Json)
  | object (members : List (String × Json))

namespace Json

/-- Puts a member into a list that is sorted by key, over an earlier one of the same key. -/
def insertMember (key : String) (value : Json) : List (String × Json) → List (String × Json)
  | [] => [(key, value)]
  | (k, v) :: rest =>
    if key = k then (key, value) :: rest
    else if key < k then (key, value) :: (k, v) :: rest
    else (k, v) :: insertMember key value rest

@[simp] theorem lookup_insertMember_same (key : String) (value : Json)
    (members : List (String × Json)) :
    (insertMember key value members).lookup key = some value := by
  induction members with
  | nil => simp [insertMember]
  | cons member rest ih =>
    obtain ⟨k, v⟩ := member
    by_cases h : key = k
    · simp [insertMember, h]
    · have hk : (key == k) = false := by simpa using h
      by_cases hlt : key < k
      · simp [insertMember, h, hlt]
      · simpa [insertMember, h, hlt, List.lookup_cons, hk] using ih

/-- The value of a key, if the value is an object that has it. -/
def member? (key : String) : Json → Option Json
  | .object members => members.lookup key
  | _ => none

end Json

end ServingCatalog
