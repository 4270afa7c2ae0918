import ServingCatalog.Json.Quoted

/-!
# Writing JSON

`Json.compact` writes a value without blanks, `Json.pretty` with one item to a line and two spaces
to a level.
-/

namespace ServingCatalog

/-- The text of a number. -/
def Number.render : Number → String
  | .int i => toString i
  | .float x => x.ranged

namespace Json

/-- Texts with a separator between them. -/
def separate (separator : List Char) : List (List Char) → List Char
  | [] => []
  | [part] => part
  | part :: parts => part ++ separator ++ separate separator parts

mutual
/-- The characters of a value without blanks. -/
def compactChars : Json → List Char
  | .null => "null".toList
  | .bool b => (toString b).toList
  | .number n => n.render.toList
  | .string s => Quoted.literal s
  | .array items => '[' :: (separate [','] (compactItems items) ++ [']'])
  | .object members => '\x7b' :: (separate [','] (compactMembers members) ++ ['\x7d'])

/-- The characters of each item. -/
def compactItems : List Json → List (List Char)
  | [] => []
  | item :: items => compactChars item :: compactItems items

/-- The characters of each member. -/
def compactMembers : List (String × Json) → List (List Char)
  | [] => []
  | (key, value) :: members =>
    (Quoted.literal key ++ ':' :: compactChars value) :: compactMembers members
end

/-- A value without blanks. -/
def compact (value : Json) : String := String.ofList (compactChars value)

/-- A line break and the indentation of a level. -/
def newLine (level : Nat) : List Char := '\n' :: List.replicate (2 * level) ' '

/-- Parts within brackets, one to a line; nothing stands between the brackets of no parts. -/
def block (level : Nat) (opening closing : Char) (parts : List (List Char)) : List Char :=
  if parts = [] then [opening, closing]
  else
    opening :: newLine (level + 1) ++ separate (',' :: newLine (level + 1)) parts ++
      newLine level ++ [closing]

mutual
/-- The characters of a value at a level of indentation. -/
def prettyChars (level : Nat) : Json → List Char
  | .null => "null".toList
  | .bool b => (toString b).toList
  | .number n => n.render.toList
  | .string s => Quoted.literal s
  | .array items => block level '[' ']' (prettyItems (level + 1) items)
  | .object members => block level '\x7b' '\x7d' (prettyMembers (level + 1) members)

/-- The characters of each item. -/
def prettyItems (level : Nat) : List Json → List (List Char)
  | [] => []
  | item :: items => prettyChars level item :: prettyItems level items

/-- The characters of each member. -/
def prettyMembers (level : Nat) : List (String × Json) → List (List Char)
  | [] => []
  | (key, value) :: members =>
    (Quoted.literal key ++ ':' :: ' ' :: prettyChars level value) :: prettyMembers level members
end

/-- A value with one item to a line. -/
def pretty (value : Json) : String := String.ofList (prettyChars 0 value)

end Json

end ServingCatalog
