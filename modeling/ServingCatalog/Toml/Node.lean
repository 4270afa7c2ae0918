import ServingCatalog.Toml.Moment
import ServingCatalog.Toml.Numeral

/-!
# TOML documents as trees

A table can be written in pieces, but each piece must be of the right kind. A table is implied by
the header of a table within it, written with points in a key, or declared by a header of its own;
an inline table is closed. `Node.put` adds the value of a key to a table, `Node.declare` and
`Node.addRow` open the table of a header. A table keeps its keys in the order in which they came,
since the first one can mark it as a date or a time (`Node.markedMoment?`).
-/

namespace ServingCatalog

namespace Toml

/-- How a table came about. -/
inductive Made where
  | implied
  | dotted
  | declared
  deriving DecidableEq

/-- A value in a document. -/
inductive Node where
  | scalar (value : Scalar)
  | moment (text : String)
  | array (items : List Node)
  | inline (entries : List (String × Node))
  | table (made : Made) (entries : List (String × Node))
  | rows (tables : List (List (String × Node)))

/-- The entries of a table. -/
abbrev Table := List (String × Node)

namespace Node

/-- Changes what a key holds, if the change is allowed. -/
def change (key : String) (f : Option Node → Option Node) : Table → Option Table
  | [] => (f none).map fun node => [(key, node)]
  | (k, node) :: rest =>
    if k = key then (f (some node)).map fun node => (k, node) :: rest
    else (change key f rest).map ((k, node) :: ·)

/-- Changes the last of several tables. -/
def changeLast (f : Table → Option Table) : List Table → Option (List Table)
  | [] => none
  | [last] => (f last).map ([·])
  | first :: others => (changeLast f others).map (first :: ·)

/-- Adds the value of a new key. -/
def add (key : String) (value : Node) : Table → Option Table :=
  change key fun
    | none => some value
    | some _ => none

/-- Adds the value of a key with points. The tables on the way are ones written with points. -/
def put (value : Node) : List String → Table → Option Table
  | [], _ => none
  | [key], below => add key value below
  | key :: next :: keys, below =>
    change key
      (fun
        | none => (put value (next :: keys) []).map (.table .dotted)
        | some (.table .dotted entries) => (put value (next :: keys) entries).map (.table .dotted)
        | some (.table .implied entries) =>
          if keys = [] then none else (put value (next :: keys) entries).map (.table .implied)
        | some (.rows tables) =>
          if keys = [] then none else (changeLast (put value (next :: keys)) tables).map .rows
        | some _ => none)
      below

/-- Changes the table that a header's path leads to, through the last of several tables. -/
def changeAt (f : Table → Option Table) : List String → Table → Option Table
  | [], below => f below
  | key :: keys, below =>
    change key
      (fun
        | none => (changeAt f keys []).map (.table .implied)
        | some (.table made entries) => (changeAt f keys entries).map (.table made)
        | some (.rows tables) => (changeLast (changeAt f keys) tables).map .rows
        | some _ => none)
      below

/-- Opens the table of a key, which may only have been implied before. It becomes the last one. -/
def declare (key : String) (below : Table) : Option Table :=
  match below.lookup key with
  | none => some (below ++ [(key, .table .declared [])])
  | some (.table .implied entries) =>
    some (below.filter (·.1 ≠ key) ++ [(key, .table .declared entries)])
  | some _ => none

/-- Opens one more table of a key that holds several. -/
def addRow (key : String) : Table → Option Table :=
  change key fun
    | none => some (.rows [[]])
    | some (.rows tables) => some (.rows (tables ++ [[]]))
    | some _ => none

/-- The key that marks a table as a date or a time if it is the first of the table. -/
def momentKey : String := "$__toml_private_datetime"

/-- What a table says that is marked as a date or a time: the text of its mark, as a moment. -/
def markedMoment? : Table → Option (Option String)
  | [] => none
  | (key, value) :: _ =>
    if key ≠ momentKey then none
    else
      match value with
      | .scalar (.text text) => some (wholeMoment? text)
      | _ => some none

/-- The setting that a table is, given those of its entries. -/
def tableSetting (origin : String) (table : Table) (entries : Option Entries) : Option Setting :=
  match markedMoment? table with
  | some mark => mark.map fun text => .scalar (some origin) (.text text)
  | none => entries.map (.table (some origin))

mutual
/-- The setting that a value is. -/
def toSetting (origin : String) : Node → Option Setting
  | .scalar value => some (.scalar (some origin) value)
  | .moment text => some (.scalar (some origin) (.text text))
  | .array items => (toItems origin items).map (.list (some origin))
  | .inline entries => tableSetting origin entries (toEntries origin entries)
  | .table _ entries => tableSetting origin entries (toEntries origin entries)
  | .rows tables => (toRows origin tables).map (.list (some origin))

/-- The settings of a list of values. -/
def toItems (origin : String) : List Node → Option (List Setting)
  | [] => some []
  | item :: items => do return (← toSetting origin item) :: (← toItems origin items)

/-- The settings of the entries of a table. -/
def toEntries (origin : String) : List (String × Node) → Option (List (String × Setting))
  | [] => some []
  | (key, value) :: entries => do
    return (key, ← toSetting origin value) :: (← toEntries origin entries)

/-- The settings of several tables. -/
def toRows (origin : String) : List (List (String × Node)) → Option (List Setting)
  | [] => some []
  | entries :: tables => do
    return (← tableSetting origin entries (toEntries origin entries)) :: (← toRows origin tables)
end

end Node

end Toml

end ServingCatalog
