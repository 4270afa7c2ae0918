import ServingCatalog.Text.Bytes
import ServingCatalog.Toml.Node

/-!
# TOML documents

A document is read line by line: a header opens a table, and the lines below it add to that table.
`Toml.source?` gives the entries of a document, or nothing where the text is none.
-/

namespace ServingCatalog

namespace Toml

/-- Reads the items of an array behind its bracket, each with a comma after it except perhaps the
last one. The first argument bounds their number. -/
def itemsWithin (item : Reader Node) : Nat → Reader (List Node)
  | 0, _ => none
  | bound + 1, text =>
    match skipLayout false text with
    | ']' :: rest => some ([], rest)
    | start => do
      let (value, rest) ← item start
      match skipLayout false rest with
      | ',' :: rest =>
        let (values, rest) ← itemsWithin item bound rest
        some (value :: values, rest)
      | ']' :: rest => some ([value], rest)
      | _ => none

/-- Reads a key, an equals sign and a value. -/
def keyValue (item : Reader Node) : Reader (List String × Node) := fun text => do
  let (key, rest) ← key text
  let rest ← expect '=' rest
  let (value, rest) ← item (skipBlanks rest)
  return ((key, value), rest)

/-- Reads the entries of an inline table, with a comma between two of them. The first argument
bounds their number. -/
def entriesWithin (item : Reader Node) : Nat → Table → Reader Table
  | 0, _, _ => none
  | bound + 1, table, text => do
    let ((key, value), rest) ← keyValue item text
    let table ← Node.put value key table
    match skipBlanks rest with
    | ',' :: rest => entriesWithin item bound table (skipBlanks rest)
    | '\x7d' :: rest => some (table, rest)
    | _ => none

/-- Reads an inline table behind its brace. -/
def inlineTable (item : Reader Node) : Reader Table := fun text =>
  match skipBlanks text with
  | '\x7d' :: rest => some ([], rest)
  | start => entriesWithin item (text.length + 1) [] start

/-- Reads a value that holds no others. -/
def single : Reader Node := fun text =>
  match text with
  | [] => none
  | c :: _ =>
    if c = '"' ∨ c = '\'' then (string text).map fun (s, rest) => (.scalar (.text s), rest)
    else if startsMoment text then (moment text).map fun (s, rest) => (.moment s, rest)
    else
      match text with
      | 't' :: 'r' :: 'u' :: 'e' :: rest => some (.scalar (.bool true), rest)
      | 'f' :: 'a' :: 'l' :: 's' :: 'e' :: rest => some (.scalar (.bool false), rest)
      | _ => (number text).map fun (x, rest) => (.scalar x, rest)

/-- Reads a value in which arrays and inline tables nest at most as deep as the number given. -/
def value : Nat → Reader Node
  | 0, text =>
    match text with
    | '[' :: _ => none
    | '\x7b' :: _ => none
    | _ => single text
  | depth + 1, text =>
    match text with
    | '[' :: rest =>
      (itemsWithin (value depth) (rest.length + 1) rest).map fun (items, rest) =>
        (.array items, rest)
    | '\x7b' :: rest =>
      (inlineTable (value depth) rest).map fun (table, rest) => (.inline table, rest)
    | _ => single text

/-- A document as far as it has been read: its tables, and the path of the open one. -/
structure Document where
  root : Table
  current : List String

namespace Document

/-- Opens a table at the end of a path. -/
def openTable (opening : String → Table → Option Table) (path : List String) (d : Document) :
    Option Document :=
  match path.reverse with
  | [] => none
  | last :: front =>
    (Node.changeAt (opening last) front.reverse d.root).map fun root => ⟨root, path⟩

/-- Reads a header behind its first bracket. -/
def header (d : Document) (text : List Char) : Option (Document × List Char) :=
  match text with
  | '[' :: rest => do
    let (path, rest) ← key rest
    let rest ← expect ']' rest
    let rest ← expect ']' rest
    return (← d.openTable Node.addRow path, rest)
  | _ => do
    let (path, rest) ← key text
    let rest ← expect ']' rest
    return (← d.openTable Node.declare path, rest)

/-- Reads a line with a key and its value. -/
def entry (d : Document) (text : List Char) : Option (Document × List Char) := do
  let ((key, value), rest) ← keyValue (value maxDepth) text
  let root ← Node.changeAt (Node.put value key) d.current d.root
  return (⟨root, d.current⟩, rest)

/-- Reads one line. -/
def line (d : Document) (text : List Char) : Option (Document × List Char) := do
  let (d, rest) ←
    match skipBlanks text with
    | [] => some (d, [])
    | c :: rest =>
      if c = '#' ∨ c = '\n' ∨ c = '\r' then some (d, c :: rest)
      else if c = '[' then d.header rest
      else d.entry (c :: rest)
  return (d, ← finishLine rest)

/-- Reads all lines. The first argument bounds their number. -/
def linesWithin : Nat → Document → List Char → Option Document
  | _, d, [] => some d
  | 0, _, _ :: _ => none
  | bound + 1, d, text =>
    match d.line text with
    | some (d, rest) => linesWithin bound d rest
    | none => none

end Document

/-- The entries of a document. One that is marked as a date or a time has none. -/
def source? (origin text : String) : Option (List (String × Setting)) :=
  let chars := Text.dropMark text.toList
  match Document.linesWithin (chars.length + 1) ⟨[], []⟩ chars with
  | some d => if (Node.markedMoment? d.root).isSome then none else Node.toEntries origin d.root
  | none => none

end Toml

end ServingCatalog
