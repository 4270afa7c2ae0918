import ServingCatalog.Text.Alphanumeric
import ServingCatalog.Text.Blank
import ServingCatalog.Text.Bytes

/-!
# Files of environment variables

Each line of such a file gives a variable, `NAME=value`, with or without `export` before it. Quotes
may run over several lines, `$NAME` stands for the value of another variable, and a `#` at the start
of a line or behind a blank opens a comment. White space around a line does not count, of whatever
kind it is. Variables that are set already keep their values, one that is not set yet cannot be
given a NUL, and a line that cannot be read ends the file.
-/

namespace ServingCatalog

/-- Environment variables, each name once. -/
abbrev Variables := List (String × String)

namespace EnvFile

/-! ## Logical lines -/

/-- Where a line stands when its characters so far have been seen. -/
inductive Stage where
  | open
  | escape
  | blank
  | single
  | singleEscape
  | double
  | doubleEscape
  deriving DecidableEq

/-- The stage behind a character outside quotes. -/
def outside (c : Char) : Stage :=
  if c = '\\' then .escape else if c = '"' then .double else if c = '\'' then .single else .open

/-- The stage behind a character. -/
def Stage.next (c : Char) : Stage → Stage
  | .blank => outside c
  | .escape => .open
  | .open => if Text.isBlank c && c ≠ '\n' && c ≠ '\r' then .blank else outside c
  | .double => if c = '\\' then .doubleEscape else if c = '"' then .open else .double
  | .doubleEscape => .double
  | .single => if c = '\\' then .singleEscape else if c = '\'' then .open else .single
  | .singleEscape => .single

/-- The end of a logical line, with what follows it. -/
inductive LineEnd where
  | complete (line rest : List Char)
  | unfinished
  deriving DecidableEq

/-- Puts a character in front of a line. -/
def LineEnd.cons (c : Char) : LineEnd → LineEnd
  | .complete line rest => .complete (c :: line) rest
  | .unfinished => .unfinished

/-- What is left behind the line break. -/
def afterBreak (text : List Char) : List Char := (text.dropWhile (· ≠ '\n')).drop 1

/-- Reads on to the end of a logical line. A line break ends it only outside quotes. -/
def lineFrom : Stage → List Char → LineEnd
  | .open, [] => .complete [] []
  | _, [] => .unfinished
  | stage, c :: rest =>
    if stage = .blank ∧ c = '#' then .complete [] (afterBreak rest)
    else if c = '\n' ∧ stage.next c = .open then .complete [] rest
    else (lineFrom (stage.next c) rest).cons c

/-- Reads a logical line. -/
def line (text : List Char) : LineEnd :=
  if (text.dropWhile Text.isBlank).head? = some '#' ∧
      '\n' ∉ text.takeWhile Text.isBlank then
    .complete [] (afterBreak text)
  else lineFrom .open text

/-! ## The value of a variable -/

/-- How far into a reference to another variable the value is. -/
inductive Reference where
  | none
  | plain
  | braced
  deriving DecidableEq

/-- What has been read of a value. -/
structure Reading where
  output : List Char
  single : Bool
  double : Bool
  escaped : Bool
  ended : Bool
  reference : Reference
  name : List Char

/-- The state before a value. -/
def Reading.start : Reading := ⟨[], false, false, false, false, .none, []⟩

/-- The value of a variable that is set: what follows the name and an equals sign where a variable
is written so. Nothing stands for a variable that is not set, or has no name. -/
def valueOf (environment : Variables) (name : List Char) : List Char :=
  if name = [] then []
  else
    (environment.findSome? fun (key, value) =>
      (name ++ ['=']).isPrefixOf? (key.toList ++ '=' :: value.toList)).getD []

namespace Reading

/-- Adds a character to the value; the last one comes first. -/
def push (r : Reading) (c : Char) : Reading := { r with output := c :: r.output }

/-- Puts in the value that a reference stands for. -/
def resolve (environment : Variables) (r : Reading) : Reading :=
  { r with
    output := (valueOf environment r.name).reverse ++ r.output
    name := []
    reference := .none }

/-- The character that an escape stands for. -/
def unescape? (c : Char) : Option Char :=
  if c = 'n' then some '\n'
  else if c = '\\' ∨ c = '\'' ∨ c = '"' ∨ c = '$' ∨ c = ' ' then some c
  else none

/-- Reads a character of a reference. A name without braces goes as far as letters and numbers do,
and the character that ends it stands for itself. -/
def stepReference (environment : Variables) (r : Reading) (c : Char) : Reading :=
  if Text.isAlphanumeric c then { r with name := r.name ++ [c] }
  else if r.reference = .braced then
    if c = '\x7d' then r.resolve environment else { r with name := r.name ++ [c] }
  else if c = '\x7b' ∧ r.name = [] then { r with reference := .braced }
  else
    let r := r.resolve environment
    if c = '$' then { r with reference := .plain } else r.push c

/-- Reads one character; `none` where it cannot stand. -/
def step (environment : Variables) (r : Reading) (c : Char) : Option Reading :=
  if r.escaped then (unescape? c).map fun d => { r.push d with escaped := false }
  else if r.single then some (if c = '\'' then { r with single := false } else r.push c)
  else if r.reference ≠ .none then some (r.stepReference environment c)
  else if c = '$' then some { r with reference := .plain }
  else if r.double then
    some
      (if c = '"' then { r with double := false }
      else if c = '\\' then { r with escaped := true }
      else r.push c)
  else if c = '\'' then some { r with single := true }
  else if c = '"' then some { r with double := true }
  else if c = '\\' then some { r with escaped := true }
  else if c = ' ' ∨ c = '\t' then some { r with ended := true }
  else some (r.push c)

/-- The value at the end of the line, unless something is still open. -/
def finish (environment : Variables) (r : Reading) : Option (List Char) :=
  if r.reference = .braced || r.single || r.double then none
  else some (r.resolve environment).output.reverse

end Reading

/-- Reads a value. Behind it only blanks and a comment may stand. -/
def valueFrom (environment : Variables) : List Char → Reading → Option (List Char)
  | [], r => r.finish environment
  | c :: rest, r =>
    if r.ended then
      if c = ' ' ∨ c = '\t' then valueFrom environment rest r
      else if c = '#' then r.finish environment
      else none
    else
      match r.step environment c with
      | some r => valueFrom environment rest r
      | none => none

/-! ## Variables -/

/-- Reads a name. -/
def name (text : List Char) : Option (List Char × List Char) :=
  match text with
  | [] => none
  | c :: _ =>
    if c.isAlpha || c = '_' then
      let inName (d : Char) : Bool := d.isAlphanum || d = '_' || d = '.'
      some (text.takeWhile inName, text.dropWhile inName)
    else none

/-- Steps over an equals sign. -/
def equalsSign : List Char → Option (List Char)
  | '=' :: rest => some rest
  | _ => none

/-- Reads a name with its equals sign. -/
def assigned (text : List Char) : Option (List Char × List Char) := do
  let (name, rest) ← name text
  return (name, ← equalsSign (Text.trimStart rest))

/-- Reads the name of a line, which may have `export` before it. -/
def target (text : List Char) : Option (List Char × List Char) := do
  let (word, rest) ← name text
  if word = "export".toList ∧ (equalsSign (Text.trimStart rest)).isNone then
    assigned (Text.trimStart rest)
  else assigned text

/-- What a line says: a variable, nothing, or nothing that can be read. -/
inductive Statement where
  | variable (name value : String)
  | nothing
  | unreadable

/-- Reads a logical line. -/
def statement (environment : Variables) (text : List Char) : Statement :=
  match Text.trim text with
  | [] => .nothing
  | '#' :: _ => .nothing
  | start =>
    match target start with
    | none => .unreadable
    | some (name, rest) =>
      match Text.trimStart rest with
      | [] => .variable (String.ofList name) ""
      | '#' :: _ => .variable (String.ofList name) ""
      | value =>
        match valueFrom environment value Reading.start with
        | some value => .variable (String.ofList name) (String.ofList value)
        | none => .unreadable

/-- Adds a variable unless it is set; there is none with a NUL in its value. -/
def setDefault? (name value : String) (environment : Variables) : Option Variables :=
  if (environment.lookup name).isSome then some environment
  else if '\x00' ∈ value.toList then none
  else some (environment ++ [(name, value)])

/-- Adds the variables of a text line by line. The first argument bounds the number of lines. -/
def addWithin? : Nat → List Char → Variables → Option Variables
  | 0, _, environment => some environment
  | _ + 1, [], environment => some environment
  | bound + 1, text, environment =>
    match line text with
    | .unfinished => some environment
    | .complete line rest =>
      match statement environment line with
      | .unreadable => some environment
      | .nothing => addWithin? bound rest environment
      | .variable name value =>
        (setDefault? name value environment).bind (addWithin? bound rest)

/-- Adds the variables of a file to those that are set, if all of them can be set. -/
def add? (text : String) (environment : Variables) : Option Variables :=
  let chars := Text.dropMark text.toList
  addWithin? (chars.length + 1) chars environment

end EnvFile

end ServingCatalog
