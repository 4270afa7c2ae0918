import ServingCatalog.Decimal.Literal
import ServingCatalog.Text.Hex

/-!
# Reading TOML from the left

A reader takes what is left of a text and answers with a value and what is left after it, or not at
all: why a text is no TOML does not matter. This module holds what all readers share: blanks,
comments, the ends of lines, and strings.
-/

namespace ServingCatalog

namespace Toml

/-- Reads a value from the front of a text. -/
abbrev Reader (α : Type) := List Char → Option (α × List Char)

/-- A blank within a line. -/
def isBlank (c : Char) : Bool := c = ' ' || c = '\t'

/-- A character that may stand in a comment or a string: no control character but the tab. -/
def isVisible (c : Char) : Bool := c = '\t' || (0x20 ≤ c.toNat && c.toNat ≠ 0x7f)

/-- What is left after the blanks of the line. -/
def skipBlanks (text : List Char) : List Char := text.dropWhile isBlank

/-- What is left after a comment, if there is one. -/
def skipComment : List Char → List Char
  | '#' :: rest => rest.dropWhile isVisible
  | text => text

/-- Steps over the end of a line, or stays at the end of the text. -/
def lineEnd : List Char → Option (List Char)
  | [] => some []
  | '\n' :: rest => some rest
  | '\r' :: '\n' :: rest => some rest
  | _ => none

/-- Steps over the rest of a line that holds nothing more than a comment. -/
def finishLine (text : List Char) : Option (List Char) := lineEnd (skipComment (skipBlanks text))

/-- What is left after blanks, line ends and comments; the flag says that a comment is open. -/
def skipLayout : Bool → List Char → List Char
  | _, [] => []
  | _, '\n' :: rest => skipLayout false rest
  | _, '\r' :: '\n' :: rest => skipLayout false rest
  | true, c :: rest => if isVisible c then skipLayout true rest else c :: rest
  | false, c :: rest =>
    if isBlank c then skipLayout false rest
    else if c = '#' then skipLayout true rest
    else c :: rest

/-- Reads so many hexadecimal digits, onto the value of those before them. -/
def hexDigits : Nat → Nat → Reader Nat
  | 0, value, text => some (value, text)
  | _ + 1, _, [] => none
  | count + 1, value, c :: rest =>
    match Text.hexValue? c with
    | some digit => hexDigits count (16 * value + digit) rest
    | none => none

/-- Reads the character that so many hexadecimal digits stand for. -/
def codePoint (count : Nat) : Reader Char := fun text => do
  let (value, rest) ← hexDigits count 0 text
  if value.isValidChar then some (Char.ofNat value, rest) else none

/-- Reads an escape behind its backslash. -/
def escape : Reader Char
  | 'b' :: rest => some ('\x08', rest)
  | 't' :: rest => some ('\t', rest)
  | 'n' :: rest => some ('\n', rest)
  | 'f' :: rest => some ('\x0c', rest)
  | 'r' :: rest => some ('\r', rest)
  | '"' :: rest => some ('"', rest)
  | '\\' :: rest => some ('\\', rest)
  | 'u' :: rest => codePoint 4 rest
  | 'U' :: rest => codePoint 8 rest
  | _ => none

/-- Puts characters in front of those read after them. -/
def withChars (chars : List Char) (read : Option (List Char × List Char)) :
    Option (List Char × List Char) :=
  read.map fun (text, rest) => (chars ++ text, rest)

/-- Reads a string of one line behind its opening quote. The first argument bounds its length. -/
def basicWithin : Nat → Reader (List Char)
  | 0, _ => none
  | _ + 1, [] => none
  | bound + 1, c :: rest =>
    if c = '"' then some ([], rest)
    else if c = '\\' then
      match escape rest with
      | some (d, rest) => withChars [d] (basicWithin bound rest)
      | none => none
    else if isVisible c then withChars [c] (basicWithin bound rest)
    else none

/-- Reads a string of one line without escapes behind its opening quote. -/
def literalString : Reader (List Char)
  | [] => none
  | c :: rest =>
    if c = '\'' then some ([], rest)
    else if isVisible c then withChars [c] (literalString rest)
    else none

/-- What is left after blanks and line ends. -/
def skipWhite : List Char → List Char
  | '\n' :: rest => skipWhite rest
  | '\r' :: '\n' :: rest => skipWhite rest
  | c :: rest => if isBlank c then skipWhite rest else c :: rest
  | [] => []

/-- Steps over a backslash at the end of a line and all blank space after it, if it is one. -/
def lineContinuation? (text : List Char) : Option (List Char) :=
  match skipBlanks text with
  | '\n' :: rest => some (skipWhite rest)
  | '\r' :: '\n' :: rest => some (skipWhite rest)
  | _ => none

/-- Reads a string of several lines behind its opening quotes. Fewer than three quotes are part of
it, and the closing ones may have up to two more before them. -/
def linesWithin (quote : Char) (escapes : Bool) : Nat → Reader (List Char)
  | 0, _ => none
  | _ + 1, [] => none
  | bound + 1, c :: rest =>
    if c = quote then
      let quotes := (c :: rest).takeWhile (· = quote)
      let behind := (c :: rest).dropWhile (· = quote)
      if quotes.length < 3 then withChars quotes (linesWithin quote escapes bound behind)
      else if quotes.length ≤ 5 then some (quotes.drop 3, behind)
      else none
    else if escapes && c = '\\' then
      match lineContinuation? rest with
      | some rest => linesWithin quote escapes bound rest
      | none =>
        match escape rest with
        | some (d, rest) => withChars [d] (linesWithin quote escapes bound rest)
        | none => none
    else if c = '\n' then withChars ['\n'] (linesWithin quote escapes bound rest)
    else if c = '\r' then
      match rest with
      | '\n' :: rest => withChars ['\n'] (linesWithin quote escapes bound rest)
      | _ => none
    else if isVisible c then withChars [c] (linesWithin quote escapes bound rest)
    else none

/-- A line break right behind the opening quotes is no part of the string. -/
def dropLineBreak : List Char → List Char
  | '\n' :: rest => rest
  | '\r' :: '\n' :: rest => rest
  | text => text

/-- Reads a string with its quotes, of one line or of several. -/
def string (text : List Char) : Option (String × List Char) :=
  let bound := text.length + 1
  let chars :=
    match text with
    | '"' :: '"' :: '"' :: rest => linesWithin '"' true bound (dropLineBreak rest)
    | '\'' :: '\'' :: '\'' :: rest => linesWithin '\'' false bound (dropLineBreak rest)
    | '"' :: rest => basicWithin bound rest
    | '\'' :: rest => literalString rest
    | _ => none
  chars.map fun (chars, rest) => (String.ofList chars, rest)

/-- A character of a key without quotes. -/
def isBareKeyChar (c : Char) : Bool := c.isAlphanum || c = '_' || c = '-'

/-- Reads one part of a key, in quotes or without. -/
def simpleKey (text : List Char) : Option (String × List Char) :=
  let chars :=
    match text with
    | '"' :: rest => basicWithin (rest.length + 1) rest
    | '\'' :: rest => literalString rest
    | _ =>
      match text.takeWhile isBareKeyChar with
      | [] => none
      | name => some (name, text.dropWhile isBareKeyChar)
  chars.map fun (chars, rest) => (String.ofList chars, rest)

/-- Reads a key: parts with points between them. The first argument bounds their number. -/
def keyWithin : Nat → Reader (List String)
  | 0, _ => none
  | bound + 1, text => do
    let (part, rest) ← simpleKey (skipBlanks text)
    match skipBlanks rest with
    | '.' :: rest =>
      let (parts, rest) ← keyWithin bound rest
      some (part :: parts, rest)
    | rest => some ([part], rest)

/-- How many parts a key may have, and how deep values may nest. -/
def maxDepth : Nat := 79

/-- Reads a key, and the blanks after it. -/
def key : Reader (List String) := keyWithin maxDepth

end Toml

end ServingCatalog
