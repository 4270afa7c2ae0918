import ServingCatalog.LogFilter.Pattern.Modes
import ServingCatalog.Text.Hex

/-!
# Escapes in patterns

A backslash and what follows it: a mark that stands for itself, a control character by its letter,
a byte or a character by its number, a class of the ASCII range, or a place between characters.
-/

namespace ServingCatalog

namespace Pattern

/-- What an escape stands for. A number of two digits is that of a byte where characters are
bytes. -/
inductive Escape where
  | literal (c : Char)
  | byte (c : Char)
  | asciiClass (negated : Bool)
  | edge
  | wordBorder
  deriving DecidableEq

/-- The characters that letters behind a backslash stand for. -/
def controlEscapes : List (Char × Char) :=
  [('a', '\x07'), ('f', '\x0c'), ('t', '\t'), ('n', '\n'), ('r', '\r'), ('v', '\x0b')]

/-- Reads so many hexadecimal digits, with blanks before each where they only set parts apart. -/
def hexDigits (m : Modes) : Nat → List Char → Option (List Nat × List Char)
  | 0, text => some ([], text)
  | count + 1, text =>
    match skipSpaces m false text with
    | [] => none
    | c :: rest => do
      let digit ← Text.hexValue? c
      let (digits, rest) ← hexDigits m count rest
      return (digit :: digits, rest)

/-- Reads a character by so many hexadecimal digits. -/
def numbered (m : Modes) (count : Nat) (text : List Char) : Option (Char × List Char) := do
  let (digits, rest) ← hexDigits m count text
  let value := digits.foldl (fun value digit => 16 * value + digit) 0
  if value.isValidChar then some (Char.ofNat value, rest) else none

/-- Reads an escape behind its backslash. A mark of the ASCII range that is no letter, no digit and
no angle bracket stands for itself. -/
def escape (m : Modes) : List Char → Option (Escape × List Char)
  | [] => none
  | c :: rest =>
    if c = 'x' then (numbered m 2 rest).map fun (c, rest) => (.byte c, rest)
    else if c = 'u' then (numbered m 4 rest).map fun (c, rest) => (.literal c, rest)
    else if c = 'U' then (numbered m 8 rest).map fun (c, rest) => (.literal c, rest)
    else if c = 'd' ∨ c = 's' ∨ c = 'w' then some (.asciiClass false, rest)
    else if c = 'D' ∨ c = 'S' ∨ c = 'W' then some (.asciiClass true, rest)
    else if c = 'A' ∨ c = 'z' then some (.edge, rest)
    else if c = 'b' ∨ c = 'B' ∨ c = '<' ∨ c = '>' then some (.wordBorder, rest)
    else
      match controlEscapes.lookup c with
      | some d => some (.literal d, rest)
      | none =>
        if c.toNat < 0x80 && !c.isAlphanum then some (.literal c, rest) else none

end Pattern

end ServingCatalog
