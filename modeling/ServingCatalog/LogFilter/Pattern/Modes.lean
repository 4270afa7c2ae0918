import ServingCatalog.Text.Blank

/-!
# Modes of patterns

The letters that a group can set decide how a pattern is read: whether letters stand for both cases,
whether characters are those of all scripts or bytes, and whether blanks only set parts apart. No
tables of scripts are at hand, so what would need them cannot stand in a mode that asks for it.
-/

namespace ServingCatalog

namespace Pattern

/-- How a part of a pattern is read: whether letters stand for both cases, whether characters are
those of all scripts or bytes, and whether blanks only set parts apart. -/
structure Modes where
  anyCase : Bool
  scripts : Bool
  spaced : Bool
  deriving DecidableEq

namespace Modes

/-- The modes at the start of a pattern. -/
def initial : Modes := ⟨false, true, false⟩

/-! ## What can stand in a mode -/

/-- Whether a character can stand for itself. Letters in either case need tables. -/
def allowsLiteral (m : Modes) : Bool := !(m.anyCase && m.scripts)

/-- Whether a byte can stand for itself: where characters are bytes, only within the ASCII range. -/
def allowsByte (m : Modes) (c : Char) : Bool := m.scripts || c.toNat < 0x80

/-- Whether a class can hold a character. A class of bytes holds only those of the ASCII range. -/
def allowsMember (m : Modes) (c : Char) : Bool := m.allowsLiteral && m.allowsByte c

/-- Whether a class can hold one of the named classes: as bytes only if none of them lies beyond the
ASCII range. -/
def allowsNamedClass (m : Modes) (negated : Bool) : Bool :=
  m.allowsLiteral && (m.scripts || !negated)

/-- Whether the class of digits, of words or of blanks can stand: not for all scripts, and as bytes
only if none of them lies beyond the ASCII range. -/
def allowsAsciiClass (m : Modes) (negated : Bool) : Bool := !m.scripts && !negated

/-! ## Letters that set them -/

/-- The letters of the modes that a group can set. -/
def letters : List Char := ['i', 'm', 's', 'U', 'u', 'R', 'x']

/-- Whether the letters of a group are well-formed: no mark twice, and a hyphen only before one. -/
def areMarks (marks : List Char) : Bool :=
  marks.all (fun c => c = '-' || letters.contains c) && marks.eraseDups.length = marks.length &&
    marks.getLast? ≠ some '-'

/-- A mode behind the letters of a group: on before the hyphen, off behind it. -/
def switched (marks : List Char) (letter : Char) (before : Bool) : Bool :=
  if letter ∈ marks.takeWhile (· ≠ '-') then true
  else if letter ∈ marks then false
  else before

/-- The modes behind the letters of a group. -/
def after (m : Modes) (marks : List Char) : Modes :=
  ⟨switched marks 'i' m.anyCase, switched marks 'u' m.scripts, switched marks 'x' m.spaced⟩

end Modes

/-! ## Blanks between parts -/

/-- What is left after blanks and comments, where they only set parts apart. The flag says that a
comment is open. -/
def skipSpaces (m : Modes) : Bool → List Char → List Char
  | _, [] => []
  | true, c :: rest => skipSpaces m (c ≠ '\n') rest
  | false, c :: rest =>
    if m.spaced && Text.isBlank c then skipSpaces m false rest
    else if m.spaced && c = '#' then skipSpaces m true rest
    else c :: rest

/-- The next character that is no blank, where they only set parts apart. The mark of a comment is
passed over once, but not the comment. -/
def peek? (m : Modes) (text : List Char) : Option Char :=
  if m.spaced then
    match text.dropWhile Text.isBlank with
    | '#' :: rest => (rest.dropWhile Text.isBlank).head?
    | start => start.head?
  else text.head?

end Pattern

end ServingCatalog
