import ServingCatalog.Json.Reader
import ServingCatalog.Text.Hex

/-!
# String literals

`Quoted.literal` writes a string literal: the quote, the backslash and the control characters are
escaped, all else stands for itself. Reading has two stages. `Quoted.scan` finds the end of the
literal and splits it into pieces, each a character or the 16-bit unit of a `\u` escape, and
`Quoted.join` pairs the units that stand for one character.
-/

namespace ServingCatalog

namespace Json

namespace Quoted

/-- The letter of a two-character escape. -/
def shortEscape? : Char → Option Char
  | '"' => some '"'
  | '\\' => some '\\'
  | '\x08' => some 'b'
  | '\x0c' => some 'f'
  | '\n' => some 'n'
  | '\r' => some 'r'
  | '\t' => some 't'
  | _ => none

/-- One character of a literal. -/
def encodeChar (c : Char) : List Char :=
  match shortEscape? c with
  | some letter => ['\\', letter]
  | none =>
    if c.toNat < 0x20 then
      ['\\', 'u', '0', '0', Nat.digitChar (c.toNat / 16), Nat.digitChar (c.toNat % 16)]
    else [c]

/-- The characters between the quotes of a literal. -/
def encode (text : List Char) : List Char := text.flatMap encodeChar

/-- A literal with its quotes. -/
def literal (text : String) : List Char := '"' :: (encode text.toList ++ ['"'])

/-- The character of a two-character escape. -/
def unescape? : Char → Option Char
  | '"' => some '"'
  | '\\' => some '\\'
  | '/' => some '/'
  | 'b' => some '\x08'
  | 'f' => some '\x0c'
  | 'n' => some '\n'
  | 'r' => some '\r'
  | 't' => some '\t'
  | _ => none

/-- A part of a literal: a character, or the unit of a `\u` escape. -/
inductive Piece where
  | char (c : Char)
  | unit (value : Nat)

/-- How the scan of a literal ended. -/
inductive Ending where
  | closed (rest : List Char)
  | cutShort
  | malformed

/-- What the scan expects next; within a `\u` escape, how many digits it has and their value. -/
inductive Stage where
  | plain
  | escape
  | hex (count value : Nat)

/-- Whether at least `count` bytes of UTF-8 are left. -/
def hasBytes : Nat → List Char → Bool
  | 0, _ => true
  | _ + 1, [] => false
  | count + 1, c :: rest => hasBytes (count + 1 - c.utf8Size) rest

/-- Puts a piece in front of those that follow. -/
def withPiece (piece : Piece) (scanned : List Piece × Ending) : List Piece × Ending :=
  (piece :: scanned.1, scanned.2)

/-- Splits a literal behind its opening quote into pieces. A `\u` escape takes four bytes whatever
they are, so one with fewer is cut short. -/
def scan : Stage → List Char → List Piece × Ending
  | _, [] => ([], .cutShort)
  | .plain, c :: rest =>
    if c = '"' then ([], .closed rest)
    else if c = '\\' then scan .escape rest
    else if c.toNat < 0x20 then ([], .malformed)
    else withPiece (.char c) (scan .plain rest)
  | .escape, c :: rest =>
    if c = 'u' then scan (.hex 0 0) rest
    else
      match unescape? c with
      | some d => withPiece (.char d) (scan .plain rest)
      | none => ([], .malformed)
  | .hex count value, c :: rest =>
    match Text.hexValue? c with
    | some digit =>
      if count < 3 then scan (.hex (count + 1) (16 * value + digit)) rest
      else withPiece (.unit (16 * value + digit)) (scan .plain rest)
    | none => ([], if hasBytes (4 - count) (c :: rest) then .malformed else .cutShort)

/-- Whether a unit is the first half of a pair. -/
def isLeading (unit : Nat) : Bool := 0xd800 ≤ unit && unit ≤ 0xdbff

/-- Whether a unit is the second half of a pair. -/
def isTrailing (unit : Nat) : Bool := 0xdc00 ≤ unit && unit ≤ 0xdfff

/-- The character of a pair of units. -/
def pairChar (leading trailing : Nat) : Char :=
  Char.ofNat (0x10000 + (leading - 0xd800) * 0x400 + (trailing - 0xdc00))

/-- Puts a character in front of what is read after it. -/
def withChar (c : Char) : Except Failure (List Char × List Char) →
    Except Failure (List Char × List Char)
  | .ok (text, rest) => .ok (c :: text, rest)
  | .error failure => .error failure

/-- The text of the pieces, and what is left behind the closing quote. A half of a pair on its own
is refused where it stands. -/
def join : List Piece → Ending → Except Failure (List Char × List Char)
  | [], .closed rest => .ok ([], rest)
  | [], .cutShort => .error .cutShort
  | [], .malformed => .error .malformed
  | .char c :: pieces, ending => withChar c (join pieces ending)
  | [.unit u], ending =>
    if isLeading u then
      match ending with
      | .cutShort => .error .cutShort
      | _ => .error .malformed
    else if isTrailing u then .error .malformed
    else withChar (Char.ofNat u) (join [] ending)
  | .unit u :: .char c :: pieces, ending =>
    if isLeading u || isTrailing u then .error .malformed
    else withChar (Char.ofNat u) (join (.char c :: pieces) ending)
  | .unit u :: .unit v :: pieces, ending =>
    if isLeading u then
      if isTrailing v then withChar (pairChar u v) (join pieces ending) else .error .malformed
    else if isTrailing u then .error .malformed
    else withChar (Char.ofNat u) (join (.unit v :: pieces) ending)

/-- Reads a literal behind its opening quote. -/
def read : Reader String := fun text =>
  let (pieces, ending) := scan .plain text
  match join pieces ending with
  | .ok (chars, rest) => .ok (String.ofList chars, rest)
  | .error failure => .error failure

/-- Steps over a literal behind its opening quote, whatever its units. -/
def skip : Reader Unit := fun text =>
  match (scan .plain text).2 with
  | .closed rest => .ok ((), rest)
  | .cutShort => .error .cutShort
  | .malformed => .error .malformed

end Quoted

end Json

end ServingCatalog
