import ServingCatalog.Settings.Basic
import ServingCatalog.Toml.Reader

/-!
# Numbers in TOML

Decimal integers, integers in base 16, 8 and 2 behind `0x`, `0o` and `0b`, and floating-point
numbers. One underscore may stand between two digits.
-/

namespace ServingCatalog

namespace Toml

/-- Reads digits that go on, with single underscores between them. -/
def moreDigits (isDigit : Char → Bool) : Reader (List Char)
  | [] => some ([], [])
  | ['_'] => none
  | '_' :: c :: rest => if isDigit c then withChars [c] (moreDigits isDigit rest) else none
  | c :: rest =>
    if isDigit c then withChars [c] (moreDigits isDigit rest) else some ([], c :: rest)

/-- Reads at least one digit. -/
def someDigits (isDigit : Char → Bool) : Reader (List Char)
  | [] => none
  | c :: rest => if isDigit c then withChars [c] (moreDigits isDigit rest) else none

/-- Reads the digits of a decimal integer; a zero stands by itself. -/
def wholeDigits : Reader (List Char)
  | '0' :: rest => some (['0'], rest)
  | text => someDigits Char.isDigit text

/-- Reads the digits behind a point, if there is one. -/
def fractionDigits : Reader (Option (List Char))
  | '.' :: rest => (someDigits Char.isDigit rest).map fun (ds, rest) => (some ds, rest)
  | text => some (none, text)

/-- Reads an exponent, if there is one. -/
def exponent : Reader (Option Int)
  | [] => some (none, [])
  | c :: rest =>
    if c = 'e' ∨ c = 'E' then do
      let (negative, rest) := Literal.splitSign rest
      let (ds, rest) ← someDigits Char.isDigit rest
      let size : Int := Literal.natOfDigits ds
      return (some (if negative then -size else size), rest)
    else some (none, c :: rest)

/-- The natural that digits spell in a base. -/
def natInBase (base : Nat) (digits : List Char) : Nat :=
  digits.foldl (fun value c => base * value + (Text.hexValue? c).getD 0) 0

/-- Whether a character is a digit in a base of at most sixteen. -/
def isDigitInBase (base : Nat) (c : Char) : Bool :=
  match Text.hexValue? c with
  | some value => value < base
  | none => false

/-- An integer of 64 bits as a scalar. -/
def int64? (i : Int) : Option Scalar := if Literal.fitsInt64 i then some (.int i) else none

/-- Reads the digits of an integer in a base. -/
def integerInBase (base : Nat) : Reader Scalar := fun text => do
  let (ds, rest) ← someDigits (isDigitInBase base) text
  return (← int64? (natInBase base ds), rest)

/-- Reads a decimal number, an integer unless there is a point or an exponent. A number beyond the
range above is refused. -/
def decimal : Reader Scalar := fun text => do
  let (negative, rest) := Literal.splitSign text
  let (whole, rest) ← wholeDigits rest
  let (fraction, rest) ← fractionDigits rest
  let (power, rest) ← exponent rest
  match fraction, power with
  | none, none =>
    let size : Int := Literal.natOfDigits whole
    return (← int64? (if negative then -size else size), rest)
  | _, _ =>
    let behind := fraction.getD []
    let x := Binary64.ofDecimal negative (Literal.natOfDigits (whole ++ behind))
      (power.getD 0 - behind.length)
    if x = .infinite false then none
    return (.float x, rest)

/-- Reads `inf` or `nan` with an optional sign. -/
def special? (text : List Char) : Option (Scalar × List Char) :=
  let (negative, rest) := Literal.splitSign text
  match rest with
  | 'i' :: 'n' :: 'f' :: rest => some (.float (.infinite negative), rest)
  | 'n' :: 'a' :: 'n' :: rest => some (.float .notANumber, rest)
  | _ => none

/-- Reads a number. -/
def number : Reader Scalar := fun text =>
  match special? text with
  | some found => some found
  | none =>
    match text with
    | '0' :: 'x' :: rest => integerInBase 16 rest
    | '0' :: 'o' :: rest => integerInBase 8 rest
    | '0' :: 'b' :: rest => integerInBase 2 rest
    | _ => decimal text

end Toml

end ServingCatalog
