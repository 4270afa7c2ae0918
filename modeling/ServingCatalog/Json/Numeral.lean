import ServingCatalog.Json.Reader
import ServingCatalog.Decimal.Literal

/-!
# Numbers in JSON text

A numeral is scanned into its digits first and valued afterwards. An integer that fits in 64 bits
stays one. Anything else is a floating-point number made in two roundings: the leading digits that
fit in 64 bits, rounded, times or over a power of ten, rounded.
-/

namespace ServingCatalog

namespace Json

/-- The parts of an unsigned numeral; an exponent has a sign, negative or not. -/
structure Numeral where
  whole : List Char
  fraction : Option (List Char)
  exponent : Option (Bool × List Char)

namespace Numeral

/-- Why the characters are no numeral: they end, or another character stands for a digit. -/
inductive Fault where
  | atEnd
  | notDigit

/-- At least one digit. -/
def digits (text : List Char) : Except Fault (List Char × List Char) :=
  match Literal.spanDigits text with
  | ([], []) => .error .atEnd
  | ([], _ :: _) => .error .notDigit
  | (d :: ds, rest) => .ok (d :: ds, rest)

/-- An optional point with digits. -/
def scanFraction : List Char → Except Fault (Option (List Char) × List Char)
  | [] => .ok (none, [])
  | c :: rest =>
    if c = '.' then (digits rest).map fun (ds, rest) => (some ds, rest)
    else .ok (none, c :: rest)

/-- An optional exponent. -/
def scanExponent : List Char → Except Fault (Option (Bool × List Char) × List Char)
  | [] => .ok (none, [])
  | c :: rest =>
    if c = 'e' ∨ c = 'E' then
      let (negative, rest) := Literal.splitSign rest
      (digits rest).map fun (ds, rest) => (some (negative, ds), rest)
    else .ok (none, c :: rest)

/-- An unsigned numeral; a zero is not followed by more digits. -/
def scan (text : List Char) : Except Fault (Numeral × List Char) := do
  let (whole, rest) ← digits text
  if whole.head? = some '0' ∧ whole.length ≠ 1 then throw .notDigit
  let (fraction, rest) ← scanFraction rest
  let (exponent, rest) ← scanExponent rest
  return (⟨whole, fraction, exponent⟩, rest)

/-- The greatest unsigned integer of 64 bits. -/
def maxSignificand : Nat := 0xffffffffffffffff

/-- Takes digits in as long as the integer they make fits in 64 bits, and gives back the others. -/
def accumulate : Nat → List Char → Nat × List Char
  | value, [] => (value, [])
  | value, c :: rest =>
    let next := 10 * value + Literal.digitValue c
    if next ≤ maxSignificand then accumulate next rest else (value, c :: rest)

/-- Divides by `10 ^ 308` until the exponent is within the powers of ten that are numbers. -/
def divideDown : Nat → Binary64 → Int → Binary64 × Int
  | 0, x, exponent => (x, exponent)
  | steps + 1, x, exponent =>
    if exponent < -308 ∧ !x.isZero then
      divideDown steps (x.divide (Binary64.ofDecimal false 1 308)) (exponent + 308)
    else (x, exponent)

/-- A significand times a power of ten, in two roundings; `none` beyond the range. Three divisions
by `10 ^ 308` make any significand of 64 bits zero. -/
def scaled (significand : Nat) (exponent : Int) : Option Binary64 :=
  let x := Binary64.ofInt significand
  if x.isZero then some x
  else if 308 < exponent then none
  else if 0 ≤ exponent then
    match x.multiply (Binary64.ofDecimal false 1 exponent) with
    | .infinite _ => none
    | y => some y
  else
    let (x, exponent) := divideDown 3 x exponent
    if x.isZero then some x else some (x.divide (Binary64.ofDecimal false 1 (-exponent)))

/-- The power of ten that an exponent stands for, zero if there is none. -/
def power : Option (Bool × List Char) → Int
  | none => 0
  | some (minus, ds) => if minus then -(Literal.natOfDigits ds : Int) else Literal.natOfDigits ds

/-- The floating-point value of a numeral, `none` beyond the range. -/
def float? (negative : Bool) (n : Numeral) : Option Binary64 :=
  let fraction := n.fraction.getD []
  let (significand, droppedWhole) := accumulate 0 n.whole
  let (significand, droppedFraction) := accumulate significand fraction
  let exponent :=
    power n.exponent + droppedWhole.length - (fraction.length - droppedFraction.length : Nat)
  (scaled significand exponent).map fun x => if negative then x.negate else x

/-- The value of a numeral, `none` beyond the range. A negative zero is a floating-point number. -/
def value? (negative : Bool) (n : Numeral) : Option Number :=
  let size := Literal.natOfDigits n.whole
  if n.fraction.isNone && n.exponent.isNone && size ≤ maxSignificand &&
      (!negative || (0 < size && size ≤ 0x8000000000000000)) then
    some (.int (if negative then -size else size))
  else (float? negative n).map .float

/-- Reads the digits of a number whose sign is known. -/
def read (negative : Bool) : Reader Number := fun text =>
  match scan text with
  | .error .atEnd => .error .cutShort
  | .error .notDigit => .error .malformed
  | .ok (n, rest) =>
    match n.value? negative with
    | some x => .ok (x, rest)
    | none => .error .malformed

/-- Steps over the digits of a number, whatever its value. -/
def skip : Reader Unit := fun text =>
  match scan text with
  | .error _ => .error .malformed
  | .ok (_, rest) => .ok ((), rest)

end Numeral

end Json

end ServingCatalog
