import ServingCatalog.Decimal.Binary64

/-!
# Literals of integers and of floating-point numbers

`Literal.integer?` reads an optional sign and decimal digits within 64 signed bits.
`Literal.float?` reads an optional sign and then digits with an optional point and exponent, or
one of the words `inf`, `infinity` and `nan` in any letter case. Both take the whole text or
nothing, and neither skips blanks.
-/

namespace ServingCatalog

namespace Literal

/-- The digits at the start of a text, and what follows them. -/
def spanDigits (text : List Char) : List Char × List Char :=
  (text.takeWhile Char.isDigit, text.dropWhile Char.isDigit)

/-- The value of a decimal digit. -/
def digitValue (c : Char) : Nat := c.toNat - '0'.toNat

/-- The natural that decimal digits spell, the first one weighing most. -/
def natOfDigits (digits : List Char) : Nat :=
  digits.foldl (fun value c => 10 * value + digitValue c) 0

/-- An optional sign: whether it is a minus, and what follows. -/
def splitSign : List Char → Bool × List Char
  | '-' :: rest => (true, rest)
  | '+' :: rest => (false, rest)
  | text => (false, text)

/-- Whether an integer fits in 64 signed bits. -/
def fitsInt64 (i : Int) : Bool :=
  decide (-0x8000000000000000 ≤ i ∧ i < 0x8000000000000000)

/-- A signed decimal integer of 64 bits. -/
def integer? (text : List Char) : Option Int :=
  let (negative, digits) := splitSign text
  if digits ≠ [] ∧ digits.all Char.isDigit then
    let value : Int := if negative then -(natOfDigits digits : Int) else natOfDigits digits
    if fitsInt64 value then some value else none
  else none

/-- The digits of an exponent with an optional sign; the whole text or nothing. -/
def exponent? (text : List Char) : Option Int :=
  let (negative, digits) := splitSign text
  if digits ≠ [] ∧ digits.all Char.isDigit then
    some (if negative then -(natOfDigits digits : Int) else natOfDigits digits)
  else none

/-- An exponent behind its letter, nothing at all counting as zero. -/
def exponentPart? : List Char → Option Int
  | [] => some 0
  | c :: rest => if c = 'e' ∨ c = 'E' then exponent? rest else none

/-- An unsigned number in digits, with at least one digit before or after the point. -/
def magnitude? (negative : Bool) (text : List Char) : Option Binary64 :=
  let (whole, rest) := spanDigits text
  let (fraction, rest) :=
    match rest with
    | '.' :: tail => spanDigits tail
    | _ => ([], rest)
  if whole = [] ∧ fraction = [] then none
  else
    (exponentPart? rest).map fun exponent =>
      Binary64.ofDecimal negative (natOfDigits (whole ++ fraction)) (exponent - fraction.length)

/-- A floating-point number. -/
def float? (text : List Char) : Option Binary64 :=
  let (negative, rest) := splitSign text
  let word := String.ofList (rest.map Char.toLower)
  if word = "inf" ∨ word = "infinity" then some (.infinite negative)
  else if word = "nan" then some .notANumber
  else magnitude? negative rest

end Literal

end ServingCatalog
