/-!
# Binary floating point, exactly

A 64-bit floating-point number is held as sign, mantissa and exponent, so every operation is
integer arithmetic. `ofRatio` rounds a quotient of naturals to the nearest such number, a tie
going to the even mantissa; reading a decimal, multiplying and dividing are all `ofRatio` of the
exact result.
-/

namespace ServingCatalog

/-- A 64-bit floating-point number; `finite s m e` stands for `m * 2 ^ e`, negated when `s`. -/
inductive Binary64 where
  | finite (negative : Bool) (mantissa : Nat) (exponent : Int)
  | infinite (negative : Bool)
  | notANumber
  deriving DecidableEq

namespace Binary64

/-- A zero with the given sign. -/
def zero (negative : Bool) : Binary64 := .finite negative 0 (-1074)

/-- The quotient `num / den / 2 ^ e`, again as a quotient of naturals. -/
def scale (num den : Nat) (e : Int) : Nat × Nat :=
  if 0 ≤ e then (num, den * Nat.pow 2 e.toNat) else (num * Nat.pow 2 (-e).toNat, den)

/-- The natural nearest to `num / den`; a tie goes to the even one. -/
def roundQuotient (num den : Nat) : Nat :=
  let q := num / den
  let twice := 2 * (num % den)
  if den < twice ∨ (twice = den ∧ q % 2 = 1) then q + 1 else q

/-- The exponent at which the mantissa of `num / den` has 53 bits, or the least exponent. -/
def exponentOf (num den : Nat) : Int :=
  let guess : Int := (num.log2 : Int) - den.log2 - 52
  let (n, d) := scale num den guess
  max (-1074) (if n / d < Nat.pow 2 52 then guess - 1 else guess)

/-- The number nearest to `num / den`, beyond the range an infinity. -/
def ofRatio (negative : Bool) (num den : Nat) : Binary64 :=
  if num = 0 then zero negative
  else
    let e := exponentOf num den
    let (n, d) := scale num den e
    let m := roundQuotient n d
    let (m, e) := if m = Nat.pow 2 53 then (Nat.pow 2 52, e + 1) else (m, e)
    if 971 < e then .infinite negative else .finite negative m e

/-- The number nearest to `digits * 10 ^ exponent`. The two early answers only spare the powers
that cannot matter: a positive integer times `10 ^ 311` is out of range, and fewer than
`log2 digits + 1` digits cannot bring `10 ^ -400` back into it. -/
def ofDecimal (negative : Bool) (digits : Nat) (exponent : Int) : Binary64 :=
  if digits = 0 then zero negative
  else if 310 < exponent then .infinite negative
  else if exponent < -400 - digits.log2 then zero negative
  else if 0 ≤ exponent then ofRatio negative (digits * Nat.pow 10 exponent.toNat) 1
  else ofRatio negative digits (Nat.pow 10 (-exponent).toNat)

/-- The number nearest to an integer. -/
def ofInt (i : Int) : Binary64 := ofRatio (decide (i < 0)) i.natAbs 1

/-- Change of sign. -/
def negate : Binary64 → Binary64
  | .finite s m e => .finite (!s) m e
  | .infinite s => .infinite (!s)
  | .notANumber => .notANumber

/-- The magnitude of the product of two finite numbers, rounded; other arguments are no numbers. -/
def multiply : Binary64 → Binary64 → Binary64
  | .finite s m e, .finite t n f =>
    let (num, den) := scale (m * n) 1 (-(e + f))
    ofRatio (s != t) num den
  | _, _ => .notANumber

/-- The quotient of two finite numbers, rounded; other arguments are no numbers. -/
def divide : Binary64 → Binary64 → Binary64
  | .finite s m e, .finite t n f =>
    if n = 0 then .notANumber
    else
      let (num, den) := scale m n (-(e - f))
      ofRatio (s != t) num den
  | _, _ => .notANumber

/-- Whether the number is a zero of either sign. -/
def isZero : Binary64 → Bool
  | .finite _ m _ => m == 0
  | _ => false

end Binary64

end ServingCatalog
