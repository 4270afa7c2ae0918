import ServingCatalog.Decimal.Binary64

/-!
# The shortest decimal text of a number

A finite number is written with the fewest decimal digits that read back to it, and of those with
the digits nearest to it; a `Tie` says which of two equally near ones is taken. Three layouts use
these digits: `plain` never shows an exponent, `pointed` adds `.0` to a plain integer, and `ranged`
turns to an exponent below `10 ^ -5` and from `10 ^ 16` on. The first two take the larger of two
equally near decimals, the last one the even.
-/

namespace ServingCatalog

/-- Which of two equally near decimals, neighbours on their grid, is taken. -/
inductive Tie where
  | larger
  | even
  deriving DecidableEq

namespace Binary64

/-- Compares `m * 2 ^ e` with `d * 10 ^ k`. -/
def compareDecimal (m : Nat) (e : Int) (d : Nat) (k : Int) : Ordering :=
  compare (m * Nat.pow 2 e.toNat * Nat.pow 10 (-k).toNat)
    (d * Nat.pow 10 k.toNat * Nat.pow 2 (-e).toNat)

/-- The greatest `d` with `d * 10 ^ k` at most `m * 2 ^ e`. -/
def floorDecimal (m : Nat) (e : Int) (k : Int) : Nat :=
  (m * Nat.pow 2 e.toNat * Nat.pow 10 (-k).toNat) / (Nat.pow 10 k.toNat * Nat.pow 2 (-e).toNat)

/-- The least `k` with `m * 2 ^ e` below `10 ^ k`, for a positive `m`. The estimate from the
binary logarithm is at most a step or two too low. -/
def decimalScale (m : Nat) (e : Int) : Int :=
  let estimate := ((m.log2 : Int) + e) * 30103 / 100000
  let below (k : Int) : Bool := compareDecimal m e 1 k == .lt
  if below estimate then estimate
  else if below (estimate + 1) then estimate + 1
  else estimate + 2

/-- Moves the zeros at the end of the digits into the exponent. -/
def stripZeros : Nat → Nat → Int → Nat × Int
  | 0, d, k => (d, k)
  | fuel + 1, d, k => if d ≠ 0 ∧ d % 10 = 0 then stripZeros fuel (d / 10) (k + 1) else (d, k)

/-- The one of `low` and `low + 1` that is nearer to `m * 2 ^ e` on the grid of `10 ^ k`. -/
def nearer (tie : Tie) (m : Nat) (e : Int) (k : Int) (low : Nat) : Nat :=
  match compareDecimal (2 * m) e (2 * low + 1) k, tie with
  | .lt, _ => low
  | .gt, _ => low + 1
  | .eq, .larger => low + 1
  | .eq, .even => if low % 2 = 0 then low else low + 1

/-- Of the two neighbours of `m * 2 ^ e` on the grid of `10 ^ k`, the nearer one that reads back. -/
def nearestOnGrid (tie : Tie) (m : Nat) (e : Int) (k : Int) : Option Nat :=
  let low := floorDecimal m e k
  let readsBack (d : Nat) : Bool := ofDecimal false d k == .finite false m e
  match readsBack low, readsBack (low + 1) with
  | false, false => none
  | true, false => some low
  | false, true => some (low + 1)
  | true, true => some (nearer tie m e k low)

/-- The first grid, from the coarsest on, with a point that reads back. -/
def searchGrids (tie : Tie) (m : Nat) (e : Int) : Nat → Int → Nat × Int
  | 0, k => (floorDecimal m e k, k)
  | steps + 1, k =>
    match nearestOnGrid tie m e k with
    | some d => (d, k)
    | none => searchGrids tie m e steps (k - 1)

/-- The digits and the exponent of ten of the shortest decimal that reads back to `m * 2 ^ e`. -/
def shortest (tie : Tie) (m : Nat) (e : Int) : Nat × Int :=
  if m = 0 then (0, 0)
  else
    let (d, k) := searchGrids tie m e 17 (decimalScale m e - 1)
    stripZeros 20 d k

/-- `count` zeros. -/
def zeros (count : Nat) : String := String.ofList (List.replicate count '0')

/-- Digits with the decimal point at `point` places from their start, and no exponent. -/
def positional (digits : List Char) (point : Int) : String :=
  if point ≤ 0 then "0." ++ zeros (-point).toNat ++ String.ofList digits
  else if digits.length ≤ point.toNat then
    String.ofList digits ++ zeros (point.toNat - digits.length)
  else
    String.ofList (digits.take point.toNat) ++ "." ++ String.ofList (digits.drop point.toNat)

/-- The magnitude without an exponent. -/
def plainMagnitude (tie : Tie) (m : Nat) (e : Int) : String :=
  let (d, k) := shortest tie m e
  if d = 0 then "0"
  else
    let digits := Nat.toDigits 10 d
    positional digits (digits.length + k)

/-- The text of a number that is not finite. -/
def specialText (sign : Bool → String) : Binary64 → String
  | .infinite s => sign s ++ "inf"
  | _ => "NaN"

/-- A minus sign, or nothing. -/
def signText (negative : Bool) : String := if negative then "-" else ""

/-- The shortest digits without an exponent, an integer without a point. -/
def plain : Binary64 → String
  | .finite s m e => signText s ++ plainMagnitude .larger m e
  | x => specialText signText x

/-- Appends `.0` to digits that hold no point. -/
def ensurePoint (text : String) : String :=
  if text.toList.contains '.' then text else text ++ ".0"

/-- The plain text, with `.0` after a finite integer. -/
def pointed : Binary64 → String
  | .finite s m e => signText s ++ ensurePoint (plainMagnitude .larger m e)
  | x => specialText signText x

/-- An exponent with its sign. -/
def signedExponent (exponent : Int) : String :=
  (if 0 ≤ exponent then "e+" else "e-") ++ toString exponent.natAbs

/-- The shortest digits with a point, or with a signed exponent where the value is below `10 ^ -5`
or from `10 ^ 16` on. -/
def ranged : Binary64 → String
  | .finite s m e =>
    let (d, k) := shortest .even m e
    let digits := Nat.toDigits 10 d
    let point : Int := digits.length + k
    if d = 0 ∨ (-5 < point ∧ point ≤ 16) then signText s ++ ensurePoint (plainMagnitude .even m e)
    else
      let tail := digits.drop 1
      let fraction := if tail.isEmpty then "" else "." ++ String.ofList tail
      signText s ++ String.ofList (digits.take 1) ++ fraction ++
        signedExponent (point - 1)
  | x => specialText signText x

end Binary64

end ServingCatalog
