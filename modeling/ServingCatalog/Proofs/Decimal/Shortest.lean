import ServingCatalog.Decimal.Shortest
import ServingCatalog.Proofs.Decimal.Rounding

/-!
# How large the shortest digits are

The shortest digits of a number need not make the number itself, but a decimal that is read as it.
They are therefore at most one half of the last place of the mantissa above it (`shortest_le`).
-/

namespace ServingCatalog

namespace Binary64

/-- A power is a quotient of two powers that are natural. -/
theorem zpow_eq_div (a : ℚ) (n : Int) : a ^ n = a ^ n.toNat / a ^ (-n).toNat := by
  rcases Int.le_total 0 n with h | h
  · have hother : (-n).toNat = 0 := Int.toNat_of_nonpos (by omega)
    rw [hother, pow_zero, div_one, ← zpow_natCast, Int.toNat_of_nonneg h]
  · have hother : n.toNat = 0 := Int.toNat_of_nonpos h
    rw [hother, pow_zero, one_div, ← zpow_natCast, ← zpow_neg, Int.toNat_of_nonneg (by omega),
      neg_neg]

/-- A decimal that is read as a number is at most one half of its last place above it. -/
theorem le_of_ofDecimal {negative sign : Bool} {d m : Nat} {k e : Int}
    (h : ofDecimal negative d k = .finite sign m e) (hm : m ≠ 0) :
    (d * 10 ^ k : ℚ) ≤ (m + 1 / 2) * 2 ^ e := by
  rw [ofDecimal] at h
  split at h
  next hzero =>
    cases h
    exact absurd rfl hm
  next =>
    split at h
    next => cases h
    next =>
      split at h
      next =>
        cases h
        exact absurd rfl hm
      next =>
        rw [zpow_eq_div]
        split at h
        next hk =>
          have hother : (-k).toNat = 0 := Int.toNat_of_nonpos (by omega)
          have hle := le_of_ofRatio Nat.one_pos h
          rw [hother]
          simpa using hle
        next hk =>
          have hother : k.toNat = 0 := Int.toNat_of_nonpos (by omega)
          have hle := le_of_ofRatio (Nat.pow_pos (by decide)) h
          rw [hother, pow_zero, mul_one_div]
          simpa using hle

/-- A point of the grid below a number is at most the number. -/
theorem floorDecimal_le (m : Nat) (e k : Int) : (floorDecimal m e k * 10 ^ k : ℚ) ≤ m * 2 ^ e := by
  have hfloor := Nat.div_mul_le_self (m * Nat.pow 2 e.toNat * Nat.pow 10 (-k).toNat)
    (Nat.pow 10 k.toNat * Nat.pow 2 (-e).toNat)
  rw [← floorDecimal] at hfloor
  have hcast : (floorDecimal m e k * (10 ^ k.toNat * 2 ^ (-e).toNat) : ℚ) ≤
      m * 2 ^ e.toNat * 10 ^ (-k).toNat := by exact_mod_cast hfloor
  rw [zpow_eq_div, zpow_eq_div, mul_div, mul_div,
    div_le_div_iff₀ (by positivity) (by positivity)]
  linarith

/-- Zeros at the end count in the exponent as they do in the digits. -/
theorem stripZeros_eq (fuel d : Nat) (k : Int) :
    ((stripZeros fuel d k).1 * 10 ^ (stripZeros fuel d k).2 : ℚ) = d * 10 ^ k := by
  induction fuel generalizing d k with
  | zero => rfl
  | succ fuel ih =>
    rw [stripZeros]
    split
    next h =>
      have hd : ((d / 10 : Nat) : ℚ) * 10 = d := by
        exact_mod_cast Nat.div_mul_cancel (Nat.dvd_of_mod_eq_zero h.2)
      rw [ih, zpow_add_one₀ (by norm_num), ← hd]
      ring
    next => rfl

/-- The nearer one is one of the two. -/
theorem nearer_eq (tie : Tie) (m : Nat) (e k : Int) (low : Nat) :
    nearer tie m e k low = low ∨ nearer tie m e k low = low + 1 := by
  fun_cases nearer <;> simp

/-- The point of a grid that is taken does read back. -/
theorem ofDecimal_of_nearestOnGrid {tie : Tie} {m d : Nat} {e k : Int}
    (h : nearestOnGrid tie m e k = some d) : ofDecimal false d k = .finite false m e := by
  rw [nearestOnGrid] at h
  split at h
  next => cases h
  next hlow _ =>
    cases h
    exact eq_of_beq hlow
  next _ hhigh =>
    cases h
    exact eq_of_beq hhigh
  next hlow hhigh =>
    cases h
    rcases nearer_eq tie m e k (floorDecimal m e k) with heq | heq <;> rw [heq]
    · exact eq_of_beq hlow
    · exact eq_of_beq hhigh

/-- On whatever grid a number is found, it is at most half a unit above. -/
theorem searchGrids_le (tie : Tie) {m : Nat} (hm : m ≠ 0) (e : Int) (steps : Nat) (k : Int) :
    ((searchGrids tie m e steps k).1 * 10 ^ (searchGrids tie m e steps k).2 : ℚ) ≤
      (m + 1 / 2) * 2 ^ e := by
  induction steps generalizing k with
  | zero =>
    have hunit : (0 : ℚ) < 2 ^ e := by positivity
    have hfloor := floorDecimal_le m e k
    rw [searchGrids]
    linarith
  | succ steps ih =>
    rw [searchGrids]
    split
    next d hd => exact le_of_ofDecimal (ofDecimal_of_nearestOnGrid hd) hm
    next => exact ih (k - 1)

/-- **Shortest digits** are at most one half of the last place above the number they are for. -/
theorem shortest_le (tie : Tie) (m : Nat) (e : Int) :
    ((shortest tie m e).1 * 10 ^ (shortest tie m e).2 : ℚ) ≤ (m + 1 / 2) * 2 ^ e := by
  rw [shortest]
  split
  next h =>
    rw [h, Nat.cast_zero, zero_mul]
    positivity
  next h =>
    rw [stripZeros_eq]
    exact searchGrids_le tie h e 17 _

end Binary64

end ServingCatalog
