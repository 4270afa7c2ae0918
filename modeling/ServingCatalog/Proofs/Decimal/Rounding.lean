import Mathlib.Algebra.Order.Field.Power
import Mathlib.Algebra.Order.Ring.Rat
import Mathlib.Data.Nat.Cast.Order.Field
import Mathlib.Tactic.FieldSimp
import Mathlib.Tactic.Linarith
import Mathlib.Tactic.NormNum
import Mathlib.Tactic.Positivity
import Mathlib.Tactic.Ring
import ServingCatalog.Decimal.Binary64

/-!
# How far rounding goes

A quotient of naturals is rounded to a number whose mantissa is at most one half away from what it
should be (`le_of_ofRatio`), and from one on that is a small part of the quotient itself.  Below
`rangeEnd` the number is finite (`exists_ofRatio`).

Values are compared as rationals: `m * 2 ^ e` for a mantissa and an exponent.
-/

namespace ServingCatalog

namespace Binary64

/-- From here on a quotient is rounded to an infinity. -/
def rangeEnd : ℚ := (2 ^ 53 - 1 / 2) * 2 ^ (971 : Int)

/-- The range ends half a unit behind the largest number. -/
theorem rangeEnd_le {e : Int} (h : 971 ≤ e) : rangeEnd ≤ (2 ^ 53 - 1 / 2) * 2 ^ e :=
  mul_le_mul_of_nonneg_left (zpow_le_zpow_right₀ (by norm_num) h) (by norm_num)

/-- The natural nearest to a quotient is at most one half above it. -/
theorem roundQuotient_le {den : Nat} (hden : 0 < den) (num : Nat) :
    (roundQuotient num den : ℚ) ≤ num / den + 1 / 2 := by
  have hpos : (0 : ℚ) < den := Nat.cast_pos.2 hden
  have hsplit := Nat.div_add_mod num den
  have hbound : 2 * (den * roundQuotient num den) ≤ 2 * num + den := by
    rw [roundQuotient]
    split
    next h =>
      rw [Nat.mul_add, Nat.mul_one]
      omega
    next => omega
  have hcast : (2 : ℚ) * (den * roundQuotient num den) ≤ 2 * num + den := by exact_mod_cast hbound
  rw [← sub_le_iff_le_add, le_div_iff₀ hpos]
  linarith

/-- And at most one half below it. -/
theorem le_roundQuotient {den : Nat} (hden : 0 < den) (num : Nat) :
    (num / den : ℚ) ≤ roundQuotient num den + 1 / 2 := by
  have hpos : (0 : ℚ) < den := Nat.cast_pos.2 hden
  have hsplit := Nat.div_add_mod num den
  have hrest := Nat.mod_lt num hden
  have hbound : 2 * num ≤ 2 * (den * roundQuotient num den) + den := by
    rw [roundQuotient]
    split
    next h =>
      rw [Nat.mul_add, Nat.mul_one]
      omega
    next h => omega
  have hcast : (2 : ℚ) * num ≤ 2 * (den * roundQuotient num den) + den := by exact_mod_cast hbound
  rw [div_le_iff₀ hpos]
  linarith

theorem scale_pos {den : Nat} (hden : 0 < den) (num : Nat) (e : Int) : 0 < (scale num den e).2 := by
  rw [scale]
  split
  · exact Nat.mul_pos hden (Nat.pow_pos (by decide))
  · exact hden

/-- Scaling divides by a power of two. -/
theorem scale_eq {den : Nat} (hden : 0 < den) (num : Nat) (e : Int) :
    ((scale num den e).1 : ℚ) / (scale num den e).2 = num / den / 2 ^ e := by
  have hpos : (0 : ℚ) < den := Nat.cast_pos.2 hden
  rw [scale]
  split
  next h =>
    obtain ⟨n, rfl⟩ := Int.eq_ofNat_of_zero_le h
    simp only [Nat.pow_eq, Nat.cast_mul, Nat.cast_pow, Nat.cast_ofNat, Int.toNat_natCast,
      zpow_natCast]
    rw [div_div]
  next h =>
    obtain ⟨n, hn⟩ := Int.eq_ofNat_of_zero_le (by omega : 0 ≤ -e)
    have he : e = -(n : Int) := by omega
    subst he
    simp only [Nat.pow_eq, Nat.cast_mul, Nat.cast_pow, Nat.cast_ofNat, Int.neg_neg,
      Int.toNat_natCast, zpow_neg, zpow_natCast]
    field_simp

/-- The mantissa of a quotient has 53 bits, unless the exponent is the least one. -/
theorem le_scale_exponentOf {num den : Nat} (hnum : 0 < num) (hden : 0 < den)
    (h : exponentOf num den ≠ -1074) : (2 : ℚ) ^ 52 ≤ num / den / 2 ^ exponentOf num den := by
  have hpos : (0 : ℚ) < den := Nat.cast_pos.2 hden
  -- The logarithms tell the quotient up to a factor of four.
  have hlow : (2 : ℚ) ^ num.log2 ≤ num := by exact_mod_cast Nat.log2_self_le (by omega)
  have hhigh : (den : ℚ) ≤ 2 ^ (den.log2 + 1) := by exact_mod_cast Nat.lt_log2_self.le
  have hquotient : (2 : ℚ) ^ ((num.log2 : Int) - den.log2 - 1) ≤ num / den := by
    rw [le_div_iff₀ hpos]
    calc (2 : ℚ) ^ ((num.log2 : Int) - den.log2 - 1) * den
        ≤ 2 ^ ((num.log2 : Int) - den.log2 - 1) * 2 ^ (den.log2 + 1) := by gcongr
      _ = 2 ^ num.log2 := by
        rw [← zpow_natCast, ← zpow_natCast, ← zpow_add₀ (by norm_num)]
        congr 1
        push_cast
        ring
      _ ≤ num := hlow
  have hguess := scale_eq hden num ((num.log2 : Int) - den.log2 - 52)
  have hscale := scale_pos hden num ((num.log2 : Int) - den.log2 - 52)
  simp only [exponentOf, Nat.pow_eq] at h ⊢
  split at h
  next hfew =>
    rw [max_eq_right (by omega), if_pos hfew]
    have hexponent : (2 : ℚ) ^ ((num.log2 : Int) - den.log2 - 52 - 1) * 2 ^ (52 : Nat) =
        2 ^ ((num.log2 : Int) - den.log2 - 1) := by
      rw [← zpow_natCast, ← zpow_add₀ (by norm_num)]
      congr 1
      push_cast
      ring
    rw [le_div_iff₀ (by positivity), mul_comm, hexponent]
    exact hquotient
  next hmany =>
    rw [max_eq_right (by omega), if_neg hmany, ← hguess, le_div_iff₀ (Nat.cast_pos.2 hscale)]
    have hdigits := (Nat.le_div_iff_mul_le hscale).1 (Nat.le_of_not_lt hmany)
    exact_mod_cast hdigits

/-- **Rounding.**  A quotient is at most half a unit away from what it is rounded to.  The unit is
the least one, or a small part of the quotient; only a mantissa that runs over takes the next
exponent. -/
theorem exists_rounded {num den : Nat} (hnum : 0 < num) (hden : 0 < den) (negative : Bool) :
    ∃ (m : Nat) (e unit : Int),
      ofRatio negative num den = (if 971 < e then .infinite negative else .finite negative m e) ∧
        (m * 2 ^ e : ℚ) ≤ num / den + 2 ^ unit / 2 ∧ (num / den : ℚ) ≤ m * 2 ^ e + 2 ^ unit / 2 ∧
        (unit = -1074 ∨ (2 ^ 52 * 2 ^ unit : ℚ) ≤ num / den) ∧
        (e = unit ∨ e = unit + 1 ∧ m = 2 ^ 52) := by
  have hunit : (0 : ℚ) < 2 ^ exponentOf num den := by positivity
  have hpart : exponentOf num den = -1074 ∨ (2 ^ 52 * 2 ^ exponentOf num den : ℚ) ≤ num / den := by
    by_cases hleast : exponentOf num den = -1074
    · exact .inl hleast
    · exact .inr ((le_div_iff₀ hunit).1 (le_scale_exponentOf hnum hden hleast))
  have hscaled := scale_eq hden num (exponentOf num den)
  have hscale := scale_pos hden num (exponentOf num den)
  have hlow := roundQuotient_le hscale (scale num den (exponentOf num den)).1
  have hhigh := le_roundQuotient hscale (scale num den (exponentOf num den)).1
  simp only [ofRatio, if_neg hnum.ne']
  generalize roundQuotient (scale num den (exponentOf num den)).1
    (scale num den (exponentOf num den)).2 = rounded at *
  rw [hscaled] at hlow hhigh
  have hbelow : (rounded * 2 ^ exponentOf num den : ℚ) ≤
      num / den + 2 ^ exponentOf num den / 2 := by
    have h := mul_le_mul_of_nonneg_right hlow hunit.le
    rw [add_mul, div_mul_cancel₀ _ hunit.ne'] at h
    linarith
  have habove : (num / den : ℚ) ≤
      rounded * 2 ^ exponentOf num den + 2 ^ exponentOf num den / 2 := by
    have h := mul_le_mul_of_nonneg_right hhigh hunit.le
    rw [add_mul, div_mul_cancel₀ _ hunit.ne'] at h
    linarith
  by_cases hover : rounded = Nat.pow 2 53
  · -- The mantissa runs over, and half of it at the next exponent is the same number.
    have hcarry : (((2 ^ 52 : Nat) : ℚ) * 2 ^ (exponentOf num den + 1)) =
        rounded * 2 ^ exponentOf num den := by
      rw [hover, zpow_add_one₀ (by norm_num)]
      norm_num
      ring
    refine ⟨2 ^ 52, exponentOf num den + 1, exponentOf num den, ?_, ?_, ?_, hpart, .inr ⟨rfl, rfl⟩⟩
    · rw [if_pos hover]
      rfl
    · rwa [hcarry]
    · rwa [hcarry]
  · refine ⟨rounded, exponentOf num den, exponentOf num den, ?_, hbelow, habove, hpart, .inl rfl⟩
    rw [if_neg hover]

/-- What is rounded to a finite number is at most half a unit above it. -/
theorem le_of_ofRatio {num den m : Nat} {e : Int} {negative sign : Bool} (hden : 0 < den)
    (h : ofRatio negative num den = .finite sign m e) : (num / den : ℚ) ≤ (m + 1 / 2) * 2 ^ e := by
  rcases Nat.eq_zero_or_pos num with rfl | hnum
  · rw [Nat.cast_zero, zero_div]
    positivity
  · obtain ⟨m', e', unit, heq, -, habove, -, hexponent⟩ := exists_rounded hnum hden negative
    rw [heq] at h
    split at h
    next => cases h
    next =>
      cases h
      have hunit : (2 : ℚ) ^ unit ≤ 2 ^ e := by
        refine zpow_le_zpow_right₀ (by norm_num) ?_
        rcases hexponent with h | ⟨h, -⟩ <;> omega
      linarith

/-- Below the end of the range a quotient is rounded to a finite number, which from one on is
larger by a small part of the quotient at most. -/
theorem exists_ofRatio {num den : Nat} (hden : 0 < den) (negative : Bool)
    (h : (num / den : ℚ) < rangeEnd) :
    ∃ m e, ofRatio negative num den = .finite negative m e ∧
      ((1 : ℚ) ≤ num / den → (m * 2 ^ e : ℚ) ≤ num / den * (1 + 2 ^ (-53 : Int))) := by
  rcases Nat.eq_zero_or_pos num with rfl | hnum
  · refine ⟨0, -1074, rfl, fun hone => ?_⟩
    norm_num at hone
  · obtain ⟨m, e, unit, heq, hbelow, -, hpart, hexponent⟩ := exists_rounded hnum hden negative
    have hrange : ¬971 < e := by
      intro hlarge
      refine absurd h (not_lt.2 ?_)
      rcases hexponent with rfl | ⟨rfl, rfl⟩
      · have hquotient := hpart.resolve_left (by omega)
        have hend := rangeEnd_le (by omega : 971 ≤ e - 1)
        have hdouble : (2 : ℚ) ^ e = 2 ^ (e - 1) * 2 := by
          rw [← zpow_add_one₀ (by norm_num), sub_add_cancel]
        have hpositive : (0 : ℚ) < 2 ^ (e - 1) := by positivity
        linarith
      · have hend := rangeEnd_le (by omega : 971 ≤ unit)
        rw [zpow_add_one₀ (by norm_num)] at hbelow
        push_cast at hbelow
        linarith
    rw [if_neg hrange] at heq
    refine ⟨m, e, heq, fun hone => hbelow.trans ?_⟩
    have hsmall : (2 : ℚ) ^ unit / 2 ≤ num / den * 2 ^ (-53 : Int) := by
      rcases hpart with rfl | hpart
      · calc (2 : ℚ) ^ (-1074 : Int) / 2 ≤ 2 ^ (-1074 : Int) := half_le_self (by positivity)
          _ ≤ 2 ^ (-53 : Int) := zpow_le_zpow_right₀ (by norm_num) (by norm_num)
          _ = 1 * 2 ^ (-53 : Int) := (one_mul _).symm
          _ ≤ num / den * 2 ^ (-53 : Int) := mul_le_mul_of_nonneg_right hone (by positivity)
      · norm_num at hpart ⊢
        linarith
    linarith

end Binary64

end ServingCatalog
