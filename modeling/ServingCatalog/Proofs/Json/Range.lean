import ServingCatalog.Proofs.Decimal.Rounding
import ServingCatalog.Proofs.Json.Numeral

/-!
# Numerals within the range

A numeral is read in two roundings, and each may make it larger.  `largest` leaves room for both:
a numeral of that size at most is never out of range (`isSome_float?`).
-/

namespace ServingCatalog

namespace Json

namespace Numeral

open Binary64 (ofRatio ofDecimal ofInt scale rangeEnd)

/-! ## The two roundings -/

/-- Two and a half places below the end of the range. -/
def largest : ℚ := (2 ^ 53 - 5 / 2) * 2 ^ (971 : Int)

/-- Two roundings do not lead from it out of the range. -/
theorem largest_mul_lt : largest * ((1 + 2 ^ (-53 : Int)) * (1 + 2 ^ (-53 : Int))) < rangeEnd := by
  have hunit : (0 : ℚ) < 2 ^ (971 : Int) := by positivity
  have hroom : ((2 ^ 53 - 5 / 2) * ((1 + 2 ^ (-53 : Int)) * (1 + 2 ^ (-53 : Int))) : ℚ) <
      2 ^ 53 - 1 / 2 := by norm_num
  calc largest * ((1 + 2 ^ (-53 : Int)) * (1 + 2 ^ (-53 : Int)))
      = (2 ^ 53 - 5 / 2) * ((1 + 2 ^ (-53 : Int)) * (1 + 2 ^ (-53 : Int))) * 2 ^ (971 : Int) := by
        rw [largest]
        ring
    _ < rangeEnd := mul_lt_mul_of_pos_right hroom hunit

theorem largest_lt_rangeEnd : largest < rangeEnd :=
  mul_lt_mul_of_pos_right (by norm_num) (by positivity)

/-- A product of two numbers is rounded as the quotient that it is. -/
theorem exists_multiply {m n : Nat} {e f : Int} (sign other : Bool)
    (h : (m * 2 ^ e * (n * 2 ^ f) : ℚ) < rangeEnd) :
    ∃ product exponent,
      (Binary64.finite sign m e).multiply (.finite other n f) =
        .finite (sign != other) product exponent := by
  have hpos := Binary64.scale_pos Nat.one_pos (m * n) (-(e + f))
  have hvalue : ((scale (m * n) 1 (-(e + f))).1 : ℚ) / (scale (m * n) 1 (-(e + f))).2 =
      m * 2 ^ e * (n * 2 ^ f) := by
    rw [Binary64.scale_eq Nat.one_pos, Nat.cast_one, div_one, Nat.cast_mul, zpow_neg,
      zpow_add₀ (by norm_num), div_inv_eq_mul]
    ring
  obtain ⟨product, exponent, heq, -⟩ :=
    Binary64.exists_ofRatio hpos (sign != other) (by rwa [hvalue])
  exact ⟨product, exponent, heq⟩

/-- The range ends before the 309th power of ten. -/
theorem largest_lt : largest < 10 ^ 309 := by
  have hpowers : (2 ^ 53 * 2 ^ 971 : Nat) < 10 ^ 309 := by decide +kernel
  have hcast : (2 ^ 53 * 2 ^ (971 : Int) : ℚ) < 10 ^ 309 := by exact_mod_cast hpowers
  refine lt_trans ?_ hcast
  exact mul_lt_mul_of_pos_right (by norm_num) (by positivity)

/-- An integer in the range is rounded to a number that is hardly larger. -/
theorem exists_ofRatio_one {s : Nat} (hs : 0 < s) (h : (s : ℚ) ≤ largest) :
    ∃ m e, ofRatio false s 1 = .finite false m e ∧
      (m * 2 ^ e : ℚ) ≤ s * (1 + 2 ^ (-53 : Int)) := by
  have hone : ((s : ℚ) / (1 : Nat)) = s := by rw [Nat.cast_one, div_one]
  obtain ⟨m, e, heq, hle⟩ := Binary64.exists_ofRatio Nat.one_pos false
    (by rw [hone]; exact h.trans_lt largest_lt_rangeEnd)
  rw [hone] at hle
  exact ⟨m, e, heq, hle (by exact_mod_cast hs)⟩

/-- A power of ten in the range is rounded as the integer that it is. -/
theorem ofDecimal_one {n : Nat} (h : ((10 ^ n : Nat) : ℚ) ≤ largest) :
    n < 309 ∧ ofDecimal false 1 n = ofRatio false (10 ^ n) 1 := by
  have hn : n < 309 := by
    refine (Nat.pow_lt_pow_iff_right (by decide : 1 < 10)).1 ?_
    have hpower := h.trans_lt largest_lt
    exact_mod_cast hpower
  refine ⟨hn, ?_⟩
  have hlog : Nat.log2 1 = 0 := by decide
  rw [ofDecimal, if_neg one_ne_zero, if_neg (by omega), if_neg (by rw [hlog]; omega),
    if_pos (by omega), Int.toNat_natCast, Nat.one_mul]
  rfl

/-- **Two roundings.**  A significand times a power of ten is a number, unless the exact product is
beyond `largest`. -/
theorem isSome_scaled {s : Nat} {t : Int} (h : 0 ≤ t → (s * 10 ^ t : ℚ) ≤ largest) :
    (scaled s t).isSome = true := by
  rcases Nat.eq_zero_or_pos s with rfl | hs
  · rfl
  by_cases hsign : 0 ≤ t
  · obtain ⟨n, rfl⟩ := Int.eq_ofNat_of_zero_le hsign
    have hproduct : ((s : ℚ) * (10 ^ n : Nat)) ≤ largest := by
      have hle := h hsign
      rw [zpow_natCast] at hle
      exact_mod_cast hle
    have hone : (1 : ℚ) ≤ s := by exact_mod_cast hs
    have htens : (1 : ℚ) ≤ (10 ^ n : Nat) := by exact_mod_cast Nat.pow_pos (by decide)
    obtain ⟨m, e, hs', hm⟩ := exists_ofRatio_one hs
      (le_trans (le_mul_of_one_le_right (by linarith) htens) hproduct)
    have hpower : ((10 ^ n : Nat) : ℚ) ≤ largest :=
      le_trans (le_mul_of_one_le_left (by linarith) hone) hproduct
    obtain ⟨m', e', ht', hm'⟩ := exists_ofRatio_one (Nat.pow_pos (by decide)) hpower
    obtain ⟨hn, hdecimal⟩ := ofDecimal_one hpower
    have hrounded : (m * 2 ^ e * (m' * 2 ^ e') : ℚ) < rangeEnd := by
      calc (m * 2 ^ e * (m' * 2 ^ e') : ℚ)
          ≤ s * (1 + 2 ^ (-53 : Int)) * ((10 ^ n : Nat) * (1 + 2 ^ (-53 : Int))) := by gcongr
        _ = s * (10 ^ n : Nat) * ((1 + 2 ^ (-53 : Int)) * (1 + 2 ^ (-53 : Int))) := by ring
        _ ≤ largest * ((1 + 2 ^ (-53 : Int)) * (1 + 2 ^ (-53 : Int))) := by gcongr
        _ < rangeEnd := largest_mul_lt
    obtain ⟨product, exponent, hmultiply⟩ := exists_multiply false false hrounded
    have hint : ofInt (s : Int) = .finite false m e := by
      rw [← hs', ofInt, Int.natAbs_natCast, decide_eq_false (by omega)]
    rw [scaled, hint]
    dsimp only
    split
    · rfl
    · rw [if_neg (by omega), hdecimal, ht', hmultiply]
      rfl
  · -- A quotient is never too large.
    have hsmall : ¬308 < t := by omega
    simp only [scaled, if_neg hsmall, if_neg hsign]
    split
    · rfl
    · split <;> rfl

/-! ## The digits that are taken in -/

/-- Taking digits in does not make a number larger than all of them would. -/
theorem accumulate_le (value : Nat) (ds : List Char) :
    (accumulate value ds).1 * 10 ^ (accumulate value ds).2.length ≤ Nat.ofDigitChars 10 ds value ∧
      (accumulate value ds).2.length ≤ ds.length := by
  induction ds generalizing value with
  | nil => simp [accumulate, Nat.ofDigitChars]
  | cons c ds ih =>
    rw [accumulate]
    split
    next =>
      obtain ⟨hvalue, hlength⟩ := ih (10 * value + Literal.digitValue c)
      exact ⟨hvalue, Nat.le_succ_of_le hlength⟩
    next =>
      refine ⟨?_, le_rfl⟩
      rw [Nat.ofDigitChars_eq_ofDigitChars_zero, Nat.mul_comm]
      exact Nat.le_add_right _ _

/-- Digits of an integer of 64 bits are all taken in. -/
theorem accumulate_eq {value : Nat} {ds : List Char}
    (h : Nat.ofDigitChars 10 ds value ≤ maxSignificand) :
    accumulate value ds = (Nat.ofDigitChars 10 ds value, []) := by
  induction ds generalizing value with
  | nil => rfl
  | cons c ds ih =>
    rw [Nat.ofDigitChars_cons] at h ⊢
    have hnext : 10 * value + Literal.digitValue c ≤ maxSignificand := by
      rw [Nat.ofDigitChars_eq_ofDigitChars_zero] at h
      have hpower : 1 ≤ 10 ^ ds.length := Nat.pow_pos (by decide)
      have hle := Nat.le_mul_of_pos_left (10 * value + Literal.digitValue c) hpower
      exact hle.trans (le_trans (Nat.le_add_right _ _) h)
    rw [accumulate, if_pos hnext]
    exact ih h

/-- Digits make a number below the power of ten of their count. -/
theorem ofDigitChars_lt {ds : List Char} (h : ∀ c ∈ ds, c.isDigit = true) (value : Nat) :
    Nat.ofDigitChars 10 ds value < (value + 1) * 10 ^ ds.length := by
  induction ds generalizing value with
  | nil => simp [Nat.ofDigitChars]
  | cons c ds ih =>
    have hdigit : c.toNat - '0'.toNat < 10 := by
      have hc := (isDigit_iff c).1 (h c List.mem_cons_self)
      exact (by omega : c.toNat - 48 < 10)
    rw [Nat.ofDigitChars_cons, List.length_cons]
    calc Nat.ofDigitChars 10 ds (10 * value + (c.toNat - '0'.toNat))
        < (10 * value + (c.toNat - '0'.toNat) + 1) * 10 ^ ds.length :=
          ih (fun d hd => h d (List.mem_cons_of_mem c hd)) _
      _ ≤ (value + 1) * 10 * 10 ^ ds.length := Nat.mul_le_mul_right _ (by omega)
      _ = (value + 1) * 10 ^ (ds.length + 1) := by ring

/-- So few digits make an integer of 64 bits. -/
theorem natOfDigits_le {ds : List Char} (h : ∀ c ∈ ds, c.isDigit = true)
    (hlength : ds.length ≤ 16) : Literal.natOfDigits ds ≤ maxSignificand := by
  have hlt : Literal.natOfDigits ds < (0 + 1) * 10 ^ ds.length := ofDigitChars_lt h 0
  have hpower : 10 ^ ds.length ≤ 10 ^ 16 := Nat.pow_le_pow_right (by decide) hlength
  have hmax : 10 ^ 16 ≤ maxSignificand := by decide
  omega

/-- The exact value of a numeral. -/
def exact (n : Numeral) : ℚ :=
  Literal.natOfDigits (n.whole ++ n.fraction.getD []) *
    10 ^ (power n.exponent - (n.fraction.getD []).length)

/-- **Numerals** up to `largest` are numbers. -/
theorem isSome_float? {n : Numeral} (negative : Bool) (hwhole : IsWhole n.whole)
    (hlength : n.whole.length ≤ 16) (h : n.exact ≤ largest) :
    (n.float? negative).isSome = true := by
  have htaken := accumulate_eq (natOfDigits_le hwhole.isDigit hlength)
  obtain ⟨hvalue, hlength⟩ := accumulate_le (Literal.natOfDigits n.whole) (n.fraction.getD [])
  rw [float?]
  dsimp only
  rw [show accumulate 0 n.whole = (Literal.natOfDigits n.whole, []) from htaken]
  dsimp only
  rw [Option.isSome_map]
  generalize accumulate (Literal.natOfDigits n.whole) (n.fraction.getD []) = taken at *
  refine isSome_scaled fun _ => le_trans ?_ h
  rw [exact, Literal.natOfDigits, List.foldl_append]
  have hcast : (taken.1 * 10 ^ taken.2.length : ℚ) ≤
      Nat.ofDigitChars 10 (n.fraction.getD []) (Literal.natOfDigits n.whole) := by
    exact_mod_cast hvalue
  refine le_trans (le_of_eq ?_) (mul_le_mul_of_nonneg_right hcast (by positivity))
  rw [mul_assoc, ← zpow_natCast, ← zpow_add₀ (by norm_num)]
  congr 2
  simp
  omega

end Numeral

end Json

end ServingCatalog
