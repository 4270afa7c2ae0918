import ServingCatalog.Json.Printer
import ServingCatalog.Proofs.Json.Range
import ServingCatalog.Proofs.Json.WellFormed

/-!
# Numbers as they are written

A number that is written is a numeral behind a sign, in each of the layouts: an integer in its
digits, and a floating-point number always with a fraction or an exponent.  `Numeral.Writes` says
this of a floating-point number, and that no layout changes the value of its shortest digits.
-/

namespace ServingCatalog

namespace Json

/-- The text of a number behind its sign. -/
def signed : Bool → List Char → List Char
  | true, text => '-' :: text
  | false, text => text

namespace Numeral

/-! ## Digits -/

theorem isDigits_toDigits (n : Nat) : IsDigits (Nat.toDigits 10 n) where
  ne_nil := Nat.toDigits_ne_nil
  isDigit _ h := Nat.isDigit_of_mem_toDigits (by decide) (by decide) h

theorem head?_append {ds : List Char} (h : ds ≠ []) (more : List Char) :
    (ds ++ more).head? = ds.head? := by
  obtain ⟨d, ds, rfl⟩ := List.exists_cons_of_ne_nil h
  rfl

/-- Only zero is written with a zero at the start. -/
theorem eq_zero_of_head?_toDigits (n : Nat) (h : (Nat.toDigits 10 n).head? = some '0') :
    n = 0 := by
  have hdigit : ∀ d < 10, Nat.digitChar d = '0' → d = 0 := by decide
  induction n using Nat.strongRecOn with
  | ind n ih =>
    by_cases hlt : n < 10
    · rw [Nat.toDigits_of_lt_base hlt, List.head?_cons] at h
      exact hdigit n hlt (Option.some.inj h)
    · rw [Nat.toDigits_eq_if (by decide), if_neg hlt, head?_append Nat.toDigits_ne_nil] at h
      have hzero := ih (n / 10) (by omega) h
      omega

/-- They are those of a whole number: no zero comes first. -/
theorem isWhole_toDigits (n : Nat) : IsWhole (Nat.toDigits 10 n) where
  toIsDigits := isDigits_toDigits n
  zero h := by
    rw [eq_zero_of_head?_toDigits n h]
    rfl

theorem isDigits_append {ds more : List Char} (h : IsDigits ds) (hmore : ∀ c ∈ more, c.isDigit) :
    IsDigits (ds ++ more) where
  ne_nil := by simp [h.ne_nil]
  isDigit c hc := (List.mem_append.1 hc).elim (h.isDigit c) (hmore c)

/-- Digits whose first is no zero may stand before a point. -/
theorem isWhole_of_head? {ds : List Char} (h : IsDigits ds) (hhead : ds.head? ≠ some '0') :
    IsWhole ds where
  toIsDigits := h
  zero hzero := absurd hzero hhead

theorem isDigit_of_mem_zeros {count : Nat} {c : Char} (h : c ∈ List.replicate count '0') :
    c.isDigit = true := by
  rw [List.eq_of_mem_replicate h]
  rfl

/-- A point is no digit. -/
theorem contains_point {ds : List Char} (h : ∀ c ∈ ds, c.isDigit = true) :
    ds.contains '.' = false := by
  rw [Bool.eq_false_iff]
  intro hpoint
  exact absurd (h '.' (List.contains_iff_mem.1 hpoint)) (by decide)

/-! ## Integers -/

/-- The numeral of a natural number. -/
def ofNat (n : Nat) : Numeral := ⟨Nat.toDigits 10 n, none, none⟩

/-- A natural number is written as its numeral. -/
theorem spells_ofNat (n : Nat) : (ofNat n).Spells (toString n).toList := by
  refine ⟨isWhole_toDigits n, [], [], rfl, rfl, ?_⟩
  rw [Nat.toString_eq_ofList_toDigits, String.toList_ofList]
  exact (List.append_nil _).symm

/-- Its digits are those of the number. -/
theorem natOfDigits_toDigits (n : Nat) : Literal.natOfDigits (Nat.toDigits 10 n) = n :=
  Nat.ofDigitChars_toDigits (by decide) (by decide)

/-! ## Floating-point numbers -/

/-- Whether a numeral shows a fraction or an exponent. -/
def Shows (n : Numeral) : Prop := n.fraction.isSome ∨ n.exponent.isSome

/-- A numeral with a fraction or an exponent is no integer. -/
theorem value?_of_shows {n : Numeral} (h : n.Shows) (negative : Bool) :
    n.value? negative = (n.float? negative).map .float := by
  have hplain : (n.fraction.isNone && n.exponent.isNone) = false := by
    rcases h with h | h
    · rw [Option.isSome_iff_ne_none] at h
      cases hfraction : n.fraction with
      | none => exact absurd hfraction h
      | some ds => rfl
    · rw [Option.isSome_iff_ne_none] at h
      cases hexponent : n.exponent with
      | none => exact absurd hexponent h
      | some parts => simp
  rw [value?]
  simp only [hplain, Bool.false_and, Bool.false_eq_true, if_false]

/-- A numeral that is written for some digits and an exponent of ten: it shows a fraction or an
exponent, has few digits before its point, and the value that it is written for. -/
structure Writes (n : Numeral) (text : List Char) (d : Nat) (k : Int) : Prop where
  spells : n.Spells text
  shows : n.Shows
  short : n.whole.length ≤ 16
  exact : n.exact = d * 10 ^ k

/-- A numeral with a fraction. -/
theorem spells_fraction {whole fraction : List Char} (hwhole : IsWhole whole)
    (hfraction : IsDigits fraction) :
    (Numeral.mk whole (some fraction) none).Spells (whole ++ '.' :: fraction) := by
  refine ⟨hwhole, '.' :: fraction, [], ⟨hfraction, rfl⟩, rfl, ?_⟩
  rw [List.append_nil]

/-- Zeros behind digits make the number larger. -/
theorem natOfDigits_append_zeros (ds : List Char) (count : Nat) :
    Literal.natOfDigits (ds ++ List.replicate count '0') =
      Literal.natOfDigits ds * 10 ^ count := by
  show Nat.ofDigitChars 10 (ds ++ List.replicate count '0') 0 = Nat.ofDigitChars 10 ds 0 * _
  rw [Nat.ofDigitChars_append, Nat.ofDigitChars_replicate_zero, Nat.mul_comm]

/-- Zeros before digits do not count. -/
theorem natOfDigits_zeros_append (count : Nat) (ds : List Char) :
    Literal.natOfDigits (List.replicate count '0' ++ ds) = Literal.natOfDigits ds := by
  show Nat.ofDigitChars 10 (List.replicate count '0' ++ ds) 0 = Nat.ofDigitChars 10 ds 0
  rw [Nat.ofDigitChars_append, Nat.ofDigitChars_replicate_zero, Nat.mul_zero]

/-- Digits with a point among them, before them or not far behind them are a numeral that shows a
fraction. -/
theorem exists_writes_positional {digits : List Char} (h : IsDigits digits)
    (hhead : digits.head? ≠ some '0') {point : Int} (hpoint : point ≤ 16) :
    ∃ n : Numeral, n.Writes (Binary64.ensurePoint (Binary64.positional digits point)).toList
      (Literal.natOfDigits digits) (point - digits.length) := by
  have hzeros : ∀ count, (Binary64.zeros count).toList = List.replicate count '0' :=
    fun count => String.toList_ofList
  by_cases hbelow : point ≤ 0
  · -- A zero stands before the point.
    have htext : (Binary64.positional digits point).toList =
        ['0'] ++ '.' :: (List.replicate (-point).toNat '0' ++ digits) := by
      simp [Binary64.positional, hbelow, hzeros]
    have hfraction : IsDigits (List.replicate (-point).toNat '0' ++ digits) :=
      ⟨by simp [h.ne_nil],
        fun c hc => (List.mem_append.1 hc).elim isDigit_of_mem_zeros (h.isDigit c)⟩
    refine ⟨⟨['0'], some (List.replicate (-point).toNat '0' ++ digits), none⟩, ?_, .inl rfl,
      by simp, ?_⟩
    · rw [Binary64.ensurePoint, if_pos (by rw [htext]; simp), htext]
      exact spells_fraction (by decide) hfraction
    · have hvalue : Literal.natOfDigits (['0'] ++ (List.replicate (-point).toNat '0' ++ digits)) =
          Literal.natOfDigits digits := natOfDigits_zeros_append ((-point).toNat + 1) digits
      simp only [exact, power, Option.getD_some, hvalue, List.length_append, List.length_replicate]
      congr 2
      push_cast
      omega
  · by_cases hbehind : digits.length ≤ point.toNat
    · -- The digits are filled up to the point, and a zero comes behind it.
      have htext : (Binary64.positional digits point).toList =
          digits ++ List.replicate (point.toNat - digits.length) '0' := by
        simp [Binary64.positional, hbelow, hbehind, hzeros]
      have hwhole : IsDigits (digits ++ List.replicate (point.toNat - digits.length) '0') :=
        isDigits_append h fun c hc => isDigit_of_mem_zeros hc
      refine ⟨⟨digits ++ List.replicate (point.toNat - digits.length) '0', some ['0'], none⟩, ?_,
        .inl rfl, by simp; omega, ?_⟩
      · rw [Binary64.ensurePoint, if_neg (by rw [htext, contains_point hwhole.isDigit]; simp),
          String.toList_append, htext]
        refine spells_fraction (isWhole_of_head? hwhole ?_) (by decide)
        rwa [head?_append h.ne_nil]
      · have hvalue : Literal.natOfDigits
            (digits ++ List.replicate (point.toNat - digits.length) '0' ++ ['0']) =
              Literal.natOfDigits digits * 10 ^ (point.toNat - digits.length + 1) := by
          rw [List.append_assoc, ← natOfDigits_append_zeros, List.replicate_succ']
        simp only [exact, power, Option.getD_some, hvalue, List.length_singleton]
        push_cast
        rw [mul_assoc, ← zpow_natCast, ← zpow_add₀ (by norm_num)]
        congr 2
        push_cast
        omega
    · -- The point stands among the digits.
      have htext : (Binary64.positional digits point).toList =
          digits.take point.toNat ++ '.' :: digits.drop point.toNat := by
        simp [Binary64.positional, hbelow, hbehind]
      have hpositive : 0 < point.toNat := by omega
      have hwhole : IsDigits (digits.take point.toNat) :=
        ⟨by simp [h.ne_nil, Nat.ne_of_gt hpositive],
          fun c hc => h.isDigit c (List.mem_of_mem_take hc)⟩
      have hfraction : IsDigits (digits.drop point.toNat) :=
        ⟨by simp; omega, fun c hc => h.isDigit c (List.mem_of_mem_drop hc)⟩
      refine ⟨⟨digits.take point.toNat, some (digits.drop point.toNat), none⟩, ?_, .inl rfl,
        by simp; omega, ?_⟩
      · rw [Binary64.ensurePoint, if_pos (by rw [htext]; simp), htext]
        refine spells_fraction (isWhole_of_head? hwhole ?_) hfraction
        rwa [List.head?_take, if_neg (Nat.ne_of_gt hpositive)]
      · simp only [exact, power, Option.getD_some, List.take_append_drop, List.length_drop]
        congr 2
        omega

/-- The digits of a positive number do not start with a zero. -/
theorem head?_toDigits_ne {d : Nat} (h : d ≠ 0) : (Nat.toDigits 10 d).head? ≠ some '0' :=
  fun hhead => h (eq_zero_of_head?_toDigits d hhead)

/-- Without an exponent a number of at most sixteen places is written as a numeral. -/
theorem exists_writes_plainMagnitude (tie : Tie) (m : Nat) (e : Int)
    (h : (Binary64.shortest tie m e).1 ≠ 0 →
      (Nat.toDigits 10 (Binary64.shortest tie m e).1).length + (Binary64.shortest tie m e).2 ≤
        16) :
    ∃ n : Numeral, n.Writes (Binary64.ensurePoint (Binary64.plainMagnitude tie m e)).toList
      (Binary64.shortest tie m e).1 (Binary64.shortest tie m e).2 := by
  rw [Binary64.plainMagnitude]
  by_cases hzero : (Binary64.shortest tie m e).1 = 0
  · simp only [hzero, if_true]
    refine ⟨⟨['0'], some ['0'], none⟩, spells_fraction (by decide) (by decide), .inl rfl,
      by decide, ?_⟩
    have hvalue : Literal.natOfDigits (['0'] ++ ['0']) = 0 := by decide
    simp only [exact, Option.getD_some, hvalue, Nat.cast_zero, zero_mul]
  · simp only [hzero, if_false]
    obtain ⟨n, hn⟩ := exists_writes_positional (isDigits_toDigits _) (head?_toDigits_ne hzero)
      (h hzero)
    rw [natOfDigits_toDigits, add_sub_cancel_left] at hn
    exact ⟨n, hn⟩

/-- The text of an exponent with its sign. -/
theorem exponentText_signedExponent (exponent : Int) :
    ExponentText (some (!decide (0 ≤ exponent), Nat.toDigits 10 exponent.natAbs))
      (Binary64.signedExponent exponent).toList := by
  refine ⟨isDigits_toDigits _, 'e', [if 0 ≤ exponent then '+' else '-'], .inl rfl, ?_, ?_⟩
  · by_cases h : 0 ≤ exponent
    · simpa [h] using SignText.plus
    · simpa [h] using SignText.minus
  · rw [Binary64.signedExponent, String.toList_append, Nat.toString_eq_ofList_toDigits,
      String.toList_ofList]
    by_cases h : 0 ≤ exponent <;> simp [h]

/-- It is the power that the exponent stands for. -/
theorem power_signedExponent (exponent : Int) :
    power (some (!decide (0 ≤ exponent), Nat.toDigits 10 exponent.natAbs)) = exponent := by
  rw [power, natOfDigits_toDigits]
  by_cases h : 0 ≤ exponent
  · rw [decide_eq_true h, Int.natAbs_of_nonneg h]
    rfl
  · rw [decide_eq_false h, Int.ofNat_natAbs_of_nonpos (by omega), neg_neg]
    rfl

/-- One digit, a point with the others if there are any, and an exponent. -/
theorem exists_writes_exponent {digits : List Char} (h : IsDigits digits) (exponent : Int) :
    ∃ n : Numeral, n.Writes (String.ofList (digits.take 1) ++
        ((if (digits.drop 1).isEmpty then "" else "." ++ String.ofList (digits.drop 1)) ++
          Binary64.signedExponent exponent)).toList
      (Literal.natOfDigits digits) (exponent + 1 - digits.length) := by
  obtain ⟨d, ds, rfl⟩ := List.exists_cons_of_ne_nil h.ne_nil
  have hwhole : IsWhole [d] := ⟨⟨by simp, by simpa using h.isDigit d⟩, by simp⟩
  have hfraction : FractionText (if ds = [] then none else some ds)
      (if ds.isEmpty then "" else "." ++ String.ofList ds).toList := by
    cases ds with
    | nil => rfl
    | cons c cs =>
      refine ⟨⟨by simp, fun c hc => h.isDigit c (List.mem_cons_of_mem d hc)⟩, ?_⟩
      simp
  have hdigits : (if ds = [] then none else some ds).getD [] = ds := by
    cases ds <;> rfl
  refine ⟨⟨[d], if ds = [] then none else some ds,
      some (!decide (0 ≤ exponent), Nat.toDigits 10 exponent.natAbs)⟩,
    ⟨hwhole, _, _, hfraction, exponentText_signedExponent exponent, ?_⟩, .inr rfl, by simp, ?_⟩
  · simp
  · simp only [exact, hdigits, power_signedExponent, List.singleton_append, List.length_cons]
    congr 2
    push_cast
    omega

/-- A finite number is written as a numeral for its shortest digits. -/
theorem exists_writes_ranged (negative : Bool) (m : Nat) (e : Int) :
    ∃ (n : Numeral) (text : List Char),
      n.Writes text (Binary64.shortest .even m e).1 (Binary64.shortest .even m e).2 ∧
        (Binary64.finite negative m e).ranged.toList = signed negative text := by
  have hsign : ∀ text : String,
      (Binary64.signText negative ++ text).toList = signed negative text.toList := by
    intro text
    cases negative <;> simp [Binary64.signText, signed]
  simp only [Binary64.ranged]
  split
  next hrange =>
    obtain ⟨n, hwrites⟩ := exists_writes_plainMagnitude .even m e
      fun hne => (hrange.resolve_left hne).2
    exact ⟨n, _, hwrites, hsign _⟩
  next =>
    obtain ⟨n, hwrites⟩ := exists_writes_exponent
      (isDigits_toDigits (Binary64.shortest .even m e).1)
      ((Nat.toDigits 10 (Binary64.shortest .even m e).1).length +
        (Binary64.shortest .even m e).2 - 1)
    rw [natOfDigits_toDigits, sub_add_cancel, add_sub_cancel_left] at hwrites
    refine ⟨n, _, hwrites, ?_⟩
    rw [String.append_assoc, String.append_assoc, hsign]

end Numeral

end Json

end ServingCatalog
