import ServingCatalog.Proofs.Decimal.Shortest
import ServingCatalog.Proofs.Json.Rendering

/-!
# Numbers read back

An integer of 64 bits is read back as itself.  A floating-point number need not be, since a text is
read in two roundings: `Binary64.reread` is the number that its text is read as.  There always is
one (`Binary64.parse_ranged`): the shortest digits are hardly larger than the number itself, and so
its text is not out of range.

The one fact that the readers need is `Number.exists_numeral`.
-/

namespace ServingCatalog

namespace Json

/-- A numeral behind its sign is read as its value, or refused if it is beyond the range. -/
theorem value_signed (depth : Nat) {n : Numeral} {text : List Char} (h : n.Spells text)
    (negative : Bool) {rest : List Char} (hrest : Ends rest) :
    value .keep depth (signed negative text ++ rest) =
      match n.value? negative with
      | some x => .ok (.number x, rest)
      | none => .error .malformed := by
  obtain ⟨array, object, hvalue⟩ := exists_value_eq .keep depth
  have hread : (readNumber .keep negative).map Json.number (text ++ rest) =
      match n.value? negative with
      | some x => .ok (.number x, rest)
      | none => .error .malformed := by
    simp only [Reader.map, readNumber, Numeral.read_of_spells h hrest negative]
    cases n.value? negative <;> rfl
  rw [hvalue]
  cases negative with
  | true => exact hread
  | false =>
    obtain ⟨c, tail, rfl, hdigit⟩ := h.exists_cons
    rw [signed, List.cons_append, valueWith_digit .keep array object hdigit]
    exact hread

end Json

/-- The number that the text of a floating-point number is read as, if any. -/
def Binary64.reread? (x : Binary64) : Option Binary64 :=
  match Json.parse x.ranged with
  | .ok (.number (.float y)) => some y
  | _ => none

/-- The number that the text of a floating-point number is read as. -/
def Binary64.reread (x : Binary64) : Binary64 := x.reread?.getD x

/-- A finite number that has 64 bits. -/
def Binary64.IsDouble : Binary64 → Prop
  | .finite _ m e => m < 2 ^ 53 ∧ -1074 ≤ e ∧ e ≤ 971
  | _ => False

namespace Binary64

open Json Numeral

/-- The two largest numbers lie closer to the end of the range than `largest`. -/
theorem isSome_reread?_of_large (negative : Bool) {m : Nat} (hlow : 2 ^ 53 - 3 < m)
    (hhigh : m < 2 ^ 53) : (finite negative m 971).reread?.isSome = true := by
  have hlarge : m = 2 ^ 53 - 2 ∨ m = 2 ^ 53 - 1 := by omega
  rcases hlarge with rfl | rfl <;> cases negative <;> decide +kernel

/-- All others are written as decimals up to `largest`. -/
theorem shortest_le_largest {m : Nat} {e : Int} (hm : m < 2 ^ 53) (he : e ≤ 971)
    (h : e = 971 → m ≤ 2 ^ 53 - 3) :
    ((shortest .even m e).1 * 10 ^ (shortest .even m e).2 : ℚ) ≤ largest := by
  refine (shortest_le .even m e).trans ?_
  rcases eq_or_lt_of_le he with rfl | hlt
  · have hmantissa : (m : ℚ) ≤ 2 ^ 53 - 3 := by
      have hle := h rfl
      have hcast : ((m + 3 : Nat) : ℚ) ≤ (2 ^ 53 : Nat) := Nat.cast_le.2 (by omega)
      push_cast at hcast
      linarith
    exact mul_le_mul_of_nonneg_right (by linarith) (by positivity)
  · have hmantissa : (m : ℚ) ≤ 2 ^ 53 - 1 := by
      have hcast : ((m + 1 : Nat) : ℚ) ≤ (2 ^ 53 : Nat) := Nat.cast_le.2 hm
      push_cast at hcast
      linarith
    have hpower : (2 : ℚ) ^ e ≤ 2 ^ (970 : Int) :=
      zpow_le_zpow_right₀ (by norm_num) (by omega)
    have hdouble : (2 : ℚ) ^ (971 : Int) = 2 ^ (970 : Int) * 2 := by
      rw [← zpow_add_one₀ (by norm_num)]
      rfl
    have hunit : (0 : ℚ) < 2 ^ (970 : Int) := by positivity
    calc ((m + 1 / 2) * 2 ^ e : ℚ) ≤ (2 ^ 53 - 1 / 2) * 2 ^ (970 : Int) :=
          mul_le_mul (by linarith) hpower (by positivity) (by norm_num)
      _ ≤ (2 ^ 53 - 5 / 2) * 2 ^ (971 : Int) := by
          rw [hdouble, mul_comm _ 2, ← mul_assoc]
          exact mul_le_mul_of_nonneg_right (by norm_num) hunit.le

/-- **Reading back.**  The text of a floating-point number is read as one. -/
theorem parse_ranged {x : Binary64} (h : x.IsDouble) :
    parse x.ranged = .ok (.number (.float x.reread)) := by
  have hsome : x.reread?.isSome = true := by
    cases x with
    | infinite negative => exact h.elim
    | notANumber => exact h.elim
    | finite negative m e =>
      obtain ⟨hm, -, he⟩ := h
      by_cases hlarge : e = 971 ∧ 2 ^ 53 - 3 < m
      · obtain ⟨rfl, hlow⟩ := hlarge
        exact isSome_reread?_of_large negative hlow hm
      · obtain ⟨n, text, hwrites, htext⟩ := exists_writes_ranged negative m e
        have hlargest := shortest_le_largest hm he (by omega)
        obtain ⟨y, hy⟩ := Option.isSome_iff_exists.1
          (isSome_float? negative hwrites.spells.1 hwrites.short
            (hwrites.exact.trans_le hlargest))
        have hread := value_signed maxDepth hwrites.spells negative ends_nil
        rw [List.append_nil, value?_of_shows hwrites.shows, hy, ← htext] at hread
        rw [reread?, parse, readWhole, hread]
        rfl
  obtain ⟨y, hy⟩ := Option.isSome_iff_exists.1 hsome
  rw [reread, hy]
  rw [reread?] at hy
  split at hy
  next hparse =>
    cases hy
    exact hparse
  next => cases hy

end Binary64

namespace Number

/-- What a value can hold: an integer of 64 bits, signed or not, or a finite floating-point
number. -/
def Storable : Number → Prop
  | .int i => -0x8000000000000000 ≤ i ∧ i ≤ Json.Numeral.maxSignificand
  | .float x => x.IsDouble

/-- The number that the text of a number is read as. -/
def reread : Number → Number
  | .int i => .int i
  | .float x => .float x.reread

open Json Numeral

theorem exists_numeral_int {i : Int} (h : (Number.int i).Storable) :
    ∃ negative n text, Numeral.Spells n text ∧ (toString i).toList = signed negative text ∧
      n.value? negative = some (.int i) := by
  obtain ⟨hlow, hhigh⟩ := h
  cases i with
  | ofNat k =>
    refine ⟨false, ofNat k, _, spells_ofNat k, rfl, ?_⟩
    have hsize : k ≤ maxSignificand := by
      rw [Int.ofNat_eq_natCast] at hhigh
      omega
    simp [value?, Numeral.ofNat, natOfDigits_toDigits, hsize]
  | negSucc k =>
    refine ⟨true, ofNat (k + 1), _, spells_ofNat (k + 1), ?_, ?_⟩
    · rw [signed, show toString (Int.negSucc k) = "-" ++ toString (k + 1) from rfl,
        String.toList_append]
      rfl
    · have hsize : k + 1 ≤ maxSignificand := by
        rw [maxSignificand]
        omega
      have hhalf : k + 1 ≤ 0x8000000000000000 := by omega
      simp only [value?, Numeral.ofNat, natOfDigits_toDigits, hsize, hhalf]
      simp [Int.negSucc_eq]

/-- **Numbers.**  What is written for a number is a numeral behind a sign, of the value that the
text is read as. -/
theorem exists_numeral {x : Number} (h : x.Storable) :
    ∃ negative n text, Numeral.Spells n text ∧ x.render.toList = signed negative text ∧
      n.value? negative = some x.reread := by
  cases x with
  | int i => exact exists_numeral_int h
  | float x =>
    cases x with
    | infinite negative => exact h.elim
    | notANumber => exact h.elim
    | finite negative m e =>
      obtain ⟨n, text, hwrites, htext⟩ := exists_writes_ranged negative m e
      refine ⟨negative, n, text, hwrites.spells, htext, ?_⟩
      -- What is read from the numeral is what is read from the whole text.
      have hread := value_signed maxDepth hwrites.spells negative ends_nil
      have hparse := Binary64.parse_ranged (x := .finite negative m e) h
      rw [List.append_nil, ← htext] at hread
      rw [parse, readWhole, hread] at hparse
      cases hvalue : n.value? negative with
      | none =>
        rw [hvalue] at hparse
        cases hparse
      | some y =>
        rw [hvalue] at hparse
        cases hparse
        rfl

end Number

end ServingCatalog
