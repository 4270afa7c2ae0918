import Mathlib.Data.List.Induction
import ServingCatalog.Proofs.Json.Rendering
import ServingCatalog.Proofs.Text.LetterCase

/-!
# Literals by their grammar

Which texts are integers and which are floating-point numbers, told by their grammar:
`IntegerText` is decimal digits behind an optional sign, and `FloatText` digits with an optional
point and exponent, or a word.  The readers take these texts and no others
(`integer?_eq_some_iff`, `isSome_float?_iff`).

Of the texts of an integer one is `Canonical`: no plus sign, no zeros in front, no sign before
zero.  It is the one that the integer is written as (`canonical_iff`).
-/

namespace ServingCatalog

namespace Literal

open Json (signed)
open Json.Numeral (IsDigits IsWhole SignText ExponentText)
open Text (SameButCase)

/-! ## Integers -/

/-- The integer of a size with a minus sign or without. -/
def withSign (negative : Bool) (size : Nat) : Int := if negative then -(size : Int) else size

/-- The texts of an integer: decimal digits behind an optional sign. -/
def IntegerText (i : Int) (text : List Char) : Prop :=
  ∃ negative sign digits, SignText negative sign ∧ IsDigits digits ∧ text = sign ++ digits ∧
    i = withSign negative (natOfDigits digits)

/-- The text of an integer that has no plus sign, no zeros in front, and no sign before zero. -/
def Canonical (i : Int) (text : List Char) : Prop :=
  ∃ negative digits, IsWhole digits ∧ (negative = true → i ≠ 0) ∧ text = signed negative digits ∧
    i = withSign negative (natOfDigits digits)

/-- A sign is split off, and what follows it is left. -/
theorem exists_sign (text : List Char) :
    ∃ sign, SignText (splitSign text).1 sign ∧ text = sign ++ (splitSign text).2 := by
  unfold splitSign
  split
  next rest => exact ⟨['-'], .minus, rfl⟩
  next rest => exact ⟨['+'], .plus, rfl⟩
  next => exact ⟨[], .none, rfl⟩

/-- An integer is read in three steps: its sign, its digits, and whether it has 64 bits. -/
theorem integer?_eq (text : List Char) :
    integer? text =
      if (splitSign text).2 ≠ [] ∧ (splitSign text).2.all Char.isDigit = true then
        if fitsInt64 (withSign (splitSign text).1 (natOfDigits (splitSign text).2)) = true then
          some (withSign (splitSign text).1 (natOfDigits (splitSign text).2))
        else none
      else none := rfl

/-- **Integers.**  The texts of an integer that fits in 64 bits are read as it, and no others. -/
theorem integer?_eq_some_iff {text : List Char} {i : Int} :
    integer? text = some i ↔ IntegerText i text ∧ fitsInt64 i = true := by
  constructor
  · intro h
    obtain ⟨sign, hsign, htext⟩ := exists_sign text
    rw [integer?_eq] at h
    split at h
    next hdigits =>
      split at h
      next hfits =>
        have hvalue := Option.some.inj h
        rw [← hvalue]
        exact ⟨⟨_, sign, _, hsign, ⟨hdigits.1, List.all_eq_true.1 hdigits.2⟩, htext, rfl⟩, hfits⟩
      next => cases h
    next => cases h
  · rintro ⟨⟨negative, sign, digits, hsign, hdigits, rfl, rfl⟩, hfits⟩
    have hsplit := Json.Numeral.splitSign_append hsign hdigits []
    rw [List.append_nil] at hsplit
    have hall : digits ≠ [] ∧ digits.all Char.isDigit = true :=
      ⟨hdigits.ne_nil, List.all_eq_true.2 hdigits.isDigit⟩
    rw [integer?_eq, hsplit, if_pos hall, if_pos hfits]

/-- A canonical text is one of the integer. -/
theorem Canonical.integerText {i : Int} {text : List Char} (h : Canonical i text) :
    IntegerText i text := by
  obtain ⟨negative, digits, hdigits, -, htext, hvalue⟩ := h
  cases negative with
  | true => exact ⟨true, ['-'], digits, .minus, hdigits.toIsDigits, htext, hvalue⟩
  | false => exact ⟨false, [], digits, .none, hdigits.toIsDigits, htext, hvalue⟩

/-! ## Digits of a natural number -/

/-- A digit is the one that is written for its value. -/
theorem digitChar_digitValue {c : Char} (h : c.isDigit = true) :
    Nat.digitChar (digitValue c) = c ∧ digitValue c < 10 := by
  obtain ⟨hlow, hhigh⟩ := (Json.Numeral.isDigit_iff c).1 h
  have hvalue : digitValue c = c.toNat - 48 := rfl
  have hlt : digitValue c < 10 := by omega
  refine ⟨Char.toNat_inj.1 ?_, hlt⟩
  rw [Nat.toNat_digitChar_of_lt_ten hlt]
  omega

/-- Digits without a zero in front are those of the number they spell.  The induction is from the
end, where the last digit is put on. -/
theorem toDigits_natOfDigits_of_head? {digits : List Char} (h : IsDigits digits)
    (hhead : digits.head? ≠ some '0') : Nat.toDigits 10 (natOfDigits digits) = digits := by
  induction digits using List.reverseRecOn with
  | nil => exact absurd rfl h.ne_nil
  | append_singleton front last ih =>
    have hlast := digitChar_digitValue (h.isDigit last (by simp))
    have hvalue : natOfDigits (front ++ [last]) = 10 * natOfDigits front + digitValue last := by
      rw [natOfDigits, List.foldl_append]
      rfl
    by_cases hempty : front = []
    · subst hempty
      have hsingle : natOfDigits ([] ++ [last]) = digitValue last := by
        rw [hvalue]
        exact Nat.zero_add _
      rw [hsingle, Nat.toDigits_of_lt_base hlast.2, hlast.1]
      rfl
    · rw [Json.Numeral.head?_append hempty] at hhead
      have hfront := ih ⟨hempty, fun c hc => h.isDigit c (List.mem_append_left _ hc)⟩ hhead
      have hpositive : 0 < natOfDigits front := by
        rw [Nat.pos_iff_ne_zero]
        intro hzero
        rw [hzero] at hfront
        exact hhead (by rw [← hfront]; rfl)
      rw [hvalue, ← Nat.toDigits_append_toDigits (by decide) hpositive hlast.2, hfront,
        Nat.toDigits_of_lt_base hlast.2, hlast.1]

/-- Digits as they may stand before a point are those of the number they spell. -/
theorem toDigits_natOfDigits {digits : List Char} (h : IsWhole digits) :
    Nat.toDigits 10 (natOfDigits digits) = digits := by
  by_cases hhead : digits.head? = some '0'
  · obtain ⟨d, hd⟩ := List.length_eq_one_iff.1 (h.zero hhead)
    rw [hd, List.head?_cons, Option.some.injEq] at hhead
    rw [hd, hhead]
    rfl
  · exact toDigits_natOfDigits_of_head? h.toIsDigits hhead

/-- How an integer is written. -/
theorem toList_toString_withSign (negative : Bool) (n : Nat) (h : negative = true → n ≠ 0) :
    (toString (withSign negative n)).toList = signed negative (Nat.toDigits 10 n) := by
  cases negative with
  | false =>
    show (toString n).toList = _
    rw [Nat.toString_eq_ofList_toDigits, String.toList_ofList]
    rfl
  | true =>
    obtain ⟨m, rfl⟩ := Nat.exists_eq_succ_of_ne_zero (h rfl)
    have htext : toString (withSign true (m + 1)) = "-" ++ toString (m + 1) := rfl
    rw [Nat.succ_eq_add_one, htext, String.toList_append, Nat.toString_eq_ofList_toDigits,
      String.toList_ofList (l := Nat.toDigits 10 (m + 1))]
    rfl

/-- The sign of zero does not count. -/
theorem withSign_eq_zero_iff (negative : Bool) (n : Nat) : withSign negative n = 0 ↔ n = 0 := by
  cases negative <;> simp [withSign]

/-- **The canonical text** of an integer is the one it is written as. -/
theorem canonical_iff {i : Int} {text : List Char} :
    Canonical i text ↔ text = (toString i).toList := by
  constructor
  · rintro ⟨negative, digits, hdigits, hsign, rfl, rfl⟩
    have hzero : negative = true → natOfDigits digits ≠ 0 :=
      fun hminus hvalue => hsign hminus ((withSign_eq_zero_iff _ _).2 hvalue)
    rw [toList_toString_withSign negative _ hzero, toDigits_natOfDigits hdigits]
  · rintro rfl
    have hvalue : ∀ n, natOfDigits (Nat.toDigits 10 n) = n := Json.Numeral.natOfDigits_toDigits
    cases i with
    | ofNat n =>
      refine ⟨false, Nat.toDigits 10 n, Json.Numeral.isWhole_toDigits n, nofun, ?_, ?_⟩
      · exact toList_toString_withSign false n nofun
      · rw [hvalue]
        rfl
    | negSucc n =>
      refine ⟨true, Nat.toDigits 10 (n + 1), Json.Numeral.isWhole_toDigits (n + 1),
        fun _ => nofun, ?_, ?_⟩
      · exact toList_toString_withSign true (n + 1) fun _ => nofun
      · rw [hvalue]
        rfl

/-! ## Floating-point numbers -/

/-- Decimal digits, with a point among them or at one end, or with none. -/
inductive PointText : List Char → Prop
  | plain {digits : List Char} (h : IsDigits digits) : PointText digits
  | point {whole fraction : List Char} (hwhole : ∀ c ∈ whole, c.isDigit = true)
      (hfraction : ∀ c ∈ fraction, c.isDigit = true) (h : ¬(whole = [] ∧ fraction = [])) :
      PointText (whole ++ '.' :: fraction)

/-- Digits and an exponent that may be missing. -/
def MagnitudeText (text : List Char) : Prop :=
  ∃ number parts exponent, PointText number ∧ ExponentText parts exponent ∧
    text = number ++ exponent

/-- The words for floating-point numbers that have no digits. -/
def floatWords : List String := ["inf", "infinity", "nan"]

/-- The texts of floating-point numbers. -/
def FloatText (text : List Char) : Prop :=
  ∃ negative sign rest, SignText negative sign ∧ text = sign ++ rest ∧
    ((∃ word ∈ floatWords, SameButCase (String.ofList rest) word) ∨ MagnitudeText rest)

/-- An exponent is read like an integer of any size. -/
theorem exponent?_eq (text : List Char) :
    exponent? text =
      if (splitSign text).2 ≠ [] ∧ (splitSign text).2.all Char.isDigit = true then
        some (withSign (splitSign text).1 (natOfDigits (splitSign text).2))
      else none := rfl

/-- An exponent may be left out. -/
theorem isSome_exponentPart?_iff {text : List Char} :
    (exponentPart? text).isSome = true ↔ ∃ parts, ExponentText parts text := by
  constructor
  · intro h
    cases text with
    | nil => exact ⟨none, rfl⟩
    | cons letter rest =>
      rw [exponentPart?] at h
      split at h
      next hletter =>
        obtain ⟨sign, hsign, hrest⟩ := exists_sign rest
        rw [exponent?_eq] at h
        split at h
        next hdigits =>
          exact ⟨some ((splitSign rest).1, (splitSign rest).2),
            ⟨hdigits.1, List.all_eq_true.1 hdigits.2⟩, letter, sign, hletter, hsign,
            congrArg (letter :: ·) hrest⟩
        next => cases h
      next => cases h
  · rintro ⟨parts, h⟩
    cases parts with
    | none =>
      cases h
      rfl
    | some parts =>
      obtain ⟨hdigits, letter, sign, hletter, hsign, rfl⟩ := h
      have hsplit := Json.Numeral.splitSign_append hsign hdigits []
      rw [List.append_nil] at hsplit
      have hall : parts.2 ≠ [] ∧ parts.2.all Char.isDigit = true :=
        ⟨hdigits.ne_nil, List.all_eq_true.2 hdigits.isDigit⟩
      rw [exponentPart?, if_pos hletter, exponent?_eq, hsplit, if_pos hall]
      rfl

/-- What stands behind the digits of a number is no digit. -/
theorem noDigit_of_exponentText {parts : Option (Bool × List Char)} {text : List Char}
    (h : ExponentText parts text) : Json.Numeral.NoDigit text := by
  have hnext := Json.Numeral.noDigit_exponent h Json.ends_nil
  rwa [List.append_nil] at hnext

/-- What follows digits does not start with a point. -/
theorem head?_ne_point {parts : Option (Bool × List Char)} {text : List Char}
    (h : ExponentText parts text) : ∀ tail, text ≠ '.' :: tail := by
  rintro tail rfl
  cases parts with
  | none => cases h
  | some parts =>
    obtain ⟨-, letter, sign, hletter, -, htext⟩ := h
    rw [List.cons.injEq] at htext
    rcases hletter with rfl | rfl <;> cases htext.1

/-- With a point there must be digits on one side of it. -/
theorem magnitude?_point {negative : Bool} {text tail : List Char}
    (h : (spanDigits text).2 = '.' :: tail) :
    (magnitude? negative text).isSome =
      if (spanDigits text).1 = [] ∧ (spanDigits tail).1 = [] then false
      else (exponentPart? (spanDigits tail).2).isSome := by
  rw [magnitude?]
  simp only [h]
  split
  · rfl
  · rw [Option.isSome_map]

/-- Without a point there must be digits in front. -/
theorem magnitude?_no_point {negative : Bool} {text : List Char}
    (h : ∀ tail, (spanDigits text).2 ≠ '.' :: tail) :
    (magnitude? negative text).isSome =
      if (spanDigits text).1 = [] then false
      else (exponentPart? (spanDigits text).2).isSome := by
  rw [magnitude?]
  simp only [and_true]
  split
  · rfl
  · rw [Option.isSome_map]

/-- Digits are spanned as far as they go. -/
theorem spanDigits_isDigits (text : List Char) :
    (∀ c ∈ (spanDigits text).1, c.isDigit = true) ∧
      text = (spanDigits text).1 ++ (spanDigits text).2 :=
  ⟨fun c hc => List.all_eq_true.1 List.all_takeWhile c hc, List.takeWhile_append_dropWhile.symm⟩

/-- **Magnitudes.**  Digits with a point and an exponent are read, and no other texts. -/
theorem isSome_magnitude?_iff (negative : Bool) {text : List Char} :
    (magnitude? negative text).isSome = true ↔ MagnitudeText text := by
  constructor
  · intro h
    obtain ⟨hwhole, htext⟩ := spanDigits_isDigits text
    by_cases hpoint : ∃ tail, (spanDigits text).2 = '.' :: tail
    · obtain ⟨tail, htail⟩ := hpoint
      obtain ⟨hfraction, hrest⟩ := spanDigits_isDigits tail
      rw [magnitude?_point htail] at h
      split at h
      next => cases h
      next hsome =>
        obtain ⟨parts, hparts⟩ := isSome_exponentPart?_iff.1 h
        refine ⟨(spanDigits text).1 ++ '.' :: (spanDigits tail).1, parts, _,
          .point hwhole hfraction hsome, hparts, ?_⟩
        rw [List.append_assoc, List.cons_append, ← hrest, ← htail]
        exact htext
    · have hno : ∀ tail, (spanDigits text).2 ≠ '.' :: tail := fun tail heq => hpoint ⟨tail, heq⟩
      rw [magnitude?_no_point hno] at h
      split at h
      next => cases h
      next hsome =>
        obtain ⟨parts, hparts⟩ := isSome_exponentPart?_iff.1 h
        exact ⟨_, parts, _, .plain ⟨hsome, hwhole⟩, hparts, htext⟩
  · rintro ⟨number, parts, exponent, hnumber, hexponent, rfl⟩
    have hnext := noDigit_of_exponentText hexponent
    have hsome := isSome_exponentPart?_iff.2 ⟨parts, hexponent⟩
    cases hnumber with
    | plain h =>
      have hspan := Json.Numeral.spanDigits_append h.isDigit hnext
      rw [magnitude?_no_point (by rw [hspan]; exact head?_ne_point hexponent), hspan,
        if_neg h.ne_nil]
      exact hsome
    | @point whole fraction hwhole hfraction h =>
      have hpoint : Json.Numeral.NoDigit ('.' :: (fraction ++ exponent)) :=
        Json.Numeral.noDigit_cons (by decide) _
      have hspan := Json.Numeral.spanDigits_append hwhole hpoint
      have hrest := Json.Numeral.spanDigits_append hfraction hnext
      rw [List.append_assoc, List.cons_append, magnitude?_point (by rw [hspan]), hspan, hrest,
        if_neg h]
      exact hsome

/-- A text is a word in some case if it is the word in small letters. -/
theorem sameButCase_iff {text : List Char} {word : String}
    (h : word.toList.map Char.toLower = word.toList) :
    SameButCase (String.ofList text) word ↔ String.ofList (text.map Char.toLower) = word := by
  rw [SameButCase, String.toList_ofList, h]
  constructor
  · intro hlower
    rw [hlower, String.ofList_toList]
  · intro hword
    rw [← hword, String.toList_ofList]

/-- A sign that is missing is not split off, as long as none comes first. -/
theorem splitSign_of_head? {negative : Bool} {sign rest : List Char} (h : SignText negative sign)
    (hhead : ∀ c ∈ rest.head?, c ≠ '-' ∧ c ≠ '+') : splitSign (sign ++ rest) = (negative, rest) := by
  cases h with
  | minus => rfl
  | plus => rfl
  | none =>
    cases rest with
    | nil => rfl
    | cons c rest =>
      obtain ⟨hminus, hplus⟩ := hhead c rfl
      simp [splitSign, hminus, hplus]

/-- A word starts with a letter. -/
theorem head?_ne_sign_of_word {rest : List Char} {word : String} (hword : word ∈ floatWords)
    (h : SameButCase (String.ofList rest) word) : ∀ c ∈ rest.head?, c ≠ '-' ∧ c ≠ '+' := by
  have hletters : ∀ word ∈ floatWords,
      word.toList.head?.all (fun c => c.toLower = 'i' ∨ c.toLower = 'n') = true := by decide
  have hlower : rest.head?.map Char.toLower = word.toList.head?.map Char.toLower := by
    rw [← List.head?_map, ← List.head?_map, ← h, String.toList_ofList]
  intro c hc
  rw [Option.mem_def.1 hc, Option.map_some, eq_comm, Option.map_eq_some_iff] at hlower
  obtain ⟨d, hd, hsame⟩ := hlower
  have hletter := hletters word hword
  rw [hd, Option.all_some, decide_eq_true_eq, hsame] at hletter
  constructor
  · rintro rfl
    exact absurd hletter (by decide)
  · rintro rfl
    exact absurd hletter (by decide)

/-- A number starts with a digit or a point. -/
theorem PointText.exists_cons {text : List Char} (h : PointText text) :
    ∃ c rest, text = c :: rest ∧ (c.isDigit = true ∨ c = '.') := by
  cases h with
  | plain h =>
    obtain ⟨c, rest, rfl⟩ := List.exists_cons_of_ne_nil h.ne_nil
    exact ⟨c, rest, rfl, .inl (h.isDigit c List.mem_cons_self)⟩
  | @point whole fraction hwhole =>
    cases whole with
    | nil => exact ⟨'.', fraction, rfl, .inr rfl⟩
    | cons c whole => exact ⟨c, _, rfl, .inl (hwhole c List.mem_cons_self)⟩

/-- A magnitude does not start with a sign. -/
theorem head?_ne_sign_of_magnitude {rest : List Char} (h : MagnitudeText rest) :
    ∀ c ∈ rest.head?, c ≠ '-' ∧ c ≠ '+' := by
  obtain ⟨number, parts, exponent, hnumber, -, rfl⟩ := h
  obtain ⟨first, more, rfl, hfirst⟩ := hnumber.exists_cons
  intro c hc
  rw [List.cons_append, List.head?_cons, Option.mem_some_iff] at hc
  rw [hc] at hfirst
  constructor
  · rintro rfl
    exact absurd hfirst (by decide)
  · rintro rfl
    exact absurd hfirst (by decide)

/-- **Floating-point numbers.**  Words and magnitudes behind an optional sign are read, and no other
texts. -/
theorem isSome_float?_iff {text : List Char} : (float? text).isSome = true ↔ FloatText text := by
  have hwords : ∀ word ∈ floatWords, word.toList.map Char.toLower = word.toList := by decide
  have hread : ∀ negative rest, splitSign text = (negative, rest) →
      ((float? text).isSome = true ↔
        (∃ word ∈ floatWords, SameButCase (String.ofList rest) word) ∨ MagnitudeText rest) := by
    intro negative rest hsplit
    have hword : (∃ word ∈ floatWords, SameButCase (String.ofList rest) word) ↔
        String.ofList (rest.map Char.toLower) ∈ floatWords := by
      constructor
      · rintro ⟨word, hmem, hsame⟩
        rw [(sameButCase_iff (hwords word hmem)).1 hsame]
        exact hmem
      · intro hmem
        exact ⟨_, hmem, (sameButCase_iff (hwords _ hmem)).2 rfl⟩
    rw [hword, ← isSome_magnitude?_iff negative, float?, hsplit]
    simp only [floatWords, List.mem_cons, List.not_mem_nil, or_false]
    split
    next hinf => rcases hinf with h | h <;> simp [h]
    next hinf =>
      split
      next hnan => simp [hnan]
      next hnan => simp [not_or.1 hinf, hnan]
  constructor
  · intro h
    obtain ⟨sign, hsign, htext⟩ := exists_sign text
    exact ⟨_, sign, _, hsign, htext, (hread _ _ rfl).1 h⟩
  · rintro ⟨negative, sign, rest, hsign, htext, hrest⟩
    have hhead : ∀ c ∈ rest.head?, c ≠ '-' ∧ c ≠ '+' := by
      rcases hrest with ⟨word, hmem, hsame⟩ | hmagnitude
      · exact head?_ne_sign_of_word hmem hsame
      · exact head?_ne_sign_of_magnitude hmagnitude
    have hsplit := splitSign_of_head? hsign hhead
    rw [← htext] at hsplit
    exact (hread negative rest hsplit).2 hrest

end Literal

end ServingCatalog
