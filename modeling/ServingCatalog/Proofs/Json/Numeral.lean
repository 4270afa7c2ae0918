import ServingCatalog.Json.Numeral

/-!
# Numerals scanned

Where a numeral ends does not show in the numeral itself, but in what follows it: `Ends` says that
nothing follows which it could go on with.  `Numeral.Spells` says which texts spell the parts of a
numeral, and `scan_of_spells` that each of them is scanned into these parts, up to such an end.
-/

namespace ServingCatalog

namespace Json

/-- Whether a number could go on with this character. -/
def continuesNumber (c : Char) : Bool := c.isDigit || c = '.' || c = 'e' || c = 'E'

/-- What follows a number: nothing that it could go on with. -/
def Ends (rest : List Char) : Prop := ∀ c ∈ rest.head?, continuesNumber c = false

theorem ends_nil : Ends [] := nofun

/-- It ends before a character that does not go on with it. -/
theorem ends_cons {c : Char} (h : continuesNumber c = false) (rest : List Char) :
    Ends (c :: rest) := by
  intro d hd
  rw [List.head?_cons, Option.mem_some_iff] at hd
  rwa [← hd]

namespace Numeral

/-! ## The texts of a numeral -/

theorem isDigit_iff (c : Char) : c.isDigit = true ↔ 48 ≤ c.toNat ∧ c.toNat ≤ 57 := by
  simp [Char.isDigit, UInt32.le_iff_toNat_le]

/-- At least one digit, and nothing else. -/
structure IsDigits (ds : List Char) : Prop where
  ne_nil : ds ≠ []
  isDigit : ∀ c ∈ ds, c.isDigit = true

/-- The digits before the point: a zero stands alone. -/
structure IsWhole (ds : List Char) : Prop extends IsDigits ds where
  zero : ds.head? = some '0' → ds.length = 1

instance (ds : List Char) : Decidable (IsDigits ds) :=
  decidable_of_iff (ds ≠ [] ∧ ds.all Char.isDigit = true)
    ⟨fun h => ⟨h.1, List.all_eq_true.1 h.2⟩, fun h => ⟨h.1, List.all_eq_true.2 h.2⟩⟩

instance (ds : List Char) : Decidable (IsWhole ds) :=
  decidable_of_iff (IsDigits ds ∧ (ds.head? = some '0' → ds.length = 1))
    ⟨fun h => ⟨h.1, h.2⟩, fun h => ⟨h.1, h.2⟩⟩

/-- The text of a fraction that may be missing. -/
def FractionText : Option (List Char) → List Char → Prop
  | none, text => text = []
  | some ds, text => IsDigits ds ∧ text = '.' :: ds

/-- The text of a sign; a plus may be left out. -/
inductive SignText : Bool → List Char → Prop
  | minus : SignText true ['-']
  | plus : SignText false ['+']
  | none : SignText false []

/-- The text of an exponent that may be missing. -/
def ExponentText : Option (Bool × List Char) → List Char → Prop
  | none, text => text = []
  | some (negative, ds), text =>
    IsDigits ds ∧ ∃ letter sign, (letter = 'e' ∨ letter = 'E') ∧ SignText negative sign ∧
      text = letter :: (sign ++ ds)

/-- The texts of an unsigned numeral. -/
def Spells (n : Numeral) (text : List Char) : Prop :=
  IsWhole n.whole ∧ ∃ fraction exponent, FractionText n.fraction fraction ∧
    ExponentText n.exponent exponent ∧ text = n.whole ++ (fraction ++ exponent)

/-- A numeral starts with a digit. -/
theorem Spells.exists_cons {n : Numeral} {text : List Char} (h : n.Spells text) :
    ∃ c rest, text = c :: rest ∧ c.isDigit = true := by
  obtain ⟨hwhole, fraction, exponent, -, -, rfl⟩ := h
  obtain ⟨c, ds, hds⟩ := List.exists_cons_of_ne_nil hwhole.ne_nil
  refine ⟨c, ds ++ (fraction ++ exponent), by rw [hds, List.cons_append], ?_⟩
  exact hwhole.isDigit c (by rw [hds]; exact List.mem_cons_self)

/-! ## Scanning them -/

/-- No digit comes first. -/
def NoDigit (text : List Char) : Prop := ∀ c ∈ text.head?, c.isDigit = false

theorem noDigit_cons {c : Char} (h : c.isDigit = false) (text : List Char) :
    NoDigit (c :: text) := by
  intro d hd
  rw [List.head?_cons, Option.mem_some_iff] at hd
  rwa [← hd]

theorem noDigit_of_ends {rest : List Char} (h : Ends rest) : NoDigit rest := by
  intro c hc
  have hcontinues := h c hc
  simp only [continuesNumber, Bool.or_eq_false_iff] at hcontinues
  exact hcontinues.1.1.1

/-- All digits up to the first other character are split off. -/
theorem spanDigits_append {ds rest : List Char} (h : ∀ c ∈ ds, c.isDigit = true)
    (hrest : NoDigit rest) : Literal.spanDigits (ds ++ rest) = (ds, rest) := by
  have htake : rest.takeWhile Char.isDigit = [] := by
    cases rest with
    | nil => rfl
    | cons c rest => rw [List.takeWhile_cons_of_neg (by simp [hrest c rfl])]
  have hdrop : rest.dropWhile Char.isDigit = rest := by
    cases rest with
    | nil => rfl
    | cons c rest => rw [List.dropWhile_cons_of_neg (by simp [hrest c rfl])]
  rw [Literal.spanDigits, List.takeWhile_append_of_pos h, List.dropWhile_append_of_pos h, htake,
    hdrop, List.append_nil]

/-- If there are any, they are taken. -/
theorem digits_append {ds rest : List Char} (h : IsDigits ds) (hrest : NoDigit rest) :
    digits (ds ++ rest) = .ok (ds, rest) := by
  rw [digits, spanDigits_append h.isDigit hrest]
  obtain ⟨d, ds, rfl⟩ := List.exists_cons_of_ne_nil h.ne_nil
  rfl

/-- An exponent that is missing or starts with its letter is no digit, and neither is what ends the
number. -/
theorem noDigit_exponent {exponent : Option (Bool × List Char)} {text rest : List Char}
    (h : ExponentText exponent text) (hrest : Ends rest) : NoDigit (text ++ rest) := by
  cases exponent with
  | none =>
    cases h
    exact noDigit_of_ends hrest
  | some parts =>
    obtain ⟨-, letter, sign, hletter, -, rfl⟩ := h
    refine noDigit_cons ?_ _
    rcases hletter with rfl | rfl <;> decide

/-- A fraction is scanned up to the exponent. -/
theorem scanFraction_append {fraction : Option (List Char)} {exponent : Option (Bool × List Char)}
    {text more rest : List Char} (h : FractionText fraction text)
    (hmore : ExponentText exponent more) (hrest : Ends rest) :
    scanFraction (text ++ (more ++ rest)) = .ok (fraction, more ++ rest) := by
  cases fraction with
  | none =>
    cases h
    -- What comes next is the letter of the exponent, or what ends the number: no point.
    have hpoint : ∀ c ∈ (more ++ rest).head?, c ≠ '.' := by
      cases exponent with
      | none =>
        cases hmore
        intro c hc
        rintro rfl
        exact absurd (hrest '.' hc) (by decide)
      | some parts =>
        obtain ⟨-, letter, sign, hletter, -, rfl⟩ := hmore
        intro c hc
        rw [List.cons_append, List.head?_cons, Option.mem_some_iff] at hc
        rw [← hc]
        rcases hletter with rfl | rfl <;> decide
    rw [List.nil_append]
    cases hnext : more ++ rest with
    | nil => rfl
    | cons c tail =>
      rw [hnext] at hpoint
      rw [scanFraction, if_neg (hpoint c rfl)]
  | some ds =>
    obtain ⟨hds, rfl⟩ := h
    rw [List.cons_append, scanFraction, if_pos rfl,
      digits_append hds (noDigit_exponent hmore hrest)]
    rfl

/-- The sign of an exponent is split off; digits that follow no sign are none. -/
theorem splitSign_append {negative : Bool} {sign ds : List Char} (h : SignText negative sign)
    (hds : IsDigits ds) (rest : List Char) :
    Literal.splitSign (sign ++ (ds ++ rest)) = (negative, ds ++ rest) := by
  cases h with
  | minus => rfl
  | plus => rfl
  | none =>
    obtain ⟨d, ds, rfl⟩ := List.exists_cons_of_ne_nil hds.ne_nil
    have hdigit := hds.isDigit d List.mem_cons_self
    have hminus : d ≠ '-' := by
      rintro rfl
      exact absurd hdigit (by decide)
    have hplus : d ≠ '+' := by
      rintro rfl
      exact absurd hdigit (by decide)
    simp [Literal.splitSign, hminus, hplus]

/-- An exponent is scanned up to the end of the number. -/
theorem scanExponent_append {exponent : Option (Bool × List Char)} {text rest : List Char}
    (h : ExponentText exponent text) (hrest : Ends rest) :
    scanExponent (text ++ rest) = .ok (exponent, rest) := by
  cases exponent with
  | none =>
    cases h
    rw [List.nil_append]
    cases rest with
    | nil => rfl
    | cons c rest =>
      have hletter : ¬(c = 'e' ∨ c = 'E') := by
        rintro (rfl | rfl) <;> exact absurd (hrest _ rfl) (by decide)
      rw [scanExponent, if_neg hletter]
  | some parts =>
    obtain ⟨negative, ds⟩ := parts
    obtain ⟨hds, letter, sign, hletter, hsign, rfl⟩ := h
    rw [List.cons_append, List.append_assoc, scanExponent, if_pos hletter,
      splitSign_append hsign hds]
    simp only [digits_append hds (noDigit_of_ends hrest)]
    rfl

/-- **Scanning.**  Each text of a numeral is scanned into its parts. -/
theorem scan_of_spells {n : Numeral} {text : List Char} (h : n.Spells text) {rest : List Char}
    (hrest : Ends rest) : scan (text ++ rest) = .ok (n, rest) := by
  obtain ⟨hwhole, fraction, exponent, hfraction, hexponent, rfl⟩ := h
  have hnext : NoDigit (fraction ++ (exponent ++ rest)) := by
    cases hn : n.fraction with
    | none =>
      rw [hn] at hfraction
      cases hfraction
      rw [List.nil_append]
      exact noDigit_exponent hexponent hrest
    | some ds =>
      rw [hn] at hfraction
      obtain ⟨-, rfl⟩ := hfraction
      exact noDigit_cons (by decide) _
  have hzero : ¬(n.whole.head? = some '0' ∧ n.whole.length ≠ 1) := fun h => h.2 (hwhole.zero h.1)
  rw [List.append_assoc, List.append_assoc]
  simp only [scan, digits_append hwhole.toIsDigits hnext, bind, Except.bind, if_neg hzero, pure,
    Except.pure, scanFraction_append hfraction hexponent hrest,
    scanExponent_append hexponent hrest]

/-- A numeral is read as its value, or refused if it is beyond the range. -/
theorem read_of_spells {n : Numeral} {text : List Char} (h : n.Spells text) {rest : List Char}
    (hrest : Ends rest) (negative : Bool) :
    read negative (text ++ rest) =
      match n.value? negative with
      | some x => .ok (x, rest)
      | none => .error .malformed := by
  cases hvalue : n.value? negative <;> simp only [read, scan_of_spells h hrest, hvalue]

/-- Any numeral is stepped over. -/
theorem skip_of_spells {n : Numeral} {text : List Char} (h : n.Spells text) {rest : List Char}
    (hrest : Ends rest) : skip (text ++ rest) = .ok ((), rest) := by
  rw [skip, scan_of_spells h hrest]

end Numeral

end Json

end ServingCatalog
