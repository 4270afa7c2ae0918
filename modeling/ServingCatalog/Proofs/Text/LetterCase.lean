import ServingCatalog.Text.LowerCase

/-!
# The case of letters

Two texts are the same but for the case of ASCII letters if these letters are the same ones once
they are all made small: `Text.SameButCase`.  Such texts also have the same small form, in which
letters of all scripts are small (`lower_eq_of_sameButCase`): a final sigma depends on the
characters around it, but not on their case.

Small letters stay as they are.  No character of a small form is a capital letter
(`isSmall_of_mem_lower`), and a text of such characters is its own small form
(`lower_eq_self`).
-/

namespace ServingCatalog

namespace Text

/-! ## ASCII letters -/

/-- The same text, but for the case of ASCII letters. -/
def SameButCase (one other : String) : Prop :=
  one.toList.map Char.toLower = other.toList.map Char.toLower

instance (one other : String) : Decidable (SameButCase one other) :=
  inferInstanceAs (Decidable (_ = _))

/-- Small letters of ASCII are 32 places behind the capital ones. -/
theorem toNat_toLower (c : Char) :
    c.toLower.toNat = if 65 ≤ c.toNat ∧ c.toNat ≤ 90 then c.toNat + 32 else c.toNat := by
  unfold Char.toLower
  simp only [ge_iff_le, UInt32.le_iff_toNat_le, Char.toNat_val]
  split
  next h =>
    change 65 ≤ c.toNat ∧ c.toNat ≤ 90 at h
    rw [if_pos h]
    show (c.val + 32).toNat = _
    rw [UInt32.toNat_add]
    show (c.toNat + 32) % 2 ^ 32 = _
    omega
  next h =>
    change ¬(65 ≤ c.toNat ∧ c.toNat ≤ 90) at h
    rw [if_neg h]

theorem isAlpha_iff (c : Char) :
    c.isAlpha = true ↔ (65 ≤ c.toNat ∧ c.toNat ≤ 90) ∨ (97 ≤ c.toNat ∧ c.toNat ≤ 122) := by
  have hletter : c.isAlpha =
      (decide (c.val ≥ 65 ∧ c.val ≤ 90) || (decide (c.val ≥ 97) && decide (c.val ≤ 122))) := rfl
  simp [hletter, UInt32.le_iff_toNat_le]

/-- Only letters differ in case. -/
theorem eq_or_isAlpha_of_toLower_eq {c d : Char} (h : c.toLower = d.toLower) :
    c = d ∨ c.isAlpha = true ∧ d.isAlpha = true := by
  have hnat := congrArg Char.toNat h
  rw [toNat_toLower, toNat_toLower] at hnat
  rw [isAlpha_iff, isAlpha_iff]
  by_cases hsame : c.toNat = d.toNat
  · exact .inl (Char.toNat_inj.1 hsame)
  · right
    split at hnat <;> split at hnat <;> omega

/-! ## Small forms of letters in either case -/

theorem isCased_of_isAlpha {c : Char} (h : c.isAlpha = true) : isCased c = true := by
  rw [isAlpha_iff] at h
  rw [isCased, covers_iff]
  rcases h with hupper | hlower
  · exact ⟨(65, 90), by decide, hupper⟩
  · exact ⟨(97, 122), by decide, hlower⟩

/-- No range of what case is looked across reaches into the letters. -/
theorem caseIgnorableRanges_apart : ∀ r ∈ caseIgnorableRanges,
    r.2 < 65 ∨ (90 < r.1 ∧ r.2 < 97) ∨ 122 < r.1 := by
  decide +kernel

/-- None of them is passed over. -/
theorem not_isCaseIgnorable_of_isAlpha {c : Char} (h : c.isAlpha = true) :
    isCaseIgnorable c = false := by
  rw [isAlpha_iff] at h
  rw [isCaseIgnorable, Bool.eq_false_iff]
  intro hcovers
  obtain ⟨r, hr, hlow, hhigh⟩ := covers_iff.1 hcovers
  have hapart := caseIgnorableRanges_apart r hr
  omega

/-- Whether a text starts with a cased letter does not depend on its case. -/
theorem startsCased_eq {one other : List Char} (h : one.map Char.toLower = other.map Char.toLower) :
    startsCased one = startsCased other := by
  induction one generalizing other with
  | nil =>
    have hother : other = [] := List.map_eq_nil_iff.1 h.symm
    rw [hother]
  | cons c one ih =>
    cases other with
    | nil => cases h
    | cons d other =>
      obtain ⟨hfirst, hrest⟩ := List.cons.inj h
      have hstep := ih hrest
      rcases eq_or_isAlpha_of_toLower_eq hfirst with rfl | ⟨hc, hd⟩
      · cases hignored : isCaseIgnorable c with
        | true => simpa [startsCased, hignored] using hstep
        | false => simp [startsCased, hignored]
      · simp [startsCased, not_isCaseIgnorable_of_isAlpha hc, not_isCaseIgnorable_of_isAlpha hd,
          isCased_of_isAlpha hc, isCased_of_isAlpha hd]

/-- Characters that differ in the case of ASCII have the same small form. -/
theorem lowerChar_eq {c d : Char} (h : c.toLower = d.toLower) : lowerChar c = lowerChar d := by
  rcases eq_or_isAlpha_of_toLower_eq h with rfl | ⟨hc, hd⟩
  · rfl
  · rw [isAlpha_iff] at hc hd
    have hclow : c.toNat < 0x80 := by omega
    have hdlow : d.toNat < 0x80 := by omega
    simp only [lowerChar, hclow, hdlow, if_true]
    exact h

/-- Characters that differ in case are none of the two with small forms of their own. -/
theorem eq_iff_of_toLower_eq {c d special : Char} (h : c.toLower = d.toLower)
    (hspecial : special.isAlpha = false) : c = special ↔ d = special := by
  rcases eq_or_isAlpha_of_toLower_eq h with rfl | ⟨hc, hd⟩
  · exact Iff.rfl
  · constructor
    · rintro rfl
      rw [hspecial] at hc
      cases hc
    · rintro rfl
      rw [hspecial] at hd
      cases hd

/-- Small forms in a context.  The induction is on what follows, and what comes before may differ
in case as well. -/
theorem lowerChars_eq {one other before others : List Char}
    (h : one.map Char.toLower = other.map Char.toLower)
    (hbefore : before.map Char.toLower = others.map Char.toLower) :
    lowerChars before one = lowerChars others other := by
  induction one generalizing other before others with
  | nil =>
    have hother : other = [] := List.map_eq_nil_iff.1 h.symm
    rw [hother]
    rfl
  | cons c one ih =>
    cases other with
    | nil => cases h
    | cons d other =>
      obtain ⟨hfirst, hrest⟩ := List.cons.inj h
      have hnext : (c :: before).map Char.toLower = (d :: others).map Char.toLower := by
        rw [List.map_cons, List.map_cons, hfirst, hbefore]
      have htail := ih hrest hnext
      have hsigma : c = 'Σ' ↔ d = 'Σ' := eq_iff_of_toLower_eq hfirst rfl
      have hdotted : c = 'İ' ↔ d = 'İ' := eq_iff_of_toLower_eq hfirst rfl
      simp only [lowerChars, hsigma, hdotted, startsCased_eq hbefore, startsCased_eq hrest,
        lowerChar_eq hfirst, htail]

/-- **Case does not matter** for the small form of a text. -/
theorem lower_eq_of_sameButCase {one other : String} (h : SameButCase one other) :
    lower one = lower other := by
  rw [lower, lower, lowerChars_eq h rfl]

/-! ## Small letters -/

/-- A character that has no other small form. -/
structure IsSmall (c : Char) : Prop where
  lowerChar_eq : lowerChar c = c
  ne_sigma : c ≠ 'Σ'
  ne_dotted : c ≠ 'İ'

/-- A run of letters: the first, the last, the step, and what to add for the small form. -/
abbrev Run := Nat × Nat × Nat × Int

/-- The run holds the code point. -/
def Run.Holds (run : Run) (n : Nat) : Prop :=
  run.1 ≤ n ∧ n ≤ run.2.1 ∧ (n - run.1) % run.2.2.1 = 0

/-- The code point of the small form of the first letter. -/
def Run.small (run : Run) : Nat := (run.1 + run.2.2.2).toNat

/-- Whether small forms of a run, from the one given on, lie outside of another run: before it,
behind it, or between its letters. -/
def Run.misses (run : Run) (small : Nat) (other : Run) : Bool :=
  Nat.blt (small + (run.2.1 - run.1)) other.1 || Nat.blt other.2.1 small ||
    (other.2.2.1 == 2 && (run.2.2.1 == 2 || run.1 == run.2.1) && (small + other.1) % 2 == 1)

/-- All capital letters: those of ASCII, the dotted one, and those in runs. -/
def capitalRuns : List Run := (65, 90, 1, 32) :: (304, 304, 1, 0) :: lowerCaseRuns

/-- The small form of a capital letter is no capital letter: the runs of the table miss each other.
-/
theorem misses_capitalRuns :
    lowerCaseRuns.all fun run => capitalRuns.all (Run.misses run (Run.small run)) := by
  decide +kernel

/-- Small forms have code points. -/
theorem small_nonneg : ∀ run ∈ lowerCaseRuns, 0 ≤ (run.1 : Int) + run.2.2.2 := by
  decide +kernel

/-- What is moved out of a run by its distance is not in a run that it misses. -/
theorem Run.not_holds_of_misses {run other : Run} (hsmall : 0 ≤ (run.1 : Int) + run.2.2.2)
    (h : run.misses run.small other = true) {n : Nat} (hrun : run.Holds n) :
    ¬other.Holds (n + run.2.2.2).toNat := by
  obtain ⟨first, last, step, add⟩ := run
  obtain ⟨start, stop, stride, more⟩ := other
  simp only [misses, small, Holds, Bool.or_eq_true, Bool.and_eq_true, beq_iff_eq,
    Nat.blt_eq] at h hrun hsmall ⊢
  rcases h with (hbefore | hbehind) | ⟨⟨rfl, rfl | rfl⟩, hodd⟩ <;> omega

/-- A character whose code point is in no run of capital letters is small. -/
theorem isSmall_of_not_holds {c : Char} (h : ∀ run ∈ capitalRuns, ¬run.Holds c.toNat) :
    IsSmall c := by
  have hchar : lowerChar c = c := by
    rw [lowerChar]
    split
    next hascii =>
      have hnot := h (65, 90, 1, 32) (by decide)
      have hnat := toNat_toLower c
      rw [if_neg fun hupper => hnot ⟨hupper.1, hupper.2, Nat.mod_one _⟩] at hnat
      exact Char.toNat_inj.1 hnat
    next hother =>
      split
      next first last step add hfind =>
        exfalso
        have hmem : (first, last, step, add) ∈ lowerCaseRuns := List.mem_of_find?_eq_some hfind
        have hholds := List.find?_some hfind
        simp only [Bool.and_eq_true, decide_eq_true_eq, beq_iff_eq] at hholds
        exact h (first, last, step, add) (List.mem_cons_of_mem _ (List.mem_cons_of_mem _ hmem))
          ⟨hholds.1.1, hholds.1.2, hholds.2⟩
      next => rfl
  refine ⟨hchar, ?_, ?_⟩
  · rintro rfl
    exact absurd hchar (by decide +kernel)
  · rintro rfl
    exact h (304, 304, 1, 0) (by decide) ⟨by decide, by decide, by decide⟩

/-- Beyond ASCII, runs of capital letters are found beyond ASCII only. -/
theorem le_of_mem_lowerCaseRuns : ∀ run ∈ lowerCaseRuns, 0x80 ≤ run.1 := by
  decide +kernel

/-- Of the ASCII characters all but the capital letters are small. -/
theorem isSmall_of_lt {c : Char} (h : c.toNat < 0x80) (hupper : ¬(65 ≤ c.toNat ∧ c.toNat ≤ 90)) :
    IsSmall c := by
  apply isSmall_of_not_holds
  intro run hrun hholds
  have hlow := hholds.1
  simp only [capitalRuns, List.mem_cons] at hrun
  rcases hrun with rfl | rfl | hrun
  · exact hupper ⟨hholds.1, hholds.2.1⟩
  · simp only at hlow
    omega
  · have hfirst := le_of_mem_lowerCaseRuns run hrun
    omega

theorem toNat_ofNat (n : Nat) : (Char.ofNat n).toNat = if n.isValidChar then n else 0 := by
  by_cases hvalid : n.isValidChar
  · rw [if_pos hvalid, Char.ofNat, dif_pos hvalid]
    rfl
  · rw [if_neg hvalid, Char.ofNat, dif_neg hvalid]
    rfl

/-- The small form of a letter of a run is small. -/
theorem isSmall_of_holds {run : Run} (hmem : run ∈ lowerCaseRuns) {n : Nat} (h : run.Holds n) :
    IsSmall (Char.ofNat ((n : Int) + run.2.2.2).toNat) := by
  by_cases hvalid : ((n : Int) + run.2.2.2).toNat.isValidChar
  · apply isSmall_of_not_holds
    intro other hother
    rw [toNat_ofNat, if_pos hvalid]
    have hmisses := List.all_eq_true.1 (List.all_eq_true.1 misses_capitalRuns run hmem)
    exact Run.not_holds_of_misses (small_nonneg run hmem) (hmisses other hother) h
  · have hzero : (Char.ofNat ((n : Int) + run.2.2.2).toNat).toNat = 0 := by
      rw [toNat_ofNat, if_neg hvalid]
    exact isSmall_of_lt (by omega) (by omega)

/-- The small form of a letter is small. -/
theorem isSmall_lowerChar {c : Char} (h : c ≠ 'İ') : IsSmall (lowerChar c) := by
  rw [lowerChar]
  split
  next hascii =>
    have hnat := toNat_toLower c
    split at hnat
    · exact isSmall_of_lt (by omega) (by omega)
    · exact isSmall_of_lt (by omega) (by omega)
  next hother =>
    split
    next first last step add hfind =>
      have hmem : (first, last, step, add) ∈ lowerCaseRuns := List.mem_of_find?_eq_some hfind
      have hholds := List.find?_some hfind
      simp only [Bool.and_eq_true, decide_eq_true_eq, beq_iff_eq] at hholds
      have hrun : Run.Holds (first, last, step, add) c.toNat :=
        ⟨hholds.1.1, hholds.1.2, hholds.2⟩
      exact isSmall_of_holds hmem hrun
    next hfind =>
      apply isSmall_of_not_holds
      intro run hrun hholds
      simp only [capitalRuns, List.mem_cons] at hrun
      rcases hrun with rfl | rfl | hrun
      · have hhigh : c.toNat ≤ 90 := hholds.2.1
        omega
      · have hlow : 304 ≤ c.toNat := hholds.1
        have hhigh : c.toNat ≤ 304 := hholds.2.1
        have hdotted : c.toNat = 'İ'.toNat := Nat.le_antisymm hhigh hlow
        exact h (Char.toNat_inj.1 hdotted)
      · rw [List.find?_eq_none] at hfind
        apply hfind run hrun
        obtain ⟨hlow, hhigh, hstep⟩ := hholds
        simp [hlow, hhigh, hstep]

/-- All characters of a text in small letters are small. -/
theorem isSmall_of_mem_lowerChars {before text : List Char} {c : Char}
    (h : c ∈ lowerChars before text) : IsSmall c := by
  induction text generalizing before with
  | nil => cases h
  | cons first text ih =>
    rw [lowerChars, List.mem_append] at h
    rcases h with hfirst | hrest
    · by_cases hsigma : first = 'Σ'
      · have hform : c = 'ς' ∨ c = 'σ' := by
          rw [if_pos hsigma, List.mem_singleton] at hfirst
          split at hfirst
          · exact .inl hfirst
          · exact .inr hfirst
        rcases hform with rfl | rfl
        · exact ⟨by decide +kernel, by decide, by decide⟩
        · exact ⟨by decide +kernel, by decide, by decide⟩
      · by_cases hdotted : first = 'İ'
        · rw [if_neg hsigma, if_pos hdotted] at hfirst
          simp only [List.mem_cons, List.not_mem_nil, or_false] at hfirst
          rcases hfirst with rfl | rfl
          · exact ⟨by decide +kernel, by decide, by decide⟩
          · exact ⟨by decide +kernel, by decide, by decide⟩
        · rw [if_neg hsigma, if_neg hdotted, List.mem_singleton] at hfirst
          rw [hfirst]
          exact isSmall_lowerChar hdotted
    · exact ih hrest

/-- **Small forms are small.**  No character of a small form is a capital letter. -/
theorem isSmall_of_mem_lower {text : String} {c : Char} (h : c ∈ (lower text).toList) :
    IsSmall c := by
  rw [lower, String.toList_ofList] at h
  exact isSmall_of_mem_lowerChars h

/-- Small characters stay as they are. -/
theorem lowerChars_eq_self {before text : List Char} (h : ∀ c ∈ text, IsSmall c) :
    lowerChars before text = text := by
  induction text generalizing before with
  | nil => rfl
  | cons c text ih =>
    obtain ⟨hchar, hsigma, hdotted⟩ := h c List.mem_cons_self
    have hrest : lowerChars (c :: before) text = text :=
      ih fun d hd => h d (List.mem_cons_of_mem c hd)
    rw [lowerChars, if_neg hsigma, if_neg hdotted, hchar, hrest]
    rfl

/-- A text of small letters is its own small form. -/
theorem lower_eq_self {text : String} (h : ∀ c ∈ text.toList, IsSmall c) : lower text = text := by
  rw [lower, lowerChars_eq_self h, String.ofList_toList]

/-- Small letters have no smaller ones. -/
theorem lower_lower (text : String) : lower (lower text) = lower text :=
  lower_eq_self fun _ hc => isSmall_of_mem_lower hc

end Text

end ServingCatalog
