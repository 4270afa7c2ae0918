import ServingCatalog.Proofs.InstanceType.Segments

/-!
# Volume sizes decided on characters

Whether a volume size can be set is decided by cutting a text into segments and searching the
family.  Here the same is decided on the characters of the whole text, by where its periods stand:
`TwoPeriods` says which texts are instance types at all, `DiskBetween` and `FixedVolumeBehind` which
of these have no volume size.

The main result is `volumeSizeSupported_characters`.  It rests on what these say of a text with
segments: a `d` between the periods is one in the family (`Segmented.diskBetween_iff`), and `g5`
behind the first period is at the start of the family (`Segmented.fixedVolumeBehind_iff`).
-/

namespace ServingCatalog

namespace InstanceType

/-- A text starts with `ml.` and has two periods in all. -/
structure TwoPeriods (text : String) : Prop where
  starts : "ml.".toList <+: text.toList
  count_eq : text.toList.count '.' = 2

/-- A `d` stands somewhere behind the first period and before the second. -/
def DiskBetween (text : String) : Prop :=
  ∃ before behind, text.toList = before ++ 'd' :: behind ∧ before.count '.' = 1 ∧ '.' ∈ behind

/-- The characters `g5` stand right behind the first period. -/
def FixedVolumeBehind (text : String) : Prop :=
  ∃ before behind, text.toList = before ++ '.' :: 'g' :: '5' :: behind ∧ '.' ∉ before

/-- No volume size can be set, as the characters show. -/
def NoVolume (text : String) : Prop := DiskBetween text ∨ FixedVolumeBehind text

/-- A text with these periods is one with segments. -/
theorem twoPeriods_iff (text : String) :
    TwoPeriods text ↔ ∃ family size, Segmented text family size := by
  constructor
  · rintro ⟨⟨rest, htext⟩, hcount⟩
    have hone : rest.count '.' = 1 := by
      have hkind : "ml.".toList.count '.' = 1 := by decide
      rw [← htext, List.count_append] at hcount
      omega
    have hperiod : '.' ∈ rest := List.count_pos_iff.1 (by omega)
    obtain ⟨family, size, rfl, hfamily⟩ := List.eq_append_cons_of_mem hperiod
    have hsize : size.count '.' = 0 := by
      rw [List.count_append, List.count_cons_self] at hone
      omega
    refine ⟨String.ofList family, String.ofList size, ?_, by simpa using hfamily,
      by simpa using List.count_eq_zero.1 hsize⟩
    apply String.toList_inj.1
    rw [← htext]
    simp
  · rintro ⟨family, size, htext, hfamily, hsize⟩
    have hlist : text.toList = "ml.".toList ++ (family.toList ++ '.' :: size.toList) := by
      rw [htext]
      simp
    refine ⟨⟨_, hlist.symm⟩, ?_⟩
    rw [hlist, List.count_append, List.count_append, List.count_cons_self,
      List.count_eq_zero.2 hfamily, List.count_eq_zero.2 hsize]
    decide

namespace Segmented

variable {text family size : String} (h : Segmented text family size)

include h

/-- Behind the first period stand the family, the second period and the size. -/
theorem behind_eq {before behind : List Char} (htext : text.toList = before ++ '.' :: behind)
    (hbefore : '.' ∉ before) : behind = family.toList ++ '.' :: size.toList := by
  have hkind : '.' ∉ "ml".toList := by decide
  have hlist : text.toList = "ml".toList ++ '.' :: (family.toList ++ '.' :: size.toList) := by
    rw [h.text_eq]
    simp
  exact ((Text.append_separator_inj hbefore hkind).1 (htext.symm.trans hlist)).2

/-- A `d` between the periods is one in the family. -/
theorem diskBetween_iff : DiskBetween text ↔ 'd' ∈ family.toList := by
  constructor
  · rintro ⟨before, behind, htext, hone, hperiod⟩
    -- The one period before the `d` is the first, and the next one behind it ends the family.
    obtain ⟨kind, front, rfl, hkind⟩ := List.eq_append_cons_of_mem
      (List.count_pos_iff.1 (by omega : 0 < before.count '.'))
    obtain ⟨back, rest, rfl, hback⟩ := List.eq_append_cons_of_mem hperiod
    have hfront : '.' ∉ front := by
      rw [List.count_append, List.count_cons_self] at hone
      exact List.count_eq_zero.1 (by omega)
    have hbehind := h.behind_eq (by rw [htext, List.append_assoc, List.cons_append]) hkind
    have hsplit : (front ++ 'd' :: back) ++ '.' :: rest =
        family.toList ++ '.' :: size.toList := by
      rw [← hbehind]
      simp
    have hfree : '.' ∉ front ++ 'd' :: back := by simp [hfront, hback]
    rw [← ((Text.append_separator_inj hfree h.family_free).1 hsplit).1]
    simp
  · intro hdisk
    obtain ⟨front, back, hfamily⟩ := List.append_of_mem hdisk
    have hfront : '.' ∉ front := fun hmem => h.family_free (by simp [hfamily, hmem])
    refine ⟨"ml.".toList ++ front, back ++ '.' :: size.toList, ?_, ?_, by simp⟩
    · rw [h.text_eq]
      simp [hfamily]
    · rw [List.count_append, List.count_eq_zero.2 hfront]
      decide

/-- The characters `g5` behind the first period are at the start of the family. -/
theorem fixedVolumeBehind_iff : FixedVolumeBehind text ↔ "g5".toList <+: family.toList := by
  constructor
  · rintro ⟨before, behind, htext, hbefore⟩
    have hbehind := h.behind_eq htext hbefore
    -- Neither of the two characters is the period that ends the family.
    cases hfamily : family.toList with
    | nil => simp [hfamily] at hbehind
    | cons g rest =>
      cases rest with
      | nil => simp [hfamily] at hbehind
      | cons five rest =>
        simp only [hfamily, List.cons_append, List.cons.injEq] at hbehind
        obtain ⟨rfl, rfl, -⟩ := hbehind
        exact ⟨rest, rfl⟩
  · rintro ⟨rest, hfamily⟩
    refine ⟨"ml".toList, rest ++ '.' :: size.toList, ?_, by decide⟩
    rw [h.text_eq]
    simp [← hfamily]

/-- The family alone says whether there is a volume size. -/
theorem noVolume_iff :
    NoVolume text ↔ 'd' ∈ family.toList ∨ "g5".toList <+: family.toList := by
  rw [NoVolume, h.diskBetween_iff, h.fixedVolumeBehind_iff]

/-- The answer is read off the family. -/
theorem volumeSizeSupported_eq : ServingCatalog.volumeSizeSupported text =
    .ok (!family.toList.contains 'd' && !"g5".toList.isPrefixOf family.toList) := by
  have hparse : parse text = .ok (held text family) := (parse_eq_ok_iff text _).2 h.ofText_eq
  rw [ServingCatalog.volumeSizeSupported, hparse]
  show Except.ok ((held text family).volumeSizeSupported) = _
  rw [InstanceType.volumeSizeSupported, h.family?_held]
  rfl

/-- The answer is no where the characters show that there is no volume size, and else it is yes. -/
theorem volumeSizeSupported_iff :
    (ServingCatalog.volumeSizeSupported text = .ok false ↔ NoVolume text) ∧
      (ServingCatalog.volumeSizeSupported text = .ok true ↔ ¬NoVolume text) := by
  have hd : family.toList.contains 'd' = true ↔ 'd' ∈ family.toList := List.contains_iff_mem
  have hg : "g5".toList.isPrefixOf family.toList = true ↔ "g5".toList <+: family.toList :=
    List.isPrefixOf_iff_prefix
  rw [h.volumeSizeSupported_eq, h.noVolume_iff, ← hd, ← hg]
  cases family.toList.contains 'd' <;> cases "g5".toList.isPrefixOf family.toList <;> simp

end Segmented

/-- A text without segments is refused in words that quote it. -/
theorem volumeSizeSupported_of_not_twoPeriods {text : String} (h : ¬TwoPeriods text) :
    ServingCatalog.volumeSizeSupported text = .error (.invalidArgument
      ("Failed to parse instance type '" ++ text ++
        "': Instance type must have 2 periods and start with 'ml'.") (some .malformed)) := by
  have hrefused : ofText text = .error .malformed := by
    cases hread : ofText text with
    | ok t => exact absurd ((twoPeriods_iff text).2 (exists_segmented_of_ofText hread)) h
    | error cause => rfl
  rw [ServingCatalog.volumeSizeSupported, parse, hrefused]
  simp only [Except.map, Fault.invalidInstanceType, MalformedInstanceType.message,
    String.append_assoc]
  rfl

/-- Only a text with segments is answered at all. -/
theorem exists_segmented_of_answer {text : String} {answer : Bool}
    (h : ServingCatalog.volumeSizeSupported text = .ok answer) :
    ∃ family size, Segmented text family size := by
  by_cases hperiods : TwoPeriods text
  · exact (twoPeriods_iff text).1 hperiods
  · rw [volumeSizeSupported_of_not_twoPeriods hperiods] at h
    cases h

/-- Another size leaves the family as it is. -/
theorem Segmented.withSize {front size other family z : String}
    (h : Segmented (front ++ "." ++ size) family z) (hsize : '.' ∉ size.toList)
    (hother : '.' ∉ other.toList) : Segmented (front ++ "." ++ other) family other := by
  -- Read from the end, the size is what stands before the first period.
  have hreversed : size.toList.reverse ++ '.' :: front.toList.reverse =
      z.toList.reverse ++ '.' :: ("ml." ++ family).toList.reverse := by
    have htext := congrArg (fun text : String => text.toList.reverse) h.text_eq
    simpa using htext
  have hfront := (Text.append_separator_inj (by simpa using hsize)
    (by simpa using h.size_free)).1 hreversed
  have hsame : front = "ml." ++ family := String.toList_inj.1 (List.reverse_inj.1 hfront.2)
  exact ⟨by rw [hsame], h.family_free, hother⟩

/-- The size has no part in the answer. -/
theorem volumeSizeSupported_withSize {front size other : String} (hsize : '.' ∉ size.toList)
    (hother : '.' ∉ other.toList) {answer : Bool}
    (h : ServingCatalog.volumeSizeSupported (front ++ "." ++ size) = .ok answer) :
    ServingCatalog.volumeSizeSupported (front ++ "." ++ other) = .ok answer := by
  obtain ⟨family, z, hform⟩ := exists_segmented_of_answer h
  rw [(hform.withSize hsize hother).volumeSizeSupported_eq, ← hform.volumeSizeSupported_eq, h]

/-- A family that goes on stays without a volume size. -/
theorem volumeSizeSupported_longer {family size more : String} (hmore : '.' ∉ more.toList)
    (h : ServingCatalog.volumeSizeSupported ("ml." ++ family ++ "." ++ size) = .ok false) :
    ServingCatalog.volumeSizeSupported ("ml." ++ family ++ more ++ "." ++ size) = .ok false := by
  have hperiods := (twoPeriods_iff _).2 (exists_segmented_of_answer h)
  have hcount : family.toList.count '.' = 0 ∧ size.toList.count '.' = 0 := by
    have htwo := hperiods.count_eq
    simp only [String.toList_append, List.count_append] at htwo
    have hkind : "ml.".toList.count '.' = 1 := by decide
    have hperiod : ".".toList.count '.' = 1 := by decide
    omega
  have hfamily : '.' ∉ family.toList := List.count_eq_zero.1 hcount.1
  have hsize : '.' ∉ size.toList := List.count_eq_zero.1 hcount.2
  have hform : Segmented ("ml." ++ family ++ "." ++ size) family size := ⟨rfl, hfamily, hsize⟩
  have hlonger : Segmented ("ml." ++ family ++ more ++ "." ++ size) (family ++ more) size :=
    ⟨by simp only [String.append_assoc], by simp [hfamily, hmore], hsize⟩
  rw [hform.volumeSizeSupported_iff.1, hform.noVolume_iff] at h
  rw [hlonger.volumeSizeSupported_iff.1, hlonger.noVolume_iff, String.toList_append]
  exact h.imp (List.mem_append_left _) fun hprefix => hprefix.trans (List.prefix_append _ _)

end InstanceType

open InstanceType

/-- **Volume sizes.**  A text without the periods of an instance type is refused, in words that
quote it; any other is answered as its characters show.  What stands behind the second period has no
part in the answer, and a family that goes on never gets a volume size. -/
theorem volumeSizeSupported_characters :
    (∀ text : String,
      (volumeSizeSupported text = .error (.invalidArgument
          ("Failed to parse instance type '" ++ text ++
            "': Instance type must have 2 periods and start with 'ml'.") (some .malformed)) ↔
        ¬TwoPeriods text) ∧
      (volumeSizeSupported text = .ok false ↔ TwoPeriods text ∧ NoVolume text) ∧
      (volumeSizeSupported text = .ok true ↔ TwoPeriods text ∧ ¬NoVolume text)) ∧
    (∀ front size other : String, '.' ∉ size.toList → '.' ∉ other.toList → ∀ answer,
      volumeSizeSupported (front ++ "." ++ size) = .ok answer ↔
        volumeSizeSupported (front ++ "." ++ other) = .ok answer) ∧
    ∀ family size more : String, '.' ∉ more.toList →
      volumeSizeSupported ("ml." ++ family ++ "." ++ size) = .ok false →
      volumeSizeSupported ("ml." ++ family ++ more ++ "." ++ size) = .ok false := by
  refine ⟨fun text => ?_, fun front size other hsize hother answer => ?_,
    fun family size more hmore => volumeSizeSupported_longer hmore⟩
  · by_cases hperiods : TwoPeriods text
    · obtain ⟨family, size, hform⟩ := (twoPeriods_iff text).1 hperiods
      obtain ⟨hno, hyes⟩ := hform.volumeSizeSupported_iff
      refine ⟨?_, by simp [hno, hperiods], by simp [hyes, hperiods]⟩
      simp [hform.volumeSizeSupported_eq, hperiods]
    · simp [volumeSizeSupported_of_not_twoPeriods hperiods, hperiods]
  · exact ⟨volumeSizeSupported_withSize hsize hother, volumeSizeSupported_withSize hother hsize⟩

/-- A size that holds a `d` changes nothing, nor does a wide character that `g5` goes on with. -/
theorem volumeSizeSupported_g5 :
    volumeSizeSupported ("ml.g5" ++ "." ++ "2xlarge") = .ok false ∧
      volumeSizeSupported ("ml.m5" ++ "." ++ "2xlarge") = .ok true ∧
      '.' ∉ "2xlarge".toList ∧ '.' ∉ "metal-d".toList ∧ '.' ∉ "é".toList ∧
      volumeSizeSupported ("ml.m5" ++ "." ++ "metal-d") = .ok true ∧
      volumeSizeSupported ("ml." ++ "g5" ++ "é" ++ "." ++ "2xlarge") = .ok false := by
  have hno : volumeSizeSupported ("ml.g5" ++ "." ++ "2xlarge") = .ok false := by rfl
  have hyes : volumeSizeSupported ("ml.m5" ++ "." ++ "2xlarge") = .ok true := by rfl
  have hsize : '.' ∉ "2xlarge".toList := by decide
  have hother : '.' ∉ "metal-d".toList := by decide
  have hmore : '.' ∉ "é".toList := by decide
  obtain ⟨-, hsizes, hfamilies⟩ := volumeSizeSupported_characters
  exact ⟨hno, hyes, hsize, hother, hmore, (hsizes "ml.m5" _ _ hsize hother true).1 hyes,
    hfamilies "g5" "2xlarge" "é" hmore hno⟩

end ServingCatalog
