import ServingCatalog.InstanceType
import ServingCatalog.Text.Parts

/-!
# The segments of an instance type

A text is an instance type exactly if it is `ml`, a family and a size with a period between each two
of them and none in them: `Segmented`.  Of what was read only the text and one offset are kept.  The
slices between the offsets are the family and the size again, whatever the width of their
characters: `Segmented.holds`.  None of the slices can fail: `Segmented.sliceable`, where the
offsets are positions of the encoding itself.

The main result is `ofText_segmented`.
-/

namespace ServingCatalog

namespace InstanceType

/-- A text is `ml`, a family and a size, with periods between them and nowhere else. -/
structure Segmented (text family size : String) : Prop where
  text_eq : text = "ml." ++ family ++ "." ++ size
  family_free : '.' ∉ family.toList
  size_free : '.' ∉ size.toList

/-- What is held of a text with this family. -/
def held (text family : String) : InstanceType :=
  ⟨text, familyStart + Text.byteCount family.toList⟩

/-- The text of an instance type is what was read, its slices are the segments, and these make up a
text that is read as the same instance type. -/
structure Holds (t : InstanceType) (text family size : String) : Prop where
  text_eq : t.text = text
  shown_eq : toString t = text
  family_eq : t.family = family
  size_eq : t.size = size
  rebuilt : "ml." ++ t.family ++ "." ++ t.size = text
  read_again : ofText ("ml." ++ t.family ++ "." ++ t.size) = .ok t

/-- The offsets that family and size are cut at are positions of the text, in order and not beyond
its end, and so neither slice fails. -/
structure Sliceable (t : InstanceType) : Prop where
  familyStart_valid : (⟨familyStart⟩ : String.Pos.Raw).IsValid t.text
  familyStop_valid : (⟨t.familyStop⟩ : String.Pos.Raw).IsValid t.text
  sizeStart_valid : (⟨t.familyStop + 1⟩ : String.Pos.Raw).IsValid t.text
  family_ordered : familyStart ≤ t.familyStop
  size_ordered : t.familyStop + 1 ≤ t.text.utf8ByteSize
  family_cut : t.family?.isSome = true
  size_cut : t.size?.isSome = true

/-- What stands before the size ends one byte behind the family. -/
theorem sizeStart_held (text family : String) :
    (held text family).familyStop + 1 = Text.byteCount ("ml." ++ family ++ ".").toList := by
  have hkind : "ml.".utf8ByteSize = familyStart := by decide
  have hperiod : ".".utf8ByteSize = 1 := by decide
  rw [Text.byteCount_toList, String.utf8ByteSize_append, String.utf8ByteSize_append, hkind,
    hperiod, ← Text.byteCount_toList family]
  rfl

namespace Segmented

variable {text family size : String} (h : Segmented text family size)

include h

theorem toList_eq :
    text.toList = kindName.toList ++ '.' :: (family.toList ++ '.' :: size.toList) := by
  rw [h.text_eq]
  simp [kindName]

/-- Between its periods are the kind, the family and the size. -/
theorem splitOn_eq :
    text.toList.splitOn '.' = [kindName.toList, family.toList, size.toList] :=
  Text.splitOn_eq_three_iff.2 ⟨h.toList_eq, by decide, h.family_free, h.size_free⟩

/-- There is one way to see a text as family and size. -/
theorem unique {other another : String} (hother : Segmented text other another) :
    other = family ∧ another = size := by
  have hparts := hother.splitOn_eq.symm.trans h.splitOn_eq
  simp only [List.cons.injEq, true_and, and_true] at hparts
  exact ⟨String.toList_inj.1 hparts.1, String.toList_inj.1 hparts.2⟩

/-- It is read as an instance type, held by its offsets. -/
theorem ofText_eq : ofText text = .ok (held text family) := by
  rw [ofText, h.splitOn_eq]
  rfl

/-! ## Slices -/

/-- The family lies behind the kind and its period. -/
theorem family?_held : (held text family).family? = some family.toList := by
  have hstart : familyStart = Text.byteCount "ml.".toList := by decide
  have htext : text.toList = "ml.".toList ++ (family.toList ++ '.' :: size.toList) := by
    rw [h.text_eq]
    simp
  show Text.slice? familyStart (familyStart + Text.byteCount family.toList) text.toList = _
  rw [hstart, htext, Text.slice?_byteCount]

/-- The size lies behind the second period and goes to the end. -/
theorem size?_held : (held text family).size? = some size.toList := by
  have htext : text.toList = ("ml." ++ family ++ ".").toList ++ (size.toList ++ []) := by
    rw [h.text_eq]
    simp
  have hstop : text.utf8ByteSize =
      Text.byteCount ("ml." ++ family ++ ".").toList + Text.byteCount size.toList := by
    rw [← Text.byteCount_toList, htext, List.append_nil, Text.byteCount_append]
  show Text.slice? ((held text family).familyStop + 1) text.utf8ByteSize text.toList = _
  rw [sizeStart_held, hstop, htext, Text.slice?_byteCount]

/-- Family and size are found at these offsets. -/
theorem holds : (held text family).Holds text family size := by
  have hfamily : (held text family).family = family := by
    rw [InstanceType.family, h.family?_held, Option.getD_some, String.ofList_toList]
  have hsize : (held text family).size = size := by
    rw [InstanceType.size, h.size?_held, Option.getD_some, String.ofList_toList]
  have hrebuilt : "ml." ++ (held text family).family ++ "." ++ (held text family).size = text := by
    rw [hfamily, hsize, ← h.text_eq]
  exact ⟨rfl, rfl, hfamily, hsize, hrebuilt, by rw [hrebuilt, h.ofText_eq]⟩

/-- The offsets are those of characters, in order. -/
theorem sliceable : (held text family).Sliceable := by
  have hfamilyStart := Text.isValid_byteCount "ml." (family ++ "." ++ size)
  have hfamilyStop := Text.isValid_byteCount ("ml." ++ family) ("." ++ size)
  have hsizeStart := Text.isValid_byteCount ("ml." ++ family ++ ".") size
  have hstop : (held text family).familyStop = Text.byteCount ("ml." ++ family).toList := by
    rw [String.toList_append, Text.byteCount_append]
    rfl
  rw [← String.append_assoc, ← String.append_assoc, ← h.text_eq] at hfamilyStart
  rw [← String.append_assoc, ← h.text_eq, ← hstop] at hfamilyStop
  rw [← h.text_eq, ← sizeStart_held text] at hsizeStart
  exact {
    familyStart_valid := hfamilyStart
    familyStop_valid := hfamilyStop
    sizeStart_valid := hsizeStart
    family_ordered := Nat.le_add_right _ _
    size_ordered := hsizeStart.le_utf8ByteSize
    family_cut := by rw [h.family?_held]; rfl
    size_cut := by rw [h.size?_held]; rfl }

end Segmented

/-- Whatever is read has segments. -/
theorem exists_segmented_of_ofText {text : String} {t : InstanceType} (h : ofText text = .ok t) :
    ∃ family size, Segmented text family size := by
  rw [ofText] at h
  split at h
  next kind family size hsplit =>
    obtain ⟨htext, -, hfamily, hsize⟩ := Text.splitOn_eq_three_iff.1 hsplit
    by_cases hkind : kind = kindName.toList
    · refine ⟨String.ofList family, String.ofList size, ?_, by simpa using hfamily,
        by simpa using hsize⟩
      apply String.toList_inj.1
      rw [htext, hkind]
      simp [kindName]
    · rw [if_neg hkind] at h
      cases h
  next => cases h

/-- A caller who is told the refused text gets the same instance types. -/
theorem parse_eq_ok_iff (text : String) (t : InstanceType) :
    parse text = .ok t ↔ ofText text = .ok t := by
  rw [parse]
  cases ofText text <;> simp

/-- **The form of instance types.**  A text is read exactly if it has segments.  These are then the
only ones, the instance type holds them, and its slices cannot fail; and both ways of reading agree
on all texts. -/
theorem ofText_segmented (text : String) :
    ((∃ t, ofText text = .ok t) ↔ ∃ family size, Segmented text family size) ∧
      (∀ family size, Segmented text family size →
        (∀ other another, Segmented text other another → other = family ∧ another = size) ∧
          ∀ t, ofText text = .ok t → t.Holds text family size ∧ t.Sliceable) ∧
      ∀ t, parse text = .ok t ↔ ofText text = .ok t := by
  refine ⟨⟨?_, ?_⟩, fun family size h => ⟨fun _ _ hother => h.unique hother, ?_⟩,
    parse_eq_ok_iff text⟩
  · rintro ⟨t, ht⟩
    exact exists_segmented_of_ofText ht
  · rintro ⟨family, size, h⟩
    exact ⟨_, h.ofText_eq⟩
  · intro t ht
    rw [h.ofText_eq] at ht
    cases ht
    exact ⟨h.holds, h.sliceable⟩

/-- Characters of two and three bytes in both segments. -/
theorem ofText_wideSegments :
    Segmented "ml.gé5.2×€" "gé5" "2×€" ∧
      ∃ t, ofText "ml.gé5.2×€" = .ok t ∧ t.Holds "ml.gé5.2×€" "gé5" "2×€" ∧ t.Sliceable := by
  have hform : Segmented "ml.gé5.2×€" "gé5" "2×€" := ⟨rfl, by decide, by decide⟩
  obtain ⟨hread, hheld, -⟩ := ofText_segmented "ml.gé5.2×€"
  obtain ⟨t, ht⟩ := hread.2 ⟨_, _, hform⟩
  exact ⟨hform, t, ht, (hheld _ _ hform).2 t ht⟩

end InstanceType

end ServingCatalog
