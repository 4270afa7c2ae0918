/-!
# Cutting a text by bytes

Offsets count the bytes of UTF-8. A cut succeeds exactly where the offset is not beyond the text
and does not fall inside a character: `cutAt?_byteCount` says that it succeeds there, and
`eq_of_cutAt?` that it succeeds nowhere else; `isSome_cutAt?_iff` says the same of the encoding
itself. The byte order mark, which is no part of the text that it stands before, is cut off by
`dropMark`.
-/

namespace ServingCatalog

namespace Text

/-- How many bytes a text takes. -/
def byteCount (text : List Char) : Nat := text.foldr (fun c count => c.utf8Size + count) 0

@[simp] theorem byteCount_cons (c : Char) (text : List Char) :
    byteCount (c :: text) = c.utf8Size + byteCount text := rfl

theorem byteCount_append (front behind : List Char) :
    byteCount (front ++ behind) = byteCount front + byteCount behind := by
  induction front with
  | nil => simp [byteCount]
  | cons c front ih =>
    rw [List.cons_append, byteCount_cons, byteCount_cons, ih]
    omega

/-- Bytes are counted as they are in the encoding of strings. -/
theorem utf8ByteSize_ofList (text : List Char) :
    (String.ofList text).utf8ByteSize = byteCount text := by
  induction text with
  | nil => rfl
  | cons c text ih =>
    rw [String.ofList_cons, String.utf8ByteSize_append, String.utf8ByteSize_singleton, ih,
      byteCount_cons]

theorem byteCount_toList (text : String) : byteCount text.toList = text.utf8ByteSize := by
  rw [← utf8ByteSize_ofList, String.ofList_toList]

/-- Cuts a text at a byte offset. -/
def cutAt? : Nat → List Char → Option (List Char × List Char)
  | 0, text => some ([], text)
  | _ + 1, [] => none
  | offset + 1, c :: text =>
    if c.utf8Size ≤ offset + 1 then
      (cutAt? (offset + 1 - c.utf8Size) text).map fun (before, behind) => (c :: before, behind)
    else none

/-- A cut behind the bytes of a text's front gives that front. -/
theorem cutAt?_byteCount (before behind : List Char) :
    cutAt? (byteCount before) (before ++ behind) = some (before, behind) := by
  induction before with
  | nil => simp [byteCount, cutAt?]
  | cons c before ih =>
    have hpos := c.utf8Size_pos
    obtain ⟨offset, hoffset⟩ : ∃ offset, byteCount (c :: before) = offset + 1 :=
      ⟨byteCount (c :: before) - 1, by rw [byteCount_cons]; omega⟩
    have hfits : c.utf8Size ≤ offset + 1 := by rw [← hoffset, byteCount_cons]; omega
    have hleft : offset + 1 - c.utf8Size = byteCount before := by
      rw [← hoffset, byteCount_cons]
      omega
    rw [hoffset, List.cons_append]
    simp only [cutAt?, if_pos hfits, hleft, ih, Option.map_some]

/-- A cut loses nothing, and takes as many bytes as it was asked to. -/
theorem eq_of_cutAt? {offset : Nat} {text before behind : List Char}
    (h : cutAt? offset text = some (before, behind)) :
    text = before ++ behind ∧ byteCount before = offset := by
  fun_induction cutAt? offset text generalizing before behind with
  | case1 text =>
    cases h
    exact ⟨rfl, rfl⟩
  | case2 => cases h
  | case3 offset c text hfits ih =>
    obtain ⟨⟨front, rest⟩, hcut, hpair⟩ := Option.map_eq_some_iff.1 h
    cases hpair
    obtain ⟨htext, hcount⟩ := ih hcut
    refine ⟨by rw [htext, List.cons_append], ?_⟩
    rw [byteCount_cons]
    omega
  | case4 => cases h

/-- A cut succeeds at the positions that the encoding of strings has: those where a character
starts, and the end. -/
theorem isSome_cutAt?_iff (offset : Nat) (text : String) :
    (cutAt? offset text.toList).isSome = true ↔ (⟨offset⟩ : String.Pos.Raw).IsValid text := by
  rw [String.Pos.Raw.isValid_iff_exists_append, Option.isSome_iff_exists]
  constructor
  · rintro ⟨⟨before, behind⟩, hcut⟩
    obtain ⟨htext, hcount⟩ := eq_of_cutAt? hcut
    refine ⟨String.ofList before, String.ofList behind, ?_, ?_⟩
    · rw [← String.ofList_append, ← htext, String.ofList_toList]
    · rw [← hcount, ← utf8ByteSize_ofList]
      rfl
  · rintro ⟨before, behind, rfl, hoffset⟩
    have hcount : offset = byteCount before.toList := by
      rw [byteCount_toList]
      exact congrArg String.Pos.Raw.byteIdx hoffset
    rw [hcount, String.toList_append]
    exact ⟨_, cutAt?_byteCount before.toList behind.toList⟩

/-- The bytes of a text's front are a position of it. -/
theorem isValid_byteCount (front behind : String) :
    (⟨byteCount front.toList⟩ : String.Pos.Raw).IsValid (front ++ behind) := by
  rw [← isSome_cutAt?_iff, String.toList_append, cutAt?_byteCount]
  rfl

/-- The part of a text between two byte offsets. -/
def slice? (start stop : Nat) (text : List Char) : Option (List Char) := do
  if stop < start then none
  let (_, behind) ← cutAt? start text
  let (part, _) ← cutAt? (stop - start) behind
  return part

/-- The slice between the bytes of a text's front and those of its middle is the middle. -/
theorem slice?_byteCount (front middle behind : List Char) :
    slice? (byteCount front) (byteCount front + byteCount middle) (front ++ (middle ++ behind)) =
      some middle := by
  have hlength : byteCount front + byteCount middle - byteCount front = byteCount middle := by
    omega
  simp [slice?, cutAt?_byteCount, hlength]

/-- A text without the byte order mark that may stand before it. -/
def dropMark : List Char → List Char
  | '\ufeff' :: text => text
  | text => text

end Text

end ServingCatalog
