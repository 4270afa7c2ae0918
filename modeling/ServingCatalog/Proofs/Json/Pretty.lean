import ServingCatalog.Proofs.Json.Spelling

/-!
# Texts over several lines

What is written with one item to a line is a text of its value as well: line breaks and indentation
are blanks.  So the program's output is read back as the value that was printed, if that has no
numbers in it.
-/

namespace ServingCatalog

namespace Json

theorem allBlank_newLine (level : Nat) : AllBlank (newLine level) := by
  intro c hc
  rcases List.mem_cons.1 hc with rfl | hspace
  · rfl
  · rw [List.eq_of_mem_replicate hspace]
    rfl

/-- Parts that are written one to a line are a row. -/
theorem row_block {α : Type} {closing : Char} {part : α → List Char → Prop}
    {write : α → List Char} {as : List α} (hpart : ∀ a ∈ as, part a (write a)) (level : Nat)
    (opening : Char) :
    ∃ body, block level opening closing (as.map write) = opening :: body ∧
      Row closing part true as body := by
  cases as with
  | nil => exact ⟨[closing], rfl, .done allBlank_nil⟩
  | cons a as =>
    have htail : Row closing part false as _ :=
      row_behind (allBlank_newLine (level + 1)) (allBlank_newLine level)
        fun b hb => hpart b (List.mem_cons_of_mem a hb)
    refine ⟨_, ?_, .more (.first (allBlank_newLine (level + 1)))
      (hpart a List.mem_cons_self) htail⟩
    rw [block, if_neg (by simp), List.map_cons, separate_cons]
    simp

theorem prettyItems_eq_map (level : Nat) (items : List Json) :
    prettyItems level items = items.map (prettyChars level) := by
  induction items with
  | nil => rfl
  | cons item items ih => rw [prettyItems, ih, List.map_cons]

theorem prettyMembers_eq_map (level : Nat) (members : List (String × Json)) :
    prettyMembers level members = members.map fun member =>
      Quoted.literal member.1 ++ ':' :: ' ' :: prettyChars level member.2 := by
  induction members with
  | nil => rfl
  | cons member members ih => rw [prettyMembers, ih, List.map_cons]

/-- An array is written as a text of it, if its items are written as texts of theirs. -/
theorem spells_prettyArray {depth level : Nat} {items : List Json}
    (h : ∀ item ∈ items, Spells depth item (prettyChars (level + 1) item)) :
    Spells (depth + 1) (.array items) (prettyChars level (.array items)) := by
  rw [prettyChars, prettyItems_eq_map]
  exact row_block h level '['

/-- An object is written as a text of it, if the values of its members are written as texts of
theirs. -/
theorem spells_prettyObject {depth level : Nat} {members : List (String × Json)}
    (h : ∀ member ∈ members, Spells depth member.2 (prettyChars (level + 1) member.2)) :
    Spells (depth + 1) (.object members) (prettyChars level (.object members)) := by
  have hmember : ∀ member ∈ members, MemberText (Spells depth) member
      (Quoted.literal member.1 ++ ':' :: ' ' :: prettyChars (level + 1) member.2) := by
    intro member hmem
    refine ⟨Quoted.encode member.1.toList, [], [' '], prettyChars (level + 1) member.2,
      Quoted.spells_encode _, allBlank_nil, by simp [AllBlank, isBlank], h member hmem, ?_⟩
    simp [Quoted.literal]
  rw [prettyChars, prettyMembers_eq_map]
  exact row_block hmember level '\x7b'

/-- **Lines of output.**  What is written over several lines, with a line break behind it, is parsed
as the value, sorted. -/
theorem parse_pretty {v : Json} (h : Spells maxDepth v (prettyChars 0 v)) :
    parse (v.pretty ++ "\n") = .ok v.sorted := by
  have hbreak : AllBlank ['\n'] := by simp [AllBlank, isBlank]
  refine parse_of_isText ⟨[], prettyChars 0 v, ['\n'], allBlank_nil, hbreak, h, ?_⟩
  simp [pretty]

end Json

end ServingCatalog
