/-!
# Texts in parts

The parts of a text between the occurrences of a character are `List.splitOn`. None of them holds
the separator: `notMem_of_mem_splitOn`. A text is cut at its first separator in one way only:
`append_separator_inj`.
-/

namespace ServingCatalog

namespace Text

/-- The parts of a text do not hold the separator. -/
theorem notMem_of_mem_splitOn {separator : Char} {text part : List Char}
    (h : part ∈ text.splitOn separator) : separator ∉ part := by
  induction text generalizing part with
  | nil =>
    rw [List.splitOn_nil, List.mem_singleton] at h
    simp [h]
  | cons c text ih =>
    obtain ⟨first, others, hparts⟩ :=
      List.exists_cons_of_ne_nil (List.splitOn_ne_nil separator text)
    rw [List.splitOn_cons_eq_if_modifyHead, hparts] at h
    rw [hparts] at ih
    split at h
    next hsame =>
      rcases List.mem_cons.1 h with hpart | hpart
      · simp [hpart]
      · exact ih hpart
    next hother =>
      rw [List.modifyHead_cons] at h
      rcases List.mem_cons.1 h with hpart | hpart
      · rw [hpart, List.mem_cons, not_or]
        exact ⟨fun hsame => hother (beq_iff_eq.2 hsame.symm), ih List.mem_cons_self⟩
      · exact ih (List.mem_cons_of_mem first hpart)

/-- What stands before the first separator, and what behind it, is in the text in one way only. -/
theorem append_separator_inj {separator : Char} {part other text more : List Char}
    (h : separator ∉ part) (hother : separator ∉ other) :
    part ++ separator :: text = other ++ separator :: more ↔ part = other ∧ text = more := by
  constructor
  · intro heq
    have hparts := List.splitOn_append_cons_self_of_not_mem h text
    rw [heq, List.splitOn_append_cons_self_of_not_mem hother] at hparts
    obtain ⟨rfl, -⟩ := List.cons.inj hparts
    exact ⟨rfl, (List.cons.inj (List.append_cancel_left heq)).2⟩
  · rintro ⟨rfl, rfl⟩
    rfl

/-- A text has three parts exactly if it is put together of three texts without the separator. -/
theorem splitOn_eq_three_iff {separator : Char} {text first second third : List Char} :
    text.splitOn separator = [first, second, third] ↔
      text = first ++ separator :: (second ++ separator :: third) ∧
        separator ∉ first ∧ separator ∉ second ∧ separator ∉ third := by
  constructor
  · intro h
    have hfree : ∀ part ∈ [first, second, third], separator ∉ part :=
      fun part hpart => notMem_of_mem_splitOn (h ▸ hpart)
    have htext : [separator].intercalate [first, second, third] = text :=
      h ▸ List.intercalate_splitOn separator
    refine ⟨?_, hfree first (by simp), hfree second (by simp), hfree third (by simp)⟩
    rw [← htext, List.intercalate_cons_cons, List.intercalate_cons_cons,
      List.intercalate_singleton]
    simp
  · rintro ⟨rfl, hfirst, hsecond, hthird⟩
    rw [List.splitOn_append_cons_self_of_not_mem hfirst,
      List.splitOn_append_cons_self_of_not_mem hsecond, List.splitOn_eq_singleton hthird]

end Text

end ServingCatalog
