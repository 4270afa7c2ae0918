import ServingCatalog.Json.Basic

/-!
# Sorted members

What parsing makes of a value: `Json.sorted` is the value with the members of all its objects
sorted, the later member of a key winning.  The lemmas about `insertMember` say that it keeps the
keys sorted, hence different, and that it leaves the values of other keys alone.
-/

namespace ServingCatalog

namespace Json

mutual
/-- The value with the members of its objects sorted, the later member of a key winning. -/
def sorted : Json → Json
  | .null => .null
  | .bool b => .bool b
  | .number n => .number n
  | .string s => .string s
  | .array items => .array (sortedItems items)
  | .object members => .object (sortedMembers [] members)

/-- The items of an array, sorted inside. -/
def sortedItems : List Json → List Json
  | [] => []
  | item :: items => item.sorted :: sortedItems items

/-- Puts members among those that are sorted already. -/
def sortedMembers (before : List (String × Json)) : List (String × Json) → List (String × Json)
  | [] => before
  | (key, value) :: members => sortedMembers (insertMember key value.sorted before) members
end

theorem sortedItems_eq_map (items : List Json) : sortedItems items = items.map sorted := by
  induction items with
  | nil => rfl
  | cons item items ih => rw [sortedItems, ih, List.map_cons]

/-- The keys of members increase. -/
def Increasing (members : List (String × Json)) : Prop :=
  members.Pairwise fun one other => one.1 < other.1

theorem increasing_nil : Increasing [] := List.Pairwise.nil

/-- Keys that increase are different. -/
theorem Increasing.nodup {members : List (String × Json)} (h : Increasing members) :
    (members.map (·.1)).Nodup := by
  rw [List.Nodup, List.pairwise_map]
  refine h.imp ?_
  intro one other hlt hsame
  rw [hsame] at hlt
  exact String.lt_irrefl other.1 hlt

/-- Inserting adds one member. -/
theorem mem_insertMember {key : String} {value : Json} {members : List (String × Json)}
    {member : String × Json} (h : member ∈ insertMember key value members) :
    member = (key, value) ∨ member ∈ members := by
  induction members with
  | nil => exact Or.inl (List.mem_singleton.1 h)
  | cons first rest ih =>
    obtain ⟨k, v⟩ := first
    rw [insertMember] at h
    split at h
    · rcases List.mem_cons.1 h with hnew | hrest
      · exact Or.inl hnew
      · exact Or.inr (List.mem_cons_of_mem _ hrest)
    · split at h
      · exact List.mem_cons.1 h
      · rcases List.mem_cons.1 h with hfirst | hrest
        · exact Or.inr (List.mem_cons.2 (Or.inl hfirst))
        · exact (ih hrest).imp id (List.mem_cons_of_mem _)

/-- A key that is put among increasing ones leaves them increasing. -/
theorem Increasing.insertMember {members : List (String × Json)} (h : Increasing members)
    (key : String) (value : Json) : Increasing (insertMember key value members) := by
  induction members with
  | nil => exact List.pairwise_singleton _ _
  | cons first rest ih =>
    obtain ⟨k, v⟩ := first
    obtain ⟨hfirst, hrest⟩ := List.pairwise_cons.1 h
    rw [Json.insertMember]
    split
    next hsame =>
      subst hsame
      exact List.pairwise_cons.2 ⟨hfirst, hrest⟩
    next hother =>
      split
      next hlt =>
        refine List.pairwise_cons.2 ⟨?_, h⟩
        intro member hmember
        rcases List.mem_cons.1 hmember with rfl | hmember
        · exact hlt
        · exact String.lt_trans hlt (hfirst member hmember)
      next hnot =>
        have hgt : k < key := by
          apply Decidable.of_not_not
          intro hcontra
          exact hother (String.le_antisymm (String.not_lt.1 hcontra) (String.not_lt.1 hnot))
        refine List.pairwise_cons.2 ⟨?_, ih hrest⟩
        intro member hmember
        rcases mem_insertMember hmember with rfl | hmember
        · exact hgt
        · exact hfirst member hmember

/-- Putting a key somewhere leaves the values of the other keys as they are. -/
theorem lookup_insertMember_other {key other : String} (h : key ≠ other) (value : Json)
    (members : List (String × Json)) :
    (insertMember key value members).lookup other = members.lookup other := by
  have ho : (other == key) = false := by simpa using Ne.symm h
  induction members with
  | nil => simp [insertMember, List.lookup_cons, ho]
  | cons first rest ih =>
    obtain ⟨k, v⟩ := first
    rw [insertMember]
    split
    next hsame =>
      subst hsame
      simp [List.lookup_cons, ho]
    next hother =>
      split
      · simp [List.lookup_cons, ho]
      · cases hk : other == k <;> simp [List.lookup_cons, hk, ih]

/-- What is among sorted members was there before or came in, sorted inside. -/
theorem mem_sortedMembers {members before : List (String × Json)} {member : String × Json}
    (h : member ∈ sortedMembers before members) :
    member ∈ before ∨ ∃ first ∈ members, member = (first.1, first.2.sorted) := by
  induction members generalizing before with
  | nil => exact Or.inl h
  | cons first rest ih =>
    obtain ⟨key, value⟩ := first
    rcases ih h with hbefore | ⟨later, hlater, hmember⟩
    · rcases mem_insertMember hbefore with hfirst | hold
      · exact Or.inr ⟨(key, value), List.mem_cons_self, hfirst⟩
      · exact Or.inl hold
    · exact Or.inr ⟨later, List.mem_cons_of_mem _ hlater, hmember⟩

/-- Sorted members increase. -/
theorem Increasing.sortedMembers {before : List (String × Json)} (h : Increasing before)
    (members : List (String × Json)) : Increasing (sortedMembers before members) := by
  induction members generalizing before with
  | nil => exact h
  | cons first rest ih => exact ih (h.insertMember first.1 first.2.sorted)

end Json

end ServingCatalog
