import Mathlib.Data.List.Pairwise
import ServingCatalog.Proofs.Settings.Alike

/-!
# Scalars at places

Scalars that are written to places, none of which is within another, are a tree: `Walk.toPlaces` is
the walk through it.  Writing them one by one changes what is read as this walk says
(`exists_assignAll_of_leads`).

The tree is the same in whatever order the places are named, so the order of writing shows nowhere:
`laysAlike_of_perm`.
-/

namespace ServingCatalog

namespace Walk

/-! ## Trees spelled by places -/

/-- The walk through the tree that has a setting at each of some places, none of which is within
another. -/
def toPlaces (placed : List (List String × Setting)) (path : List String) : Walk :=
  match placed.find? fun entry => entry.1 <+: path with
  | some entry => .decided (if entry.1 = path then some entry.2 else none)
  | none => if placed.any fun entry => path <+: entry.1 then .table else .silent

/-- Neither of two places is within the other. -/
def Apart (one other : List String) : Prop := ¬one <+: other ∧ ¬other <+: one

theorem Apart.symm {one other : List String} (h : Apart one other) : Apart other one := ⟨h.2, h.1⟩

/-- A walk that ends within a place or starts with it meets no place apart from it. -/
theorem toPlaces_of_apart {place path : List String} {rest : List (List String × Setting)}
    (h : ∀ entry ∈ rest, Apart place entry.1) (hpath : place <+: path) :
    toPlaces rest path = .silent := by
  have hfind : rest.find? (fun entry => entry.1 <+: path) = none := by
    rw [List.find?_eq_none]
    intro entry hentry hprefix
    obtain ⟨hone, hother⟩ := h entry hentry
    rcases List.prefix_or_prefix_of_prefix hpath (of_decide_eq_true hprefix) with hin | hin
    · exact hone hin
    · exact hother hin
  have hany : rest.any (fun entry => path <+: entry.1) = false := by
    rw [List.any_eq_false]
    intro entry hentry hprefix
    exact (h entry hentry).1 (hpath.trans (of_decide_eq_true hprefix))
  rw [toPlaces, hfind, hany]
  rfl

/-- Places that are apart may be laid over each other one by one. -/
theorem toPlaces_cons {place : List String} {setting : Setting}
    {rest : List (List String × Setting)} (h : ∀ entry ∈ rest, Apart place entry.1)
    (path : List String) :
    toPlaces ((place, setting) :: rest) path =
      (toPlaces rest path).atop (toPlace place setting path) := by
  by_cases hpath : place <+: path
  · rw [toPlaces_of_apart h hpath, toPlaces, List.find?_cons_of_pos (by simpa using hpath)]
    simp only [atop, toPlace, if_pos hpath]
  · rw [toPlaces, List.find?_cons_of_neg (by simpa using hpath), toPlaces]
    cases rest.find? fun entry => entry.1 <+: path with
    | some entry => rfl
    | none =>
      simp only [toPlace, if_neg hpath, List.any_cons]
      by_cases hrest : rest.any fun entry => path <+: entry.1
      · simp [hrest, atop]
      · by_cases hplace : path <+: place <;> simp [hrest, hplace, atop]

/-- Two of several places are apart. -/
theorem apart_of_mem {placed : List (List String × Setting)}
    (hapart : (placed.map (·.1)).Pairwise Apart) {one other : List String × Setting}
    (hone : one ∈ placed) (hother : other ∈ placed) (hne : one ≠ other) : Apart one.1 other.1 := by
  have hsymm : Std.Symm fun entry last : List String × Setting => Apart entry.1 last.1 :=
    ⟨fun _ _ h => h.symm⟩
  exact (List.pairwise_map.1 hapart).forall hone hother hne

/-- The tree does not depend on the order in which places are named. -/
theorem toPlaces_perm {one other : List (List String × Setting)} (h : one.Perm other)
    (hapart : (one.map (·.1)).Pairwise Apart) (path : List String) :
    toPlaces one path = toPlaces other path := by
  have honce : one.Pairwise fun entry later =>
      ¬(decide (entry.1 <+: path) = true ∧ decide (later.1 <+: path) = true) := by
    refine (List.pairwise_map.1 hapart).imp fun hdiffer hboth => ?_
    rcases List.prefix_or_prefix_of_prefix (of_decide_eq_true hboth.1)
      (of_decide_eq_true hboth.2) with hin | hin
    · exact hdiffer.1 hin
    · exact hdiffer.2 hin
  rw [toPlaces, toPlaces, find?_of_perm h honce, h.any_eq]

/-- At its place a setting is met. -/
theorem toPlaces_self {placed : List (List String × Setting)}
    (hapart : (placed.map (·.1)).Pairwise Apart) {entry : List String × Setting}
    (h : entry ∈ placed) : toPlaces placed entry.1 = .decided (some entry.2) := by
  rw [toPlaces]
  cases hfind : placed.find? fun other => other.1 <+: entry.1 with
  | none =>
    rw [List.find?_eq_none] at hfind
    exact absurd (decide_eq_true (List.prefix_refl entry.1)) (hfind entry h)
  | some found =>
    have hfound := List.find?_some hfind
    have hprefix : found.1 <+: entry.1 := of_decide_eq_true hfound
    have hsame : found = entry := by
      by_contra hne
      exact (apart_of_mem hapart (List.mem_of_find?_eq_some hfind) h hne).1 hprefix
    simp [hsame]

/-- Where the walk ends at a table, a place lies further along. -/
theorem exists_further_of_table {placed : List (List String × Setting)} {path : List String}
    (h : toPlaces placed path = .table) :
    ∃ entry ∈ placed, ∃ key more, entry.1 = path ++ key :: more := by
  rw [toPlaces] at h
  cases hfind : placed.find? fun entry => entry.1 <+: path with
  | some entry =>
    rw [hfind] at h
    cases h
  | none =>
    rw [hfind] at h
    by_cases hany : placed.any fun entry => path <+: entry.1
    · obtain ⟨entry, hentry, hprefix⟩ := List.any_eq_true.1 hany
      obtain ⟨more, hmore⟩ := of_decide_eq_true hprefix
      refine ⟨entry, hentry, ?_⟩
      cases more with
      | nil =>
        rw [List.append_nil] at hmore
        rw [List.find?_eq_none] at hfind
        exact absurd (decide_eq_true (hmore ▸ List.prefix_refl path)) (hfind entry hentry)
      | cons key more => exact ⟨key, more, hmore.symm⟩
    · rw [if_neg hany] at h
      cases h

end Walk

namespace Setting

/-- A source of scalars whose keys lead to places that are apart. -/
structure Scattered (place : String → List String) (source : List (String × Setting)) : Prop where
  scalar : ∀ entry ∈ source, ∃ origin value, entry.2 = .scalar origin value
  leads : ∀ entry ∈ source, Path.Leads entry.1 (place entry.1)
  apart : (source.map fun entry => place entry.1).Pairwise Walk.Apart

/-- The settings of a source, each with its place. -/
def placed (place : String → List String) (source : List (String × Setting)) :
    List (List String × Setting) := source.map fun entry => (place entry.1, entry.2)

/-- In another order settings go to the same places. -/
theorem Scattered.perm {place : String → List String} {source other : List (String × Setting)}
    (h : Scattered place source) (hperm : source.Perm other) : Scattered place other :=
  ⟨fun entry hentry => h.scalar entry (hperm.mem_iff.2 hentry),
    fun entry hentry => h.leads entry (hperm.mem_iff.2 hentry),
    ((hperm.map _).pairwise_iff fun hone => hone.symm).1 h.apart⟩

theorem Scattered.apart_placed {place : String → List String} {source : List (String × Setting)}
    (h : Scattered place source) : ((placed place source).map (·.1)).Pairwise Walk.Apart := by
  rw [placed, List.map_map]
  exact h.apart

/-- Writing scalars to keys that lead to places apart is possible, and changes what is read as the
tree of them says. -/
theorem exists_assignAll_of_scattered {place : String → List String}
    {source : List (String × Setting)} (h : Scattered place source) (below : Entries) :
    ∃ next, assignAll below source = .ok next ∧ ∀ path,
      (Walk.toPlaces (placed place source) path).Turns
        (read path (.table none below)) (read path (.table none next)) := by
  induction source generalizing below with
  | nil => exact ⟨below, rfl, fun path => rfl⟩
  | cons entry rest ih =>
    obtain ⟨key, setting⟩ := entry
    obtain ⟨origin, value, rfl⟩ := h.scalar (key, setting) List.mem_cons_self
    obtain ⟨hfirst, hrest⟩ := List.pairwise_cons.1 h.apart
    obtain ⟨middle, hassign, hmiddle⟩ := exists_assign_of_leads
      (h.leads (key, .scalar origin value) List.mem_cons_self) origin value below
    obtain ⟨next, hnext, hlast⟩ := ih
      ⟨fun other hother => h.scalar other (List.mem_cons_of_mem _ hother),
        fun other hother => h.leads other (List.mem_cons_of_mem _ hother), hrest⟩ middle
    refine ⟨next, ?_, fun path => ?_⟩
    · rw [assignAll, List.foldlM_cons]
      simp only [hassign]
      exact hnext
    · have hothers : ∀ other ∈ placed place rest, Walk.Apart (place key) other.1 := by
        intro other hother
        obtain ⟨entry, hentry, rfl⟩ := List.mem_map.1 hother
        exact hfirst _ (List.mem_map.2 ⟨entry, hentry, rfl⟩)
      have htree : Walk.toPlaces (placed place ((key, .scalar origin value) :: rest)) path =
          (Walk.toPlaces (placed place rest) path).atop
            (.toPlace (place key) (.scalar origin value) path) := Walk.toPlaces_cons hothers path
      rw [htree]
      exact (hlast path).atop (hmiddle path)

/-! ## The order of writing -/

/-- Reading goes on from what a path leads to. -/
theorem read_append (path more : List String) (setting : Setting) :
    read (path ++ more) setting = (read path setting).bind (read more) := by
  induction path generalizing setting with
  | nil => rfl
  | cons key path ih =>
    cases setting with
    | scalar origin value => rfl
    | list origin items => rfl
    | table origin entries =>
      rw [List.cons_append, read, read, Option.bind_assoc]
      exact congrArg (Option.bind _) (funext ih)

/-- Only tables are read further. -/
theorem face_of_read_cons {key : String} {path : List String} {setting found : Setting}
    (h : read (key :: path) setting = some found) : setting.face = .table none [] := by
  cases setting with
  | scalar origin value => cases h
  | list origin items => cases h
  | table origin entries => rfl

/-- On the way to a place there is a table. -/
theorem map_face_of_table {placed : List (List String × Setting)}
    (hapart : (placed.map (·.1)).Pairwise Walk.Apart) {path : List String}
    (htable : Walk.toPlaces placed path = .table) {held : List String → Option Setting}
    {setting : Setting}
    (h : ∀ path, (Walk.toPlaces placed path).Turns (held path) (read path setting)) :
    (read path setting).map face = some (.table none []) := by
  obtain ⟨entry, hentry, key, more, hpath⟩ := Walk.exists_further_of_table htable
  have hread := h entry.1
  rw [Walk.toPlaces_self hapart hentry, hpath] at hread
  have hfurther : (read path setting).bind (read (key :: more)) = some entry.2 := by
    rw [← read_append]
    exact hread
  obtain ⟨middle, hmiddle, hlast⟩ := Option.bind_eq_some_iff.1 hfurther
  rw [hmiddle, Option.map_some, face_of_read_cons hlast]

/-- Two settings that one tree makes of the same ones show the same. -/
theorem map_face_of_turns {placed : List (List String × Setting)}
    (hapart : (placed.map (·.1)).Pairwise Walk.Apart) {held : List String → Option Setting}
    {one other : Setting}
    (hone : ∀ path, (Walk.toPlaces placed path).Turns (held path) (read path one))
    (hother : ∀ path, (Walk.toPlaces placed path).Turns (held path) (read path other))
    (path : List String) : (read path one).map face = (read path other).map face := by
  have honePath := hone path
  have hotherPath := hother path
  cases hwalk : Walk.toPlaces placed path with
  | table => rw [map_face_of_table hapart hwalk hone, map_face_of_table hapart hwalk hother]
  | silent =>
    rw [hwalk] at honePath hotherPath
    have hsame : read path one = held path := honePath
    have hlast : read path other = held path := hotherPath
    rw [hsame, hlast]
  | decided found =>
    rw [hwalk] at honePath hotherPath
    have hsame : read path one = found := honePath
    have hlast : read path other = found := hotherPath
    rw [hsame, hlast]

/-- In any other order the same is written. -/
theorem exists_assignAll_of_perm {place : String → List String}
    {source other : List (String × Setting)} (h : Scattered place source) (hperm : source.Perm other)
    (below : Entries) :
    ∃ next, assignAll below other = .ok next ∧ ∀ path,
      (Walk.toPlaces (placed place source) path).Turns
        (read path (.table none below)) (read path (.table none next)) := by
  obtain ⟨next, hnext, hturns⟩ := exists_assignAll_of_scattered (h.perm hperm) below
  refine ⟨next, hnext, fun path => ?_⟩
  have htree : Walk.toPlaces (placed place source) path = Walk.toPlaces (placed place other) path :=
    Walk.toPlaces_perm (hperm.map _) h.apart_placed path
  rw [htree]
  exact hturns path

/-- **The order of writing.**  Scalars that are written to places apart make settings that are alike
in whatever order they are written. -/
theorem laysAlike_of_perm {place : String → List String} {source other : List (String × Setting)}
    (h : Scattered place source) (hperm : source.Perm other) : LaysAlike source other := by
  intro below above hbelow
  obtain ⟨next, hnext, hturns⟩ := exists_assignAll_of_scattered h below
  obtain ⟨between, hbetween, hothers⟩ := exists_assignAll_of_perm h hperm below
  have houtcome := alikeOutcome_assignAll (h.perm hperm).scalar hbelow
  rw [hbetween] at houtcome
  obtain ⟨last, hlast, halike⟩ := houtcome.exists_ok
  refine ⟨next, last, hnext, hlast, AlikeEntries.trans (fun key path => ?_) halike⟩
  exact map_face_of_turns h.apart_placed hturns hothers (key :: path)

end Setting

end ServingCatalog
