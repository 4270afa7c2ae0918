import ServingCatalog.Proofs.Settings.Plain
import ServingCatalog.Settings.Environment

/-!
# Routes of variables

The variables of an environment say scalars, at keys in small letters.  Such a key leads along keys
if it holds no bracket: through its parts if they are plain identifiers, and otherwise it is one key
by itself, points and all.  `Path.route` is the place it leads to.

Names whose parts are apart have routes that are apart (`apart_route`), so what an environment says
is scattered over places (`Environment.scattered_route`).
-/

namespace ServingCatalog

/-! ## Names without brackets -/

namespace Path

instance (key : String) : Decidable (IsDotted key) :=
  inferInstanceAs (Decidable (∀ part ∈ key.toList.splitOn '.', IsIdentifier part))

/-- Where a key without brackets leads. -/
def route (key : String) : List String :=
  if IsDotted key then place key else [Text.lower key]

theorem IsIdentifier.point_notMem {part : List Char} (h : IsIdentifier part) : '.' ∉ part :=
  fun hmem => absurd (h.isKeyChar '.' hmem) (by decide)

/-- Parts without points are found again between points. -/
theorem splitOn_behind {part : List Char} {parts : List (List Char)}
    (h : ∀ other ∈ part :: parts, '.' ∉ other) :
    (part ++ behind parts).splitOn '.' = part :: parts := by
  induction parts generalizing part with
  | nil =>
    rw [behind, List.flatMap_nil, List.append_nil]
    exact List.splitOn_eq_singleton (h part List.mem_cons_self)
  | cons next parts ih =>
    have htext : behind (next :: parts) = '.' :: (next ++ behind parts) := by
      rw [behind, List.flatMap_cons]
      rfl
    rw [htext, List.splitOn_append_cons_self_of_not_mem (h part List.mem_cons_self),
      ih fun other hother => h other (List.mem_cons_of_mem part hother)]

/-- What stands behind the characters of a key has no character that is not in the text. -/
theorem notMem_dropWhile {text : List Char} {c : Char} (h : c ∉ text) :
    c ∉ text.dropWhile isKeyChar :=
  fun hmem => h ((List.dropWhile_suffix isKeyChar).subset hmem)

/-- Steps that are spelled without a bracket are identifiers behind points. -/
theorem exists_parts_of_stepsWithin {bound : Nat} {text : List Char} {steps : List PathStep}
    (h : stepsWithin bound text = some steps) (hfree : '[' ∉ text) :
    ∃ parts, text = behind parts ∧ ∀ part ∈ parts, IsIdentifier part := by
  induction bound generalizing text steps with
  | zero =>
    cases text with
    | nil => exact ⟨[], rfl, nofun⟩
    | cons c text => cases h
  | succ bound ih =>
    cases text with
    | nil => exact ⟨[], rfl, nofun⟩
    | cons c text =>
      rw [List.mem_cons, not_or] at hfree
      rw [stepsWithin] at h
      by_cases hpoint : c = '.'
      · rw [if_pos hpoint] at h
        have hname : text.takeWhile isKeyChar ≠ [] := by
          intro hempty
          rw [hempty] at h
          cases h
        have hrest : ∃ rest, stepsWithin bound (text.dropWhile isKeyChar) = some rest := by
          obtain ⟨d, name, hcons⟩ := List.exists_cons_of_ne_nil hname
          rw [hcons] at h
          obtain ⟨rest, hrest, -⟩ := Option.map_eq_some_iff.1 h
          exact ⟨rest, hrest⟩
        obtain ⟨rest, hrest⟩ := hrest
        obtain ⟨parts, hparts, hall⟩ := ih hrest (notMem_dropWhile hfree.2)
        refine ⟨text.takeWhile isKeyChar :: parts, ?_, ?_⟩
        · rw [behind, List.flatMap_cons, ← behind, ← hparts, hpoint, List.cons_append,
            List.takeWhile_append_dropWhile]
        · intro part hpart
          rcases List.mem_cons.1 hpart with rfl | hlater
          · exact isIdentifier_takeWhile hname
          · exact hall part hlater
      · rw [if_neg hpoint, if_neg (Ne.symm hfree.1)] at h
        cases h

/-- A key that spells a path without a bracket is made of identifiers with points between them. -/
theorem isDotted_of_parse? {key : String} {path : Path} (h : parse? key = some path)
    (hfree : '[' ∉ key.toList) : IsDotted key := by
  simp only [parse?] at h
  have hname : key.toList.takeWhile isKeyChar ≠ [] := by
    intro hempty
    rw [hempty] at h
    cases h
  have hrest : ∃ steps, stepsWithin key.toList.length (key.toList.dropWhile isKeyChar) =
      some steps := by
    obtain ⟨c, name, hcons⟩ := List.exists_cons_of_ne_nil hname
    rw [hcons] at h
    obtain ⟨steps, hsteps, -⟩ := Option.map_eq_some_iff.1 h
    exact ⟨steps, hsteps⟩
  obtain ⟨steps, hsteps⟩ := hrest
  obtain ⟨parts, hparts, hall⟩ := exists_parts_of_stepsWithin hsteps (notMem_dropWhile hfree)
  have hidentifiers : ∀ part ∈ key.toList.takeWhile isKeyChar :: parts, IsIdentifier part := by
    intro part hpart
    rcases List.mem_cons.1 hpart with rfl | hlater
    · exact isIdentifier_takeWhile hname
    · exact hall part hlater
  have hsplit := splitOn_behind fun part hpart => (hidentifiers part hpart).point_notMem
  rw [← hparts, List.takeWhile_append_dropWhile] at hsplit
  intro part hpart
  rw [hsplit] at hpart
  exact hidentifiers part hpart

/-- A key without brackets leads along its route. -/
theorem leads_route {key : String} (hfree : '[' ∉ key.toList) : Leads key (route key) := by
  by_cases hdotted : IsDotted key
  · rw [route, if_pos hdotted]
    exact leads_place hdotted
  · have hparse : parse? key = none := by
      cases h : parse? key with
      | none => rfl
      | some path => exact absurd (isDotted_of_parse? h hfree) hdotted
    refine ⟨key, [], ?_, ?_⟩
    · rw [ofKey, hparse]
      rfl
    · rw [route, if_neg hdotted]
      rfl

/-! ## Routes that are apart -/

/-- What is in a part is in the whole. -/
theorem mem_of_mem_part {key : String} {part : List Char} {c : Char}
    (hpart : part ∈ key.toList.splitOn '.') (hc : c ∈ part) : c ∈ key.toList := by
  obtain ⟨first, rest, hsplit⟩ := List.exists_cons_of_ne_nil (List.splitOn_ne_nil '.' key.toList)
  have htext : ['.'].intercalate (key.toList.splitOn '.') = key.toList :=
    List.intercalate_splitOn '.'
  rw [← htext, hsplit, intercalate_eq_behind, List.mem_append]
  rw [hsplit] at hpart
  rcases List.mem_cons.1 hpart with rfl | hrest
  · exact .inl hc
  · exact .inr (List.mem_flatMap.2 ⟨part, hrest, List.mem_cons_of_mem _ hc⟩)

/-- The parts of a key in small letters are keys of tables as they stand. -/
theorem lower_part {key : String} (h : ∀ c ∈ key.toList, Text.IsSmall c) {part : List Char}
    (hpart : part ∈ key.toList.splitOn '.') :
    Text.lower (String.ofList part) = String.ofList part := by
  apply Text.lower_eq_self
  intro c hc
  rw [String.toList_ofList] at hc
  exact h c (mem_of_mem_part hpart hc)

/-- A key that is no path is not among the keys of a path. -/
theorem ne_of_mem_place {one other name : String} (hsmall : ∀ c ∈ one.toList, Text.IsSmall c)
    (hone : IsDotted one) (hother : ¬IsDotted other) (hname : name ∈ place one) :
    name ≠ other := by
  rintro rfl
  obtain ⟨part, hpart, hlower⟩ := List.mem_map.1 hname
  rw [lower_part hsmall hpart] at hlower
  apply hother
  rw [IsDotted, ← hlower, String.toList_ofList, List.splitOn_eq_singleton (hone part hpart).point_notMem]
  intro last hlast
  rw [List.mem_singleton.1 hlast]
  exact hone part hpart

/-- A key leads below the start. -/
theorem place_ne_nil (key : String) : place key ≠ [] := by
  rw [place, ne_eq, List.map_eq_nil_iff]
  exact List.splitOn_ne_nil '.' key.toList

/-- The place of a path is apart from a key that is no path. -/
theorem apart_place_singleton {one other : String} (hsmall : ∀ c ∈ one.toList, Text.IsSmall c)
    (hone : IsDotted one) (hother : ¬IsDotted other) : Walk.Apart (place one) [other] := by
  obtain ⟨name, names, hplace⟩ := List.exists_cons_of_ne_nil (place_ne_nil one)
  have hne : name ≠ other :=
    ne_of_mem_place hsmall hone hother (by rw [hplace]; exact List.mem_cons_self)
  rw [hplace]
  constructor
  · intro hprefix
    exact hne (List.cons_prefix_cons.1 hprefix).1
  · intro hprefix
    exact hne (List.cons_prefix_cons.1 hprefix).1.symm

/-- **Routes.**  Names in small letters whose parts are apart have routes that are apart. -/
theorem apart_route {one other : String} (hone : ∀ c ∈ one.toList, Text.IsSmall c)
    (hother : ∀ c ∈ other.toList, Text.IsSmall c) (h : Walk.Apart (place one) (place other)) :
    Walk.Apart (route one) (route other) := by
  rw [route, route, Text.lower_eq_self hone, Text.lower_eq_self hother]
  by_cases hdotted : IsDotted one
  · by_cases hlast : IsDotted other
    · rw [if_pos hdotted, if_pos hlast]
      exact h
    · rw [if_pos hdotted, if_neg hlast]
      exact apart_place_singleton hone hdotted hlast
  · by_cases hlast : IsDotted other
    · rw [if_neg hdotted, if_pos hlast]
      exact (apart_place_singleton hother hlast hdotted).symm
    · rw [if_neg hdotted, if_neg hlast]
      have hne : one ≠ other := by
        rintro rfl
        exact h.1 (List.prefix_refl _)
      constructor
      · intro hprefix
        exact hne (List.cons_prefix_cons.1 hprefix).1
      · intro hprefix
        exact hne (List.cons_prefix_cons.1 hprefix).1.symm

end Path

namespace Environment

/-! ## What variables say -/

/-- The variables that are settings. -/
def settings (environment : List (String × String)) : List (String × String) :=
  environment.filter fun named => (key? named.1).isSome

/-- All other variables are passed over. -/
theorem said_settings (environment : List (String × String)) :
    said (settings environment) = said environment := by
  rw [said, said, settings, List.filterMap_filter]
  congr 1
  funext named
  cases hkey : key? named.1 <;> simp [hkey]

/-- Underscores become points, and nothing else changes. -/
theorem mem_of_mem_pointed {text : List Char} {c : Char} (h : c ∈ pointed text) :
    c = '.' ∨ c ∈ text := by
  fun_induction pointed text with
  | case1 rest ih =>
    rcases List.mem_cons.1 h with hpoint | hrest
    · exact .inl hpoint
    · exact (ih hrest).imp id fun hmem => List.mem_cons_of_mem _ (List.mem_cons_of_mem _ hmem)
  | case2 first rest _ ih =>
    rcases List.mem_cons.1 h with hfirst | hrest
    · exact .inr (List.mem_cons.2 (.inl hfirst))
    · exact (ih hrest).imp id (List.mem_cons_of_mem _)
  | case3 => cases h

/-- Keys of variables are in small letters. -/
theorem isSmall_of_key? {name key : String} (h : key? name = some key) :
    ∀ c ∈ key.toList, Text.IsSmall c := by
  intro c hc
  simp only [key?, Option.ite_none_right_eq_some, Option.some.injEq] at h
  obtain ⟨-, rfl⟩ := h
  rw [String.toList_ofList] at hc
  rcases mem_of_mem_pointed hc with rfl | hname
  · exact Text.isSmall_of_lt (by decide) (by decide)
  · exact Text.isSmall_of_mem_lower (List.mem_of_mem_drop hname)

variable {environment : List (String × String)} {entry : String × Setting}

/-- What a variable says is a scalar. -/
theorem exists_scalar_of_mem_said (h : entry ∈ said environment) :
    ∃ value, entry.2 = .scalar (some origin) value := by
  obtain ⟨named, -, hentry⟩ := List.mem_filterMap.1 h
  obtain ⟨key, -, rfl⟩ := Option.map_eq_some_iff.1 hentry
  exact ⟨scalar named.2, rfl⟩

/-- What variables say has keys in small letters. -/
theorem isSmall_of_mem_said (h : entry ∈ said environment) :
    ∀ c ∈ entry.1.toList, Text.IsSmall c := by
  obtain ⟨named, -, hentry⟩ := List.mem_filterMap.1 h
  obtain ⟨key, hkey, rfl⟩ := Option.map_eq_some_iff.1 hentry
  exact isSmall_of_key? hkey

/-- All settings of the environment are scalars. -/
theorem scalar_of_mem_source :
    ∀ entry ∈ source environment, ∃ origin value, entry.2 = .scalar origin value :=
  fun _ hentry => ⟨_, exists_scalar_of_mem_said (Entries.mem_of_mem_collect hentry)⟩

/-- Their keys start plain. -/
theorem startsPlain_of_mem_source (h : entry ∈ source environment) : Path.StartsPlain entry.1 :=
  Path.startsPlain_of_lower
    (Text.lower_eq_self (isSmall_of_mem_said (Entries.mem_of_mem_collect h)))

/-- If no key is said twice, what is said is the source as it stands. -/
theorem source_eq_said (h : (Entries.keys (said environment)).Nodup) :
    source environment = said environment := Entries.collect_eq_self h

/-- What is said at places apart is said once. -/
theorem nodup_of_apart {place : String → List String} {entries : Entries}
    (h : (entries.map fun entry => place entry.1).Pairwise Walk.Apart) : entries.keys.Nodup := by
  rw [Entries.keys, List.Nodup, List.pairwise_map]
  refine (List.pairwise_map.1 h).imp fun hapart hsame => ?_
  rw [hsame] at hapart
  exact hapart.1 (List.prefix_refl _)

/-- **Routes of an environment.**  Variables whose names have no brackets, and parts that are apart,
say scalars at places that are apart. -/
theorem scattered_route (hplain : ∀ entry ∈ said environment, '[' ∉ entry.1.toList)
    (hapart : ((said environment).map fun entry => Path.place entry.1).Pairwise Walk.Apart) :
    Setting.Scattered Path.route (source environment) := by
  rw [source_eq_said (nodup_of_apart hapart)]
  refine ⟨fun entry hentry => ⟨_, exists_scalar_of_mem_said hentry⟩,
    fun entry hentry => Path.leads_route (hplain entry hentry), ?_⟩
  rw [List.pairwise_map] at hapart ⊢
  refine hapart.imp_of_mem fun hone hother hdiffer => ?_
  exact Path.apart_route (isSmall_of_mem_said hone) (isSmall_of_mem_said hother) hdiffer

end Environment

end ServingCatalog
