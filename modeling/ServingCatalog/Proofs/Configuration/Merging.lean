import ServingCatalog.Proofs.Configuration.Passes
import ServingCatalog.Proofs.Json.Spelling

/-!
# Merging layers of any shape

Whatever trees of settings the two files and the environment are, the settings that they make
together can be told path by path: the last layer that is not silent on a path decides what is read
there.  `Walk.toPlaces` is the walk through the environment, whose tree is spelled by the names of
its variables; for files the walk goes through the tables that were read.

The main result is `loadFrom_of_walks`.  The order in which tables are gone through has no part in
it.
-/

namespace ServingCatalog

open Setting

namespace Walk

/-- What is decided in two layers is decided in one of them. -/
theorem decided_of_atop {above below : Walk} {found : Option Setting}
    (h : above.atop below = .decided found) : above = .decided found ∨ below = .decided found := by
  cases above with
  | silent => exact .inr h
  | decided other => exact .inl h
  | table => cases h

/-- What is decided at places is what stands there. -/
theorem exists_of_toPlaces {placed : List (List String × Setting)} {path : List String}
    {found : Setting} (h : toPlaces placed path = .decided (some found)) :
    ∃ entry ∈ placed, entry.2 = found := by
  rw [toPlaces] at h
  cases hfind : placed.find? fun entry => entry.1 <+: path with
  | none =>
    rw [hfind] at h
    by_cases hany : placed.any fun entry => path <+: entry.1
    · simp only [if_pos hany] at h
      cases h
    · simp only [if_neg hany] at h
      cases h
  | some entry =>
    rw [hfind] at h
    refine ⟨entry, List.mem_of_find?_eq_some hfind, ?_⟩
    by_cases hpath : entry.1 = path
    · simpa [hpath] using h
    · simp [hpath] at h

/-- A walk that decides on no table changes what is read in the same way once it is in order. -/
theorem Turns.map_ordered {walk : Walk} {now : Option Setting} (h : walk.Turns none now)
    (hno : ∀ found, walk = .decided (some found) → ∀ origin entries, found ≠ .table origin entries)
    (order : KeyOrder) : walk.Turns none (now.map (ordered order)) := by
  cases walk with
  | silent =>
    have hnone : now = none := h
    rw [hnone]
    rfl
  | table =>
    show (now.map (ordered order)).isSome
    rw [Option.isSome_map]
    exact h
  | decided found =>
    have hfound : now = found := h
    rw [hfound]
    cases found with
    | none => rfl
    | some setting =>
      show some (setting.ordered order) = some setting
      cases setting with
      | scalar origin value => rw [ordered]
      | list origin items => rw [ordered]
      | table origin entries => exact absurd rfl (hno _ rfl origin entries)

end Walk

namespace Environment

/-- The settings of an environment, each at the place that its name spells. -/
def placed (environment : List (String × String)) : List (List String × Setting) :=
  (source environment).map fun entry => (Path.place entry.1, entry.2)

/-- The names of the settings are plain identifiers with points between them, and spell a tree: no
two are the same, and none is within another. -/
structure IsTree (environment : List (String × String)) : Prop where
  dotted : ∀ entry ∈ source environment, Path.IsDotted entry.1
  apart : ((source environment).map fun entry => Path.place entry.1).Pairwise Walk.Apart

/-- The variables of a tree are written to places apart. -/
theorem IsTree.scattered {environment : List (String × String)} (h : IsTree environment) :
    Scattered Path.place (source environment) :=
  ⟨scalar_of_mem_source, fun entry hentry => Path.leads_place (h.dotted entry hentry), h.apart⟩

end Environment

namespace Setting

/-- A layer in any order changes what is read as the walk through it says. -/
theorem IsLayer.turns {source : List (String × Setting)} (h : IsLayer source) (order : KeyOrder)
    (path : List String) (below : Entries) :
    (walk path (.table none source)).Turns (read path (.table none below))
      (read path (.table none (overlayEntries below (orderedEntries order source)))) := by
  rw [← walk_eq (IsLayer.recased_ordered order) h.tidy]
  exact turns_overlayEntries (h.ordered order).tidy path below

end Setting

namespace Configuration

/-- What is read of merged entries is what was read before the last pass, in order. -/
theorem read_of_merge {loader : Loader} {sources : List Source} {entries : Entries}
    (h : layAll loader sources = .ok entries) (path : List String) :
    read path (.table none (orderedEntries (loader.order .merged) entries)) =
      (read path (.table none entries)).map (ordered ((loader.order .merged).at' path)) := by
  have hread := read_ordered (settled_layAll h) (loader.order .merged) path
  rwa [ordered] at hread

/-- **Merging.**  Two files and an environment are laid over each other.  What is read along a path
is what the last layer says that is not silent there, and nothing if all are silent; and a layer
that is silent leaves what is read as it was without it. -/
theorem loadFrom_of_walks {loader : Loader} {files : Files} {environment : List (String × String)}
    {defaultName localName : String} {lower upper : List (String × Setting)}
    (hlower : fileSource loader files defaultName = .ok lower)
    (hupper : fileSource loader files localName = .ok upper)
    (hlowerLayer : IsLayer lower) (hupperLayer : IsLayer upper)
    (henvironment : Environment.IsTree environment) :
    ∃ one two entries,
      merge loader [(.lower, fileSource loader files defaultName)] = .ok one ∧
      merge loader [(.lower, fileSource loader files defaultName),
        (.upper, fileSource loader files localName)] = .ok two ∧
      merge loader [(.lower, fileSource loader files defaultName),
        (.upper, fileSource loader files localName),
        (.environment, .ok (Environment.source environment))] = .ok entries ∧
      loadFrom loader defaultName localName files environment = ofEntries entries ∧
      ∀ path,
        ((Walk.toPlaces (Environment.placed environment) path).atop
            ((walk path (.table none upper)).atop (walk path (.table none lower)))).Turns none
          (read path (.table none entries)) ∧
        (Walk.toPlaces (Environment.placed environment) path = .silent →
          read path (.table none entries) = read path (.table none two)) ∧
        (walk path (.table none upper) = .silent →
          read path (.table none two) = read path (.table none one)) := by
  have hone : layAll loader ([] ++ [(.lower, .ok lower)]) =
      .ok (overlayEntries [] (orderedEntries (loader.order .lower) lower)) :=
    layAll_concat rfl (loader.lay_of_isLayer .lower hlowerLayer [])
  have htwo := layAll_concat hone (loader.lay_of_isLayer .upper hupperLayer _)
  obtain ⟨entries, hentries, hlast⟩ := exists_assignAll_of_perm henvironment.scattered
    (orderedEntries_perm_of_scalars henvironment.scattered.scalar
      (loader.order .environment)).symm
    (overlayEntries (overlayEntries [] (orderedEntries (loader.order .lower) lower))
      (orderedEntries (loader.order .upper) upper))
  have hlay : loader.lay .environment _ (Environment.source environment) = .ok entries := hentries
  have hall := layAll_concat htwo hlay
  -- The keys of what is laid stay one step each, so that the last pass only puts them in order.
  have honePlain : PlainTable (overlayEntries [] (orderedEntries (loader.order .lower) lower)) :=
    Loader.plainTable_lay hlowerLayer.startsPlain plainTable_nil
      (loader.lay_of_isLayer .lower hlowerLayer [])
  have htwoPlain := Loader.plainTable_lay hupperLayer.startsPlain honePlain
    (loader.lay_of_isLayer .upper hupperLayer _)
  have hallPlain := Loader.plainTable_lay (fun _ => Environment.startsPlain_of_mem_source) htwoPlain
    hlay
  have hmerge := merge_of_layAll hall hallPlain
  rw [hlower, hupper]
  refine ⟨_, _, _, merge_of_layAll hone honePlain, merge_of_layAll htwo htwoPlain, hmerge, ?_,
    fun path => ?_⟩
  · rw [loadFrom, loadOver, hlower, hupper]
    exact congrArg (· >>= ofEntries) hmerge
  · have hfirst := hlowerLayer.turns (loader.order .lower) path []
    have hsecond := hupperLayer.turns (loader.order .upper) path
      (overlayEntries [] (orderedEntries (loader.order .lower) lower))
    have hthird : (Walk.toPlaces (Environment.placed environment) path).Turns _
        (read path (.table none entries)) := hlast path
    rw [read_of_merge hall, read_of_merge htwo, read_of_merge hone]
    refine ⟨Walk.Turns.map_ordered ?_ (fun found hdecided => ?_) _, fun hsilent => ?_,
      fun hsilent => ?_⟩
    · have hturns := hthird.atop (hsecond.atop hfirst)
      cases path with
      | cons key path => exact hturns
      | nil =>
        -- At the start of all paths there is a table in each file.
        cases hwalk : Walk.toPlaces (Environment.placed environment) [] with
        | silent => exact rfl
        | decided found =>
          rw [hwalk] at hturns
          exact hturns
        | table => exact rfl
    · rcases Walk.decided_of_atop hdecided with henv | hfiles
      · obtain ⟨entry, hentry, rfl⟩ := Walk.exists_of_toPlaces henv
        obtain ⟨setting, hsetting, rfl⟩ := List.mem_map.1 hentry
        obtain ⟨origin, value, hscalar⟩ := henvironment.scattered.scalar setting hsetting
        rw [hscalar]
        exact fun _ _ htable => Setting.noConfusion htable
      · rcases Walk.decided_of_atop hfiles with hfile | hfile
        · exact ne_table_of_walk hfile
        · exact ne_table_of_walk hfile
    · rw [hsilent] at hthird
      exact congrArg _ hthird
    · rw [hsilent] at hsecond
      exact congrArg _ hsecond

/-- A file that was written compactly is a table of its members. -/
theorem fileSource_compact {loader : Loader} {files : Files} {name path : String}
    {members : List (String × Json)}
    (hlocate : locate? loader files name = some (.json, path, Json.compact (.object members)))
    (hspells : Json.Spells Json.maxDepth (.object members)
      (Json.compactChars (.object members))) :
    fileSource loader files name = .ok (ofMembers path (Json.sortedMembers [] members)) := by
  have hparse := Json.parse_of_isText (Json.isText_compact hspells)
  rw [fileSource, hlocate]
  simp only [Loader.source?, sourceOfJson?, hparse, Json.sorted]

/-- What the lower of two files says. -/
def lowerTree : List (String × Json) :=
  [("a", .object [("b", .string "1"), ("c", .string "2")])]

/-- What the upper one says: one key in a capital letter, with nothing behind it. -/
def upperTree : List (String × Json) := [("a", .object [("B", .null)])]

/-- The two files. -/
def twoTrees : Files :=
  [("config/default.json", "\x7b\"a\":\x7b\"b\":\"1\",\"c\":\"2\"\x7d\x7d"),
    ("config/local.json", "\x7b\"a\":\x7b\"B\":null\x7d\x7d")]

theorem spells_lowerTree : Json.Spells Json.maxDepth (.object lowerTree)
    (Json.compactChars (.object lowerTree)) := by
  show Json.Spells (125 + 1 + 1) _ _
  refine Json.spells_object fun member hmember => ?_
  rw [List.mem_singleton.1 hmember]
  refine Json.spells_object fun member hmember => ?_
  simp only [List.mem_cons, List.not_mem_nil, or_false] at hmember
  rcases hmember with rfl | rfl
  · exact Json.spells_string _ "1"
  · exact Json.spells_string _ "2"

theorem spells_upperTree : Json.Spells Json.maxDepth (.object upperTree)
    (Json.compactChars (.object upperTree)) := by
  show Json.Spells (125 + 1 + 1) _ _
  refine Json.spells_object fun member hmember => ?_
  rw [List.mem_singleton.1 hmember]
  refine Json.spells_object fun member hmember => ?_
  rw [List.mem_singleton.1 hmember]
  rfl

theorem isLayer_lowerTree : IsLayer (ofMembers "config/default.json" lowerTree) := by
  have hinner : (ofJson "config/default.json"
      (.object [("b", .string "1"), ("c", .string "2")])).Tidy := by
    refine .table (by decide) fun entry hentry => ?_
    simp only [ofMembers, List.mem_cons, List.not_mem_nil, or_false] at hentry
    rcases hentry with rfl | rfl <;> exact .scalar _ _
  refine ⟨fun entry hentry => ?_, .table (by decide) fun entry hentry => ?_⟩
  · rw [List.mem_singleton.1 hentry]
    exact (by decide : Path.IsIdentifier "a".toList)
  · rw [List.mem_singleton.1 hentry]
    exact hinner

theorem isLayer_upperTree : IsLayer (ofMembers "config/local.json" upperTree) := by
  have hinner : (ofJson "config/local.json" (.object [("B", .null)])).Tidy := by
    refine .table (by decide) fun entry hentry => ?_
    rw [List.mem_singleton.1 hentry]
    exact .scalar _ _
  refine ⟨fun entry hentry => ?_, .table (by decide) fun entry hentry => ?_⟩
  · rw [List.mem_singleton.1 hentry]
    exact (by decide : Path.IsIdentifier "a".toList)
  · rw [List.mem_singleton.1 hentry]
    exact hinner

theorem isTree_variable : Environment.IsTree [("HOME", "/home"), ("APP__A__C", "x")] := by
  have hsource : Environment.source [("HOME", "/home"), ("APP__A__C", "x")] =
      [("a.c", .scalar (some Environment.origin) (Environment.scalar "x"))] := rfl
  refine ⟨fun entry hentry => ?_, ?_⟩
  · rw [hsource] at hentry
    rw [List.mem_singleton.1 hentry]
    intro part hpart
    rw [show "a.c".toList.splitOn '.' = [['a'], ['c']] from rfl] at hpart
    simp only [List.mem_cons, List.not_mem_nil, or_false] at hpart
    rcases hpart with rfl | rfl <;> decide
  · rw [hsource]
    exact List.pairwise_singleton _ _

/-- The null of the upper file counts for `a.b`, whatever the lower file says there. -/
theorem read_twoTrees :
    ∃ entries, loadFrom .plain "config/default" "config/local" twoTrees
        [("HOME", "/home"), ("APP__A__C", "x")] = ofEntries entries ∧
      read ["a", "b"] (.table none entries) = some (.scalar (some "config/local.json") .null) := by
  have hlower : fileSource .plain twoTrees "config/default" =
      .ok (ofMembers "config/default.json" lowerTree) :=
    fileSource_compact (by decide +kernel) spells_lowerTree
  have hupper : fileSource .plain twoTrees "config/local" =
      .ok (ofMembers "config/local.json" upperTree) :=
    fileSource_compact (by decide +kernel) spells_upperTree
  obtain ⟨one, two, entries, -, -, -, hload, hread⟩ := loadFrom_of_walks hlower hupper
    isLayer_lowerTree isLayer_upperTree isTree_variable
  exact ⟨entries, hload, (hread ["a", "b"]).1⟩

end Configuration

end ServingCatalog
