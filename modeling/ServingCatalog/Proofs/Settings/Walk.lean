import ServingCatalog.Proofs.Settings.Tables

/-!
# Walks through layers of settings

A walk along keys goes from table to table.  In a layer it may meet a missing key, and then the
layer is silent; or it may meet something that is no table, at its end or before, and then the layer
decides what is read there: `Setting.walk`.  In the settings that the layers make together the same
keys lead to what is read: `Setting.read`.

`turns_overlay` is the step: laying one setting over another changes what is read as the walk says,
by induction on the path.  Writing to a key of plain identifiers is laying nested tables with one
key each over what is held, so that keys such as `a.b` take the same step.
-/

namespace ServingCatalog

/-- What a walk along keys meets in a layer: a missing key; something that is no table, which is
what is read at the end of the walk, and before it is in the way; or a table at the end. -/
inductive Walk where
  | silent
  | decided (found : Option Setting)
  | table

namespace Walk

/-- A walk through two layers: the one below counts where the one above is silent. -/
def atop (above below : Walk) : Walk :=
  match above with
  | .silent => below
  | other => other

/-- How a layer changes what is read: not at all if it is silent. -/
def Turns (walk : Walk) (held now : Option Setting) : Prop :=
  match walk with
  | .silent => now = held
  | .decided found => now = found
  | .table => now.isSome

/-- Two layers change what is read as the walk through both says. -/
theorem Turns.atop {above below : Walk} {held middle now : Option Setting}
    (habove : above.Turns middle now) (hbelow : below.Turns held middle) :
    (above.atop below).Turns held now := by
  cases above with
  | silent =>
    have hsame : now = middle := habove
    rw [hsame]
    exact hbelow
  | decided found => exact habove
  | table => exact habove

end Walk

namespace Setting

/-- A walk along keys, which are those of tables in small letters. -/
def walk : List String → Setting → Walk
  | [], .table _ _ => .table
  | [], setting => .decided (some setting)
  | key :: path, .table _ entries =>
    match entries.find? fun entry => Text.lower entry.1 = key with
    | some entry => walk path entry.2
    | none => .silent
  | _ :: _, _ => .decided none

/-- What keys lead to, if they lead anywhere. -/
def read : List String → Setting → Option Setting
  | [], setting => some setting
  | key :: path, .table _ entries => (Entries.get? key entries).bind (read path)
  | _ :: _, _ => none

/-- No two keys of one table are the same in small letters.  Tables in lists are not looked at. -/
inductive Tidy : Setting → Prop
  | scalar (origin : Option String) (value : Scalar) : Tidy (.scalar origin value)
  | list (origin : Option String) (items : List Setting) : Tidy (.list origin items)
  | table {origin : Option String} {entries : Entries}
      (hkeys : (entries.map fun entry => Text.lower entry.1).Nodup)
      (hentries : ∀ entry ∈ entries, Tidy entry.2) : Tidy (.table origin entries)

/-- What replaces all that it is laid over is no table. -/
theorem ne_table_of_replaces {setting : Setting} (h : ∀ held, overlay held setting = setting)
    (origin : Option String) (entries : Entries) : setting ≠ .table origin entries := by
  rintro rfl
  cases entries with
  | nil => cases h (some (.scalar none .null))
  | cons entry rest =>
    -- Over a table the origin is that of the table.
    have hnowhere := h none
    have hsomewhere := h (some (.table (some "") []))
    rw [overlay, Setting.table.injEq] at hnowhere hsomewhere
    have hsame := hnowhere.1.trans hsomewhere.1.symm
    cases hsame

theorem tidy_of_ne_table {setting : Setting}
    (h : ∀ origin entries, setting ≠ .table origin entries) : setting.Tidy := by
  cases setting with
  | scalar origin value => exact .scalar origin value
  | list origin items => exact .list origin items
  | table origin entries => exact absurd rfl (h origin entries)

/-- A flat table is tidy. -/
theorem Flat.tidy {entries : Entries} (h : Flat entries) (origin : Option String) :
    (Setting.table origin entries).Tidy := by
  refine .table ?_ fun entry hentry => tidy_of_ne_table (ne_table_of_replaces (h.replaces entry hentry))
  rw [List.map_congr_left h.lower]
  exact h.nodup

/-! ## Laying settings over others -/

/-- What a key holds after entries are laid over others: their setting for the key, laid over what
was held before. -/
theorem get?_overlayEntries_of_nodup {above : Entries}
    (h : (above.map fun entry => Text.lower entry.1).Nodup) (below : Entries) (key : String) :
    (overlayEntries below above).get? key =
      match above.find? fun entry => Text.lower entry.1 = key with
      | some entry => some (overlay (below.get? key) entry.2)
      | none => below.get? key := by
  induction above generalizing below with
  | nil => rfl
  | cons entry rest ih =>
    obtain ⟨k, s⟩ := entry
    obtain ⟨hfree, hrest⟩ := List.nodup_cons.1 h
    rw [overlayEntries, ih hrest]
    by_cases hkey : Text.lower k = key
    · subst hkey
      have hnone : rest.find? (fun entry => Text.lower entry.1 = Text.lower k) = none := by
        rw [List.find?_eq_none]
        intro other hother hsame
        exact hfree (List.mem_map.2 ⟨other, hother, of_decide_eq_true hsame⟩)
      rw [hnone, List.find?_cons_of_pos (by simp)]
      exact Entries.get?_alter_same _ _ below
    · rw [List.find?_cons_of_neg (by simpa using hkey), Entries.get?_alter_other hkey]

/-- **One layer over another.**  What is read along a path changes as the walk through the upper
layer says. -/
theorem turns_overlay {above : Setting} (h : above.Tidy) (path : List String)
    (below : Option Setting) :
    (walk path above).Turns (below.bind (read path)) (read path (overlay below above)) := by
  induction path generalizing above below with
  | nil =>
    cases h with
    | scalar origin value => rfl
    | list origin items => rfl
    | table hkeys hentries => rfl
  | cons key path ih =>
    cases h with
    | scalar origin value => rfl
    | list origin items => rfl
    | @table origin entries hkeys hentries =>
      have hget := get?_overlayEntries_of_nodup hkeys ((below.map Setting.entries).getD []) key
      -- What is read below goes through the key, whether there is a table or not.
      have hbelow : below.bind (read (key :: path)) =
          (((below.map Setting.entries).getD []).get? key).bind (read path) := by
        rcases below with _ | ⟨_ | _ | _⟩ <;> rfl
      cases entries with
      | nil =>
        show read (key :: path) (below.getD (.table none [])) = below.bind (read (key :: path))
        cases below <;> rfl
      | cons entry rest =>
        rw [overlay, walk, read, hget, hbelow]
        cases hfind : (entry :: rest).find? fun entry => Text.lower entry.1 = key with
        | none => rfl
        | some found => exact ih (hentries found (List.mem_of_find?_eq_some hfind)) _

/-- The same for the entries of the outermost table. -/
theorem turns_overlayEntries {above : Entries} (h : (Setting.table none above).Tidy)
    (path : List String) (below : Entries) :
    (walk path (.table none above)).Turns (read path (.table none below))
      (read path (.table none (overlayEntries below above))) := by
  have hturns := turns_overlay h path (some (.table none below))
  cases above <;> exact hturns

/-- A walk goes on where there is a table, so nothing that it decides is one. -/
theorem ne_table_of_walk {path : List String} {setting found : Setting}
    (h : walk path setting = .decided (some found)) (origin : Option String) (entries : Entries) :
    found ≠ .table origin entries := by
  induction path generalizing setting with
  | nil =>
    cases setting with
    | table place others => cases h
    | scalar place value =>
      cases h
      exact nofun
    | list place items =>
      cases h
      exact nofun
  | cons key path ih =>
    cases setting with
    | scalar place value => cases h
    | list place items => cases h
    | table place others =>
      rw [walk] at h
      split at h
      · exact ih h
      · cases h

/-! ## Nested tables -/

/-- Tables in tables, with one key each. -/
def nest (setting : Setting) : List String → Setting
  | [] => setting
  | key :: keys => .table none [(key, nest setting keys)]

/-- A tidy setting stays so below more keys. -/
theorem Tidy.nest {setting : Setting} (h : setting.Tidy) (keys : List String) :
    (setting.nest keys).Tidy := by
  induction keys with
  | nil => exact h
  | cons key keys ih =>
    refine .table (by simp) fun entry hentry => ?_
    rw [List.mem_singleton.1 hentry]
    exact ih

/-- Writing to keys is laying nested tables over what is held. -/
theorem write?_keys (setting : Setting) (keys : List String) (held : Option Setting) :
    write? setting (keys.map .key) held = some (overlay held (setting.nest keys)) := by
  induction keys generalizing held with
  | nil => rfl
  | cons key keys ih =>
    simp only [List.map_cons, write?, ih, Option.map_some, nest, overlay, overlayEntries,
      Entries.alter_eq_put]

end Setting

/-- The walk through a tree that has nothing but one setting at a place: the setting is met on all
paths that start with the place, and tables on the way there. -/
def Walk.toPlace (place : List String) (setting : Setting) (path : List String) : Walk :=
  if place <+: path then .decided (if place = path then some setting else none)
  else if path <+: place then .table
  else .silent

namespace Setting

theorem walk_nest {setting : Setting} {origin : Option String} {value : Scalar}
    (h : setting = .scalar origin value) (keys path : List String) :
    walk path (setting.nest keys) = .toPlace (keys.map Text.lower) setting path := by
  subst h
  induction keys generalizing path with
  | nil => cases path <;> simp [nest, walk, Walk.toPlace]
  | cons key keys ih =>
    cases path with
    | nil => simp [nest, walk, Walk.toPlace]
    | cons first path =>
      simp only [nest, walk, List.find?_cons, List.map_cons]
      by_cases hfirst : Text.lower key = first
      · simp [hfirst, ih, Walk.toPlace]
      · simp [hfirst, Ne.symm hfirst, Walk.toPlace]

end Setting

/-! ## Keys that spell a path -/

namespace Path

/-- A plain identifier. -/
structure IsIdentifier (part : List Char) : Prop where
  ne_nil : part ≠ []
  isKeyChar : ∀ c ∈ part, isKeyChar c = true

instance (part : List Char) : Decidable (IsIdentifier part) :=
  decidable_of_iff (part ≠ [] ∧ part.all Path.isKeyChar = true)
    ⟨fun h => ⟨h.1, List.all_eq_true.1 h.2⟩, fun h => ⟨h.1, List.all_eq_true.2 h.2⟩⟩

/-- Plain identifiers with points between them. -/
def IsDotted (key : String) : Prop := ∀ part ∈ key.toList.splitOn '.', IsIdentifier part

/-- The keys of tables that a key with points leads through, in small letters. -/
def place (key : String) : List String :=
  (key.toList.splitOn '.').map fun part => Text.lower (String.ofList part)

/-- What follows the first part of a key. -/
def behind (parts : List (List Char)) : List Char := parts.flatMap ('.' :: ·)

theorem intercalate_eq_behind (part : List Char) (parts : List (List Char)) :
    ['.'].intercalate (part :: parts) = part ++ behind parts := by
  induction parts generalizing part with
  | nil => simp [behind]
  | cons next parts ih =>
    rw [List.intercalate_cons_cons, ih, behind, behind, List.flatMap_cons]
    simp

/-- An identifier ends where the next part or the end comes. -/
theorem span_identifier {part : List Char} (h : IsIdentifier part) (parts : List (List Char)) :
    (part ++ behind parts).takeWhile isKeyChar = part ∧
      (part ++ behind parts).dropWhile isKeyChar = behind parts := by
  rw [List.takeWhile_append_of_pos h.isKeyChar, List.dropWhile_append_of_pos h.isKeyChar]
  have hpoint : isKeyChar '.' = false := by decide
  cases parts with
  | nil => simp [behind]
  | cons next parts => simp [behind, hpoint]

/-- Each identifier behind a point is one step. -/
theorem stepsWithin_behind {parts : List (List Char)} (h : ∀ part ∈ parts, IsIdentifier part) :
    ∀ bound, (behind parts).length ≤ bound →
      stepsWithin bound (behind parts) =
        some (parts.map fun part => .key (String.ofList part)) := by
  induction parts with
  | nil =>
    intro bound _
    cases bound <;> rfl
  | cons part parts ih =>
    intro bound hbound
    have hpart := h part List.mem_cons_self
    have htext : behind (part :: parts) = '.' :: (part ++ behind parts) := by
      rw [behind, List.flatMap_cons]
      rfl
    rw [htext, List.length_cons, List.length_append] at hbound
    obtain ⟨htake, hdrop⟩ := span_identifier hpart parts
    obtain ⟨c, cs, hcons⟩ := List.exists_cons_of_ne_nil hpart.ne_nil
    cases bound with
    | zero => omega
    | succ bound =>
      have hrest := ih (fun other hother => h other (List.mem_cons_of_mem part hother)) bound
        (by omega)
      rw [htext, stepsWithin, if_pos rfl, htake, hdrop, hrest, hcons]
      rfl

/-- A key of plain identifiers spells the path of its parts. -/
theorem ofKey_of_isDotted {key : String} (h : IsDotted key) :
    ∃ part parts, key.toList.splitOn '.' = part :: parts ∧
      ofKey key = ⟨String.ofList part, (parts.map String.ofList).map .key⟩ := by
  obtain ⟨part, parts, hsplit⟩ :=
    List.exists_cons_of_ne_nil (List.splitOn_ne_nil '.' key.toList)
  refine ⟨part, parts, hsplit, ?_⟩
  rw [IsDotted, hsplit] at h
  have hpart := h part List.mem_cons_self
  have htext : key.toList = part ++ behind parts := by
    rw [← intercalate_eq_behind, ← hsplit, List.intercalate_splitOn]
  obtain ⟨htake, hdrop⟩ := span_identifier hpart parts
  obtain ⟨c, cs, hcons⟩ := List.exists_cons_of_ne_nil hpart.ne_nil
  have hsteps := stepsWithin_behind (fun other hother => h other (List.mem_cons_of_mem part hother))
    key.toList.length (by rw [htext, List.length_append]; omega)
  have hparse : parse? key = some ⟨String.ofList part, (parts.map String.ofList).map .key⟩ := by
    simp only [parse?]
    rw [htext] at hsteps ⊢
    rw [htake, hdrop, hsteps, hcons, List.map_map]
    rfl
  rw [ofKey, hparse]
  rfl

/-- A key that is one step by itself. -/
def IsPlain (key : String) : Prop := ofKey key = ⟨key, []⟩

/-- A plain identifier spells a path of one step. -/
theorem IsIdentifier.isPlain {key : String} (h : IsIdentifier key.toList) : IsPlain key := by
  have hpoint : '.' ∉ key.toList := fun hmem => absurd (h.isKeyChar '.' hmem) (by decide)
  have hsplit := List.splitOn_eq_singleton hpoint
  have hdotted : IsDotted key := by
    intro part hpart
    rw [hsplit, List.mem_singleton] at hpart
    rwa [hpart]
  obtain ⟨part, parts, hparts, hpath⟩ := ofKey_of_isDotted hdotted
  rw [hsplit, List.cons.injEq] at hparts
  obtain ⟨rfl, rfl⟩ := hparts
  rw [IsPlain, hpath, String.ofList_toList]
  rfl

/-- A key leads along the keys of a place, and to no position in a list. -/
def Leads (key : String) (place : List String) : Prop :=
  ∃ root names, ofKey key = ⟨root, names.map .key⟩ ∧ (root :: names).map Text.lower = place

/-- A dotted key leads to its place. -/
theorem leads_place {key : String} (h : IsDotted key) : Leads key (place key) := by
  obtain ⟨part, parts, hsplit, hpath⟩ := ofKey_of_isDotted h
  refine ⟨String.ofList part, parts.map String.ofList, hpath, ?_⟩
  rw [place, hsplit, List.map_cons, List.map_cons, List.map_map]
  rfl

end Path

/-! ## Writing sources -/

namespace Setting

/-- A source whose keys are one step each is laid over what is held as a table. -/
theorem assignAll_of_isPlain {source : List (String × Setting)}
    (h : ∀ entry ∈ source, Path.IsPlain entry.1) (below : Entries) :
    assignAll below source = .ok (overlayEntries below source) := by
  induction source generalizing below with
  | nil => rfl
  | cons entry rest ih =>
    obtain ⟨key, setting⟩ := entry
    have hpath : Path.ofKey key = ⟨key, []⟩ := h (key, setting) List.mem_cons_self
    have hassign : assign below key setting =
        .ok (below.alter (Text.lower key) fun held => overlay held setting) := by
      simp only [assign, hpath, write?, Entries.alter_eq_put]
    rw [assignAll, List.foldlM_cons, overlayEntries, ← ih fun other hother =>
      h other (List.mem_cons_of_mem _ hother)]
    simp only [hassign]
    rfl

/-- Writing a scalar to a key that leads along keys is possible, and changes what is read as its
place says. -/
theorem exists_assign_of_leads {key : String} {place : List String} (h : Path.Leads key place)
    (origin : Option String) (value : Scalar) (below : Entries) :
    ∃ next, assign below key (.scalar origin value) = .ok next ∧ ∀ path,
      (Walk.toPlace place (.scalar origin value) path).Turns
        (read path (.table none below)) (read path (.table none next)) := by
  obtain ⟨root, names, hpath, rfl⟩ := h
  have htidy : (Setting.scalar origin value).Tidy := .scalar origin value
  have hnest : (Setting.scalar origin value).nest (root :: names) =
      .table none [(root, (Setting.scalar origin value).nest names)] := rfl
  refine ⟨overlayEntries below [(root, (Setting.scalar origin value).nest names)], ?_,
    fun path => ?_⟩
  · simp only [assign, hpath, write?_keys, overlayEntries, Entries.alter_eq_put]
  · rw [← walk_nest rfl, hnest]
    exact turns_overlayEntries (hnest ▸ htidy.nest _) path below

end Setting

end ServingCatalog
