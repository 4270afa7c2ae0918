import Mathlib.Data.List.Find
import ServingCatalog.Proofs.Settings.Alike
import ServingCatalog.Proofs.Settings.OfSlots

/-!
# Settings with keys in another case or order

Settings are `Recased` into others if the two differ only in keys of tables, outside lists, that are
the same in small letters, and in the order of entries.

Keys are held in small letters, so recased settings are walked through in the same way (`walk_eq`),
and make settings that are alike, each laid over settings that are alike (`Recased.alike_overlay`,
by induction on what is recased).  At a list the two are the same, and their keys with them.
-/

namespace ServingCatalog

namespace Setting

/-- The same setting, but for keys outside lists that are the same in small letters, and for the
order of entries. -/
inductive Recased : Setting → Setting → Prop
  | same {setting : Setting} (h : ∀ origin entries, setting ≠ .table origin entries) :
      Recased setting setting
  | table {origin : Option String} {entries others : Entries}
      (pairs : List ((String × Setting) × (String × Setting)))
      (hentries : entries = pairs.map (·.1)) (hothers : (pairs.map (·.2)).Perm others)
      (hkeys : ∀ pair ∈ pairs, Text.lower pair.1.1 = Text.lower pair.2.1)
      (hsettings : ∀ pair ∈ pairs, Recased pair.1.2 pair.2.2) :
      Recased (.table origin entries) (.table origin others)

section Pairs

variable {pairs : List ((String × Setting) × (String × Setting))}

theorem map_lower_pairs (hkeys : ∀ pair ∈ pairs, Text.lower pair.1.1 = Text.lower pair.2.1) :
    (pairs.map (·.2)).map (fun entry => Text.lower entry.1) =
      (pairs.map (·.1)).map fun entry => Text.lower entry.1 := by
  rw [List.map_map, List.map_map]
  exact List.map_congr_left fun pair hpair => (hkeys pair hpair).symm

/-- What is found under a key is one side of a pair, and in the other order the other side. -/
theorem find?_pairs {others : Entries}
    (hkeys : ∀ pair ∈ pairs, Text.lower pair.1.1 = Text.lower pair.2.1)
    (hothers : (pairs.map (·.2)).Perm others)
    (hnodup : ((pairs.map (·.1)).map fun entry => Text.lower entry.1).Nodup) (key : String) :
    ∃ found : Option ((String × Setting) × (String × Setting)), (∀ pair ∈ found, pair ∈ pairs) ∧
      (pairs.map (·.1)).find? (fun entry => Text.lower entry.1 = key) = found.map (·.1) ∧
      others.find? (fun entry => Text.lower entry.1 = key) = found.map (·.2) := by
  refine ⟨pairs.find? fun pair => Text.lower pair.1.1 = key,
    fun pair hpair => List.mem_of_find?_eq_some hpair, List.find?_map, ?_⟩
  rw [← map_lower_pairs hkeys] at hnodup
  have honce : (pairs.map (·.2)).Pairwise fun entry later =>
      ¬(decide (Text.lower entry.1 = key) = true ∧ decide (Text.lower later.1 = key) = true) := by
    refine (List.pairwise_map.1 hnodup).imp fun hdiffer hboth => hdiffer ?_
    rw [of_decide_eq_true hboth.1, of_decide_eq_true hboth.2]
  have hcongr : pairs.find? ((fun entry => Text.lower entry.1 = key) ∘ (·.2)) =
      pairs.find? fun pair => Text.lower pair.1.1 = key :=
    List.find?_congr fun pair hpair => by simp only [Function.comp_apply, hkeys pair hpair]
  rw [← find?_of_perm hothers honce, List.find?_map]
  exact congrArg (Option.map (·.2)) hcongr

end Pairs

/-- In a tidy table no two keys are the same in small letters. -/
theorem Tidy.nodup {origin : Option String} {entries : Entries}
    (h : (Setting.table origin entries).Tidy) :
    (entries.map fun entry => Text.lower entry.1).Nodup := by
  cases h with
  | table hkeys _ => exact hkeys

theorem Tidy.settings {origin : Option String} {entries : Entries}
    (h : (Setting.table origin entries).Tidy) : ∀ entry ∈ entries, entry.2.Tidy := by
  cases h with
  | table _ hentries => exact hentries

/-- Where a table was written does not matter. -/
theorem Tidy.place {origin : Option String} {entries : Entries}
    (h : (Setting.table origin entries).Tidy) (place : Option String) :
    (Setting.table place entries).Tidy := by
  cases h with
  | table hkeys hentries => exact .table hkeys hentries

/-- Where a table was read does not matter. -/
theorem Recased.place {origin : Option String} {entries others : Entries}
    (h : Recased (.table origin entries) (.table origin others)) (place : Option String) :
    Recased (.table place entries) (.table place others) := by
  cases h with
  | same hno => exact absurd rfl (hno origin entries)
  | table pairs hentries hothers hkeys hsettings =>
    exact .table pairs hentries hothers hkeys hsettings

/-- Keys that differ in small letters still do when they are recased. -/
theorem Recased.tidy {one other : Setting} (h : Recased one other) (htidy : one.Tidy) :
    other.Tidy := by
  induction h with
  | same => exact htidy
  | table pairs hentries hothers hkeys hsettings ih =>
    subst hentries
    have hnodup := htidy.nodup
    rw [← map_lower_pairs hkeys] at hnodup
    refine .table ((hothers.map _).nodup_iff.1 hnodup) fun entry hentry => ?_
    obtain ⟨pair, hpair, rfl⟩ := List.mem_map.1 (hothers.mem_iff.2 hentry)
    exact ih pair hpair (htidy.settings _ (List.mem_map_of_mem hpair))

/-- **Walks** through recased settings meet the same. -/
theorem walk_eq {one other : Setting} (h : Recased one other) (htidy : one.Tidy)
    (path : List String) : walk path other = walk path one := by
  induction h generalizing path with
  | same => rfl
  | table pairs hentries hothers hkeys hsettings ih =>
    subst hentries
    cases path with
    | nil => rfl
    | cons key path =>
      obtain ⟨found, hmem, hone, hother⟩ := find?_pairs hkeys hothers htidy.nodup key
      rw [walk, walk, hone, hother]
      cases found with
      | none => rfl
      | some pair =>
        exact ih pair (hmem pair rfl)
          (htidy.settings _ (List.mem_map_of_mem (hmem pair rfl))) path

/-- An empty table leaves what is there. -/
theorem Alike.getD {below above : Option Setting} (h : Alike below above) (setting : Setting) :
    Alike (some (below.getD setting)) (some (above.getD setting)) := by
  have hface := h.map_face
  cases below with
  | none =>
    rw [Option.map_none, eq_comm, Option.map_eq_none_iff] at hface
    rw [hface]
    exact .refl _
  | some held =>
    rw [Option.map_some, eq_comm, Option.map_eq_some_iff] at hface
    obtain ⟨other, rfl, -⟩ := hface
    exact h

/-- What is no table replaces what it is laid over. -/
theorem overlay_of_no_table {setting : Setting}
    (h : ∀ origin entries, setting ≠ .table origin entries) (held : Option Setting) :
    overlay held setting = setting := by
  cases setting with
  | scalar origin value => rw [overlay]
  | list origin items => rw [overlay]
  | table origin entries => exact absurd rfl (h origin entries)

/-- A table with entries is laid entry by entry. -/
theorem overlay_table {entries : Entries} (h : entries ≠ []) (origin : Option String)
    (held : Option Setting) :
    overlay held (.table origin entries) = .table (held.bind tableOrigin)
      (overlayEntries ((held.map Setting.entries).getD []) entries) := by
  cases entries with
  | nil => exact absurd rfl h
  | cons entry rest => rw [overlay]

/-- Entries whose settings are laid over what is alike so that it stays alike, laid over entries
that are alike. -/
theorem alikeEntries_overlay {pairs : List ((String × Setting) × (String × Setting))}
    {others : Entries} (hothers : (pairs.map (·.2)).Perm others)
    (hkeys : ∀ pair ∈ pairs, Text.lower pair.1.1 = Text.lower pair.2.1)
    (hnodup : ((pairs.map (·.1)).map fun entry => Text.lower entry.1).Nodup)
    (hsettings : ∀ pair ∈ pairs, ∀ {below above : Option Setting}, Alike below above →
      Alike (some (overlay below pair.1.2)) (some (overlay above pair.2.2)))
    {below above : Entries} (h : AlikeEntries below above) :
    AlikeEntries (overlayEntries below (pairs.map (·.1))) (overlayEntries above others) := by
  intro key
  have hother : (others.map fun entry => Text.lower entry.1).Nodup := by
    rw [← map_lower_pairs hkeys] at hnodup
    exact (hothers.map _).nodup_iff.1 hnodup
  obtain ⟨found, hmem, hfirst, hsecond⟩ := find?_pairs hkeys hothers hnodup key
  rw [get?_overlayEntries_of_nodup hnodup, get?_overlayEntries_of_nodup hother, hfirst, hsecond]
  cases found with
  | none => exact h key
  | some pair => exact hsettings pair (hmem pair rfl) (h key)

/-- **Recased settings** that are laid over settings that are alike make settings that are alike.
The induction is on what is recased: a table is laid over entry by entry, and anything else is the
same in both. -/
theorem Recased.alike_overlay {one other : Setting} (h : Recased one other) (htidy : one.Tidy)
    {below above : Option Setting} (hbelow : Alike below above) :
    Alike (some (overlay below one)) (some (overlay above other)) := by
  induction h generalizing below above with
  | same hno =>
    rw [overlay_of_no_table hno, overlay_of_no_table hno]
    exact .refl _
  | @table origin entries others pairs hentries hothers hkeys hsettings ih =>
    subst hentries
    have hlength : others.length = (pairs.map (·.1)).length := by
      rw [← hothers.length_eq, List.length_map, List.length_map]
    by_cases hempty : pairs.map (·.1) = []
    · have hnone : others = [] := by
        rw [← List.length_eq_zero_iff, hlength, hempty, List.length_nil]
      rw [hempty, hnone, overlay, overlay]
      exact hbelow.getD _
    · have hsome : others ≠ [] := by
        rwa [← List.length_pos_iff, hlength, List.length_pos_iff]
      rw [overlay_table hempty, overlay_table hsome]
      refine alike_table (alikeEntries_overlay hothers hkeys htidy.nodup (fun pair hpair => ?_)
        hbelow.entries) _ _
      exact ih pair hpair (htidy.settings _ (List.mem_map_of_mem hpair))

/-- The same for the outermost table. -/
theorem Recased.alike_overlayEntries {entries others : Entries}
    (h : Recased (.table none entries) (.table none others))
    (htidy : (Setting.table none entries).Tidy) {below above : Entries}
    (hbelow : AlikeEntries below above) :
    AlikeEntries (overlayEntries below entries) (overlayEntries above others) := by
  cases h with
  | same hno => exact absurd rfl (hno none entries)
  | table pairs hentries hothers hkeys hsettings =>
    subst hentries
    refine alikeEntries_overlay hothers hkeys htidy.nodup (fun pair hpair => ?_) hbelow
    exact (hsettings pair hpair).alike_overlay (htidy.settings _ (List.mem_map_of_mem hpair))

end Setting

/-! ## Values of files -/

namespace Json

/-- The same value, but for the case of ASCII letters in keys outside arrays, and the order of
members. -/
inductive Recased : Json → Json → Prop
  | same {value : Json} (h : ∀ members, value ≠ .object members) : Recased value value
  | object {members others : List (String × Json)} (change : String × Json → String × Json)
      (hkeys : ∀ member ∈ members, Text.SameButCase member.1 (change member).1)
      (hvalues : ∀ member ∈ members, Recased member.2 (change member).2)
      (horder : (members.map change).Perm others) : Recased (.object members) (.object others)

end Json

namespace Setting

/-- Only an object becomes a table. -/
theorem ofJson_ne_table {value : Json} (h : ∀ members, value ≠ .object members) (origin : String)
    (place : Option String) (entries : Entries) : ofJson origin value ≠ .table place entries := by
  cases value with
  | object members => exact absurd rfl (h members)
  | _ => exact nofun

/-- Recased values become recased settings. -/
theorem recased_ofJson {one other : Json} (h : Json.Recased one other) (origin : String) :
    Recased (ofJson origin one) (ofJson origin other) := by
  induction h with
  | same hno => exact .same (ofJson_ne_table hno origin)
  | @object members others change hkeys hvalues horder ih =>
    rw [ofJson, ofJson, ofMembers_eq_map, ofMembers_eq_map]
    refine .table (members.map fun member =>
      ((member.1, ofJson origin member.2), ((change member).1, ofJson origin (change member).2)))
      (by rw [List.map_map]; rfl) ?_ (fun pair hpair => ?_) fun pair hpair => ?_
    · have hchanged := horder.map fun member => (member.1, ofJson origin member.2)
      rw [List.map_map] at hchanged ⊢
      exact hchanged
    · obtain ⟨member, hmember, rfl⟩ := List.mem_map.1 hpair
      exact Text.lower_eq_of_sameButCase (hkeys member hmember)
    · obtain ⟨member, hmember, rfl⟩ := List.mem_map.1 hpair
      exact ih member hmember

end Setting

end ServingCatalog
