import ServingCatalog.Proofs.Settings.Alike

/-!
# Decoders that see what shows

A decoder is `Steady` if settings that are alike and settled are decoded to the same value.  It may
still report different faults: which of several faults comes first is a matter of order.

Decoders are steady that tell tables apart by what shows of them: a record looks up the keys of its
fields (`steady_record`), and a choice looks for a table with one key only (`steady_choice`).  Lists
that are alike are the same, so whatever is made of their items is.
-/

namespace ServingCatalog

namespace Setting

/-- Settings that are alike and settled are decoded to the same value, if to any. -/
def Steady {α : Type} (decode : Decoder α) : Prop :=
  ∀ {one other : Setting}, Alike (some one) (some other) → one.Settled → other.Settled →
    ∀ {value : α}, decode one = .ok value → decode other = .ok value

section Decoders

variable {α : Type}

/-- Only tables can be alike without being the same. -/
theorem steady_of_tables {decode : Decoder α}
    (h : ∀ origin entries place others, AlikeEntries entries others →
      (Setting.table origin entries).Settled → (Setting.table place others).Settled →
      ∀ value, decode (.table origin entries) = .ok value →
        decode (.table place others) = .ok value) : Steady decode := by
  intro one other halike hone hother value hdecode
  rcases halike.eq_or_tables with hsame | ⟨origin, entries, place, others, rfl, rfl, hentries⟩
  · rw [← hsame]
    exact hdecode
  · exact h origin entries place others hentries hone hother value hdecode

/-- A decoder that makes nothing of tables is steady. -/
theorem steady_of_no_table {decode : Decoder α}
    (h : ∀ origin entries value, decode (.table origin entries) ≠ .ok value) : Steady decode :=
  steady_of_tables fun origin entries _ _ _ _ _ value hdecode =>
    absurd hdecode (h origin entries value)

theorem steady_text : Steady decodeText :=
  steady_of_no_table fun _ _ _ hdecode => by cases hdecode

/-- Of items that were decoded, each one was. -/
theorem exists_of_decodeItems {item : Decoder α} {index : Nat} {settings : List Setting}
    {values : List α} (h : decodeItems item index settings = .ok values) :
    ∀ setting ∈ settings, ∃ value, item setting = .ok value := by
  induction settings generalizing index values with
  | nil => exact nofun
  | cons first rest ih =>
    rw [decodeItems] at h
    cases hfirst : item first with
    | error fault =>
      simp only [hfirst] at h
      cases h
    | ok value =>
      simp only [hfirst] at h
      cases hrest : decodeItems item (index + 1) rest with
      | error fault =>
        rw [hrest] at h
        cases h
      | ok values =>
        intro setting hsetting
        rcases List.mem_cons.1 hsetting with hsame | hlater
        · rw [hsame]
          exact ⟨value, hfirst⟩
        · exact ih hrest setting hlater

/-- A list is decoded as it stands, whatever its items are. -/
theorem steady_list (item : Decoder α) : Steady (decodeList item) :=
  steady_of_no_table fun _ _ _ hdecode => by cases hdecode

/-- If the only key of a table shows, so it does in a table that is alike. -/
theorem eq_singleton_of_alike {key : String} {setting : Setting} {others : Entries}
    (h : AlikeEntries [(key, setting)] others) (hnodup : others.keys.Nodup) :
    ∃ last, others = [(key, last)] := by
  have hkeys : ∀ name, name ∈ others.keys ↔ name ∈ [key] := by
    intro name
    have hface := (h name).map_face
    have hnone : others.get? name = none ↔ Entries.get? name [(key, setting)] = none := by
      rw [← Option.map_eq_none_iff, ← hface, Option.map_eq_none_iff]
    rw [Entries.get?_eq_none_iff, Entries.get?_eq_none_iff] at hnone
    exact Decidable.not_iff_not.1 hnone
  have hperm := (List.perm_ext_iff_of_nodup hnodup (by simp)).2 hkeys
  obtain ⟨entry, hentry, hkey⟩ := List.map_eq_singleton_iff.1 (List.perm_singleton.1 hperm)
  exact ⟨entry.2, by rw [hentry, ← hkey]⟩

/-- A choice sees only the text. -/
theorem steady_choice (choice : String) (name : α → String) (known : List α) :
    Steady (decodeChoice choice name known) := by
  apply steady_of_tables
  intro origin entries place others halike _ hother value hdecode
  match entries with
  | [] => cases hdecode
  | [(key, setting)] =>
    obtain ⟨last, rfl⟩ := eq_singleton_of_alike halike hother.nodup
    exact hdecode
  | _ :: _ :: _ => cases hdecode

end Decoders

/-! ## Records -/

section Records

variable {φ : Type} {Value : φ → Type} {α : Type}
variable {r : Record φ Value α} {decode : (f : φ) → Decoder (Value f)}

/-- Entries that are alike show the same draft. -/
theorem Shows.alike (hsteady : ∀ f, Steady (decode f)) {one other : Entries}
    {draft : Draft φ Value} (h : Shows r decode one draft) (halike : AlikeEntries one other)
    (hone : (Setting.table none one).Settled) (hother : (Setting.table none other).Settled) :
    Shows r decode other draft := by
  refine ⟨hother.nodup, fun f setting hget => ?_, fun f hget => ?_⟩
  · have hface := (halike (r.name f)).map_face
    rw [hget, Option.map_some, Option.map_eq_some_iff] at hface
    obtain ⟨held, hheld, -⟩ := hface
    obtain ⟨value, hdecode, hvalue⟩ := h.found f held hheld
    have hsetting := halike (r.name f)
    rw [hheld, hget] at hsetting
    exact ⟨value, hsteady f hsetting (hone.get? held hheld) (hother.get? setting hget) hdecode,
      hvalue⟩
  · have hface := (halike (r.name f)).map_face
    rw [hget, Option.map_none, Option.map_eq_none_iff] at hface
    exact h.lacking f hface

/-- Tables that are alike show the same draft. -/
theorem Shown.alike (hsteady : ∀ f, Steady (decode f)) {one other : Setting}
    {draft : Draft φ Value} (h : Shown r decode one draft) (halike : Alike (some one) (some other))
    (hone : one.Settled) (hother : other.Settled) : Shown r decode other draft := by
  obtain ⟨origin, entries, rfl, hshows⟩ := h
  rcases halike.eq_or_tables with rfl | ⟨_, _, place, others, htable, rfl, hentries⟩
  · exact ⟨origin, entries, rfl, hshows⟩
  · cases htable
    exact ⟨place, others, rfl, hshows.alike hsteady hentries hone.place hother.place⟩

/-- Likewise for what may be a table or nothing. -/
theorem Shown.rel_alike (hsteady : ∀ f, Steady (decode f)) {one other : Option Setting}
    {draft : Option (Draft φ Value)} (h : Option.Rel (Shown r decode) one draft)
    (halike : Alike one other) (hone : ∀ setting ∈ one, setting.Settled)
    (hother : ∀ setting ∈ other, setting.Settled) : Option.Rel (Shown r decode) other draft := by
  have hface := halike.map_face
  cases h with
  | none =>
    rw [Option.map_none, eq_comm, Option.map_eq_none_iff] at hface
    rw [hface]
    exact .none
  | some hshown =>
    rw [Option.map_some, eq_comm, Option.map_eq_some_iff] at hface
    obtain ⟨last, rfl, -⟩ := hface
    exact .some (hshown.alike hsteady halike (hone _ rfl) (hother _ rfl))

variable [DecidableEq φ]

/-- Entries that were decoded into a draft: each field that is found was decoded, and the others
keep what the draft had at the start. -/
theorem draftOfEntries_ok (hlawful : r.Lawful) {entries : Entries} (hnodup : entries.keys.Nodup)
    {start draft : Draft φ Value} (h : draftOfEntries r decode entries start = .ok draft) :
    (∀ f setting, entries.get? (r.name f) = some setting →
      ∃ value, decode f setting = .ok value ∧ draft f = some value) ∧
    ∀ f, entries.get? (r.name f) = none → draft f = start f := by
  induction entries generalizing start with
  | nil =>
    have hsame : start = draft := Except.ok.inj h
    rw [hsame]
    exact ⟨nofun, fun _ _ => rfl⟩
  | cons entry rest ih =>
    obtain ⟨key, setting⟩ := entry
    obtain ⟨hfree, hrest⟩ := List.nodup_cons.1 hnodup
    rw [draftOfEntries] at h
    cases hfield : r.field? key with
    | none =>
      rw [hfield] at h
      -- The key is that of no field, so that each field is looked up behind it.
      have hother : ∀ f, Entries.get? (r.name f) ((key, setting) :: rest) =
          Entries.get? (r.name f) rest := by
        intro f
        apply Entries.get?_cons_other
        intro hsame
        rw [hsame, hlawful f] at hfield
        cases hfield
      simp only [hother]
      exact ih hrest h
    | some f =>
      have hname := Record.name_of_field? hfield
      subst hname
      rw [hfield] at h
      cases hdecode : decode f setting with
      | error fault =>
        simp only [hdecode] at h
        cases h
      | ok value =>
        simp only [hdecode] at h
        obtain ⟨hfound, hlacking⟩ := ih hrest h
        have hvalue : draft f = some value := by
          rw [hlacking f (Entries.get?_eq_none_iff.2 hfree), Draft.put_same]
        refine ⟨fun g later hget => ?_, fun g hget => ?_⟩
        · by_cases hsame : f = g
          · subst hsame
            rw [Entries.get?_cons_same] at hget
            rw [← Option.some.inj hget]
            exact ⟨value, hdecode, hvalue⟩
          · rw [Entries.get?_cons_other fun h => hsame (hlawful.name_injective h)] at hget
            exact hfound g later hget
        · by_cases hsame : f = g
          · subst hsame
            rw [Entries.get?_cons_same] at hget
            cases hget
          · rw [Entries.get?_cons_other fun h => hsame (hlawful.name_injective h)] at hget
            rw [hlacking g hget, Draft.put_other hsame]

/-- Entries that were decoded show the draft. -/
theorem shows_of_draftOfEntries (hlawful : r.Lawful) {entries : Entries}
    (hnodup : entries.keys.Nodup) {draft : Draft φ Value}
    (h : draftOfEntries r decode entries Draft.empty = .ok draft) :
    Shows r decode entries draft := by
  obtain ⟨hfound, hlacking⟩ := draftOfEntries_ok hlawful hnodup h
  exact ⟨hnodup, hfound, hlacking⟩

/-- In a table that was decoded, each field that is found was. -/
theorem exists_of_decodeRecord (hlawful : r.Lawful) {origin : Option String} {entries : Entries}
    (hnodup : entries.keys.Nodup) {value : α}
    (h : decodeRecord r decode (.table origin entries) = .ok value) {f : φ} {setting : Setting}
    (hget : entries.get? (r.name f) = some setting) : ∃ part, decode f setting = .ok part := by
  simp only [decodeRecord] at h
  cases hdraft : draftOfEntries r decode entries Draft.empty with
  | error fault =>
    rw [hdraft] at h
    cases h
  | ok draft =>
    obtain ⟨part, hpart, -⟩ := (shows_of_draftOfEntries hlawful hnodup hdraft).found f setting hget
    exact ⟨part, hpart⟩

/-- A field whose key is not there is not written. -/
theorem draftOfEntries_lacking {entries : Entries} {f : φ} (hfree : r.name f ∉ entries.keys)
    {start draft : Draft φ Value} (h : draftOfEntries r decode entries start = .ok draft) :
    draft f = start f := by
  induction entries generalizing start with
  | nil =>
    have hsame : start = draft := Except.ok.inj h
    rw [hsame]
  | cons entry rest ih =>
    obtain ⟨key, setting⟩ := entry
    have hrest : r.name f ∉ Entries.keys rest := fun hmem => hfree (List.mem_cons_of_mem _ hmem)
    rw [draftOfEntries] at h
    cases hfield : r.field? key with
    | none =>
      rw [hfield] at h
      exact ih hrest h
    | some g =>
      have hname := Record.name_of_field? hfield
      rw [hfield] at h
      cases hdecode : decode g setting with
      | error fault =>
        simp only [hdecode] at h
        cases h
      | ok value =>
        simp only [hdecode] at h
        have hother : g ≠ f := by
          intro hsame
          apply hfree
          rw [← hsame, hname]
          exact List.mem_cons_self
        rw [ih hrest h, Draft.put_other hother]

/-- **Records** are decoded steadily if their fields are. -/
theorem steady_record (hlawful : r.Lawful) (hsteady : ∀ f, Steady (decode f)) :
    Steady (decodeRecord r decode) := by
  apply steady_of_tables
  intro origin entries place others halike hone hother value hdecode
  simp only [decodeRecord] at hdecode
  cases hdraft : draftOfEntries r decode entries Draft.empty with
  | error fault =>
    rw [hdraft] at hdecode
    cases hdecode
  | ok draft =>
    rw [hdraft] at hdecode
    have hshows := shows_of_draftOfEntries hlawful hone.nodup hdraft
    have hothers := hshows.alike hsteady halike hone.place hother.place
    have hshown : Shown r decode (.table place others) draft := ⟨place, others, rfl, hothers⟩
    rw [hshown.decodeRecord hlawful]
    exact hdecode

end Records

end Setting

end ServingCatalog
