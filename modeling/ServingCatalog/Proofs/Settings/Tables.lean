import ServingCatalog.Proofs.Json.Object
import ServingCatalog.Settings.Decode
import ServingCatalog.Settings.Path

/-!
# Tables as drafts of records

A table of settings is looked at through a record: `Shown` relates it to the draft that holds, for
each field, what its entry is decoded to.  Whatever happens to tables on the way to a record then
happens to drafts:

* laying a table over another one lays their drafts over each other (`Shown.overlay`);
* writing to a key of a table is laying a table with this one key over it (`write?_key`);
* decoding a table makes the record of its draft (`Shown.decodeRecord`).
-/

namespace ServingCatalog

/-! ## Entries -/

/-- The first pair of a list is passed over in the search for another key. -/
theorem lookup_cons_other {β : Type} {key other : String} (h : key ≠ other) (value : β)
    (rest : List (String × β)) : List.lookup other ((key, value) :: rest) = rest.lookup other := by
  rw [List.lookup_cons, beq_false_of_ne (Ne.symm h)]

namespace Entries

/-- The keys of entries, in order. -/
def keys (entries : Entries) : List String := entries.map (·.1)

/-- Nothing is found of a key that no entry has. -/
theorem get?_eq_none_iff {key : String} {entries : Entries} :
    entries.get? key = none ↔ key ∉ entries.keys := by
  rw [get?, List.lookup_eq_none_iff, keys, List.mem_map]
  constructor
  · rintro hall ⟨entry, hentry, rfl⟩
    exact absurd (hall entry hentry) (by simp)
  · intro hfree entry hentry
    exact bne_iff_ne.2 fun hsame => hfree ⟨entry, hentry, hsame.symm⟩

theorem get?_cons_same (key : String) (setting : Setting) (rest : Entries) :
    get? key ((key, setting) :: rest) = some setting :=
  List.lookup_cons_self

theorem get?_cons_other {key other : String} (h : key ≠ other) (setting : Setting)
    (rest : Entries) : get? other ((key, setting) :: rest) = get? other rest :=
  lookup_cons_other h setting rest

/-- Where keys differ, what is found behind an entry is found from there too. -/
theorem get?_cons_of_get? {key other : String} {setting found : Setting} {rest : Entries}
    (hnodup : keys ((key, setting) :: rest) |>.Nodup) (h : get? other rest = some found) :
    get? other ((key, setting) :: rest) = some found := by
  have hfree := get?_eq_none_iff.2 (List.nodup_cons.1 hnodup).1
  rw [get?_cons_other _ setting rest, h]
  intro hsame
  rw [← hsame, hfree] at h
  cases h

/-- Changing a setting adds its key at the end, if it is a new one. -/
theorem keys_alter (key : String) (change : Option Setting → Setting) (entries : Entries) :
    (entries.alter key change).keys =
      if key ∈ entries.keys then entries.keys else entries.keys ++ [key] := by
  induction entries with
  | nil => rfl
  | cons entry rest ih =>
    obtain ⟨k, s⟩ := entry
    by_cases h : k = key
    · simp [alter, keys, h]
    · have hkeys : keys ((k, s) :: rest) = k :: keys rest := rfl
      simp only [alter, h, if_false, hkeys, List.mem_cons, Ne.symm h, false_or]
      show k :: (alter key change rest).keys = _
      rw [ih]
      split <;> rfl

/-- Changing an entry keeps keys different. -/
theorem nodup_alter {entries : Entries} (h : entries.keys.Nodup) (key : String)
    (change : Option Setting → Setting) : (entries.alter key change).keys.Nodup := by
  rw [keys_alter]
  split
  · exact h
  next hfree =>
    refine List.nodup_append.2 ⟨h, by simp, ?_⟩
    rintro other hother _ hkey rfl
    rw [List.mem_singleton.1 hkey] at hother
    exact hfree hother

/-- To change a setting is to put the changed one in its place. -/
theorem alter_eq_put (key : String) (change : Option Setting → Setting) (entries : Entries) :
    entries.alter key change = entries.put key (change (entries.get? key)) := by
  induction entries with
  | nil => rfl
  | cons entry rest ih =>
    obtain ⟨k, s⟩ := entry
    by_cases h : k = key
    · subst h
      simp [put, alter, get?_cons_same]
    · rw [get?_cons_other h]
      simp only [put, alter, h, if_false] at ih ⊢
      rw [ih]

/-- A new key comes behind those that are there. -/
theorem alter_of_notMem {key : String} {entries : Entries} (h : key ∉ entries.keys)
    (change : Option Setting → Setting) :
    entries.alter key change = entries ++ [(key, change none)] := by
  induction entries with
  | nil => rfl
  | cons entry rest ih =>
    obtain ⟨k, s⟩ := entry
    have hne : k ≠ key := fun hsame => h (List.mem_cons.2 (.inl hsame.symm))
    rw [alter, if_neg hne, ih fun hmem => h (List.mem_cons_of_mem _ hmem)]
    rfl

end Entries

/-! ## Laying entries over others -/

namespace Setting

/-- Entries with different keys in small letters, whose settings replace whatever they are laid
over. -/
structure Flat (entries : Entries) : Prop where
  nodup : entries.keys.Nodup
  lower : ∀ entry ∈ entries, Text.lower entry.1 = entry.1
  replaces : ∀ entry ∈ entries, ∀ held, overlay held entry.2 = entry.2

theorem Flat.tail {entry : String × Setting} {rest : Entries} (h : Flat (entry :: rest)) :
    Flat rest :=
  ⟨(List.nodup_cons.1 h.nodup).2, fun e he => h.lower e (List.mem_cons_of_mem _ he),
    fun e he => h.replaces e (List.mem_cons_of_mem _ he)⟩

/-- So does laying entries over others. -/
theorem nodup_overlayEntries {below : Entries} (hbelow : below.keys.Nodup) (above : Entries) :
    (overlayEntries below above).keys.Nodup := by
  induction above generalizing below with
  | nil => exact hbelow
  | cons entry rest ih => exact ih (Entries.nodup_alter hbelow _ _)

/-- Flat entries laid over others win, key by key. -/
theorem get?_overlayEntries {above : Entries} (hflat : Flat above) (below : Entries)
    (key : String) :
    (overlayEntries below above).get? key = (above.get? key).or (below.get? key) := by
  induction above generalizing below with
  | nil => rfl
  | cons entry rest ih =>
    obtain ⟨k, s⟩ := entry
    have hlower := hflat.lower _ List.mem_cons_self
    have hreplaces := hflat.replaces _ List.mem_cons_self
    have hfree := Entries.get?_eq_none_iff.2 (List.nodup_cons.1 hflat.nodup).1
    simp only at hlower hreplaces
    rw [overlayEntries, ih hflat.tail, hlower]
    simp only [hreplaces]
    by_cases h : k = key
    · subst h
      rw [hfree, Entries.get?_alter_same, Entries.get?_cons_same, Option.none_or, Option.some_or]
    · rw [Entries.get?_alter_other h, Entries.get?_cons_other h]

end Setting

/-! ## Drafts over others -/

namespace Draft

variable {φ : Type} {Value : φ → Type}

/-- A draft over another one: what the first one lacks is taken from the second. -/
def atop (above below : Draft φ Value) : Draft φ Value := fun f => (above f).or (below f)

@[simp] theorem empty_atop (below : Draft φ Value) : empty.atop below = below := by
  funext f
  rfl

@[simp] theorem atop_empty (above : Draft φ Value) : above.atop empty = above := by
  funext f
  exact Option.or_none

end Draft

namespace Record

variable {φ : Type} {Value : φ → Type} {α : Type} {r : Record φ Value α}

/-- Fields of a lawful record that have the same name are the same. -/
theorem Lawful.name_injective (hlawful : r.Lawful) {f g : φ} (h : r.name f = r.name g) :
    f = g := by
  have hf := hlawful f
  rw [h, hlawful g] at hf
  exact (Option.some.inj hf).symm

end Record

namespace Setting

/-! ## Tables and drafts -/

variable {φ : Type} {Value : φ → Type} {α : Type}
variable {r : Record φ Value α} {decode : (f : φ) → Decoder (Value f)}

/-- Entries show a draft if each field that is found is decoded to what the draft holds for it, and
the draft holds nothing for the others. -/
structure Shows (r : Record φ Value α) (decode : (f : φ) → Decoder (Value f)) (entries : Entries)
    (draft : Draft φ Value) : Prop where
  nodup : entries.keys.Nodup
  found : ∀ f setting, entries.get? (r.name f) = some setting →
    ∃ value, decode f setting = .ok value ∧ draft f = some value
  lacking : ∀ f, entries.get? (r.name f) = none → draft f = none

/-- A table whose entries show a draft. -/
def Shown (r : Record φ Value α) (decode : (f : φ) → Decoder (Value f)) (setting : Setting)
    (draft : Draft φ Value) : Prop :=
  ∃ origin entries, setting = .table origin entries ∧ Shows r decode entries draft

theorem shows_nil : Shows r decode [] Draft.empty :=
  ⟨List.nodup_nil, nofun, fun _ _ => rfl⟩

/-- No entries show no other draft than the empty one. -/
theorem Shows.eq_empty {draft : Draft φ Value} (h : Shows r decode [] draft) :
    draft = Draft.empty :=
  funext fun f => h.lacking f rfl

/-- Flat entries laid over others show their draft over the other one. -/
theorem Shows.overlay {held entries : Entries} {above below : Draft φ Value}
    (hbelow : Shows r decode held below) (habove : Shows r decode entries above)
    (hflat : Flat entries) :
    Shows r decode (overlayEntries held entries) (above.atop below) := by
  refine ⟨nodup_overlayEntries hbelow.nodup entries, ?_, ?_⟩
  · intro f setting hget
    rw [get?_overlayEntries hflat] at hget
    cases hupper : entries.get? (r.name f) with
    | some upper =>
      obtain ⟨value, hdecode, hvalue⟩ := habove.found f upper hupper
      rw [hupper, Option.some_or] at hget
      rw [← Option.some.inj hget, Draft.atop, hvalue]
      exact ⟨value, hdecode, rfl⟩
    | none =>
      rw [hupper, Option.none_or] at hget
      rw [Draft.atop, habove.lacking f hupper]
      exact hbelow.found f setting hget
  · intro f hget
    rw [get?_overlayEntries hflat, Option.or_eq_none_iff] at hget
    rw [Draft.atop, habove.lacking f hget.1, hbelow.lacking f hget.2]
    rfl

/-- **Laying a table over another.**  A flat table laid over what is held, a table or nothing,
shows its draft over the one held. -/
theorem Shown.overlay {held : Option Setting} {below : Option (Draft φ Value)}
    (hheld : Option.Rel (Shown r decode) held below) (origin : Option String) {entries : Entries}
    {above : Draft φ Value} (habove : Shows r decode entries above) (hflat : Flat entries) :
    Shown r decode (Setting.overlay held (.table origin entries))
      (above.atop (below.getD Draft.empty)) := by
  have hbelow : Shows r decode ((held.map Setting.entries).getD []) (below.getD Draft.empty) := by
    cases hheld with
    | none => exact shows_nil
    | some hshown =>
      obtain ⟨_, _, rfl, hshows⟩ := hshown
      exact hshows
  cases entries with
  | nil =>
    -- An empty table is not laid over anything: what is held stays.
    rw [habove.eq_empty, Draft.empty_atop]
    cases hheld with
    | none => exact ⟨none, [], rfl, shows_nil⟩
    | some hshown => exact hshown
  | cons entry rest => exact ⟨_, _, rfl, hbelow.overlay habove hflat⟩

/-- Writing to a key is laying a table with this one key over what is held. -/
theorem write?_key (setting : Setting) (key : String) (held : Option Setting) :
    write? setting [.key key] held = some (overlay held (.table none [(key, setting)])) := by
  simp only [write?, overlay, overlayEntries, Option.map_some, Entries.alter_eq_put]

/-! ## Decoding -/

variable [DecidableEq φ]

/-- Entries are decoded into a draft field by field.  As their keys differ, each field that is
found is decoded once, and the others keep what the draft had at the start. -/
theorem draftOfEntries_eq (hlawful : r.Lawful) {entries : Entries} (hnodup : entries.keys.Nodup)
    {target : Draft φ Value} :
    ∀ start : Draft φ Value,
      (∀ f setting, entries.get? (r.name f) = some setting →
        ∃ value, decode f setting = .ok value ∧ target f = some value) →
      (∀ f, entries.get? (r.name f) = none → target f = start f) →
      draftOfEntries r decode entries start = .ok target := by
  induction entries with
  | nil =>
    intro start _ hlacking
    have hsame : target = start := funext fun f => hlacking f rfl
    rw [draftOfEntries, hsame]
  | cons entry rest ih =>
    obtain ⟨key, setting⟩ := entry
    intro start hfound hlacking
    have hlater : ∀ f later, Entries.get? (r.name f) rest = some later →
        ∃ value, decode f later = .ok value ∧ target f = some value :=
      fun f later h => hfound f later (Entries.get?_cons_of_get? hnodup h)
    have hstill : ∀ f, r.name f ≠ key → Entries.get? (r.name f) rest = none →
        target f = start f := by
      intro f hother hnone
      exact hlacking f (by rw [Entries.get?_cons_other (Ne.symm hother), hnone])
    have hrest := ih (List.nodup_cons.1 hnodup).2
    rw [draftOfEntries]
    cases hfield : r.field? key with
    | none =>
      refine hrest start hlater fun f hnone => hstill f ?_ hnone
      intro hsame
      rw [← hsame, hlawful f] at hfield
      cases hfield
    | some f =>
      have hname := Record.name_of_field? hfield
      subst hname
      obtain ⟨value, hdecode, hvalue⟩ := hfound f setting (Entries.get?_cons_same _ setting rest)
      simp only [hdecode]
      refine hrest _ hlater ?_
      intro g hnone
      by_cases hsame : f = g
      · subst hsame
        rw [Draft.put_same, hvalue]
      · rw [Draft.put_other hsame]
        exact hstill g (fun h => hsame (hlawful.name_injective h.symm)) hnone

/-- If one field has a fault and all others that are found are decoded, that fault is the
outcome. -/
theorem draftOfEntries_error {entries : Entries} (hnodup : entries.keys.Nodup) {f : φ}
    (hlawful : r.Lawful) {setting : Setting} {fault : SettingFault}
    (hfault : decode f setting = .error fault) :
    ∀ start : Draft φ Value, entries.get? (r.name f) = some setting →
      (∀ g other, g ≠ f → entries.get? (r.name g) = some other →
        ∃ value, decode g other = .ok value) →
      draftOfEntries r decode entries start = .error (fault.underKey (r.name f)) := by
  induction entries with
  | nil =>
    intro start hhere _
    cases hhere
  | cons entry rest ih =>
    obtain ⟨key, first⟩ := entry
    intro start hhere hothers
    have hrest := ih (List.nodup_cons.1 hnodup).2
    have hlater : ∀ g other, g ≠ f → Entries.get? (r.name g) rest = some other →
        ∃ value, decode g other = .ok value :=
      fun g other hg h => hothers g other hg (Entries.get?_cons_of_get? hnodup h)
    rw [draftOfEntries]
    by_cases hkey : key = r.name f
    · subst hkey
      rw [Entries.get?_cons_same] at hhere
      rw [Option.some.inj hhere, hlawful f]
      simp only [hfault]
    · rw [Entries.get?_cons_other hkey] at hhere
      cases hfield : r.field? key with
      | none => exact hrest start hhere hlater
      | some g =>
        have hname := Record.name_of_field? hfield
        subst hname
        have hother : g ≠ f := fun h => hkey (congrArg r.name h)
        obtain ⟨value, hdecode⟩ := hothers g first hother (Entries.get?_cons_same _ first rest)
        simp only [hdecode]
        exact hrest _ hhere hlater

/-- **Decoding a table.**  It makes the record of the draft it shows. -/
theorem Shown.decodeRecord (hlawful : r.Lawful) {setting : Setting} {draft : Draft φ Value}
    (h : Shown r decode setting draft) :
    decodeRecord r decode setting = liftMisfit (r.ofMembers draft) := by
  obtain ⟨origin, entries, rfl, hshows⟩ := h
  rw [Setting.decodeRecord,
    draftOfEntries_eq hlawful hshows.nodup Draft.empty hshows.found hshows.lacking]

end Setting

end ServingCatalog
