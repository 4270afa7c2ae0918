import ServingCatalog.Proofs.Json.Compact
import ServingCatalog.Proofs.Json.Sorted
import ServingCatalog.Proofs.Settings.Tables
import ServingCatalog.Settings.OfJson

/-!
# Settings of written values

What a file holds is decoded twice: its JSON becomes settings, and these become typed values.  Here
an object of slots that went through the first step is shown to be a table of the draft that the
slots fill (`Coding.shows_entries`), provided that each value comes back from its own setting.
Sorting puts members in one by one as filling puts values in, so both are followed slot by slot.
-/

namespace ServingCatalog

open Json

namespace Setting

theorem ofItems_eq_map (origin : String) (items : List Json) :
    ofItems origin items = items.map (ofJson origin) := by
  induction items with
  | nil => rfl
  | cons item items ih => rw [ofItems, ih, List.map_cons]

theorem ofMembers_eq_map (origin : String) (members : List (String × Json)) :
    ofMembers origin members = members.map fun member => (member.1, ofJson origin member.2) := by
  induction members with
  | nil => rfl
  | cons member members ih => rw [ofMembers, ih, List.map_cons]

/-- Settings of members keep their keys. -/
theorem keys_ofMembers (origin : String) (members : List (String × Json)) :
    Entries.keys (ofMembers origin members) = members.map (·.1) := by
  rw [ofMembers_eq_map, Entries.keys, List.map_map]
  rfl

/-- They are found by the keys of the members. -/
theorem get?_ofMembers (origin key : String) (members : List (String × Json)) :
    Entries.get? key (ofMembers origin members) =
      (members.lookup key).map (ofJson origin) := by
  induction members with
  | nil => rfl
  | cons member members ih =>
    obtain ⟨k, v⟩ := member
    by_cases h : k = key
    · subst h
      rw [ofMembers, Entries.get?_cons_same, List.lookup_cons_self, Option.map_some]
    · rw [ofMembers, Entries.get?_cons_other h, ih, lookup_cons_other h]

/-! ## Values -/

/-- A value comes back from the setting that its JSON becomes in a file. -/
def Returns {α : Type} (decode : Decoder α) (encode : α → Json) (value : α) : Prop :=
  ∀ origin, decode (ofJson origin (encode value).sorted) = .ok value

/-- A text comes back. -/
theorem returns_text (text : String) : Returns decodeText .string text := fun _ => rfl

/-- Values come back from a list one by one. -/
theorem decodeItems_of_returns {α : Type} {decode : Decoder α} {encode : α → Json}
    {values : List α} (h : ∀ value ∈ values, Returns decode encode value) (origin : String) :
    ∀ index, decodeItems decode index
      (values.map fun value => ofJson origin (encode value).sorted) = .ok values := by
  induction values with
  | nil => exact fun _ => rfl
  | cons value values ih =>
    intro index
    have hvalue := h value List.mem_cons_self origin
    have hrest := ih (fun later hlater => h later (List.mem_cons_of_mem _ hlater)) (index + 1)
    rw [List.map_cons, decodeItems]
    simp only [hvalue, hrest, Except.map]

/-- A list comes back, in order, if its values do. -/
theorem returns_list {α : Type} {decode : Decoder α} {encode : α → Json} {values : List α}
    (h : ∀ value ∈ values, Returns decode encode value) :
    Returns (decodeList decode) (fun values => .array (values.map encode)) values := by
  intro origin
  rw [sorted, sortedItems_eq_map, ofJson, ofItems_eq_map, List.map_map, List.map_map, decodeList]
  exact decodeItems_of_returns h origin 0

/-- Only `null` becomes a null setting. -/
theorem ofJson_ne_null {value : Json} (h : value ≠ .null) (origin : String)
    (place : Option String) : ofJson origin value.sorted ≠ .scalar place .null := by
  cases value with
  | null => exact absurd rfl h
  | number n =>
    intro hnull
    have hscalar : ofNumber n = .null := (Setting.scalar.inj hnull).2
    cases n with
    | int i =>
      rw [ofNumber] at hscalar
      split at hscalar <;> cases hscalar
    | float x => cases hscalar
  | bool b => exact nofun
  | string s => exact nofun
  | array items => exact nofun
  | object members => exact nofun

/-- What is not null is decoded. -/
theorem decodeOption_of_ne_null {α : Type} {decode : Decoder α} {setting : Setting}
    (h : ∀ place, setting ≠ .scalar place .null) :
    decodeOption decode setting = (decode setting).map some := by
  cases setting with
  | scalar place value =>
    cases value with
    | null => exact absurd rfl (h place)
    | _ => rfl
  | list place items => rfl
  | table place entries => rfl

/-- An option comes back if its value does, unless that is written as `null`. -/
theorem returns_option {α : Type} {decode : Decoder α} {encode : α → Json}
    (hvalue : ∀ value, Returns decode encode value) (hnull : ∀ value, encode value ≠ .null)
    (option : Option α) : Returns (decodeOption decode) (ofOption encode) option := by
  intro origin
  cases option with
  | none => rfl
  | some value =>
    rw [ofOption, decodeOption_of_ne_null (ofJson_ne_null (hnull value) origin),
      hvalue value origin]
    rfl

/-- A list of texts comes back. -/
theorem returns_texts (texts : List String) : Returns (decodeList decodeText) ofTexts texts :=
  returns_list fun text _ => returns_text text

/-- An optional text comes back. -/
theorem returns_optionalText (text : Option String) :
    Returns (decodeOption decodeText) (ofOption .string) text :=
  returns_option returns_text (fun _ => nofun) text

/-! ## Objects of slots -/

/-- How the fields of a record are written to a file, and decoded from the settings of one.  The
fields are found by their names, and their values come back. -/
structure Coding {φ : Type} {Value : φ → Type} {α : Type} (r : Record φ Value α) where
  encode : (f : φ) → Value f → Json
  decode : (f : φ) → Decoder (Value f)
  lawful : r.Lawful
  returns : ∀ f value, Returns (decode f) (encode f) value

namespace Coding

variable {φ : Type} {Value : φ → Type} {α : Type} {r : Record φ Value α}

/-- The members that slots are written as. -/
def members (c : Coding r) (slots : List (Slot φ Value)) : List (String × Json) :=
  ofSlots r c.encode slots

/-- The entries that these members become in a file. -/
def entries (c : Coding r) (origin : String) (slots : List (Slot φ Value)) : Entries :=
  ofMembers origin (sortedMembers [] (c.members slots))

/-- Names are in small letters, and the settings of values replace others. -/
structure Plain (c : Coding r) : Prop where
  lower : ∀ f, Text.lower (r.name f) = r.name f
  replaces : ∀ f value origin held, overlay held (ofJson origin (c.encode f value).sorted) =
    ofJson origin (c.encode f value).sorted

/-- Plain slots have flat entries. -/
theorem Plain.flat {c : Coding r} (hplain : c.Plain) (origin : String)
    (slots : List (Slot φ Value)) : Flat (c.entries origin slots) := by
  have hentry : ∀ entry ∈ c.entries origin slots, ∃ f value,
      entry = (r.name f, ofJson origin (c.encode f value).sorted) := by
    intro entry hmem
    rw [entries, ofMembers_eq_map] at hmem
    obtain ⟨member, hmember, rfl⟩ := List.mem_map.1 hmem
    rcases mem_sortedMembers hmember with hnone | ⟨first, hfirst, rfl⟩
    · cases hnone
    · obtain ⟨slot, _, rfl⟩ := List.mem_map.1 hfirst
      exact ⟨slot.1, slot.2, rfl⟩
  refine ⟨?_, ?_, ?_⟩
  · rw [entries, keys_ofMembers]
    exact (increasing_nil.sortedMembers _).nodup
  · intro entry hmem
    obtain ⟨f, value, rfl⟩ := hentry entry hmem
    exact hplain.lower f
  · intro entry hmem held
    obtain ⟨f, value, rfl⟩ := hentry entry hmem
    exact hplain.replaces f value origin held

variable [DecidableEq φ]

/-- One member more is one value more. -/
theorem shows_insert (c : Coding r) {origin : String} {before : List (String × Json)}
    {draft : Draft φ Value} (hincreasing : Increasing before)
    (hbefore : Shows r c.decode (ofMembers origin before) draft) (f : φ) (value : Value f) :
    Shows r c.decode
      (ofMembers origin (insertMember (r.name f) (c.encode f value).sorted before))
      (draft.put f value) := by
  have hsame : Entries.get? (r.name f)
      (ofMembers origin (insertMember (r.name f) (c.encode f value).sorted before)) =
        some (ofJson origin (c.encode f value).sorted) := by
    rw [get?_ofMembers, lookup_insertMember_same, Option.map_some]
  have hother : ∀ g, f ≠ g → Entries.get? (r.name g)
      (ofMembers origin (insertMember (r.name f) (c.encode f value).sorted before)) =
        Entries.get? (r.name g) (ofMembers origin before) := by
    intro g hg
    rw [get?_ofMembers, get?_ofMembers,
      lookup_insertMember_other fun hname => hg (c.lawful.name_injective hname)]
  refine ⟨?_, ?_, ?_⟩
  · rw [keys_ofMembers]
    exact (hincreasing.insertMember _ _).nodup
  · intro g setting hget
    by_cases h : f = g
    · subst h
      rw [hsame] at hget
      rw [← Option.some.inj hget, Draft.put_same]
      exact ⟨value, c.returns f value origin, rfl⟩
    · rw [hother g h] at hget
      rw [Draft.put_other h]
      exact hbefore.found g setting hget
  · intro g hget
    by_cases h : f = g
    · subst h
      rw [hsame] at hget
      cases hget
    · rw [hother g h] at hget
      rw [Draft.put_other h]
      exact hbefore.lacking g hget

/-- **Objects of slots.**  Their entries show the draft that the slots fill.  The induction is on
the slots, from any members that were sorted in and any draft that these show. -/
theorem shows_entries (c : Coding r) (origin : String) (slots : List (Slot φ Value)) :
    Shows r c.decode (c.entries origin slots) (Draft.empty.fill slots) := by
  have hfrom : ∀ (slots : List (Slot φ Value)) before (draft : Draft φ Value),
      Increasing before → Shows r c.decode (ofMembers origin before) draft →
      Shows r c.decode (ofMembers origin (sortedMembers before (c.members slots)))
        (draft.fill slots) := by
    intro slots
    induction slots with
    | nil => exact fun _ _ _ hbefore => hbefore
    | cons slot slots ih =>
      intro before draft hincreasing hbefore
      have hnext := c.shows_insert hincreasing hbefore slot.1 slot.2
      exact ih _ _ (hincreasing.insertMember _ _) hnext
  exact hfrom slots [] Draft.empty increasing_nil shows_nil

/-- A value comes back if it is written as slots that make it again. -/
theorem returns_of_slots (c : Coding r) {encode : α → Json} {value : α}
    {slots : List (Slot φ Value)} (hencode : encode value = .object (c.members slots))
    (hbuild : r.ofMembers (Draft.empty.fill slots) = .ok value) :
    Returns (decodeRecord r c.decode) encode value := by
  intro origin
  have hshown : Shown r c.decode (ofJson origin (Json.object (c.members slots)).sorted)
      (Draft.empty.fill slots) := ⟨_, _, rfl, c.shows_entries origin slots⟩
  rw [hencode, hshown.decodeRecord c.lawful, hbuild, liftMisfit]

end Coding

end Setting

end ServingCatalog
