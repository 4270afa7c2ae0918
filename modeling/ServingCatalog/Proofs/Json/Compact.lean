import ServingCatalog.Model.SpecJson
import ServingCatalog.Proofs.Json.Object

/-!
# Compact texts read back

What is written without blanks is taken by the reader of its type: strings, lists of strings,
options, and records whose fields are each taken.
-/

namespace ServingCatalog

namespace Json

theorem compactItems_eq_map (items : List Json) : compactItems items = items.map compactChars := by
  induction items with
  | nil => rfl
  | cons item items ih => rw [compactItems, ih, List.map_cons]

theorem compactMembers_eq_map (members : List (String × Json)) :
    compactMembers members =
      members.map fun member => Quoted.literal member.1 ++ ':' :: compactChars member.2 := by
  induction members with
  | nil => rfl
  | cons member members ih => rw [compactMembers, ih, List.map_cons]

/-- A written string is taken for it. -/
theorem takes_compact_string (text : String) :
    Takes readText text (compactChars (.string text)) := by
  have htext := takes_readText (Quoted.spells_encode text.toList)
  rwa [String.ofList_toList] at htext

/-- A written list of strings is taken for it. -/
theorem takes_compact_texts (texts : List String) :
    Takes (readList readText) texts (compactChars (ofTexts texts)) := by
  have hpart : ∀ text text', text' = compactChars (.string text) →
      TakesBefore readText text text' ∧ Opens text' := by
    rintro text _ rfl
    exact ⟨(takes_compact_string text).before, _, _, rfl, rfl, by decide⟩
  have hrow : Row ']' (fun text text' => text' = compactChars (.string text)) true texts
      (separate [','] (texts.map fun text => compactChars (.string text)) ++ [']']) :=
    row_separate fun _ _ => rfl
  have hlist := takes_readList hpart hrow
  rwa [ofTexts, compactChars, compactItems_eq_map, List.map_map]

/-- A value that may be absent, `null` standing for none. -/
def ofOption {α : Type} (encode : α → Json) : Option α → Json
  | none => .null
  | some value => encode value

/-- A written option is taken for it, unless the text of a value looks like `null`. -/
theorem takes_compact_option {α : Type} {reader : Reader α} {encode : α → Json}
    (hvalue : ∀ value, Takes reader value (compactChars (encode value)))
    (hopens : ∀ value, ∃ c rest, compactChars (encode value) = c :: rest ∧ isBlank c = false ∧
      c ≠ 'n') (option : Option α) :
    Takes (readOption reader) option (compactChars (ofOption encode option)) := by
  cases option with
  | none => exact fun rest => rfl
  | some value =>
    obtain ⟨c, rest, htext, hblank, hnull⟩ := hopens value
    have htakes := hvalue value
    rw [ofOption, htext] at *
    exact htakes.readOption_some hblank hnull

/-- An optional member is the member of a slot that is there or not. -/
theorem optionalMember_eq_map {α : Type} (key : String) (encode : α → Json) (option : Option α) :
    optionalMember key encode option = option.toList.map fun value => (key, encode value) := by
  cases option <;> rfl

variable {φ : Type} {Value : φ → Type} {α : Type} [DecidableEq φ]
variable {r : Record φ Value α} {read : (f : φ) → Reader (Value f)}
variable {encode : (f : φ) → Value f → Json}

/-- The members of an object that hold slots. -/
def ofSlots (r : Record φ Value α) (encode : (f : φ) → Value f → Json)
    (slots : List (Slot φ Value)) : List (String × Json) :=
  slots.map fun slot => (r.name slot.1, encode slot.1 slot.2)

/-- A written record is taken for what its slots make. -/
theorem takes_compact_record (hlawful : r.Lawful)
    (hfield : ∀ f value, Takes (read f) value (compactChars (encode f value)))
    {slots : List (Slot φ Value)} (hnodup : (slots.map (·.1)).Nodup) {value : α}
    (hbuild : r.ofMembers (Draft.fill slots Draft.empty) = .ok value) :
    Takes (readRecord r read) value (compactChars (.object (ofSlots r encode slots))) := by
  have hslot : ∀ slot ∈ slots, TakenText r read (.field slot.1 slot.2)
      (Quoted.literal (r.name slot.1) ++ ':' :: compactChars (encode slot.1 slot.2)) := by
    intro slot _
    refine ⟨Quoted.encode (r.name slot.1).toList, [], compactChars (encode slot.1 slot.2),
      Quoted.spells_encode _, allBlank_nil, hfield slot.1 slot.2, ?_⟩
    simp [Quoted.literal]
  have hrecord := takes_readRecord hlawful hnodup hbuild (row_separate hslot)
  rwa [compactChars, compactMembers_eq_map, ofSlots, List.map_map]

end Json

end ServingCatalog
