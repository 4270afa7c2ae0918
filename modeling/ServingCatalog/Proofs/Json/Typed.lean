import ServingCatalog.Proofs.Json.Object

/-!
# Texts of typed values

Which texts are a string, a list, an option or a record: blanks may stand at all brackets, commas
and colons, strings may be spelled in any way, the members of an object come in any order and among
any others, and an array of values for its first fields stands for a record too.

`Covers` says that a reader takes all these texts.  It carries over from the parts to the whole:
`covers_text`, `covers_list`, `covers_option`, `covers_record`.
-/

namespace ServingCatalog

namespace Json

/-! ## The texts -/

section Texts

variable {α : Type} {φ : Type} {Value : φ → Type} [DecidableEq φ]

/-- Blanks and then a text. -/
def Padded (part : List Char → Prop) (text : List Char) : Prop :=
  ∃ blanks value, AllBlank blanks ∧ part value ∧ text = blanks ++ value

/-- The texts of a string. -/
def StringText (s : String) (text : List Char) : Prop :=
  ∃ body, Quoted.Spells s.toList body ∧ text = '"' :: (body ++ ['"'])

/-- The texts of a list. -/
def ListText (item : α → List Char → Prop) (values : List α) (text : List Char) : Prop :=
  ∃ body, Row ']' item true values body ∧ text = '[' :: body

/-- The texts of a value that may be absent. -/
def OptionText (part : α → List Char → Prop) : Option α → List Char → Prop
  | none, text => text = "null".toList
  | some value, text => part value text

/-- The texts of an object with these members; those that are no fields have any value. -/
def ObjectText (r : Record φ Value α) (known : (f : φ) → Value f → List Char → Prop)
    (members : List (Member φ Value)) (text : List Char) : Prop :=
  ∃ body, Row '\x7d' (KeyedText r (fun f value => Padded (known f value)) (Padded WellFormed)) true
    members body ∧ text = '\x7b' :: body

/-- The texts of an array with values for the first fields. -/
def ArrayText (r : Record φ Value α) (known : (f : φ) → Value f → List Char → Prop)
    (slots : List (Slot φ Value)) (text : List Char) : Prop :=
  ∃ body, slots.map (·.1) <+: r.fields ∧
    Row ']' (fun slot => known slot.1 slot.2) true slots body ∧ text = '[' :: body

/-- The texts of a record: those of an object, or of an array, that make it. -/
def RecordText (r : Record φ Value α) (known : (f : φ) → Value f → List Char → Prop) (value : α)
    (text : List Char) : Prop :=
  (∃ members, ObjectText r known members text ∧ r.outcome members = .ok value) ∨
    ∃ slots, ArrayText r known slots text ∧
      r.ofItems slots.length (Draft.fill slots Draft.empty) = .ok value

end Texts

/-! ## Reading them -/

/-- A reader takes all texts of a kind of values, steps over blanks before them, and none of these
texts starts like a blank or the end of an array. -/
structure Covers {α : Type} (reader : Reader α) (part : α → List Char → Prop) : Prop where
  takes : ∀ {value text}, part value text → Takes reader value text
  opens : ∀ {value text}, part value text → Opens text
  blanks : ∀ {blanks}, AllBlank blanks → ∀ text, reader (blanks ++ text) = reader text

/-- Blanks may stand before a text that is taken. -/
theorem Covers.takes_padded {α : Type} {reader : Reader α} {part : α → List Char → Prop}
    (h : Covers reader part) {value : α} {text : List Char} (htext : Padded (part value) text) :
    Takes reader value text := by
  obtain ⟨blanks, body, hblanks, hbody, rfl⟩ := htext
  intro rest
  rw [List.append_assoc, h.blanks hblanks, h.takes hbody]

/-- Strings are read in any spelling. -/
theorem covers_text : Covers readText StringText where
  takes := by
    rintro s _ ⟨body, hbody, rfl⟩
    have htakes := takes_readText hbody
    rwa [String.ofList_toList] at htakes
  opens := by
    rintro s _ ⟨body, -, rfl⟩
    exact ⟨'"', _, rfl, rfl, by decide⟩
  blanks hblanks text := by simp only [readText, skipBlanks_append hblanks]

/-- Lists are read if their items are. -/
theorem covers_list {α : Type} {item : Reader α} {part : α → List Char → Prop}
    (h : Covers item part) : Covers (readList item) (ListText part) where
  takes := by
    rintro values _ ⟨body, hbody, rfl⟩
    exact takes_readList (fun _ _ hpart => ⟨(h.takes hpart).before, h.opens hpart⟩) hbody
  opens := by
    rintro values _ ⟨body, -, rfl⟩
    exact ⟨'[', _, rfl, rfl, by decide⟩
  blanks hblanks text := by simp only [readList, skipBlanks_append hblanks]

/-- A value may be absent, if none of its texts looks like `null`. -/
theorem covers_option {α : Type} {reader : Reader α} {part : α → List Char → Prop}
    (h : Covers reader part) (hnull : ∀ value text, part value text → text.head? ≠ some 'n') :
    Covers (readOption reader) (OptionText part) where
  takes := by
    rintro (_ | value) text htext
    · rw [show text = "null".toList from htext]
      exact fun rest => rfl
    · have hpart : part value text := htext
      obtain ⟨c, tail, rfl, hblank, -⟩ := h.opens hpart
      have hc : c ≠ 'n' := fun hc => hnull value _ hpart (by rw [hc]; rfl)
      exact (h.takes hpart).readOption_some hblank hc
  opens := by
    rintro (_ | value) text htext
    · rw [show text = "null".toList from htext]
      exact ⟨'n', _, rfl, rfl, by decide⟩
    · have hpart : part value text := htext
      exact h.opens hpart
  blanks hblanks text := by simp only [readOption, skipBlanks_append hblanks]

section Records

variable {φ : Type} {Value : φ → Type} {α : Type} [DecidableEq φ]
variable {r : Record φ Value α} {read : (f : φ) → Reader (Value f)}
variable {known : (f : φ) → Value f → List Char → Prop}

omit [DecidableEq φ] in
/-- The text of a member is taken, if all texts of its field are. -/
theorem takenText_of_keyedText (h : ∀ f, Covers (read f) (known f)) {member : Member φ Value}
    {text : List Char}
    (htext : KeyedText r (fun f value => Padded (known f value)) (Padded WellFormed) member text) :
    TakenText r read member text := by
  obtain ⟨key, blanks, value, hkey, hblanks, hvalue, rfl⟩ := htext
  refine ⟨key, blanks, value, hkey, hblanks, ?_, rfl⟩
  cases member with
  | field f found => exact (h f).takes_padded hvalue
  | other name =>
    obtain ⟨hname, before, body, hbefore, hbody, rfl⟩ := hvalue
    exact ⟨hname, takesBefore_skipValue hbody hbefore⟩

/-- What is read from an object is what its members make. -/
theorem readRecord_objectText (hlawful : r.Lawful) (h : ∀ f, Covers (read f) (known f))
    {members : List (Member φ Value)} {text : List Char} (htext : ObjectText r known members text)
    (rest : List Char) : readRecord r read (text ++ rest) = finish (r.outcome members) rest := by
  obtain ⟨body, hrow, rfl⟩ := htext
  exact readRecord_object hlawful
    (by simpa using hrow.map id fun _ _ => takenText_of_keyedText h) rest

omit [DecidableEq φ] in
/-- The texts of slots are taken one by one, if all texts of their fields are. -/
theorem takenRow_of_covers (h : ∀ f, Covers (read f) (known f)) {closing : Char} {first : Bool}
    {slots : List (Slot φ Value)} {body : List Char}
    (hrow : Row closing (fun slot => known slot.1 slot.2) first slots body) :
    Row closing (fun slot text => Takes (read slot.1) slot.2 text ∧ Opens text) first slots body := by
  have htaken : Row closing (fun slot text => Takes (read slot.1) slot.2 text ∧ Opens text) first
      (slots.map id) body :=
    hrow.map id fun slot _ hslot => ⟨(h slot.1).takes hslot, (h slot.1).opens hslot⟩
  rwa [List.map_id] at htaken

/-- What is read from an array is what the values for its fields make. -/
theorem readRecord_arrayText (h : ∀ f, Covers (read f) (known f)) {slots : List (Slot φ Value)}
    {text : List Char} (htext : ArrayText r known slots text) (rest : List Char) :
    readRecord r read (text ++ rest) =
      finish (r.ofItems slots.length (Draft.fill slots Draft.empty)) rest := by
  obtain ⟨body, hslots, hrow, rfl⟩ := htext
  exact readRecord_array hslots (takenRow_of_covers h hrow) rest

omit [DecidableEq φ] in
/-- Where only blanks are left, what was built is the answer for the whole text. -/
theorem readWhole_of_finish {reader : Reader α} {text behind : List Char}
    {outcome : Except Misfit α} (hread : reader text = finish outcome behind)
    (hbehind : AllBlank behind) : readWhole reader text = outcome.mapError .misfit := by
  rw [readWhole, hread]
  cases outcome with
  | error reason => rfl
  | ok value =>
    simp only [finish, skipBlanks_eq_nil hbehind, if_true]
    rfl

theorem readRecord_blanks {blanks : List Char} (h : AllBlank blanks) (text : List Char) :
    readRecord r read (blanks ++ text) = readRecord r read text := by
  simp only [readRecord, skipBlanks_append h]

/-- A record starts with a bracket. -/
theorem RecordText.head? {value : α} {text : List Char} (h : RecordText r known value text) :
    text.head? = some '\x7b' ∨ text.head? = some '[' := by
  rcases h with ⟨members, ⟨body, -, rfl⟩, -⟩ | ⟨slots, ⟨body, -, -, rfl⟩, -⟩
  · exact .inl rfl
  · exact .inr rfl

/-- **Records** are read from objects and arrays, if their fields are. -/
theorem covers_record (hlawful : r.Lawful) (h : ∀ f, Covers (read f) (known f)) :
    Covers (readRecord r read) (RecordText r known) where
  takes := by
    rintro value text (⟨members, htext, hvalue⟩ | ⟨slots, htext, hvalue⟩) rest
    · rw [readRecord_objectText hlawful h htext, hvalue]
      rfl
    · rw [readRecord_arrayText h htext, hvalue]
      rfl
  opens := by
    rintro value text (⟨members, ⟨body, -, rfl⟩, -⟩ | ⟨slots, ⟨body, -, -, rfl⟩, -⟩)
    · exact ⟨'\x7b', body, rfl, rfl, by decide⟩
    · exact ⟨'[', body, rfl, rfl, by decide⟩
  blanks hblanks text := readRecord_blanks hblanks text

end Records

end Json

end ServingCatalog
