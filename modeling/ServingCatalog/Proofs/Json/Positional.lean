import Mathlib.Data.List.Forall2
import ServingCatalog.Proofs.Json.Compact
import ServingCatalog.Proofs.Json.Typed

/-!
# Records by position

The items of an array stand for the fields of a record in their order, and there may be fewer items
than fields (`readRecord_arrayText`).  There may not be more: a text that goes on behind the item of
the last field is malformed there, whatever follows (`readRecord_longArrayText`), and a value with
more items is too long (`decodeRecord_longer`).

For values this module says what `Typed` says for texts: which of them are a string, a list, an
option or a record, and that they are decoded so.  One lemma steps over the items of slots,
`decodeRecordItems_append`; what is left then are the fields that have no item, or the items that
have no field.
-/

namespace ServingCatalog

namespace Json

section Texts

variable {φ : Type} {Value : φ → Type} {α : Type} [DecidableEq φ]
variable {r : Record φ Value α} {read : (f : φ) → Reader (Value f)}
variable {known : (f : φ) → Value f → List Char → Prop}

/-- The texts that start as an array with a value for every field and a comma behind the last of
them, as an array with further values does. -/
def LongArrayText (r : Record φ Value α) (known : (f : φ) → Value f → List Char → Prop)
    (slots : List (Slot φ Value)) (text : List Char) : Prop :=
  ∃ body rest, slots.map (·.1) = r.fields ∧
    Row ',' (fun slot => known slot.1 slot.2) true slots body ∧ text = '[' :: (body ++ rest)

omit [DecidableEq φ] in
theorem LongArrayText.fields {slots : List (Slot φ Value)} {text : List Char}
    (h : LongArrayText r known slots text) : slots.map (·.1) = r.fields := by
  obtain ⟨_, _, hslots, _⟩ := h
  exact hslots

/-- Where the items of all fields make a record, a comma behind them is malformed. -/
theorem recordItems_of_comma {first : Bool} {slots : List (Slot φ Value)} {body : List Char}
    (h : Row ',' (fun slot text => Takes (read slot.1) slot.2 text ∧ Opens text) first slots body) :
    ∀ count (draft : Draft φ Value), first = decide (count = 0) →
      ∀ value, r.ofItems (count + slots.length) (draft.fill slots) = .ok value → ∀ rest,
      recordItems r read (slots.map (·.1)) count draft (body ++ rest) = .error .malformed := by
  induction h with
  | @done first blanks hblanks =>
    intro count draft _ value hbuild rest
    have hmade : r.ofItems count draft = .ok value := hbuild
    rw [List.append_assoc, List.singleton_append, List.map_nil, recordItems, hmade]
    simp only [finish]
    rw [skipBlanks_append hblanks, skipBlanks_cons rfl]
    rfl
  | @more first lead text body slot slots hlead hslot tail ih =>
    intro count draft hfirst value hbuild rest
    obtain ⟨htakes, hopens⟩ := hslot
    have hcount : count + (slot :: slots).length = count + 1 + slots.length := by
      rw [List.length_cons]
      omega
    rw [hcount, Draft.fill_cons] at hbuild
    rw [List.append_assoc, List.append_assoc, List.map_cons,
      recordItems_more hlead htakes hopens hfirst]
    exact ih (count + 1) (draft.put slot.1 slot.2) (by simp) value hbuild rest

/-- **Arrays that go on.**  Behind the values of all fields no comma may stand. -/
theorem readRecord_longArrayText (h : ∀ f, Covers (read f) (known f)) {slots : List (Slot φ Value)}
    {text : List Char} (htext : LongArrayText r known slots text) {value : α}
    (hbuild : r.ofItems slots.length (Draft.fill slots Draft.empty) = .ok value) :
    readRecord r read text = .error .malformed := by
  obtain ⟨body, rest, hslots, hrow, rfl⟩ := htext
  have hitems := recordItems_of_comma (takenRow_of_covers h hrow) 0 Draft.empty rfl value
    (by rwa [Nat.zero_add]) rest
  rw [hslots] at hitems
  rw [readRecord, skipBlanks_cons rfl]
  exact hitems

/-- A record that is written by position is taken for what its slots make. -/
theorem takes_compact_array {encode : (f : φ) → Value f → Json}
    (hfield : ∀ f value, Takes (read f) value (compactChars (encode f value)) ∧
      Opens (compactChars (encode f value)))
    {slots : List (Slot φ Value)} (hslots : slots.map (·.1) <+: r.fields) {value : α}
    (hbuild : r.ofItems slots.length (Draft.fill slots Draft.empty) = .ok value) :
    Takes (readRecord r read) value
      (compactChars (.array (slots.map fun slot => encode slot.1 slot.2))) := by
  have hrow : Row ']' (fun slot text => Takes (read slot.1) slot.2 text ∧ Opens text) true slots
      (separate [','] (slots.map fun slot => compactChars (encode slot.1 slot.2)) ++ [']']) :=
    row_separate fun slot _ => hfield slot.1 slot.2
  intro rest
  have hread := readRecord_array hslots hrow rest
  rw [hbuild] at hread
  rw [compactChars, compactItems_eq_map, List.map_map]
  exact hread

end Texts

/-! ## Typed values in values -/

section Values

variable {α : Type} {φ : Type} {Value : φ → Type} [DecidableEq φ]

/-- The value that is a string. -/
def StringJson (s : String) (v : Json) : Prop := v = .string s

/-- The values that are a list. -/
def ListJson (item : α → Json → Prop) (values : List α) (v : Json) : Prop :=
  ∃ items, List.Forall₂ item values items ∧ v = .array items

/-- The values that may be absent. -/
def OptionJson (part : α → Json → Prop) : Option α → Json → Prop
  | none, v => v = .null
  | some value, v => part value v

/-- The key and the value of a member; for a name that no field has, any value. -/
def KeyedJson (r : Record φ Value α) (known : (f : φ) → Value f → Json → Prop)
    (member : Member φ Value) (pair : String × Json) : Prop :=
  member.name r = pair.1 ∧
    match member with
    | .field f value => known f value pair.2
    | .other name => r.field? name = none

/-- The values that are an object with these members. -/
def ObjectJson (r : Record φ Value α) (known : (f : φ) → Value f → Json → Prop)
    (members : List (Member φ Value)) (v : Json) : Prop :=
  ∃ pairs, List.Forall₂ (KeyedJson r known) members pairs ∧ v = .object pairs

/-- The values that are an array with values for the first fields. -/
def ArrayJson (r : Record φ Value α) (known : (f : φ) → Value f → Json → Prop)
    (slots : List (Slot φ Value)) (v : Json) : Prop :=
  ∃ items, slots.map (·.1) <+: r.fields ∧
    List.Forall₂ (fun slot => known slot.1 slot.2) slots items ∧ v = .array items

/-- The values of a record: those of an object, or of an array, that make it. -/
def RecordJson (r : Record φ Value α) (known : (f : φ) → Value f → Json → Prop) (value : α)
    (v : Json) : Prop :=
  (∃ members, ObjectJson r known members v ∧ r.outcome members = .ok value) ∨
    ∃ slots, ArrayJson r known slots v ∧
      r.ofItems slots.length (Draft.fill slots Draft.empty) = .ok value

/-- A decoder decodes all values of a kind. -/
def Decodes (decode : Json → Except Misfit α) (part : α → Json → Prop) : Prop :=
  ∀ value v, part value v → decode v = .ok value

/-- Texts are decoded. -/
theorem decodes_text : Decodes decodeText StringJson := by
  rintro s _ rfl
  rfl

/-- Lists are decoded if their items are. -/
theorem decodes_list {item : Json → Except Misfit α} {part : α → Json → Prop}
    (h : Decodes item part) : Decodes (decodeList item) (ListJson part) := by
  rintro values _ ⟨items, hitems, rfl⟩
  rw [decodeList]
  induction hitems with
  | nil => rfl
  | cons hone _ ih =>
    rw [decodeItems, h _ _ hone, ih]
    rfl

/-- A value may be absent, if none of its values is `null`. -/
theorem decodes_option {decode : Json → Except Misfit α} {part : α → Json → Prop}
    (h : Decodes decode part) (hnull : ∀ value, ¬part value .null) :
    Decodes (decodeOption decode) (OptionJson part) := by
  rintro (_ | value) v hv
  · rw [show v = .null from hv]
    rfl
  · have hpart : part value v := hv
    have hdecode : decodeOption decode v = (decode v).map some := by
      cases v with
      | null => exact absurd hpart (hnull value)
      | _ => rfl
    rw [hdecode, h value v hpart]
    rfl

variable {r : Record φ Value α} {decode : (f : φ) → Json → Except Misfit (Value f)}
variable {known : (f : φ) → Value f → Json → Prop}

/-- The members of an object fill the draft. -/
theorem draftOfMembers_of_forall (hlawful : r.Lawful) (h : ∀ f, Decodes (decode f) (known f))
    {members : List (Member φ Value)} {pairs : List (String × Json)}
    (hpairs : List.Forall₂ (KeyedJson r known) members pairs) (draft : Draft φ Value) :
    draftOfMembers r decode pairs draft = .ok (draft.fill (Member.slots members)) := by
  induction hpairs generalizing draft with
  | nil => rfl
  | @cons member pair members pairs hone _ ih =>
    obtain ⟨key, v⟩ := pair
    obtain ⟨rfl, hvalue⟩ := hone
    rw [draftOfMembers]
    cases member with
    | other name =>
      have hname : r.field? (Member.name r (.other name)) = none := hvalue
      simp only [hname]
      exact ih draft
    | field f value =>
      have hname : r.field? (Member.name r (.field f value)) = some f := hlawful f
      simp only [hname, h f value v hvalue]
      exact ih (draft.put f value)

/-- Items for the first of the fields fill the draft; what is left of the fields and of the items
is decided on then. -/
theorem decodeRecordItems_append (h : ∀ f, Decodes (decode f) (known f))
    {slots : List (Slot φ Value)} {items : List Json}
    (hitems : List.Forall₂ (fun slot => known slot.1 slot.2) slots items) (length : Nat)
    (fields : List φ) (more : List Json) (count : Nat) (draft : Draft φ Value) :
    decodeRecordItems r decode length (slots.map (·.1) ++ fields) (items ++ more) count draft =
      decodeRecordItems r decode length fields more (count + slots.length) (draft.fill slots) := by
  induction hitems generalizing count draft with
  | nil => rfl
  | @cons slot item slots items hone _ ih =>
    rw [List.map_cons, List.cons_append, List.cons_append, decodeRecordItems]
    simp only [h slot.1 slot.2 item hone]
    rw [ih, List.length_cons, Draft.fill_cons, Nat.add_right_comm, Nat.add_assoc]

/-- No more items: the record is decided on by the values found. -/
theorem decodeRecordItems_nil (length : Nat) (fields : List φ) (count : Nat)
    (draft : Draft φ Value) :
    decodeRecordItems r decode length fields [] count draft = r.ofItems count draft := by
  cases fields with
  | nil =>
    rw [decodeRecordItems]
    cases r.ofItems count draft <;> rfl
  | cons f fields => rfl

/-- What is decoded from an array is what the values for its fields make. -/
theorem decodeRecord_arrayJson (h : ∀ f, Decodes (decode f) (known f))
    {slots : List (Slot φ Value)} {v : Json} (hv : ArrayJson r known slots v) :
    decodeRecord r decode v = r.ofItems slots.length (Draft.fill slots Draft.empty) := by
  obtain ⟨items, ⟨fields, hfields⟩, hitems, rfl⟩ := hv
  have hall := decodeRecordItems_append (r := r) h hitems items.length fields [] 0 Draft.empty
  rw [List.append_nil, hfields, decodeRecordItems_nil, Nat.zero_add] at hall
  rw [decodeRecord, hall]

/-- **Values that go on.**  An array with items behind the values of all fields is too long. -/
theorem decodeRecord_longer (h : ∀ f, Decodes (decode f) (known f)) {slots : List (Slot φ Value)}
    (hslots : slots.map (·.1) = r.fields) {items more : List Json}
    (hitems : List.Forall₂ (fun slot => known slot.1 slot.2) slots items) (hmore : more ≠ [])
    {value : α} (hbuild : r.ofItems slots.length (Draft.fill slots Draft.empty) = .ok value) :
    decodeRecord r decode (.array (items ++ more)) =
      .error (.wrongLength (slots.length + more.length) "fewer elements in array") := by
  have hall := decodeRecordItems_append (r := r) h hitems (items ++ more).length [] more 0
    Draft.empty
  rw [List.append_nil, hslots, Nat.zero_add] at hall
  have hleft : more.isEmpty = false := List.isEmpty_eq_false_iff.2 hmore
  rw [decodeRecord, hall, decodeRecordItems, hbuild, List.length_append, ← hitems.length_eq]
  simp only [hleft, Bool.false_eq_true, if_false]

/-- **Records** are decoded from objects and arrays, if their fields are. -/
theorem decodes_record (hlawful : r.Lawful) (h : ∀ f, Decodes (decode f) (known f)) :
    Decodes (decodeRecord r decode) (RecordJson r known) := by
  rintro value v (⟨members, ⟨pairs, hpairs, rfl⟩, hvalue⟩ | ⟨slots, hv, hvalue⟩)
  · rw [decodeRecord, draftOfMembers_of_forall hlawful h hpairs]
    rw [Record.outcome] at hvalue
    split at hvalue
    · cases hvalue
    · exact hvalue
  · rw [decodeRecord_arrayJson h hv, hvalue]

/-- A record is an object or an array. -/
theorem RecordJson.ne_null {value : α} {v : Json} (h : RecordJson r known value v) : v ≠ .null := by
  rcases h with ⟨members, ⟨pairs, -, rfl⟩, -⟩ | ⟨slots, ⟨items, -, -, rfl⟩, -⟩ <;> exact nofun

end Values

end Json

end ServingCatalog
