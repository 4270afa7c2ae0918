import ServingCatalog.Proofs.Json.WellFormed

/-!
# Records read from objects and arrays

A `Slot` is a field together with a value for it.  The members of an object are, as a record sees
them, slots and members of other names, in any order and number.  `readRecord_object` says what a
record makes of them: the first field that comes a second time is a misfit, and otherwise the slots
are put into a draft and the draft decides.  The invariant of the induction is that the fields seen
so far are those which have a value.

The items of an array are slots for the first fields, in the order of the fields:
`readRecord_array`.
-/

namespace ServingCatalog

/-- A field and a value for it. -/
abbrev Slot (φ : Type) (Value : φ → Type) := (f : φ) × Value f

/-- A member of an object as a record sees it: a field with a value for it, or a member of a name
that no field has. -/
inductive Member (φ : Type) (Value : φ → Type) where
  | field (f : φ) (value : Value f)
  | other (name : String)

/-- The first field that is among those before it, those seen earlier included. -/
def firstRepeated {φ : Type} [DecidableEq φ] (seen : List φ) : List φ → Option φ
  | [] => none
  | f :: fs => if f ∈ seen then some f else firstRepeated (f :: seen) fs

/-- No field comes again where all are different, also from those seen earlier. -/
theorem firstRepeated_eq_none_iff {φ : Type} [DecidableEq φ] {seen fs : List φ} :
    firstRepeated seen fs = none ↔ fs.Nodup ∧ ∀ f ∈ fs, f ∉ seen := by
  induction fs generalizing seen with
  | nil => simp [firstRepeated]
  | cons f fs ih =>
    by_cases h : f ∈ seen
    · simp [firstRepeated, h]
    · rw [firstRepeated, if_neg h, ih, List.nodup_cons]
      constructor
      · rintro ⟨hnodup, hother⟩
        refine ⟨⟨fun hf => hother f hf List.mem_cons_self, hnodup⟩, ?_⟩
        intro g hg
        rcases List.mem_cons.1 hg with rfl | hg
        · exact h
        · exact fun hseen => hother g hg (List.mem_cons_of_mem f hseen)
      · rintro ⟨⟨hf, hnodup⟩, hother⟩
        refine ⟨hnodup, fun g hg hseen => ?_⟩
        rcases List.mem_cons.1 hseen with rfl | hseen
        · exact hf hg
        · exact hother g (List.mem_cons_of_mem f hg) hseen

namespace Member

variable {φ : Type} {Value : φ → Type} {α : Type}

/-- The name of a member. -/
def name (r : Record φ Value α) : Member φ Value → String
  | .field f _ => r.name f
  | .other name => name

/-- The slot of a member. -/
def slot? : Member φ Value → Option (Slot φ Value)
  | .field f value => some ⟨f, value⟩
  | .other _ => none

/-- The slots among members, in order. -/
def slots (members : List (Member φ Value)) : List (Slot φ Value) := members.filterMap slot?

/-- The fields among members, in order and as often as they come. -/
def fields (members : List (Member φ Value)) : List φ := (slots members).map (·.1)

/-- The first value that members give a field. -/
def value? [DecidableEq φ] (f : φ) : List (Member φ Value) → Option (Value f)
  | [] => none
  | .field g value :: members => if h : g = f then some (h ▸ value) else value? f members
  | .other _ :: members => value? f members

/-- Members that were made of slots have these slots. -/
theorem slots_ofSlots (slots : List (Slot φ Value)) :
    Member.slots (slots.map fun slot => Member.field slot.1 slot.2) = slots := by
  rw [Member.slots, List.filterMap_map]
  exact List.filterMap_some

/-- A field without a member has no value. -/
theorem value?_eq_none [DecidableEq φ] {f : φ} {members : List (Member φ Value)}
    (h : f ∉ fields members) : value? f members = none := by
  induction members with
  | nil => rfl
  | cons member members ih =>
    cases member with
    | field g value =>
      have hmem : f ∉ g :: fields members := h
      rw [List.mem_cons, not_or] at hmem
      rw [value?, dif_neg (Ne.symm hmem.1), ih hmem.2]
    | other name => exact ih h

/-- Where fields are different, the value of a field is that of its slot. -/
theorem value?_eq_some_iff [DecidableEq φ] {f : φ} {value : Value f}
    {members : List (Member φ Value)} (h : (fields members).Nodup) :
    value? f members = some value ↔ ⟨f, value⟩ ∈ slots members := by
  induction members with
  | nil => simp [value?, slots]
  | cons member members ih =>
    cases member with
    | other name => exact ih h
    | field g first =>
      have hslots : slots (.field g first :: members) = ⟨g, first⟩ :: slots members := rfl
      obtain ⟨hfree, hnodup⟩ := List.nodup_cons.1 h
      rw [hslots, List.mem_cons]
      by_cases hg : g = f
      · subst hg
        have hrest : (⟨g, value⟩ : Slot φ Value) ∉ slots members := fun hmem =>
          hfree (List.mem_map.2 ⟨⟨g, value⟩, hmem, rfl⟩)
        simp only [value?, dif_pos, Option.some.injEq, hrest, or_false, Sigma.mk.injEq, heq_eq_eq,
          true_and]
        exact eq_comm
      · rw [value?, dif_neg hg, ih hnodup]
        simp [Ne.symm hg]

/-- Members in another order have the same fields in another order. -/
theorem fields_perm {members others : List (Member φ Value)}
    (h : (slots others).Perm (slots members)) : (fields others).Perm (fields members) :=
  h.map fun slot : Slot φ Value => slot.1

/-- The order of members does not matter for the values of different fields. -/
theorem value?_eq_of_perm [DecidableEq φ] {members others : List (Member φ Value)}
    (h : (fields members).Nodup) (hperm : (slots others).Perm (slots members)) (f : φ) :
    value? f others = value? f members := by
  have hothers : (fields others).Nodup := (fields_perm hperm).nodup_iff.2 h
  apply Option.ext
  intro value
  rw [value?_eq_some_iff h, value?_eq_some_iff hothers, hperm.mem_iff]

end Member

namespace Draft

variable {φ : Type} {Value : φ → Type} [DecidableEq φ]

/-- Writes the values of slots one after the other. -/
def fill (slots : List (Slot φ Value)) (draft : Draft φ Value) : Draft φ Value :=
  slots.foldl (fun draft slot => draft.put slot.1 slot.2) draft

@[simp] theorem fill_cons (slot : Slot φ Value) (slots : List (Slot φ Value))
    (draft : Draft φ Value) :
    draft.fill (slot :: slots) = (draft.put slot.1 slot.2).fill slots := rfl

/-- Slots of different fields fill a draft with their values. -/
theorem fill_apply {members : List (Member φ Value)} (h : (Member.fields members).Nodup)
    (draft : Draft φ Value) (f : φ) :
    draft.fill (Member.slots members) f = (Member.value? f members).or (draft f) := by
  induction members generalizing draft with
  | nil => rfl
  | cons member members ih =>
    cases member with
    | other name => exact ih h draft
    | field g value =>
      obtain ⟨hfree, hnodup⟩ := List.nodup_cons.1 h
      show (draft.put g value).fill (Member.slots members) f = _
      rw [ih hnodup, Member.value?]
      by_cases hg : g = f
      · subst hg
        rw [Member.value?_eq_none hfree, dif_pos rfl, put_same]
        rfl
      · rw [dif_neg hg, put_other hg]

/-- Where no field is repeated, slots fill a draft with the values of the members. -/
theorem fill_empty {members : List (Member φ Value)} (h : (Member.fields members).Nodup) :
    Draft.empty.fill (Member.slots members) = fun f => Member.value? f members := by
  funext f
  rw [fill_apply h, Draft.empty, Option.or_none]

end Draft

/-- What the members of an object make: the first field that comes again is a misfit, and otherwise
the record is decided on by the values. -/
def Record.outcome {φ : Type} {Value : φ → Type} {α : Type} [DecidableEq φ]
    (r : Record φ Value α) (members : List (Member φ Value)) : Except Misfit α :=
  match firstRepeated [] (Member.fields members) with
  | some f => .error (.duplicateField (r.name f))
  | none => r.ofMembers (Draft.fill (Member.slots members) Draft.empty)

section Outcome

variable {φ : Type} {Value : φ → Type} {α : Type} [DecidableEq φ] {r : Record φ Value α}

/-- A repeated field comes before all else. -/
theorem Record.outcome_of_repeated {members : List (Member φ Value)} {f : φ}
    (h : firstRepeated [] (Member.fields members) = some f) :
    r.outcome members = .error (.duplicateField (r.name f)) := by
  rw [Record.outcome, h]

/-- Otherwise the values of the fields decide. -/
theorem Record.outcome_of_nodup {members : List (Member φ Value)}
    (h : (Member.fields members).Nodup) :
    r.outcome members = r.ofMembers fun f => Member.value? f members := by
  have hnone : firstRepeated [] (Member.fields members) = none :=
    firstRepeated_eq_none_iff.2 ⟨h, fun _ _ => List.not_mem_nil⟩
  rw [Record.outcome, hnone, ← Draft.fill_empty h]

/-- Whether members make a record, and which one, does not depend on their order, nor on members of
other names. -/
theorem Record.outcome_eq_ok_iff_of_perm {members others : List (Member φ Value)}
    (hperm : (Member.slots others).Perm (Member.slots members)) (value : α) :
    r.outcome others = .ok value ↔ r.outcome members = .ok value := by
  have hfields := Member.fields_perm hperm
  by_cases h : (Member.fields members).Nodup
  · rw [Record.outcome_of_nodup h, Record.outcome_of_nodup (hfields.nodup_iff.2 h)]
    simp only [Member.value?_eq_of_perm h hperm]
  · have hrepeated : ∀ ms : List (Member φ Value), ¬(Member.fields ms).Nodup →
        r.outcome ms ≠ .ok value := by
      intro ms hms
      cases hfirst : firstRepeated [] (Member.fields ms) with
      | none => exact absurd (firstRepeated_eq_none_iff.1 hfirst).1 hms
      | some f =>
        rw [Record.outcome_of_repeated hfirst]
        exact nofun
    have hothers : ¬(Member.fields others).Nodup := fun hnodup => h (hfields.nodup_iff.1 hnodup)
    exact iff_of_false (hrepeated others hothers) (hrepeated members h)

end Outcome

/-- Each field is among those of the record, and is found by its name. -/
def Record.Lawful {φ : Type} {Value : φ → Type} {α : Type} (r : Record φ Value α) : Prop :=
  ∀ f, r.field? (r.name f) = some f

namespace Json

variable {φ : Type} {Value : φ → Type} {α : Type} [DecidableEq φ]
variable {r : Record φ Value α} {read : (f : φ) → Reader (Value f)}

/-! ## Objects -/

/-- The text of what stands behind the colon of a member: that of a value for its field, or for a
name that no field has, that of any value. -/
def MemberValue (r : Record φ Value α) (known : (f : φ) → Value f → List Char → Prop)
    (unknown : List Char → Prop) : Member φ Value → List Char → Prop
  | .field f value, text => known f value text
  | .other name, text => r.field? name = none ∧ unknown text

/-- The text of a member. -/
def KeyedText (r : Record φ Value α) (known : (f : φ) → Value f → List Char → Prop)
    (unknown : List Char → Prop) (member : Member φ Value) (text : List Char) : Prop :=
  ∃ key blanks value, Quoted.Spells (member.name r).toList key ∧ AllBlank blanks ∧
    MemberValue r known unknown member value ∧ text = '"' :: (key ++ '"' :: (blanks ++ ':' :: value))

/-- The text of a member that the readers take. -/
def TakenText (r : Record φ Value α) (read : (f : φ) → Reader (Value f)) :
    Member φ Value → List Char → Prop :=
  KeyedText r (fun f => Takes (read f)) (TakesBefore skipValue ())

/-- A member whose field has no value yet gives it one. -/
theorem takes_recordMember (hlawful : r.Lawful) {f : φ} {value : Value f}
    {draft : Draft φ Value} (hfree : draft f = none) {blanks text : List Char}
    (hblanks : AllBlank blanks) (hvalue : Takes (read f) value text) :
    Takes (recordMember r read (r.name f) draft) (draft.put f value) (blanks ++ ':' :: text) := by
  intro rest
  rw [List.append_assoc, List.cons_append, recordMember]
  simp only [hlawful f, hfree, Option.isSome_none, Bool.false_eq_true, if_false]
  rw [readColon_append hblanks]
  simp only [Reader.map, hvalue rest]

/-- A member of an unknown name is stepped over. -/
theorem takesBefore_recordMember {name : String} (hname : r.field? name = none)
    (draft : Draft φ Value) {blanks text : List Char} (hblanks : AllBlank blanks)
    (hvalue : TakesBefore skipValue () text) :
    TakesBefore (recordMember r read name draft) draft (blanks ++ ':' :: text) := by
  intro rest hrest
  rw [List.append_assoc, List.cons_append, recordMember]
  simp only [hname]
  rw [readColon_append hblanks]
  simp only [Reader.map, hvalue rest hrest]

/-- A field that has a value already is refused at its key, whatever follows. -/
theorem recordMember_repeated (hlawful : r.Lawful) {f : φ} {draft : Draft φ Value}
    (hheld : (draft f).isSome) (text : List Char) :
    recordMember r read (r.name f) draft text = .error (.misfit (.duplicateField (r.name f))) := by
  rw [recordMember]
  simp only [hlawful f, hheld, if_true]

/-- Members fill the draft up to the first field that comes a second time.  The fields seen are
those that have a value. -/
theorem membersWithin_of_taken (hlawful : r.Lawful) {first : Bool}
    {members : List (Member φ Value)} {body : List Char}
    (h : Row '\x7d' (TakenText r read) first members body) :
    ∀ (draft : Draft φ Value) (seen : List φ), (∀ f, f ∈ seen ↔ (draft f).isSome) →
      ∀ bound, body.length < bound → ∀ rest,
      membersWithin Quoted.read (recordMember r read) bound first draft (body ++ rest) =
        match firstRepeated seen (Member.fields members) with
        | some f => .error (.misfit (.duplicateField (r.name f)))
        | none => .ok (draft.fill (Member.slots members), rest) := by
  induction h with
  | @done first blanks hblanks =>
    intro draft seen _ bound hbound rest
    cases bound with
    | zero => omega
    | succ bound =>
      rw [List.append_assoc, List.singleton_append, membersWithin_done hblanks]
      rfl
  | @more first lead text body member members hlead hmember tail ih =>
    intro draft seen hseen bound hbound rest
    obtain ⟨key, blanks, value, hkey, hblanks, hvalue, rfl⟩ := hmember
    have hends : Ends (body ++ rest) := tail.ends (by decide) rest
    have hname := takes_quoted hkey
    rw [String.ofList_toList] at hname
    cases bound with
    | zero => omega
    | succ bound =>
      simp only [List.length_append, List.length_cons] at hbound
      have htext : lead ++ ('"' :: (key ++ '"' :: (blanks ++ ':' :: value)) ++ body) ++ rest =
          lead ++ '"' :: (key ++ ['"'] ++ (blanks ++ ':' :: value ++ (body ++ rest))) := by simp
      rw [htext]
      cases member with
      | other name =>
        rw [membersWithin_more hlead hname
          (takesBefore_recordMember hvalue.1 draft hblanks hvalue.2) bound hends]
        exact ih draft seen hseen bound (by omega) rest
      | field f found =>
        have hfields : Member.fields (.field f found :: members) = f :: Member.fields members := rfl
        by_cases hheld : f ∈ seen
        · rw [hfields, firstRepeated, if_pos hheld, membersWithin, nextKey_more hlead]
          simp only [hname _]
          rw [show Member.name r (.field f found) = r.name f from rfl,
            recordMember_repeated hlawful ((hseen f).1 hheld)]
        · have hfree : draft f = none := by
            rw [← Option.not_isSome_iff_eq_none, ← hseen f]
            exact hheld
          have hnext : ∀ g, g ∈ f :: seen ↔ (draft.put f found g).isSome := by
            intro g
            by_cases hg : f = g
            · subst hg
              simp
            · rw [Draft.put_other hg, ← hseen g, List.mem_cons]
              simp [Ne.symm hg]
          rw [hfields, firstRepeated, if_neg hheld, membersWithin_more hlead hname
            (takes_recordMember hlawful hfree hblanks hvalue).before bound hends]
          exact ih (draft.put f found) (f :: seen) hnext bound (by omega) rest

/-- **Objects.**  A record is read from the members of an object: the first field that comes again
is refused, and otherwise the draft of their values is decided on when all of them were read. -/
theorem readRecord_object (hlawful : r.Lawful) {members : List (Member φ Value)}
    {body : List Char} (h : Row '\x7d' (TakenText r read) true members body) (rest : List Char) :
    readRecord r read ('\x7b' :: (body ++ rest)) = finish (r.outcome members) rest := by
  have hmembers := membersWithin_of_taken hlawful h Draft.empty [] (by simp [Draft.empty])
    ((body ++ rest).length + 1) (length_lt_append body rest) rest
  rw [readRecord, skipBlanks_cons rfl]
  show recordMembers r read (body ++ rest) = _
  rw [recordMembers, Json.members, hmembers, Record.outcome]
  cases firstRepeated [] (Member.fields members) <;> rfl

/-- A record is read from slots of different fields, in whatever order they come. -/
theorem takes_readRecord (hlawful : r.Lawful) {slots : List (Slot φ Value)}
    (hnodup : (slots.map (·.1)).Nodup) {value : α}
    (hbuild : r.ofMembers (Draft.fill slots Draft.empty) = .ok value) {body : List Char}
    (h : Row '\x7d' (fun slot => TakenText r read (.field slot.1 slot.2)) true slots body) :
    Takes (readRecord r read) value ('\x7b' :: body) := by
  intro rest
  have hrow : Row '\x7d' (TakenText r read) true
      (slots.map fun slot => Member.field slot.1 slot.2) body :=
    h.map (fun slot : Slot φ Value => Member.field slot.1 slot.2) fun _ _ hslot => hslot
  have hnone : firstRepeated [] (slots.map (·.1)) = none :=
    firstRepeated_eq_none_iff.2 ⟨hnodup, fun _ _ => List.not_mem_nil⟩
  have hread := readRecord_object hlawful hrow rest
  rw [Record.outcome, Member.fields, Member.slots_ofSlots, hnone] at hread
  simp only [hbuild, finish] at hread
  exact hread

/-! ## Arrays -/

/-- An item is read for the next field. -/
theorem recordItems_more {first : Bool} {lead text : List Char} (hlead : Lead first lead) {f : φ}
    {value : Value f} (htakes : Takes (read f) value text) (hopens : Opens text) {count : Nat}
    (hfirst : first = decide (count = 0)) (fields : List φ) (draft : Draft φ Value)
    (rest : List Char) :
    recordItems r read (f :: fields) count draft (lead ++ (text ++ rest)) =
      recordItems r read fields (count + 1) (draft.put f value) rest := by
  rw [recordItems, ← hfirst, nextItem_more hlead (hopens.append rest)]
  simp only [htakes rest]

/-- Items are read for the fields in their order; the record is decided on when they end. -/
theorem recordItems_of_row {first : Bool} {slots : List (Slot φ Value)} {body : List Char}
    (h : Row ']' (fun slot text => Takes (read slot.1) slot.2 text ∧ Opens text) first slots body) :
    ∀ fields count (draft : Draft φ Value), first = decide (count = 0) →
      slots.map (·.1) <+: fields → ∀ rest,
      recordItems r read fields count draft (body ++ rest) =
        finish (r.ofItems (count + slots.length) (draft.fill slots)) rest := by
  induction h with
  | @done first blanks hblanks =>
    intro fields count draft hfirst _ rest
    rw [List.append_assoc, List.singleton_append]
    cases fields with
    | nil =>
      rw [recordItems]
      show _ = finish (r.ofItems count draft) rest
      cases r.ofItems count draft with
      | error reason => rfl
      | ok value =>
        simp only [finish]
        rw [skipBlanks_append hblanks, skipBlanks_cons rfl]
        simp
    | cons f fields =>
      rw [recordItems, ← hfirst, nextItem_done hblanks]
      rfl
  | @more first lead text body slot slots hlead hslot tail ih =>
    intro fields count draft hfirst hprefix rest
    obtain ⟨htakes, hopens⟩ := hslot
    obtain ⟨more, rfl⟩ := hprefix
    have hrest := ih (slots.map (·.1) ++ more) (count + 1) (draft.put slot.1 slot.2) (by simp)
      (List.prefix_append _ _) rest
    rw [List.append_assoc, List.append_assoc, List.map_cons, List.cons_append,
      recordItems_more hlead htakes hopens hfirst, hrest, List.length_cons, Draft.fill_cons]
    congr 2
    omega

/-- **Arrays.**  A record is read from an array of values for its first fields. -/
theorem readRecord_array {slots : List (Slot φ Value)} (hslots : slots.map (·.1) <+: r.fields)
    {body : List Char}
    (h : Row ']' (fun slot text => Takes (read slot.1) slot.2 text ∧ Opens text) true slots body)
    (rest : List Char) : readRecord r read ('[' :: (body ++ rest)) =
      finish (r.ofItems slots.length (Draft.fill slots Draft.empty)) rest := by
  have hitems := recordItems_of_row (r := r) h r.fields 0 Draft.empty rfl hslots rest
  rw [Nat.zero_add] at hitems
  rw [readRecord, skipBlanks_cons rfl]
  exact hitems

end Json

end ServingCatalog
