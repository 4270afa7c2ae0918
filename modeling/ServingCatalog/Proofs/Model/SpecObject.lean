import ServingCatalog.Proofs.Json.Typed
import ServingCatalog.Proofs.Model.SpecText

/-!
# Specs from any object

A spec is read from an object whatever the order of its members and whatever other members stand
among them.  `ModelSpec.ofMembers` is the decision on the members alone: a field that comes again is
a misfit, then a missing identifier, then a missing version, and otherwise the members make the
spec.  `ofText_of_object` says that each text of the object is read so.
-/

namespace ServingCatalog

open Json

namespace ScopeSpec

/-- The texts of a field's value. -/
def FieldText : (f : Field) → f.Value → List Char → Prop
  | .instanceTypes => ListText StringText
  | .default => OptionText StringText

/-- A string does not look like `null`. -/
theorem stringText_head? {s : String} {text : List Char} (h : StringText s text) :
    text.head? ≠ some 'n' := by
  obtain ⟨body, -, rfl⟩ := h
  simp

/-- The value of a field is read from any of its texts. -/
theorem covers_readField (f : Field) : Covers (readField f) (FieldText f) := by
  cases f with
  | instanceTypes => exact covers_list covers_text
  | default => exact covers_option covers_text fun _ _ => stringText_head?

/-- The texts of the instance types of a scope. -/
def Text : ScopeSpec → List Char → Prop := RecordText record FieldText

/-- A scope is read from any of its texts. -/
theorem covers_read : Covers read Text := covers_record record_lawful covers_readField

end ScopeSpec

namespace ModelSpec

/-- The texts of a field's value. -/
def FieldText : (f : Field) → f.Value → List Char → Prop
  | .modelId => StringText
  | .version => StringText
  | .regions => ListText StringText
  | .acceptTypes => ListText StringText
  | .defaultAcceptType => OptionText StringText
  | .training => OptionText ScopeSpec.Text
  | .inference => OptionText ScopeSpec.Text

/-- Likewise for the fields of a spec. -/
theorem covers_readField (f : Field) : Covers (readField f) (FieldText f) := by
  have hscope : ∀ (scope : ScopeSpec) text, scope.Text text → text.head? ≠ some 'n' := by
    intro scope text htext
    rcases htext.head? with h | h <;> simp [h]
  cases f with
  | modelId => exact covers_text
  | version => exact covers_text
  | regions => exact covers_list covers_text
  | acceptTypes => exact covers_list covers_text
  | defaultAcceptType => exact covers_option covers_text fun _ _ => ScopeSpec.stringText_head?
  | training => exact covers_option ScopeSpec.covers_read hscope
  | inference => exact covers_option ScopeSpec.covers_read hscope

/-- A text that is an object with these members, and nothing else but blanks around it. -/
def IsObject (members : List (Member Field Field.Value)) (text : String) : Prop :=
  ∃ before body behind, AllBlank before ∧ AllBlank behind ∧
    ObjectText record FieldText members body ∧ text.toList = before ++ (body ++ behind)

/-- What members make: the first field that comes again is a misfit, then a missing identifier, then
a missing version, and otherwise they make the spec with their values, in which a list that is not
given is empty and an option that is not given is absent. -/
def ofMembers (members : List (Member Field Field.Value)) : Except Misfit ModelSpec :=
  match firstRepeated [] (Member.fields members) with
  | some f => .error (.duplicateField f.name)
  | none =>
    match Member.value? .modelId members, Member.value? .version members with
    | none, _ => .error (.missingField "model_id")
    | some _, none => .error (.missingField "version")
    | some modelId, some version =>
      .ok
        { modelId
          version
          regions := (Member.value? .regions members).getD []
          acceptTypes := (Member.value? .acceptTypes members).getD []
          defaultAcceptType := (Member.value? .defaultAcceptType members).getD none
          training := (Member.value? .training members).getD none
          inference := (Member.value? .inference members).getD none }

/-- What comes of members is said of their fields alone. -/
theorem outcome_eq_ofMembers (members : List (Member Field Field.Value)) :
    record.outcome members = ofMembers members := by
  rw [ofMembers]
  cases h : firstRepeated [] (Member.fields members) with
  | some f =>
    rw [Record.outcome_of_repeated h]
    rfl
  | none =>
    rw [Record.outcome_of_nodup (firstRepeated_eq_none_iff.1 h).1]
    rfl

/-- A whole text of an object is read as its members. -/
theorem ofText_eq_ofMembers {members : List (Member Field Field.Value)} {text : String}
    (h : IsObject members text) : ofText text = (ofMembers members).mapError .misfit := by
  obtain ⟨before, body, behind, hbefore, hbehind, hbody, htext⟩ := h
  have hread := readRecord_objectText record_lawful covers_readField hbody behind
  rw [outcome_eq_ofMembers] at hread
  rw [ofText, htext]
  exact readWhole_of_finish ((readRecord_blanks hbefore _).trans hread) hbehind

/-- **Objects.**  Each text of an object is read as its members decide.  Whether they make a spec,
and which one, depends neither on their order nor on the members of other names. -/
theorem ofText_of_object {members : List (Member Field Field.Value)} {text : String}
    (h : IsObject members text) :
    ofText text = (ofMembers members).mapError .misfit ∧
      ∀ {others : List (Member Field Field.Value)} {other : String}, IsObject others other →
        (Member.slots others).Perm (Member.slots members) →
        ∀ spec, ofText other = .ok spec ↔ ofText text = .ok spec := by
  have hok : ∀ (outcome : Except Misfit ModelSpec) spec,
      outcome.mapError Failure.misfit = .ok spec ↔ outcome = .ok spec := by
    intro outcome spec
    cases outcome with
    | error reason => exact ⟨nofun, nofun⟩
    | ok read =>
      constructor
      · rintro ⟨⟩
        rfl
      · rintro ⟨⟩
        rfl
  refine ⟨ofText_eq_ofMembers h, fun hother hperm spec => ?_⟩
  rw [ofText_eq_ofMembers hother, ofText_eq_ofMembers h, hok, hok, ← outcome_eq_ofMembers,
    ← outcome_eq_ofMembers]
  exact Record.outcome_eq_ok_iff_of_perm hperm spec

/-- Members with one that is no field, and with a scope that comes twice, at first absent. -/
def twiceTrained : List (Member Field Field.Value) :=
  [.other "size", .field .version "1", .field .training none, .field .modelId "m",
    .field .training (some ⟨[], none⟩)]

/-- A text of an object with these members. -/
def twiceTrainedText : String :=
  "\x7b\"size\": [1.5e3,\"\\ud800\"],\"version\":\"1\" ,\"training\":null,\"model_id\":\"m\"," ++
    "\"training\":\x7b\x7d\x7d"

/-- The value that is no field's: a number with an exponent, and half of a pair. -/
theorem wellFormed_size : WellFormed "[1.5e3,\"\\ud800\"]".toList := by
  have hnumber : WellFormed "1.5e3".toList :=
    .number (n := ⟨['1'], some ['5'], some (false, ['3'])⟩)
      ⟨by decide, ".5".toList, "e3".toList, ⟨by decide, rfl⟩,
        ⟨by decide, 'e', [], .inl rfl, .none, rfl⟩, rfl⟩
  have hdigits : Quoted.UnitDigits 0xd800 "d800".toList :=
    .digits (i := 13) (j := 8) (k := 0) (l := 0) rfl rfl rfl rfl
  have hhalf : WellFormed "\"\\ud800\"".toList := .string (.unit hdigits .nil)
  have hitems : ∀ item ∈ ["1.5e3".toList, "\"\\ud800\"".toList], WellFormed item := by
    intro item hitem
    simp only [List.mem_cons, List.not_mem_nil, or_false] at hitem
    rcases hitem with rfl | rfl
    · exact hnumber
    · exact hhalf
  exact .array hitems (.more (.first allBlank_nil) rfl
    (.more (.next allBlank_nil allBlank_nil) rfl (.done allBlank_nil)))

theorem isObject_twiceTrained : IsObject twiceTrained twiceTrainedText := by
  have hkey : ∀ name : String, Quoted.Spells name.toList (Quoted.encode name.toList) :=
    fun name => Quoted.spells_encode name.toList
  have hstring : ∀ s : String, Padded (StringText s) (Quoted.literal s) :=
    fun s => ⟨[], _, allBlank_nil, ⟨_, Quoted.spells_encode s.toList, rfl⟩, rfl⟩
  have hnull : Padded (FieldText .training none) "null".toList :=
    ⟨[], _, allBlank_nil, rfl, rfl⟩
  have hscope : Padded (FieldText .training (some ⟨[], none⟩)) "\x7b\x7d".toList :=
    ⟨[], _, allBlank_nil, .inl ⟨[], ⟨_, .done allBlank_nil, rfl⟩, rfl⟩, rfl⟩
  have hblank : AllBlank [' '] := by simp [AllBlank, isBlank]
  have hnext : Lead false [','] := .next allBlank_nil allBlank_nil
  refine ⟨[], twiceTrainedText.toList, [], allBlank_nil, allBlank_nil, ⟨_,
    .more (.first allBlank_nil) ⟨_, [], _, hkey "size", allBlank_nil,
      ⟨rfl, [' '], _, hblank, wellFormed_size, rfl⟩, rfl⟩
    (.more hnext ⟨_, [], _, hkey "version", allBlank_nil, hstring "1", rfl⟩
    (.more (.next hblank allBlank_nil) ⟨_, [], _, hkey "training", allBlank_nil, hnull, rfl⟩
    (.more hnext ⟨_, [], _, hkey "model_id", allBlank_nil, hstring "m", rfl⟩
    (.more hnext ⟨_, [], _, hkey "training", allBlank_nil, hscope, rfl⟩
    (.done allBlank_nil))))), rfl⟩, by simp⟩

/-- The second scope is refused, though the first one is absent. -/
theorem ofText_twiceTrained :
    ofText twiceTrainedText = .error (.misfit (.duplicateField "training")) :=
  (ofText_of_object isObject_twiceTrained).1

end ModelSpec

end ServingCatalog
