import ServingCatalog.Proofs.Json.Positional
import ServingCatalog.Proofs.Model.SpecObject

/-!
# Specs from arrays

A spec is also read from an array, whose items are the values of its fields in their order.  Two of
them are enough, the identifier and the version, and then the array is read as an object with the
same fields is, the fields that have no item taking their defaults.  Fewer items are of the wrong
length.  More items than fields are malformed in a text, and of the wrong length in a value.
-/

namespace ServingCatalog

open Json

namespace ScopeSpec

/-- The values of a field. -/
def FieldJson : (f : Field) → f.Value → Json → Prop
  | .instanceTypes => ListJson StringJson
  | .default => OptionJson StringJson

/-- A field of a scope is decoded from a value of it. -/
theorem decodes_decodeField (f : Field) : Decodes (decodeField f) (FieldJson f) := by
  cases f with
  | instanceTypes => exact decodes_list decodes_text
  | default => exact decodes_option decodes_text fun _ => nofun

/-- The values of the instance types of a scope. -/
def Value : ScopeSpec → Json → Prop := RecordJson record FieldJson

theorem decodes_ofJson : Decodes ofJson Value := decodes_record record_lawful decodes_decodeField

end ScopeSpec

namespace ModelSpec

/-- The values of a field. -/
def FieldJson : (f : Field) → f.Value → Json → Prop
  | .modelId => StringJson
  | .version => StringJson
  | .regions => ListJson StringJson
  | .acceptTypes => ListJson StringJson
  | .defaultAcceptType => OptionJson StringJson
  | .training => OptionJson ScopeSpec.Value
  | .inference => OptionJson ScopeSpec.Value

/-- A field of a spec is decoded from a value of it. -/
theorem decodes_decodeField (f : Field) : Decodes (decodeField f) (FieldJson f) := by
  have hscope : ∀ scope : ScopeSpec, ¬scope.Value .null := fun _ h => RecordJson.ne_null h rfl
  cases f with
  | modelId => exact decodes_text
  | version => exact decodes_text
  | regions => exact decodes_list decodes_text
  | acceptTypes => exact decodes_list decodes_text
  | defaultAcceptType => exact decodes_option decodes_text fun _ => nofun
  | training => exact decodes_option ScopeSpec.decodes_ofJson hscope
  | inference => exact decodes_option ScopeSpec.decodes_ofJson hscope

/-- A text that is an array with these values for the first fields, and nothing else but blanks
around it. -/
def IsArray (slots : List (Slot Field Field.Value)) (text : String) : Prop :=
  ∃ before body behind, AllBlank before ∧ AllBlank behind ∧ ArrayText record FieldText slots body ∧
    text.toList = before ++ (body ++ behind)

/-- A text that starts, blanks aside, as an array with these values for all fields and goes on
behind them with a comma, whether or not further values follow. -/
def IsLongArray (slots : List (Slot Field Field.Value)) (text : String) : Prop :=
  ∃ before body, AllBlank before ∧ LongArrayText record FieldText slots body ∧
    text.toList = before ++ body

/-! ## What the items make -/

/-- Two values for the first fields are an identifier and a version. -/
theorem exists_named {slots : List (Slot Field Field.Value)}
    (hslots : slots.map (·.1) <+: record.fields) (htwo : 2 ≤ slots.length) :
    ∃ (modelId version : String) (others : List (Slot Field Field.Value)),
      slots = ⟨.modelId, modelId⟩ :: ⟨.version, version⟩ :: others := by
  match slots, htwo with
  | ⟨f, one⟩ :: ⟨g, two⟩ :: others, _ =>
    simp only [List.map_cons, record, List.cons_prefix_cons] at hslots
    obtain ⟨rfl, rfl, -⟩ := hslots
    exact ⟨one, two, others, rfl⟩

/-- The members of an object with the same fields. -/
def membersOf (slots : List (Slot Field Field.Value)) : List (Member Field Field.Value) :=
  slots.map fun slot => .field slot.1 slot.2

/-- With an identifier and a version, items make the spec that members do. -/
theorem ofItems_of_two {slots : List (Slot Field Field.Value)}
    (hslots : slots.map (·.1) <+: record.fields) (htwo : 2 ≤ slots.length) :
    ∃ spec, ofMembers (membersOf slots) = .ok spec ∧
      record.ofItems slots.length (Draft.fill slots Draft.empty) = .ok spec := by
  have hfields : record.fields.Nodup := by decide
  have hnodup : (Member.fields (membersOf slots)).Nodup := by
    rw [Member.fields, membersOf, Member.slots_ofSlots]
    exact hfields.sublist hslots.sublist
  have hfill := Draft.fill_empty hnodup
  rw [membersOf, Member.slots_ofSlots] at hfill
  rw [← outcome_eq_ofMembers, Record.outcome_of_nodup hnodup, hfill]
  obtain ⟨modelId, version, others, rfl⟩ := exists_named hslots htwo
  exact ⟨_, rfl, rfl⟩

/-- Without a version, items are of the wrong length. -/
theorem ofItems_of_few {slots : List (Slot Field Field.Value)}
    (hslots : slots.map (·.1) <+: record.fields) (hfew : slots.length < 2) :
    record.ofItems slots.length (Draft.fill slots Draft.empty) =
      .error (.wrongLength slots.length record.labelWithSize) := by
  match slots, hfew with
  | [], _ => rfl
  | [⟨f, one⟩], _ =>
    simp only [List.map_cons, record, List.cons_prefix_cons] at hslots
    obtain ⟨rfl, -⟩ := hslots
    rfl

/-- The values of all fields make a spec. -/
theorem ofItems_of_all {slots : List (Slot Field Field.Value)}
    (hslots : slots.map (·.1) = record.fields) :
    slots.length = 7 ∧
      ∃ spec, record.ofItems slots.length (Draft.fill slots Draft.empty) = .ok spec := by
  have hseven : slots.length = 7 := by
    have hlength := congrArg List.length hslots
    rwa [List.length_map] at hlength
  have hprefix : slots.map (·.1) <+: record.fields := ⟨[], by rw [List.append_nil, hslots]⟩
  obtain ⟨spec, -, hbuild⟩ := ofItems_of_two hprefix (by omega)
  exact ⟨hseven, spec, hbuild⟩

/-! ## Texts of arrays -/

/-- The values of an array stand for the first fields. -/
theorem IsArray.fields {slots : List (Slot Field Field.Value)} {text : String}
    (h : IsArray slots text) : slots.map (·.1) <+: record.fields := by
  obtain ⟨_, _, _, _, _, ⟨_, hslots, _⟩, _⟩ := h
  exact hslots

/-- A whole text of an array is read as its items. -/
theorem ofText_eq_ofItems {slots : List (Slot Field Field.Value)} {text : String}
    (h : IsArray slots text) :
    ofText text =
      (record.ofItems slots.length (Draft.fill slots Draft.empty)).mapError .misfit := by
  obtain ⟨before, body, behind, hbefore, hbehind, hbody, htext⟩ := h
  have hread := readRecord_arrayText covers_readField hbody behind
  rw [ofText, htext]
  exact readWhole_of_finish ((readRecord_blanks hbefore _).trans hread) hbehind

/-- An array with the values of two fields or more is read as any object with these fields. -/
theorem ofText_of_two {slots : List (Slot Field Field.Value)} {text : String}
    (h : IsArray slots text) (htwo : 2 ≤ slots.length) :
    ∃ spec, ofMembers (membersOf slots) = .ok spec ∧ ofText text = .ok spec ∧
      ∀ members object, IsObject members object → (Member.slots members).Perm slots →
        ofText object = .ok spec := by
  obtain ⟨spec, hmembers, hitems⟩ := ofItems_of_two h.fields htwo
  refine ⟨spec, hmembers, by rw [ofText_eq_ofItems h, hitems]; rfl, ?_⟩
  intro members object hobject hperm
  have hsame : (Member.slots members).Perm (Member.slots (membersOf slots)) := by
    rwa [membersOf, Member.slots_ofSlots]
  have hspec := (Record.outcome_eq_ok_iff_of_perm hsame spec).2
    (by rw [outcome_eq_ofMembers, hmembers])
  rw [ofText_eq_ofMembers hobject, ← outcome_eq_ofMembers, hspec]
  rfl

/-- Behind the values of all fields an array may not go on. -/
theorem ofText_of_longArray {slots : List (Slot Field Field.Value)} {text : String}
    (h : IsLongArray slots text) : ofText text = .error .malformed := by
  obtain ⟨before, body, hbefore, hbody, htext⟩ := h
  obtain ⟨-, spec, hbuild⟩ := ofItems_of_all hbody.fields
  rw [ofText, htext, readWhole, read, readRecord_blanks hbefore,
    readRecord_longArrayText covers_readField hbody hbuild]

/-! ## Values of arrays -/

/-- Behind the values of all fields no further value may stand. -/
theorem ofJson_of_longer {slots : List (Slot Field Field.Value)}
    (hslots : slots.map (·.1) = record.fields) {items more : List Json}
    (hitems : List.Forall₂ (fun slot => FieldJson slot.1 slot.2) slots items) (hmore : more ≠ []) :
    ofJson (.array (items ++ more)) =
      .error (.wrongLength (7 + more.length) "fewer elements in array") := by
  obtain ⟨hseven, spec, hbuild⟩ := ofItems_of_all hslots
  rw [ofJson, decodeRecord_longer decodes_decodeField hslots hitems hmore hbuild, hseven]

/-! ## The array of a spec -/

/-- The slots of all fields, those that are absent too. -/
def everySlot (spec : ModelSpec) : List (Slot Field Field.Value) :=
  [⟨.modelId, spec.modelId⟩, ⟨.version, spec.version⟩, ⟨.regions, spec.regions⟩,
    ⟨.acceptTypes, spec.acceptTypes⟩, ⟨.defaultAcceptType, spec.defaultAcceptType⟩,
    ⟨.training, spec.training⟩, ⟨.inference, spec.inference⟩]

/-- The text of a field opens a value. -/
theorem opens_encodeField (f : Field) (value : f.Value) :
    Opens (compactChars (encodeField f value)) := by
  cases f with
  | modelId => exact ⟨_, _, rfl, rfl, by decide⟩
  | version => exact ⟨_, _, rfl, rfl, by decide⟩
  | regions => exact ⟨_, _, rfl, rfl, by decide⟩
  | acceptTypes => exact ⟨_, _, rfl, rfl, by decide⟩
  | defaultAcceptType => cases value <;> exact ⟨_, _, rfl, rfl, by decide⟩
  | training => cases value <;> exact ⟨_, _, rfl, rfl, by decide⟩
  | inference => cases value <;> exact ⟨_, _, rfl, rfl, by decide⟩

/-- Each spec is read from the array of the values of its fields. -/
theorem ofText_everySlot (spec : ModelSpec) :
    ofText (Json.array (spec.everySlot.map fun slot => encodeField slot.1 slot.2)).compact =
      .ok spec := by
  have hslots : spec.everySlot.map (·.1) <+: record.fields := List.prefix_rfl
  have htakes : Takes read spec _ := takes_compact_array
    (fun f value => ⟨takes_readField f value, opens_encodeField f value⟩) hslots rfl
  have hwhole := htakes.readWhole allBlank_nil
  rw [List.append_nil] at hwhole
  rwa [ofText, Json.compact, String.toList_ofList]

/-- **Arrays.**  An array with the values of the first fields, two or more, is read as any object
with the same fields, and with fewer it is of the wrong length.  With more than the values of all
fields a text is malformed, and a value is of the wrong length.  Each spec is read from an array. -/
theorem ofText_of_array :
    (∀ slots text, IsArray slots text →
      (2 ≤ slots.length → ∃ spec, ofMembers (membersOf slots) = .ok spec ∧
        ofText text = .ok spec ∧ ∀ members object, IsObject members object →
          (Member.slots members).Perm slots → ofText object = .ok spec) ∧
      (slots.length < 2 → ofText text =
        .error (.misfit (.wrongLength slots.length "struct ModelSpec with 7 elements")))) ∧
    (∀ slots text, IsLongArray slots text → ofText text = .error .malformed) ∧
    (∀ (slots : List (Slot Field Field.Value)) items more, slots.map (·.1) = record.fields →
      List.Forall₂ (fun slot => FieldJson slot.1 slot.2) slots items → more ≠ [] →
      ofJson (.array (items ++ more)) =
        .error (.wrongLength (7 + more.length) "fewer elements in array")) ∧
    ∀ spec, ∃ items, ofText (Json.array items).compact = .ok spec := by
  refine ⟨fun slots text h => ⟨ofText_of_two h, fun hfew => ?_⟩, fun _ _ => ofText_of_longArray,
    fun _ _ _ hslots hitems hmore => ofJson_of_longer hslots hitems hmore,
    fun spec => ⟨_, ofText_everySlot spec⟩⟩
  have hlabel : record.labelWithSize = "struct ModelSpec with 7 elements" := by decide
  rw [ofText_eq_ofItems h, ofItems_of_few h.fields hfew, hlabel]
  rfl

/-- The values of the first two fields. -/
def firstTwo : List (Slot Field Field.Value) := [⟨.modelId, "m"⟩, ⟨.version, "1"⟩]

theorem stringText_literal (s : String) : StringText s (Quoted.literal s) :=
  ⟨_, Quoted.spells_encode s.toList, rfl⟩

theorem isArray_firstTwo : IsArray firstTwo " [\"m\" ,\"1\"]" := by
  have hblank : AllBlank [' '] := by simp [AllBlank, isBlank]
  refine ⟨[' '], "[\"m\" ,\"1\"]".toList, [], hblank, allBlank_nil, ⟨_, by decide,
    .more (.first allBlank_nil) (stringText_literal "m")
      (.more (.next hblank allBlank_nil) (stringText_literal "1") (.done allBlank_nil)), rfl⟩, rfl⟩

/-- An object with the same two fields, the other way round. -/
theorem isObject_firstTwo : IsObject [.field .version "1", .field .modelId "m"]
    "\x7b\"version\":\"1\",\"model_id\":\"m\"\x7d" := by
  have hkey : ∀ name : String, Quoted.Spells name.toList (Quoted.encode name.toList) :=
    fun name => Quoted.spells_encode name.toList
  have hstring : ∀ s : String, Padded (StringText s) (Quoted.literal s) :=
    fun s => ⟨[], _, allBlank_nil, stringText_literal s, rfl⟩
  refine ⟨[], "\x7b\"version\":\"1\",\"model_id\":\"m\"\x7d".toList, [], allBlank_nil, allBlank_nil,
    ⟨_, .more (.first allBlank_nil) ⟨_, [], _, hkey "version", allBlank_nil, hstring "1", rfl⟩
      (.more (.next allBlank_nil allBlank_nil)
        ⟨_, [], _, hkey "model_id", allBlank_nil, hstring "m", rfl⟩ (.done allBlank_nil)), rfl⟩,
    rfl⟩

theorem isArray_first : IsArray [⟨.modelId, "m"⟩] "[\"m\"]" :=
  ⟨[], "[\"m\"]".toList, [], allBlank_nil, allBlank_nil, ⟨_, by decide,
    .more (.first allBlank_nil) (stringText_literal "m") (.done allBlank_nil), rfl⟩, rfl⟩

/-- Values for all fields, with a scope whose default is absent. -/
def allSeven : List (Slot Field Field.Value) :=
  [⟨.modelId, "m"⟩, ⟨.version, "1"⟩, ⟨.regions, []⟩, ⟨.acceptTypes, []⟩,
    ⟨.defaultAcceptType, none⟩, ⟨.training, some ⟨["ml.g5"], none⟩⟩, ⟨.inference, none⟩]

/-- The scope is an array of one item, and behind the last field stands a number. -/
theorem isLongArray_allSeven :
    IsLongArray allSeven "[\"m\",\"1\",[],[],null,[[\"ml.g5\"]],null,7]" := by
  have hnext : Lead false [','] := .next allBlank_nil allBlank_nil
  have hempty : ListText StringText [] "[]".toList := ⟨_, .done allBlank_nil, rfl⟩
  have htypes : ListText StringText ["ml.g5"] "[\"ml.g5\"]".toList :=
    ⟨_, .more (.first allBlank_nil) (stringText_literal "ml.g5") (.done allBlank_nil), rfl⟩
  have hscope : ScopeSpec.Text ⟨["ml.g5"], none⟩ "[[\"ml.g5\"]]".toList :=
    .inr ⟨[⟨.instanceTypes, ["ml.g5"]⟩],
      ⟨_, by decide, .more (.first allBlank_nil) htypes (.done allBlank_nil), rfl⟩, rfl⟩
  exact ⟨[], "[\"m\",\"1\",[],[],null,[[\"ml.g5\"]],null,7]".toList, allBlank_nil,
    ⟨_, "7]".toList, rfl, .more (.first allBlank_nil) (stringText_literal "m")
      (.more hnext (stringText_literal "1") (.more hnext hempty (.more hnext hempty
        (.more hnext (show OptionText StringText none "null".toList from rfl)
          (.more hnext (show OptionText ScopeSpec.Text (some _) _ from hscope)
            (.more hnext (show OptionText ScopeSpec.Text none "null".toList from rfl)
              (.done allBlank_nil))))))), rfl⟩, rfl⟩

/-- The values of the items. -/
theorem fieldJson_allSeven : List.Forall₂ (fun slot => FieldJson slot.1 slot.2) allSeven
    [.string "m", .string "1", .array [], .array [], .null, .array [.array [.string "ml.g5"]],
      .null] := by
  have hempty : ListJson StringJson [] (.array []) := ⟨[], .nil, rfl⟩
  have htypes : ListJson StringJson ["ml.g5"] (.array [.string "ml.g5"]) :=
    ⟨_, .cons rfl .nil, rfl⟩
  have hscope : ScopeSpec.Value ⟨["ml.g5"], none⟩ (.array [.array [.string "ml.g5"]]) :=
    .inr ⟨[⟨.instanceTypes, ["ml.g5"]⟩], ⟨_, by decide, .cons htypes .nil, rfl⟩, rfl⟩
  exact .cons rfl (.cons rfl (.cons hempty (.cons hempty (.cons rfl (.cons hscope
    (.cons rfl .nil))))))

/-- Two items and an object of the same fields, one item, and eight items. -/
theorem ofText_firstTwo :
    ofText " [\"m\" ,\"1\"]" = .ok (named "m" "1") ∧
      ofText "\x7b\"version\":\"1\",\"model_id\":\"m\"\x7d" = .ok (named "m" "1") ∧
      ofText "[\"m\"]" =
        .error (.misfit (.wrongLength 1 "struct ModelSpec with 7 elements")) ∧
      ofText "[\"m\",\"1\",[],[],null,[[\"ml.g5\"]],null,7]" = .error .malformed ∧
      ofJson (.array [.string "m", .string "1", .array [], .array [], .null,
        .array [.array [.string "ml.g5"]], .null, .number (.int 7)]) =
          .error (.wrongLength 8 "fewer elements in array") := by
  obtain ⟨harray, hlong, hvalue, -⟩ := ofText_of_array
  obtain ⟨spec, hspec, htext, hobject⟩ := (harray _ _ isArray_firstTwo).1 (by decide)
  obtain rfl : spec = named "m" "1" := (Except.ok.inj hspec).symm
  exact ⟨htext, hobject _ _ isObject_firstTwo (List.Perm.swap _ _ _),
    (harray _ _ isArray_first).2 (by decide), hlong _ _ isLongArray_allSeven,
    hvalue allSeven _ [.number (.int 7)] rfl fieldJson_allSeven (List.cons_ne_nil _ _)⟩

end ModelSpec

end ServingCatalog
