import ServingCatalog.Proofs.Json.Compact

/-!
# The text of a model spec reads back

A spec is written as the slots that it fills: every list, and of the optional fields those that are
present.  These slots make the spec again (`ofMembers_slots`), each of them is taken for its value,
and so the text of a spec is read as that spec, for all strings, lists and choices of what is
present: `ofText_toText`.
-/

namespace ServingCatalog

open Json

namespace ScopeSpec

/-- Fields of a scope are told apart by their names. -/
theorem record_lawful : record.Lawful := by
  intro f
  cases f <;> rfl

/-- The slots that are written. -/
def slots (spec : ScopeSpec) : List (Slot Field Field.Value) :=
  ⟨.instanceTypes, spec.instanceTypes⟩ ::
    spec.default.toList.map fun type => ⟨.default, some type⟩

/-- The value of a field as it is written. -/
def encodeField : (f : Field) → f.Value → Json
  | .instanceTypes, types => ofTexts types
  | .default, type => ofOption .string type

/-- A scope is written as the slots that it fills. -/
theorem toJson_eq_slots (spec : ScopeSpec) :
    spec.toJson = .object (ofSlots record encodeField spec.slots) := by
  obtain ⟨types, default⟩ := spec
  cases default <;> rfl

/-- No field is written twice. -/
theorem nodup_slots (spec : ScopeSpec) : (spec.slots.map (·.1)).Nodup := by
  obtain ⟨types, default⟩ := spec
  cases default <;> simp [slots]

/-- The slots that are written make the same scope again. -/
theorem ofMembers_slots (spec : ScopeSpec) :
    record.ofMembers (Draft.fill spec.slots Draft.empty) = .ok spec := by
  obtain ⟨types, default⟩ := spec
  cases default <;> rfl

/-- The value of a field is taken from its text. -/
theorem takes_readField (f : Field) (value : f.Value) :
    Takes (readField f) value (compactChars (encodeField f value)) := by
  cases f with
  | instanceTypes => exact takes_compact_texts value
  | default =>
    exact takes_compact_option takes_compact_string (fun _ => ⟨_, _, rfl, rfl, by decide⟩) value

/-- What is written for a scope does not look like `null`. -/
theorem exists_compact_toJson (spec : ScopeSpec) :
    ∃ c rest, compactChars spec.toJson = c :: rest ∧ isBlank c = false ∧ c ≠ 'n' :=
  ⟨_, _, rfl, rfl, by decide⟩

/-- What is written for a scope is taken for it. -/
theorem takes_read (spec : ScopeSpec) : Takes read spec (compactChars spec.toJson) := by
  rw [toJson_eq_slots]
  exact takes_compact_record record_lawful takes_readField (nodup_slots spec) (ofMembers_slots spec)

end ScopeSpec

namespace ModelSpec

/-- Fields of a spec are told apart by their names. -/
theorem record_lawful : record.Lawful := by
  intro f
  cases f <;> rfl

/-- The slots that are written. -/
def slots (spec : ModelSpec) : List (Slot Field Field.Value) :=
  [⟨.modelId, spec.modelId⟩, ⟨.version, spec.version⟩, ⟨.regions, spec.regions⟩,
      ⟨.acceptTypes, spec.acceptTypes⟩] ++
    (spec.defaultAcceptType.toList.map fun type => ⟨.defaultAcceptType, some type⟩) ++
    (spec.training.toList.map fun scope => ⟨.training, some scope⟩) ++
    (spec.inference.toList.map fun scope => ⟨.inference, some scope⟩)

/-- The value of a field as it is written. -/
def encodeField : (f : Field) → f.Value → Json
  | .modelId, text => .string text
  | .version, text => .string text
  | .regions, regions => ofTexts regions
  | .acceptTypes, types => ofTexts types
  | .defaultAcceptType, type => ofOption .string type
  | .training, scope => ofOption ScopeSpec.toJson scope
  | .inference, scope => ofOption ScopeSpec.toJson scope

/-- A spec is written as the slots that it fills. -/
theorem toJson_eq_slots (spec : ModelSpec) :
    spec.toJson = .object (ofSlots record encodeField spec.slots) := by
  obtain ⟨modelId, version, regions, acceptTypes, defaultAcceptType, training, inference⟩ := spec
  cases defaultAcceptType <;> cases training <;> cases inference <;> rfl

/-- No field is written twice. -/
theorem nodup_slots (spec : ModelSpec) : (spec.slots.map (·.1)).Nodup := by
  obtain ⟨modelId, version, regions, acceptTypes, defaultAcceptType, training, inference⟩ := spec
  cases defaultAcceptType <;> cases training <;> cases inference <;> simp [slots]

/-- The slots that are written make the same spec again. -/
theorem ofMembers_slots (spec : ModelSpec) :
    record.ofMembers (Draft.fill spec.slots Draft.empty) = .ok spec := by
  obtain ⟨modelId, version, regions, acceptTypes, defaultAcceptType, training, inference⟩ := spec
  cases defaultAcceptType <;> cases training <;> cases inference <;> rfl

/-- The value of a field is taken from its text. -/
theorem takes_readField (f : Field) (value : f.Value) :
    Takes (readField f) value (compactChars (encodeField f value)) := by
  cases f with
  | modelId => exact takes_compact_string value
  | version => exact takes_compact_string value
  | regions => exact takes_compact_texts value
  | acceptTypes => exact takes_compact_texts value
  | defaultAcceptType =>
    exact takes_compact_option takes_compact_string (fun _ => ⟨_, _, rfl, rfl, by decide⟩) value
  | training =>
    exact takes_compact_option ScopeSpec.takes_read ScopeSpec.exists_compact_toJson value
  | inference =>
    exact takes_compact_option ScopeSpec.takes_read ScopeSpec.exists_compact_toJson value

/-- What is written for a spec is taken for it. -/
theorem takes_read (spec : ModelSpec) : Takes read spec (compactChars spec.toJson) := by
  rw [toJson_eq_slots]
  exact takes_compact_record record_lawful takes_readField (nodup_slots spec) (ofMembers_slots spec)

/-- **Round trip.**  The text of a spec is read as that spec, and so no two specs have the same
text. -/
theorem ofText_toText :
    (∀ spec : ModelSpec, ofText spec.toText = .ok spec) ∧ Function.Injective toText := by
  have hread : ∀ spec : ModelSpec, ofText spec.toText = .ok spec := by
    intro spec
    have hwhole := (takes_read spec).readWhole allBlank_nil
    rw [List.append_nil] at hwhole
    rwa [ofText, toText, Json.compact, String.toList_ofList]
  refine ⟨hread, ?_⟩
  intro one other hsame
  have hone := hread one
  rw [hsame, hread other] at hone
  exact (Except.ok.inj hone).symm

end ModelSpec

end ServingCatalog
