import ServingCatalog.Configuration.Load
import ServingCatalog.Proofs.Model.SpecSetting

/-!
# Layers of configuration

A layer is what one source says: each part may be missing, and each setting of a part.  `Layer.atop`
lays one layer over another, setting by setting, and `Layer.configuration` is what a layer makes
after all: catalog settings have a default each, logging settings only together.

A layer is written as a JSON object (`Layer.toJson`); `Layer.IsWritten` allows any text of that
object, with blanks anywhere, strings spelled in any way and members in any order.
-/

namespace ServingCatalog

open Json Setting

/-- What a source says about the catalog. -/
structure CatalogLayer where
  defaultRegion : Option String
  models : Option (List ModelSpec)

/-- What a source says about logging. -/
structure LoggingLayer where
  level : Option String
  format : Option LogFormat

/-- What a source says. -/
structure Layer where
  catalog : Option CatalogLayer
  logging : Option LoggingLayer

/-! ## The catalog part -/

namespace CatalogLayer

open CatalogConfig (Field record)

/-- The catalog settings, written and decoded. -/
def coding : Coding record where
  encode
    | .defaultRegion, region => .string region
    | .models, specs => .array (specs.map ModelSpec.toJson)
  decode
    | .defaultRegion => decodeText
    | .models => decodeList ModelSpec.decodeSetting
  lawful f := by cases f <;> rfl
  returns f value := by
    cases f with
    | defaultRegion => exact returns_text value
    | models => exact returns_list fun spec _ => spec.returns

/-- The fields of a catalog layer come back, and none is a table of its own. -/
theorem coding_plain : coding.Plain := by
  refine ⟨?_, ?_⟩
  · intro f
    cases f <;> rfl
  · intro f value origin held
    cases f <;> rfl

/-- The draft of the settings that are there. -/
def draft (layer : CatalogLayer) : Draft Field Field.Value
  | .defaultRegion => layer.defaultRegion
  | .models => layer.models

/-- The slots of the settings that are there. -/
def slots (layer : CatalogLayer) : List (Slot Field Field.Value) :=
  (layer.defaultRegion.toList.map fun region => ⟨.defaultRegion, region⟩) ++
    (layer.models.toList.map fun specs => ⟨.models, specs⟩)

/-- The catalog part of a file. -/
def toJson (layer : CatalogLayer) : Json :=
  .object
    (optionalMember Field.defaultRegion.name .string layer.defaultRegion ++
      optionalMember Field.models.name (fun specs => .array (specs.map ModelSpec.toJson))
        layer.models)

/-- The settings of one layer, and where it says nothing those of another. -/
def atop (above below : CatalogLayer) : CatalogLayer :=
  ⟨above.defaultRegion.or below.defaultRegion, above.models.or below.models⟩

/-- The catalog settings, with a default for each. -/
def config (layer : CatalogLayer) : CatalogConfig :=
  ⟨layer.defaultRegion.getD "us-west-2", layer.models.getD []⟩

/-- Layers of the catalog are laid over each other field by field. -/
theorem draft_atop (above below : CatalogLayer) :
    (above.atop below).draft = above.draft.atop below.draft := by
  funext f
  cases f <;> rfl

/-- What is over a layer that may be missing has the draft of both. -/
theorem draft_merge (above : CatalogLayer) (below : Option CatalogLayer) :
    (Option.merge atop (some above) below).map draft =
      some (above.draft.atop ((below.map draft).getD Draft.empty)) := by
  cases below with
  | none => exact congrArg some (Draft.atop_empty above.draft).symm
  | some lower => exact congrArg some (draft_atop above lower)

/-- The fields that a catalog layer sets make its draft. -/
theorem fill_slots (layer : CatalogLayer) : Draft.empty.fill layer.slots = layer.draft := by
  obtain ⟨region, specs⟩ := layer
  funext f
  cases f <;> cases region <;> cases specs <;> rfl

/-- The settings that are there show their draft. -/
theorem shows_slots (layer : CatalogLayer) (origin : String) :
    Shows record coding.decode (coding.entries origin layer.slots) layer.draft := by
  rw [← fill_slots]
  exact coding.shows_entries origin layer.slots

/-- It is written as the members of these fields. -/
theorem toJson_eq_slots (layer : CatalogLayer) :
    layer.toJson = .object (coding.members layer.slots) := by
  obtain ⟨region, specs⟩ := layer
  cases region <;> cases specs <;> rfl

/-- Its compact text is one of it: specs are the deepest that it holds. -/
theorem spells_toJson (layer : CatalogLayer) (depth : Nat) :
    Spells (depth + 5) layer.toJson (compactChars layer.toJson) := by
  rw [toJson_eq_slots]
  refine spells_ofSlots record ?_ layer.slots
  intro f value
  cases f with
  | defaultRegion => exact spells_string _ value
  | models =>
    apply spells_array
    intro item hitem
    obtain ⟨spec, _, rfl⟩ := List.mem_map.1 hitem
    exact spec.spells_toJson depth

/-- A table of these settings is decoded to them. -/
theorem decodeSetting_of_shown {layer : CatalogLayer} {setting : Setting}
    (h : Shown record coding.decode setting layer.draft) :
    CatalogConfig.decodeSetting setting = .ok layer.config :=
  h.decodeRecord coding.lawful

end CatalogLayer

/-! ## The logging part -/

namespace LoggingLayer

open LoggingConfig (Field record)

/-- A format comes back from its name. -/
theorem returns_format (format : LogFormat) :
    Returns LogFormat.decodeSetting (fun format => .string format.name) format := by
  intro origin
  cases format <;> rfl

/-- The logging settings, written and decoded. -/
def coding : Coding record where
  encode
    | .level, level => .string level
    | .format, format => .string format.name
  decode
    | .level => decodeText
    | .format => LogFormat.decodeSetting
  lawful f := by cases f <;> rfl
  returns f value := by
    cases f with
    | level => exact returns_text value
    | format => exact returns_format value

/-- The fields of a logging layer come back, and none is a table of its own. -/
theorem coding_plain : coding.Plain := by
  refine ⟨?_, ?_⟩
  · intro f
    cases f <;> rfl
  · intro f value origin held
    cases f <;> rfl

/-- The draft of the settings that are there. -/
def draft (layer : LoggingLayer) : Draft Field Field.Value
  | .level => layer.level
  | .format => layer.format

/-- The slots of the settings that are there. -/
def slots (layer : LoggingLayer) : List (Slot Field Field.Value) :=
  (layer.level.toList.map fun level => ⟨.level, level⟩) ++
    (layer.format.toList.map fun format => ⟨.format, format⟩)

/-- The logging part of a file. -/
def toJson (layer : LoggingLayer) : Json :=
  .object
    (optionalMember Field.level.name .string layer.level ++
      optionalMember Field.format.name (fun format => .string format.name) layer.format)

/-- The settings of one layer, and where it says nothing those of another. -/
def atop (above below : LoggingLayer) : LoggingLayer :=
  ⟨above.level.or below.level, above.format.or below.format⟩

/-- The logging settings, or the fault that one of them is missing. -/
def config (layer : LoggingLayer) : Except SettingFault LoggingConfig :=
  match layer.level, layer.format with
  | none, _ => .error (.misfit (.missingField "level"))
  | some _, none => .error (.misfit (.missingField "format"))
  | some level, some format => .ok ⟨level, format⟩

/-- Layers of the logging settings are laid over each other field by field. -/
theorem draft_atop (above below : LoggingLayer) :
    (above.atop below).draft = above.draft.atop below.draft := by
  funext f
  cases f <;> rfl

/-- What is over a layer that may be missing has the draft of both. -/
theorem draft_merge (above : LoggingLayer) (below : Option LoggingLayer) :
    (Option.merge atop (some above) below).map draft =
      some (above.draft.atop ((below.map draft).getD Draft.empty)) := by
  cases below with
  | none => exact congrArg some (Draft.atop_empty above.draft).symm
  | some lower => exact congrArg some (draft_atop above lower)

/-- The fields that a logging layer sets make its draft. -/
theorem fill_slots (layer : LoggingLayer) : Draft.empty.fill layer.slots = layer.draft := by
  obtain ⟨level, format⟩ := layer
  funext f
  cases f <;> cases level <;> cases format <;> rfl

/-- The settings that are there show their draft. -/
theorem shows_slots (layer : LoggingLayer) (origin : String) :
    Shows record coding.decode (coding.entries origin layer.slots) layer.draft := by
  rw [← fill_slots]
  exact coding.shows_entries origin layer.slots

/-- It is written as the members of these fields. -/
theorem toJson_eq_slots (layer : LoggingLayer) :
    layer.toJson = .object (coding.members layer.slots) := by
  obtain ⟨level, format⟩ := layer
  cases level <;> cases format <;> rfl

/-- Its compact text is one of it: it holds nothing but names. -/
theorem spells_toJson (layer : LoggingLayer) (depth : Nat) :
    Spells (depth + 1) layer.toJson (compactChars layer.toJson) := by
  rw [toJson_eq_slots]
  refine spells_ofSlots record ?_ layer.slots
  intro f value
  cases f with
  | level => exact spells_string _ value
  | format => exact spells_string _ value.name

/-- A table of these settings is decoded to them, or to the fault that one is missing. -/
theorem decodeSetting_of_shown {layer : LoggingLayer} {setting : Setting}
    (h : Shown record coding.decode setting layer.draft) :
    LoggingConfig.decodeSetting setting = layer.config := by
  have hdecode := h.decodeRecord coding.lawful
  obtain ⟨level, format⟩ := layer
  cases level <;> cases format <;> exact hdecode

/-- A fault of the logging settings names no key, so it looks the same from outside. -/
theorem underKey_of_config_error {layer : LoggingLayer} {fault : SettingFault}
    (h : layer.config = .error fault) (key : String) : fault.underKey key = fault := by
  obtain ⟨level, format⟩ := layer
  cases level <;> cases format <;> cases h <;> rfl

end LoggingLayer

/-! ## Whole layers -/

namespace Layer

/-- The layer of a source that says nothing. -/
def empty : Layer := ⟨none, none⟩

/-- One layer over another, part by part. -/
def atop (above below : Layer) : Layer :=
  ⟨.merge CatalogLayer.atop above.catalog below.catalog,
    .merge LoggingLayer.atop above.logging below.logging⟩

/-- The configuration of a layer.  Parts that are missing altogether have their defaults. -/
def configuration (layer : Layer) : Except SettingFault Configuration :=
  let catalog := (layer.catalog.map CatalogLayer.config).getD .default
  let logging := (layer.logging.map LoggingLayer.config).getD (.ok .default)
  logging.map fun logging => ⟨logging, catalog⟩

/-- Layers may be put together before they are laid over another one. -/
theorem atop_assoc (above middle below : Layer) :
    (above.atop middle).atop below = above.atop (middle.atop below) := by
  have hcatalog : ∀ one two three : Option CatalogLayer,
      Option.merge CatalogLayer.atop (.merge CatalogLayer.atop one two) three =
        .merge CatalogLayer.atop one (.merge CatalogLayer.atop two three) := by
    rintro (_ | one) (_ | two) (_ | three) <;> simp [CatalogLayer.atop, Option.or_assoc]
  have hlogging : ∀ one two three : Option LoggingLayer,
      Option.merge LoggingLayer.atop (.merge LoggingLayer.atop one two) three =
        .merge LoggingLayer.atop one (.merge LoggingLayer.atop two three) := by
    rintro (_ | one) (_ | two) (_ | three) <;> simp [LoggingLayer.atop, Option.or_assoc]
  rw [atop, atop, atop, atop, hcatalog, hlogging]

theorem empty_atop (below : Layer) : empty.atop below = below := by
  simp [atop, empty]

theorem atop_empty (above : Layer) : above.atop empty = above := by
  simp [atop, empty]

/-- The region that a layer says, if it says one. -/
def region? (layer : Layer) : Option String := layer.catalog.bind (·.defaultRegion)

/-- The specs that a layer lists, if it has a list. -/
def models? (layer : Layer) : Option (List ModelSpec) := layer.catalog.bind (·.models)

/-- The level that a layer says, if it says one. -/
def level? (layer : Layer) : Option String := layer.logging.bind (·.level)

/-- The format that a layer says, if it says one. -/
def format? (layer : Layer) : Option LogFormat := layer.logging.bind (·.format)

/-- The region of the upper layer counts, if it has one. -/
theorem region?_atop (above below : Layer) :
    (above.atop below).region? = above.region?.or below.region? := by
  obtain ⟨one, _⟩ := above
  obtain ⟨other, _⟩ := below
  cases one <;> cases other <;> simp [atop, region?, CatalogLayer.atop]

/-- Likewise its models, as a whole. -/
theorem models?_atop (above below : Layer) :
    (above.atop below).models? = above.models?.or below.models? := by
  obtain ⟨one, _⟩ := above
  obtain ⟨other, _⟩ := below
  cases one <;> cases other <;> simp [atop, models?, CatalogLayer.atop]

/-- Likewise its level. -/
theorem level?_atop (above below : Layer) :
    (above.atop below).level? = above.level?.or below.level? := by
  obtain ⟨_, one⟩ := above
  obtain ⟨_, other⟩ := below
  cases one <;> cases other <;> simp [atop, level?, LoggingLayer.atop]

/-- Likewise its format. -/
theorem format?_atop (above below : Layer) :
    (above.atop below).format? = above.format?.or below.format? := by
  obtain ⟨_, one⟩ := above
  obtain ⟨_, other⟩ := below
  cases one <;> cases other <;> simp [atop, format?, LoggingLayer.atop]

/-- Nothing is said of logging if neither layer says anything. -/
theorem logging_atop_eq_none (above below : Layer) :
    (above.atop below).logging = none ↔ above.logging = none ∧ below.logging = none := by
  rw [atop, Option.merge_eq_none_iff]

/-- The configuration of a layer, setting by setting. -/
theorem configuration_eq (layer : Layer) :
    layer.configuration =
      let catalog : CatalogConfig := ⟨layer.region?.getD "us-west-2", layer.models?.getD []⟩
      if layer.logging = none then .ok ⟨⟨"info", .pretty⟩, catalog⟩
      else
        match layer.level?, layer.format? with
        | none, _ => .error (.misfit (.missingField "level"))
        | some _, none => .error (.misfit (.missingField "format"))
        | some level, some format => .ok ⟨⟨level, format⟩, catalog⟩ := by
  obtain ⟨catalog, logging⟩ := layer
  have hcatalog : (catalog.map CatalogLayer.config).getD .default =
      ⟨(region? ⟨catalog, logging⟩).getD "us-west-2", (models? ⟨catalog, logging⟩).getD []⟩ := by
    cases catalog <;> rfl
  rw [configuration, hcatalog]
  cases logging with
  | none => rfl
  | some part =>
    obtain ⟨level, format⟩ := part
    cases level <;> cases format <;> rfl

/-- The object that a layer is written as. -/
def toJson (layer : Layer) : Json :=
  .object
    (optionalMember "catalog" CatalogLayer.toJson layer.catalog ++
      optionalMember "logging" LoggingLayer.toJson layer.logging)

/-- A text of the object of a layer.  The order of members does not matter, and of members with one
key the last one counts. -/
def IsWritten (layer : Layer) (text : String) : Prop :=
  ∃ root, IsText root text.toList ∧ root.sorted = layer.toJson.sorted

/-- A layer written compactly is written. -/
theorem isWritten_compact (layer : Layer) : layer.IsWritten layer.toJson.compact := by
  refine ⟨layer.toJson, ?_, rfl⟩
  apply isText_compact
  show Spells (121 + 6) layer.toJson (compactChars layer.toJson)
  apply spells_object
  intro member hmember
  rw [optionalMember_eq_map, optionalMember_eq_map] at hmember
  rcases List.mem_append.1 hmember with hcatalog | hlogging
  · obtain ⟨catalog, _, rfl⟩ := List.mem_map.1 hcatalog
    exact catalog.spells_toJson 121
  · obtain ⟨logging, _, rfl⟩ := List.mem_map.1 hlogging
    exact logging.spells_toJson 125

end Layer

end ServingCatalog
