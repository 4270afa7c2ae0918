import ServingCatalog.Proofs.Configuration.Layer

/-!
# Settings that hold a layer

While sources are written one after the other, the outermost table of settings holds a layer:
`Holds` says that the table of each part shows what the layer says about it.  Laying a flat table
over a part lays a layer over the one held (`Holds.put`), and in the end the settings make the
configuration of the layer they hold (`Holds.ofEntries`).
-/

namespace ServingCatalog

open Json Setting

/-- A setting that corresponds to something optional corresponds to something there. -/
private theorem exists_of_rel_some {α β γ : Type} {R : α → β → Prop} {f : γ → β} {a : α}
    {option : Option γ} (h : Option.Rel R (some a) (option.map f)) :
    ∃ c, option = some c ∧ R a (f c) := by
  cases option with
  | none => cases h
  | some c =>
    cases h with
    | some hrel => exact ⟨c, rfl, hrel⟩

private theorem eq_none_of_rel_none {α β γ : Type} {R : α → β → Prop} {f : γ → β}
    {option : Option γ} (h : Option.Rel R none (option.map f)) : option = none := by
  cases option with
  | none => rfl
  | some c => cases h

namespace Layer

/-- What a layer says about a part. -/
abbrev Part : Configuration.Field → Type
  | .logging => LoggingLayer
  | .catalog => CatalogLayer

/-- The layer that says something about one part only. -/
def only : (f : Configuration.Field) → Part f → Layer
  | .logging, part => ⟨none, some part⟩
  | .catalog, part => ⟨some part, none⟩

/-- The entries show what is said about a part. -/
def Part.Shown : (f : Configuration.Field) → Entries → Part f → Prop
  | .logging, entries, part =>
    Shows LoggingConfig.record LoggingLayer.coding.decode entries part.draft
  | .catalog, entries, part =>
    Shows CatalogConfig.record CatalogLayer.coding.decode entries part.draft

end Layer

/-- Settings hold a layer if the table of each part shows it, and is missing where the layer says
nothing. -/
structure Holds (entries : Entries) (layer : Layer) : Prop where
  nodup : entries.keys.Nodup
  catalog : Option.Rel (Shown CatalogConfig.record CatalogLayer.coding.decode)
    (entries.get? "catalog") (layer.catalog.map CatalogLayer.draft)
  logging : Option.Rel (Shown LoggingConfig.record LoggingLayer.coding.decode)
    (entries.get? "logging") (layer.logging.map LoggingLayer.draft)

theorem holds_nil : Holds [] Layer.empty :=
  ⟨List.nodup_nil, .none, .none⟩

namespace Holds

variable {held : Entries} {below : Layer}

/-- A flat table is laid over a part, and the other part stays. -/
theorem put (h : Holds held below) (f : Configuration.Field) (origin : Option String)
    {entries : Entries} {above : Layer.Part f} (habove : Layer.Part.Shown f entries above)
    (hflat : Flat entries) :
    Holds (held.put (Configuration.record.name f)
        (Setting.overlay (held.get? (Configuration.record.name f)) (.table origin entries)))
      ((Layer.only f above).atop below) := by
  cases f with
  | catalog =>
    have hshown := Setting.Shown.overlay h.catalog origin habove hflat
    show Holds (held.put "catalog" (Setting.overlay (held.get? "catalog") _)) _
    refine ⟨Entries.nodup_alter h.nodup _ _, ?_, ?_⟩
    · rw [Entries.get?_put_same, Layer.only, Layer.atop, CatalogLayer.draft_merge]
      exact .some hshown
    · rw [Entries.get?_put_other (by decide), Layer.only, Layer.atop, Option.merge_none_left]
      exact h.logging
  | logging =>
    have hshown := Setting.Shown.overlay h.logging origin habove hflat
    show Holds (held.put "logging" (Setting.overlay (held.get? "logging") _)) _
    refine ⟨Entries.nodup_alter h.nodup _ _, ?_, ?_⟩
    · rw [Entries.get?_put_other (by decide), Layer.only, Layer.atop, Option.merge_none_left]
      exact h.catalog
    · rw [Entries.get?_put_same, Layer.only, Layer.atop, LoggingLayer.draft_merge]
      exact .some hshown

/-- The table of a part is decoded to what the layer says of it. -/
theorem decode_catalog (h : Holds held below) {setting : Setting}
    (hget : held.get? "catalog" = some setting) :
    ∃ layer, below.catalog = some layer ∧
      CatalogConfig.decodeSetting setting = .ok layer.config := by
  have hcatalog := h.catalog
  rw [hget] at hcatalog
  obtain ⟨layer, hlayer, hshown⟩ := exists_of_rel_some hcatalog
  exact ⟨layer, hlayer, CatalogLayer.decodeSetting_of_shown hshown⟩

/-- Likewise for the logging settings, where a default is missing. -/
theorem decode_logging (h : Holds held below) {setting : Setting}
    (hget : held.get? "logging" = some setting) :
    ∃ layer, below.logging = some layer ∧
      LoggingConfig.decodeSetting setting = layer.config := by
  have hlogging := h.logging
  rw [hget] at hlogging
  obtain ⟨layer, hlayer, hshown⟩ := exists_of_rel_some hlogging
  exact ⟨layer, hlayer, LoggingLayer.decodeSetting_of_shown hshown⟩

/-- Without settings of the catalog none is held. -/
theorem catalog_eq_none (h : Holds held below) (hget : held.get? "catalog" = none) :
    below.catalog = none := by
  have hcatalog := h.catalog
  rw [hget] at hcatalog
  exact eq_none_of_rel_none hcatalog

/-- Likewise for logging. -/
theorem logging_eq_none (h : Holds held below) (hget : held.get? "logging" = none) :
    below.logging = none := by
  have hlogging := h.logging
  rw [hget] at hlogging
  exact eq_none_of_rel_none hlogging

end Holds

namespace Configuration

/-- Decodes the setting of a part. -/
def decodeEntry : (f : Field) → Decoder f.Value
  | .logging => LoggingConfig.decodeSetting
  | .catalog => CatalogConfig.decodeSetting

theorem record_lawful : record.Lawful := by
  intro f
  cases f <;> rfl

end Configuration

/-- The draft of the whole configuration, when the logging settings have no fault. -/
def Layer.draft (layer : Layer) (logging : Option LoggingConfig) :
    Draft Configuration.Field Configuration.Field.Value
  | .logging => logging
  | .catalog => layer.catalog.map CatalogLayer.config

/-- Settings that hold a layer show its draft. -/
theorem Holds.shows {entries : Entries} {layer : Layer} (h : Holds entries layer)
    {logging : Option LoggingConfig}
    (hlogging : layer.logging.map LoggingLayer.config = logging.map .ok) :
    Shows Configuration.record Configuration.decodeEntry entries (layer.draft logging) := by
  refine ⟨h.nodup, ?_, ?_⟩
  · intro f setting hget
    cases f with
    | catalog =>
      obtain ⟨catalog, hlayer, hdecode⟩ := h.decode_catalog hget
      refine ⟨catalog.config, hdecode, ?_⟩
      rw [Layer.draft, hlayer, Option.map_some]
    | logging =>
      obtain ⟨part, hlayer, hdecode⟩ := h.decode_logging hget
      rw [hlayer] at hlogging
      cases logging with
      | none => cases hlogging
      | some config =>
        refine ⟨config, ?_, rfl⟩
        show LoggingConfig.decodeSetting setting = _
        rw [hdecode]
        exact Option.some.inj hlogging
  · intro f hget
    cases f with
    | catalog => rw [Layer.draft, h.catalog_eq_none hget, Option.map_none]
    | logging =>
      rw [h.logging_eq_none hget] at hlogging
      cases logging with
      | none => rfl
      | some config => cases hlogging

/-- Settings that hold a layer without a fault make its settings, or the defaults of the parts that
are missing. -/
theorem Holds.ofEntries_of_ok {entries : Entries} {layer : Layer} (h : Holds entries layer)
    (logging : Option LoggingConfig)
    (hlogging : layer.logging.map LoggingLayer.config = logging.map .ok) :
    Configuration.ofEntries entries =
      .ok ⟨logging.getD .default, (layer.catalog.map CatalogLayer.config).getD .default⟩ := by
  have hshown : Shown Configuration.record Configuration.decodeEntry (.table none entries)
      (layer.draft logging) := ⟨none, entries, rfl, h.shows hlogging⟩
  exact hshown.decodeRecord Configuration.record_lawful

/-- A fault of the logging settings is the fault of the whole: the catalog settings have none of
their own, wherever they stand. -/
theorem Holds.ofEntries_of_error {entries : Entries} {layer : Layer} (h : Holds entries layer)
    {part : LoggingLayer} (hpart : layer.logging = some part) {fault : SettingFault}
    (hconfig : part.config = .error fault) : Configuration.ofEntries entries = .error fault := by
  have hothers : ∀ g other, g ≠ Configuration.Field.logging →
      entries.get? (Configuration.record.name g) = some other →
      ∃ value, Configuration.decodeEntry g other = .ok value := by
    intro g other hg hother
    cases g with
    | logging => exact absurd rfl hg
    | catalog =>
      obtain ⟨catalog, _, hcatalog⟩ := h.decode_catalog hother
      exact ⟨catalog.config, hcatalog⟩
  cases hget : entries.get? "logging" with
  | none =>
    rw [h.logging_eq_none hget] at hpart
    cases hpart
  | some setting =>
    obtain ⟨found, hfound, hdecode⟩ := h.decode_logging hget
    rw [hpart] at hfound
    rw [← Option.some.inj hfound, hconfig] at hdecode
    have hlogging : Configuration.decodeEntry .logging setting = .error fault := hdecode
    have hfault := draftOfEntries_error h.nodup Configuration.record_lawful hlogging
      Draft.empty hget hothers
    rw [LoggingLayer.underKey_of_config_error hconfig] at hfault
    show Setting.decodeRecord Configuration.record Configuration.decodeEntry
      (.table none entries) = _
    rw [Setting.decodeRecord, hfault]

/-- **The outcome.**  Settings that hold a layer make its configuration. -/
theorem Holds.ofEntries {entries : Entries} {layer : Layer} (h : Holds entries layer) :
    Configuration.ofEntries entries = layer.configuration := by
  rw [Layer.configuration]
  cases hpart : layer.logging with
  | none =>
    have hnone : layer.logging.map LoggingLayer.config = none := by rw [hpart, Option.map_none]
    rw [h.ofEntries_of_ok none hnone]
    rfl
  | some part =>
    rw [Option.map_some]
    cases hconfig : part.config with
    | ok config =>
      have hsome : layer.logging.map LoggingLayer.config = some (.ok config) := by
        rw [hpart, Option.map_some, hconfig]
      rw [h.ofEntries_of_ok (some config) hsome]
      rfl
    | error fault =>
      rw [h.ofEntries_of_error hpart hconfig]
      rfl

end ServingCatalog
