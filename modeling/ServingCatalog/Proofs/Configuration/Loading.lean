import ServingCatalog.Proofs.Configuration.Alike

/-!
# Loading layers

The configuration is loaded by writing three sources into one table of settings.  Each of them lays
a layer over what is there: `Lays` is about the settings of one source, and `holds_merge` follows
the sources one after the other.

The two files may be missing or written in any way that shows a layer; the environment may set the
region and the level.  The main result, `loadFrom_of_layers`, says for each setting which of the
three sources it comes from, and which faults there are.
-/

namespace ServingCatalog

open Json Setting

/-! ## Writing to the parts -/

namespace Setting

/-- Writing to a key of the outermost table lays the setting over what the key holds. -/
theorem assign_root {key root : String} (hpath : Path.ofKey key = ⟨root, []⟩)
    (hlower : Text.lower root = root) (below : Entries) (setting : Setting) :
    assign below key setting =
      .ok (below.put root (Setting.overlay (below.get? root) setting)) := by
  simp only [assign, hpath, hlower, write?]

/-- Writing to a key of a table in the outermost one lays a table with that key over it. -/
theorem assign_key {key root name : String} (hpath : Path.ofKey key = ⟨root, [.key name]⟩)
    (hlower : Text.lower root = root) (below : Entries) (setting : Setting) :
    assign below key setting = .ok (below.put root
      (Setting.overlay (below.get? root) (.table none [(name, setting)]))) := by
  simp only [assign, hpath, hlower, write?_key]

/-- A source is written entry by entry. -/
theorem assignAll_cons {below next : Entries} {key : String} {setting : Setting}
    (h : assign below key setting = .ok next) (rest : List (String × Setting)) :
    assignAll below ((key, setting) :: rest) = assignAll next rest := by
  rw [assignAll, List.foldlM_cons]
  simp only [h]
  rfl

end Setting

/-! ## Sources -/

/-- A source lays a layer over whatever layer the settings hold. -/
def Lays (source : List (String × Setting)) (above : Layer) : Prop :=
  ∀ held below, Holds held below →
    ∃ next, assignAll held source = .ok next ∧ Holds next (above.atop below)

theorem lays_nil : Lays [] Layer.empty := by
  intro held below hheld
  rw [Layer.empty_atop]
  exact ⟨held, rfl, hheld⟩

/-- An entry that is laid as a flat table over a part. -/
theorem lays_singleton (f : Configuration.Field) {key : String} {setting : Setting}
    (origin : Option String) {entries : Entries} {part : Layer.Part f}
    (hassign : ∀ held : Entries, assign held key setting =
      .ok (held.put (Configuration.record.name f)
        (Setting.overlay (held.get? (Configuration.record.name f)) (.table origin entries))))
    (hshown : Layer.Part.Shown f entries part) (hflat : Flat entries) :
    Lays [(key, setting)] (Layer.only f part) :=
  fun held _ hheld => ⟨_, assignAll_cons (hassign held) [], hheld.put f origin hshown hflat⟩

/-- One source behind another lays its layer over that of the other. -/
theorem Lays.append {source rest : List (String × Setting)} {below above : Layer}
    (h : Lays source below) (hrest : Lays rest above) : Lays (source ++ rest) (above.atop below) := by
  intro held lowest hheld
  obtain ⟨middle, hmiddle, hfirst⟩ := h held lowest hheld
  obtain ⟨next, hnext, hlast⟩ := hrest middle _ hfirst
  refine ⟨next, ?_, by rwa [Layer.atop_assoc]⟩
  rw [assignAll, List.foldlM_append, ← assignAll, hmiddle]
  exact hnext

/-- A source lays a layer, in whatever order it is gone through. -/
structure LaysFreely (source : List (String × Setting)) (above : Layer) : Prop where
  lays : Lays source above
  laysAlike : ∀ order, LaysAlike source (orderedEntries order source)
  startsPlain : ∀ entry ∈ source, Path.StartsPlain entry.1

/-- In the order of a pass too. -/
theorem LaysFreely.exists_lay {source : List (String × Setting)} {above : Layer}
    (h : LaysFreely source above) (loader : Loader) (pass : Pass) {held : Entries} {below : Layer}
    (hheld : Holds held below) (hsettled : Settled (.table none held)) :
    ∃ next, loader.lay pass held source = .ok next ∧ Holds next (above.atop below) := by
  obtain ⟨first, hfirst, hholds⟩ := h.lays held below hheld
  obtain ⟨next, hnext, halike⟩ := Loader.exists_lay_alike (h.laysAlike _) (.refl held) hfirst
  exact ⟨next, hnext, hholds.alike halike (settled_assignAll hsettled hfirst)
    (Loader.settled_lay hsettled hnext)⟩

/-! ## Files -/

namespace Layer

/-- The entries that a part becomes when it is read from a file. -/
def Part.entries (origin : String) : (f : Configuration.Field) → Part f → Entries
  | .logging, part => LoggingLayer.coding.entries origin part.slots
  | .catalog, part => CatalogLayer.coding.entries origin part.slots

/-- What is written for a part of a layer is decoded to it. -/
theorem Part.shown_entries (origin : String) (f : Configuration.Field) (part : Part f) :
    Part.Shown f (Part.entries origin f part) part := by
  cases f with
  | logging => exact LoggingLayer.shows_slots part origin
  | catalog => exact CatalogLayer.shows_slots part origin

/-- The settings of a part are no tables. -/
theorem Part.flat_entries (origin : String) (f : Configuration.Field) (part : Part f) :
    Flat (Part.entries origin f part) := by
  cases f with
  | logging => exact LoggingLayer.coding_plain.flat origin _
  | catalog => exact CatalogLayer.coding_plain.flat origin _

/-- The settings of a part that was written to a file, if there is one. -/
def Part.source (origin : String) (f : Configuration.Field) (part : Option (Part f)) :
    List (String × Setting) :=
  part.toList.map fun part =>
    (Configuration.record.name f, .table (some origin) (Part.entries origin f part))

/-- They are a layer under the key of the part. -/
theorem Part.isLayer_source (origin : String) (f : Configuration.Field) (part : Option (Part f)) :
    IsLayer (Part.source origin f part) := by
  cases part with
  | none => exact ⟨nofun, .table List.nodup_nil nofun⟩
  | some part =>
    refine ⟨fun entry hentry => ?_, .table (by simp [Part.source]) fun entry hentry => ?_⟩
    · rw [List.mem_singleton.1 hentry]
      cases f with
      | logging => exact (by decide : Path.IsIdentifier "logging".toList)
      | catalog => exact (by decide : Path.IsIdentifier "catalog".toList)
    · rw [List.mem_singleton.1 hentry]
      exact (Part.flat_entries origin f part).tidy _

/-- **A part** that is written is laid, and nothing where there is none. -/
theorem Part.lays_source (origin : String) (f : Configuration.Field) (part : Option (Part f)) :
    Lays (Part.source origin f part) (part.elim empty (only f)) := by
  cases part with
  | none => exact lays_nil
  | some part =>
    refine lays_singleton f (some origin) (fun held => ?_) (Part.shown_entries origin f part)
      (Part.flat_entries origin f part)
    cases f with
    | logging => exact assign_root rfl rfl held _
    | catalog => exact assign_root rfl rfl held _

/-- The settings of a layer that was written to a file. -/
def source (layer : Layer) (origin : String) : List (String × Setting) :=
  Part.source origin .catalog layer.catalog ++ Part.source origin .logging layer.logging

/-- Each text of a layer becomes its settings. -/
theorem sourceOfJson?_of_isWritten {layer : Layer} {text : String} (h : layer.IsWritten text)
    (origin : String) : sourceOfJson? origin text = some (layer.source origin) := by
  obtain ⟨root, hroot, hsorted⟩ := h
  rw [sourceOfJson?, parse_of_isText hroot, hsorted]
  have hbefore : ¬ "logging" < "catalog" := by decide
  have hcatalog (part : CatalogLayer) : ofJson origin part.toJson.sorted =
      .table (some origin) (Part.entries origin .catalog part) := by
    rw [part.toJson_eq_slots]
    rfl
  have hlogging (part : LoggingLayer) : ofJson origin part.toJson.sorted =
      .table (some origin) (Part.entries origin .logging part) := by
    rw [part.toJson_eq_slots]
    rfl
  have hcatalogName : Configuration.record.name .catalog = "catalog" := rfl
  have hloggingName : Configuration.record.name .logging = "logging" := rfl
  obtain ⟨catalog, logging⟩ := layer
  cases catalog <;> cases logging <;>
    simp [toJson, optionalMember, sorted, sortedMembers, insertMember, source, hbefore,
      Setting.ofMembers, Part.source, hcatalog, hlogging, hcatalogName, hloggingName]

/-- The settings of a written layer are one. -/
theorem isLayer_source (layer : Layer) (origin : String) : IsLayer (layer.source origin) := by
  have hcatalog := Part.isLayer_source origin .catalog layer.catalog
  have hlogging := Part.isLayer_source origin .logging layer.logging
  refine ⟨fun entry hentry => ?_, .table ?_ fun entry hentry => ?_⟩
  · exact (List.mem_append.1 hentry).elim (hcatalog.identifiers entry) (hlogging.identifiers entry)
  · have hother : Text.lower (Configuration.record.name .catalog) ≠
        Text.lower (Configuration.record.name .logging) := by decide
    obtain ⟨_ | catalog, _ | logging⟩ := layer <;> simp [source, Part.source, hother]
  · exact (List.mem_append.1 hentry).elim (hcatalog.tidy.settings entry)
      (hlogging.tidy.settings entry)

/-- They lay it over others, in any order. -/
theorem laysFreely_source (layer : Layer) (origin : String) :
    LaysFreely (layer.source origin) layer := by
  have hlays := (Part.lays_source origin .catalog layer.catalog).append
    (Part.lays_source origin .logging layer.logging)
  have hwhole : atop (layer.logging.elim empty (only .logging))
      (layer.catalog.elim empty (only .catalog)) = layer := by
    obtain ⟨_ | catalog, _ | logging⟩ := layer <;> rfl
  rw [hwhole] at hlays
  exact ⟨hlays, (layer.isLayer_source origin).laysAlike, (layer.isLayer_source origin).startsPlain⟩

/-- A layer is what the file of a name says: nothing if there is no such file, else what is written
there in JSON. -/
inductive In (loader : Loader) (files : Files) (name : String) : Layer → Prop
  | missing (h : Configuration.locate? loader files name = none) : In loader files name empty
  | written {layer : Layer} {path text : String}
      (h : Configuration.locate? loader files name = some (.json, path, text))
      (hwritten : layer.IsWritten text) : In loader files name layer

/-- Reading the file of a name gives the settings of what it says. -/
theorem In.exists_source {loader : Loader} {files : Files} {name : String} {layer : Layer}
    (h : layer.In loader files name) :
    ∃ origin, Configuration.fileSource loader files name = .ok (layer.source origin) := by
  cases h with
  | missing hlocate =>
    refine ⟨"", ?_⟩
    rw [Configuration.fileSource, hlocate]
    rfl
  | @written _ path text hlocate hwritten =>
    refine ⟨path, ?_⟩
    rw [Configuration.fileSource, hlocate]
    simp only [Loader.source?, sourceOfJson?_of_isWritten hwritten path]

end Layer

/-! ## The environment -/

namespace Layer

/-- The key of the text that a part is configured with. -/
def Part.textKey : Configuration.Field → String
  | .logging => "level"
  | .catalog => "default_region"

/-- What a layer says about a part if it says this text only. -/
def Part.ofText : (f : Configuration.Field) → String → Part f
  | .logging, level => ⟨some level, none⟩
  | .catalog, region => ⟨some region, none⟩

/-- A text for the one field that a variable can set is decoded to a part with this field. -/
theorem Part.shown_ofText {setting : Setting} {text : String}
    (h : decodeText setting = .ok text) (f : Configuration.Field) :
    Part.Shown f [(Part.textKey f, setting)] (Part.ofText f text) := by
  cases f with
  | logging =>
    refine ⟨List.nodup_singleton _, fun f found hget => ?_, fun f hget => ?_⟩
    · cases f with
      | level =>
        cases hget
        exact ⟨text, h, rfl⟩
      | format => cases hget
    · cases f with
      | level => cases hget
      | format => rfl
  | catalog =>
    refine ⟨List.nodup_singleton _, fun f found hget => ?_, fun f hget => ?_⟩
    · cases f with
      | defaultRegion =>
        cases hget
        exact ⟨text, h, rfl⟩
      | models => cases hget
    · cases f with
      | defaultRegion => cases hget
      | models => rfl

/-- A scalar is no table. -/
theorem Part.flat_scalar (origin : Option String) (value : Scalar) (f : Configuration.Field) :
    Flat [(Part.textKey f, .scalar origin value)] := by
  refine ⟨List.nodup_singleton _, fun entry hentry => ?_, fun entry hentry held => ?_⟩
  · rw [List.mem_singleton.1 hentry]
    show Text.lower (Part.textKey f) = Part.textKey f
    cases f <;> decide
  · rw [List.mem_singleton.1 hentry]
    rfl

/-- A scalar at the path of the text of a part lays what it is decoded to. -/
theorem Part.lays_scalar {origin : Option String} {value : Scalar} {text : String}
    (h : decodeText (.scalar origin value) = .ok text) (f : Configuration.Field) :
    Lays [(Configuration.record.name f ++ "." ++ Part.textKey f, .scalar origin value)]
      (only f (Part.ofText f text)) := by
  refine lays_singleton f none (fun held => ?_) (Part.shown_ofText h f)
    (Part.flat_scalar origin value f)
  cases f with
  | logging => exact assign_key rfl rfl held _
  | catalog => exact assign_key rfl rfl held _

end Layer

namespace Environment

/-- The variable for the region of queries that name none. -/
def regionVariable : String := "APP__CATALOG__DEFAULT_REGION"

/-- The variable for the level of logging. -/
def levelVariable : String := "APP__LOGGING__LEVEL"

/-- The variable for the text of a part. -/
def textVariable : Configuration.Field → String
  | .logging => levelVariable
  | .catalog => regionVariable

/-- A value that is neither a boolean nor an integer nor a floating-point number. -/
structure IsWord (value : String) : Prop where
  bool : bool? value = none
  integer : Literal.integer? value.toList = none
  float : Literal.float? value.toList = none

/-- An environment that has each variable once, and sets nothing but the region and the level, to
words. -/
structure Simple (environment : List (String × String)) : Prop where
  nodup : (environment.map (·.1)).Nodup
  settings : ∀ entry ∈ environment, key? entry.1 ≠ none →
    (entry.1 = regionVariable ∨ entry.1 = levelVariable) ∧ IsWord entry.2

/-- The variable of a part leads to its field. -/
theorem key?_textVariable (f : Configuration.Field) :
    key? (textVariable f) = some (Configuration.record.name f ++ "." ++ Layer.Part.textKey f) := by
  cases f <;> rfl

/-- A word is kept character for character. -/
theorem IsWord.scalar {value : String} (h : IsWord value) : scalar value = .text value := by
  rw [Environment.scalar, h.bool, h.integer, h.float]

/-- The layer of the two variables. -/
def layer (region level : Option String) : Layer :=
  ⟨region.map fun region => ⟨some region, none⟩, level.map fun level => ⟨some level, none⟩⟩

/-- A variable that is no setting is passed over. -/
theorem said_cons_none {name : String} (h : key? name = none) (value : String)
    (rest : List (String × String)) : said ((name, value) :: rest) = said rest := by
  simp [said, h]

/-- A variable with a key says one setting. -/
theorem said_cons_some {name key : String} (h : key? name = some key) (value : String)
    (rest : List (String × String)) :
    said ((name, value) :: rest) = [(key, .scalar (some origin) (scalar value))] ++ said rest := by
  simp [said, h]

/-- The text of a part before other variables. -/
theorem lays_cons_text (f : Configuration.Field) {value : String} (hword : IsWord value)
    {rest : List (String × String)} {others : Layer} (hrest : Lays (said rest) others) :
    Lays (said ((textVariable f, value) :: rest))
      (others.atop (.only f (Layer.Part.ofText f value))) := by
  have hdecode : decodeText (.scalar (some origin) (scalar value)) = .ok value := by
    rw [hword.scalar]
    rfl
  rw [said_cons_some (key?_textVariable f)]
  exact (Layer.Part.lays_scalar hdecode f).append hrest

/-- A setting of a simple environment is the text of a part. -/
theorem Simple.exists_textVariable {environment : List (String × String)} (h : Simple environment)
    {entry : String × String} (hentry : entry ∈ environment) (hkey : key? entry.1 ≠ none) :
    ∃ f, entry.1 = textVariable f ∧ IsWord entry.2 := by
  obtain ⟨hregion | hlevel, hword⟩ := h.settings entry hentry hkey
  · exact ⟨.catalog, hregion, hword⟩
  · exact ⟨.logging, hlevel, hword⟩

/-- The variables of a simple environment lay their layer, in whatever order they come. -/
theorem lays_said {environment : List (String × String)} (h : Simple environment) :
    Lays (said environment)
      (layer (environment.lookup regionVariable) (environment.lookup levelVariable)) := by
  induction environment with
  | nil => exact lays_nil
  | cons entry rest ih =>
    obtain ⟨name, value⟩ := entry
    obtain ⟨hfree, hnodup⟩ := List.nodup_cons.1 h.nodup
    have hrest := ih ⟨hnodup, fun other hother => h.settings other (List.mem_cons_of_mem _ hother)⟩
    by_cases hkey : key? name = none
    · have hother (f : Configuration.Field) : name ≠ textVariable f := by
        rintro rfl
        rw [key?_textVariable] at hkey
        cases hkey
      have hregion : name ≠ regionVariable := hother .catalog
      have hlevel : name ≠ levelVariable := hother .logging
      rw [lookup_cons_other hregion, lookup_cons_other hlevel, said_cons_none hkey]
      exact hrest
    · obtain ⟨f, hname, hword⟩ := h.exists_textVariable List.mem_cons_self hkey
      simp only at hname hword
      subst hname
      have hlays := lays_cons_text f hword hrest
      -- Each of the two comes once, so it is not looked up further on.
      have hnone : rest.lookup (textVariable f) = none := by
        rw [List.lookup_eq_none_iff]
        intro other hother
        exact bne_iff_ne.2 fun hsame => hfree (List.mem_map.2 ⟨other, hother, hsame.symm⟩)
      cases f with
      | catalog =>
        have hlookup : rest.lookup regionVariable = none := hnone
        rw [textVariable, List.lookup_cons_self, lookup_cons_other (by decide)]
        rw [hlookup] at hlays
        cases hlevel : rest.lookup levelVariable <;> (rw [hlevel] at hlays; exact hlays)
      | logging =>
        have hlookup : rest.lookup levelVariable = none := hnone
        rw [textVariable, List.lookup_cons_self, lookup_cons_other (by decide)]
        rw [hlookup] at hlays
        cases hregion : rest.lookup regionVariable <;> (rw [hregion] at hlays; exact hlays)

/-- This field is below the key of the part. -/
theorem place_textKey (f : Configuration.Field) :
    Path.place (Configuration.record.name f ++ "." ++ Layer.Part.textKey f) =
      [Configuration.record.name f, Layer.Part.textKey f] := by
  cases f <;> decide +kernel

/-- They say texts at places that are apart. -/
theorem Simple.apart {environment : List (String × String)} (h : Simple environment) :
    ((said environment).map fun entry => Path.place entry.1).Pairwise Walk.Apart := by
  rw [List.pairwise_map, said, List.pairwise_filterMap]
  refine (List.pairwise_map.1 h.nodup).imp_of_mem fun hone hother hdiffer entry hentry last hlast => ?_
  obtain ⟨key, hkey, rfl⟩ := Option.map_eq_some_iff.1 hentry
  obtain ⟨name, hname, rfl⟩ := Option.map_eq_some_iff.1 hlast
  obtain ⟨f, hf, -⟩ := h.exists_textVariable hone (by rw [hkey]; exact Option.some_ne_none key)
  obtain ⟨g, hg, -⟩ := h.exists_textVariable hother (by rw [hname]; exact Option.some_ne_none name)
  rw [hf, key?_textVariable, Option.some.injEq] at hkey
  rw [hg, key?_textVariable, Option.some.injEq] at hname
  have hparts : f ≠ g := fun hsame => hdiffer (by rw [hf, hg, hsame])
  show Walk.Apart (Path.place key) (Path.place name)
  rw [← hkey, ← hname, place_textKey, place_textKey]
  constructor
  · intro hprefix
    exact hparts (Configuration.record_lawful.name_injective (List.cons_prefix_cons.1 hprefix).1)
  · intro hprefix
    exact hparts (Configuration.record_lawful.name_injective (List.cons_prefix_cons.1 hprefix).1.symm)

/-- Variables at places apart that lay a layer do so in any order. -/
theorem laysFreely_source {environment : List (String × String)} {above : Layer}
    (hplain : ∀ entry ∈ said environment, '[' ∉ entry.1.toList)
    (hapart : ((said environment).map fun entry => Path.place entry.1).Pairwise Walk.Apart)
    (hlays : Lays (said environment) above) : LaysFreely (source environment) above := by
  have hscattered := scattered_route hplain hapart
  rw [← source_eq_said (nodup_of_apart hapart)] at hlays
  exact ⟨hlays, hscattered.laysAlike, fun _ => startsPlain_of_mem_source⟩

/-- **The environment** lays the layer of its variables. -/
theorem Simple.laysFreely {environment : List (String × String)} (h : Simple environment) :
    LaysFreely (source environment)
      (layer (environment.lookup regionVariable) (environment.lookup levelVariable)) := by
  refine laysFreely_source (fun entry hentry => ?_) h.apart (lays_said h)
  obtain ⟨named, hnamed, hsaid⟩ := List.mem_filterMap.1 hentry
  obtain ⟨key, hkey, rfl⟩ := Option.map_eq_some_iff.1 hsaid
  obtain ⟨f, hf, -⟩ := h.exists_textVariable hnamed (by rw [hkey]; exact Option.some_ne_none key)
  rw [hf, key?_textVariable, Option.some.injEq] at hkey
  show '[' ∉ key.toList
  rw [← hkey]
  cases f <;> decide

end Environment

namespace Configuration

/-- What two files and the environment make, the environment over the upper file over the lower
one. -/
def layered (lower upper : Layer) (region level : Option String) :
    Except SettingFault Configuration :=
  let catalog : CatalogConfig :=
    ⟨(region.or (upper.region?.or lower.region?)).getD "us-west-2",
      (upper.models?.or lower.models?).getD []⟩
  if level = none ∧ upper.logging = none ∧ lower.logging = none then
    .ok ⟨⟨"info", .pretty⟩, catalog⟩
  else
    match level.or (upper.level?.or lower.level?), upper.format?.or lower.format? with
    | none, _ => .error (.misfit (.missingField "level"))
    | some _, none => .error (.misfit (.missingField "format"))
    | some level, some format => .ok ⟨⟨level, format⟩, catalog⟩

/-- The configuration of three layers over each other, field by field. -/
theorem layered_eq (lower upper : Layer) (region level : Option String) :
    ((Environment.layer region level).atop (upper.atop lower)).configuration =
      layered lower upper region level := by
  have hregion : (Environment.layer region level).region? = region := by cases region <;> rfl
  have hmodels : (Environment.layer region level).models? = none := by cases region <;> rfl
  have hlevel : (Environment.layer region level).level? = level := by cases level <;> rfl
  have hformat : (Environment.layer region level).format? = none := by cases level <;> rfl
  have hlogging : (Environment.layer region level).logging = none ↔ level = none :=
    Option.map_eq_none_iff
  have hconfiguration :=
    Layer.configuration_eq ((Environment.layer region level).atop (upper.atop lower))
  simp only [Layer.region?_atop, Layer.models?_atop, Layer.level?_atop, Layer.format?_atop,
    Layer.logging_atop_eq_none, hregion, hmodels, hlevel, hformat, hlogging,
    Option.none_or] at hconfiguration
  exact hconfiguration

/-- What a source says: it can be read, and its settings lay a layer. -/
def Says (source : Except SettingFault Entries) (above : Layer) : Prop :=
  ∃ entries, source = .ok entries ∧ LaysFreely entries above

/-- The file of a name says what is written there. -/
theorem says_of_in {loader : Loader} {files : Files} {name : String} {layer : Layer}
    (h : layer.In loader files name) : Says (fileSource loader files name) layer := by
  obtain ⟨origin, hsource⟩ := h.exists_source
  exact ⟨_, hsource, layer.laysFreely_source origin⟩

/-- **Merging.**  Sources that are written one after the other lay their layers in this order.  The
induction is on the sources, from whatever is held before them; the last pass changes nothing that
shows. -/
theorem holds_merge (loader : Loader) {steps : List (Source × Layer)}
    (h : ∀ step ∈ steps, Says step.1.2 step.2) :
    ∃ entries, merge loader (steps.map (·.1)) = .ok entries ∧
      Holds entries (steps.foldl (fun below step => step.2.atop below) Layer.empty) := by
  have hfrom : ∀ held below, Holds held below → Settled (.table none held) → PlainTable held →
      ∃ entries, (steps.map (·.1)).foldlM (laySource loader) held = .ok entries ∧
        PlainTable entries ∧
        Holds entries (steps.foldl (fun below step => step.2.atop below) below) := by
    induction steps with
    | nil => exact fun held below hheld _ hplain => ⟨held, rfl, hplain, hheld⟩
    | cons step rest ih =>
      intro held below hheld hsettled hplain
      obtain ⟨⟨pass, read⟩, above⟩ := step
      obtain ⟨source, rfl, hlays⟩ := h ((pass, read), above) List.mem_cons_self
      obtain ⟨next, hnext, hholds⟩ := hlays.exists_lay loader pass hheld hsettled
      obtain ⟨entries, hentries, hlast⟩ :=
        ih (fun later hlater => h later (List.mem_cons_of_mem _ hlater)) next _ hholds
          (Loader.settled_lay hsettled hnext) (Loader.plainTable_lay hlays.startsPlain hplain hnext)
      refine ⟨entries, ?_, hlast⟩
      rw [List.map_cons, List.foldlM_cons]
      show (loader.lay pass held source >>= _) = _
      rw [hnext]
      exact hentries
  obtain ⟨first, hfirst, hplain, hholds⟩ := hfrom [] Layer.empty holds_nil settled_nil plainTable_nil
  have hsettled : Settled (.table none first) := settled_layAll hfirst
  have hordered := hsettled.ordered (loader.order .merged)
  rw [Setting.ordered] at hordered
  exact ⟨_, merge_of_layAll hfirst hplain,
    hholds.alike (alikeEntries_ordered hsettled _) hsettled hordered⟩

/-- What is loaded is the configuration of the layers over each other. -/
theorem loadFrom_of_says {loader : Loader} {files : Files} {environment : List (String × String)}
    {defaultName localName : String} {lower upper above : Layer}
    (hlower : Says (fileSource loader files defaultName) lower)
    (hupper : Says (fileSource loader files localName) upper)
    (henvironment : LaysFreely (Environment.source environment) above) :
    loadFrom loader defaultName localName files environment =
      (above.atop (upper.atop lower)).configuration := by
  have hsteps : ∀ step ∈ [((Pass.lower, fileSource loader files defaultName), lower),
      ((.upper, fileSource loader files localName), upper),
      ((.environment, .ok (Environment.source environment)), above)], Says step.1.2 step.2 := by
    intro step hstep
    simp only [List.mem_cons, List.not_mem_nil, or_false] at hstep
    rcases hstep with rfl | rfl | rfl
    · exact hlower
    · exact hupper
    · exact ⟨_, rfl, henvironment⟩
  obtain ⟨entries, hmerge, hholds⟩ := holds_merge loader hsteps
  simp only [List.map_cons, List.map_nil, List.foldl_cons, List.foldl_nil, Layer.atop_empty]
    at hmerge hholds
  rw [loadFrom, loadOver, hmerge]
  exact hholds.ofEntries

/-- **Loading.**  Each setting comes from the environment, else from the upper file, else from the
lower one.  A list of specs is never mixed from two files.  The catalog settings have a default
each; the logging settings have theirs only where no source says anything about logging, and
otherwise the first one that is missing is the fault. -/
theorem loadFrom_of_layers {loader : Loader} {files : Files} {environment : List (String × String)}
    {defaultName localName : String} {lower upper : Layer}
    (hlower : lower.In loader files defaultName) (hupper : upper.In loader files localName)
    (henvironment : Environment.Simple environment) :
    loadFrom loader defaultName localName files environment =
      layered lower upper (environment.lookup "APP__CATALOG__DEFAULT_REGION")
        (environment.lookup "APP__LOGGING__LEVEL") := by
  rw [← layered_eq]
  exact loadFrom_of_says (says_of_in hlower) (says_of_in hupper) henvironment.laysFreely

/-- A default file with a region, a spec and a format, under a local file with an empty list. -/
def twoFiles : Files :=
  [("config/default.json",
      "\x7b\"catalog\":\x7b\"default_region\":\"eu-west-1\"," ++
        "\"models\":[\x7b\"model_id\":\"m\",\"version\":\"1\",\"regions\":[]," ++
        "\"accept_types\":[]\x7d]\x7d,\"logging\":\x7b\"format\":\"json\"\x7d\x7d"),
    ("config/local.json", "\x7b\"catalog\":\x7b\"models\":[]\x7d\x7d")]

/-- What the first of these files says. -/
def lowerOfTwo : Layer :=
  ⟨some ⟨some "eu-west-1", some [⟨"m", "1", [], [], none, none, none⟩]⟩, some ⟨none, some .json⟩⟩

/-- What the second one says. -/
def upperOfTwo : Layer := ⟨some ⟨none, some []⟩, none⟩

/-- The region and the format come from the lower file, the empty list from the upper one, and the
level from the environment. -/
theorem loadFrom_twoFiles :
    loadFrom .plain "config/default" "config/local" twoFiles
        [("HOME", "/home"), ("APP__LOGGING__LEVEL", "debug")] =
      .ok ⟨⟨"debug", .json⟩, ⟨"eu-west-1", []⟩⟩ := by
  have hlower : locate? .plain twoFiles "config/default" =
      some (.json, "config/default.json", lowerOfTwo.toJson.compact) := by decide +kernel
  have hupper : locate? .plain twoFiles "config/local" =
      some (.json, "config/local.json", upperOfTwo.toJson.compact) := by decide +kernel
  have henvironment : Environment.Simple
      [("HOME", "/home"), ("APP__LOGGING__LEVEL", "debug")] := by
    refine ⟨by decide, ?_⟩
    intro entry hentry hkey
    rcases List.mem_cons.1 hentry with rfl | hlevel
    · exact absurd rfl hkey
    · rw [List.mem_singleton.1 hlevel]
      exact ⟨Or.inr rfl, ⟨by decide +kernel, by decide +kernel, by decide +kernel⟩⟩
  exact loadFrom_of_layers (.written hlower lowerOfTwo.isWritten_compact)
    (.written hupper upperOfTwo.isWritten_compact) henvironment

end Configuration

end ServingCatalog
