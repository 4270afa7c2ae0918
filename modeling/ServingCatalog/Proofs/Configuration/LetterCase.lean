import ServingCatalog.Proofs.Configuration.Alike
import ServingCatalog.Proofs.Settings.Recased

/-!
# The case of keys in files

Keys of tables are held in small letters from the moment they are laid over others, so files that
differ in the case of keys make the same configuration, or fail both (`RecasedFile`).  What is in a
list is written as it stands, and only there does case matter: a spec in the list of models whose
`model_id` is not spelled like this has none.

The main result, `loadFrom_of_recased`, says both.
-/

namespace ServingCatalog

open Setting Text

namespace Setting

/-- Members in another case are settings in another case. -/
theorem recased_ofMembers {members others : List (String × Json)}
    (h : Json.Recased (.object members) (.object others)) (origin : String) :
    Recased (.table none (ofMembers origin members)) (.table none (ofMembers origin others)) := by
  have hrecased := recased_ofJson h origin
  rw [ofJson, ofJson] at hrecased
  exact hrecased.place none

/-- A layer is one with keys in any case. -/
theorem IsLayer.recased {members others : List (String × Json)} {origin : String}
    (h : IsLayer (ofMembers origin members)) (hrecased : Json.Recased (.object members) (.object others)) :
    IsLayer (ofMembers origin others) := by
  refine ⟨fun entry hentry => ?_, (recased_ofMembers hrecased origin).tidy h.tidy⟩
  cases hrecased with
  | same hno => exact absurd rfl (hno members)
  | object change hkeys _ horder =>
    rw [ofMembers_eq_map] at hentry
    obtain ⟨other, hother, rfl⟩ := List.mem_map.1 hentry
    obtain ⟨member, hmember, rfl⟩ := List.mem_map.1 (horder.mem_iff.2 hother)
    have hidentifier := h.identifiers (member.1, ofJson origin member.2)
      (by rw [ofMembers_eq_map]; exact List.mem_map_of_mem hmember)
    exact hidentifier.recased (hkeys member hmember)

end Setting

namespace Configuration

/-! ## Files -/

/-- The file of a name says the same both times, but for the case of keys outside arrays: it is
missing, or it is a JSON object with plain identifiers as keys, no two of which are the same in
small letters in one table. -/
inductive RecasedFile (loader : Loader) (files others : Files) (name : String) : Prop
  | missing (hone : locate? loader files name = none) (hother : locate? loader others name = none)
  | written {path text changed : String} {members renamed : List (String × Json)}
      (hone : locate? loader files name = some (.json, path, text))
      (hother : locate? loader others name = some (.json, path, changed))
      (hmembers : Json.parse text = .ok (.object members))
      (hrenamed : Json.parse changed = .ok (.object renamed))
      (hlayer : IsLayer (ofMembers path members))
      (hrecased : Json.Recased (.object members) (.object renamed))

/-- A file that is located is read for its members. -/
theorem fileSource_of_parse {loader : Loader} {files : Files} {name path text : String}
    {members : List (String × Json)}
    (hlocate : locate? loader files name = some (.json, path, text))
    (hparse : Json.parse text = .ok (.object members)) :
    fileSource loader files name = .ok (ofMembers path members) := by
  rw [fileSource, hlocate]
  simp only [Loader.source?, sourceOfJson?, hparse]

/-- The same file in two cases is laid alike, in whatever two orders it is gone through. -/
theorem RecasedFile.laidAlike {loader : Loader} {files others : Files} {name : String}
    (h : RecasedFile loader files others name) (order : Pass → KeyOrder) (pass : Pass) :
    LaidAlike loader { loader with order } pass (fileSource loader files name)
      (fileSource loader others name) := by
  intro below above hbelow
  cases h with
  | missing hone hother =>
    rw [fileSource, fileSource, hone, hother]
    exact .ok hbelow
  | @written path _ _ members renamed hone hother hmembers hrenamed hlayer hrecased =>
    have hlast := hlayer.recased hrecased
    have halike : LaysAlike (orderedEntries (loader.order pass) (ofMembers path members))
        (orderedEntries (order pass) (ofMembers path renamed)) :=
      ((hlayer.laysAlike _).symm.trans
        (hlayer.laysAlike_of_recased hlast (recased_ofMembers hrecased path))).trans
          (hlast.laysAlike _)
    rw [fileSource_of_parse hone hmembers, fileSource_of_parse hother hrenamed]
    exact halike.alikeOutcome hbelow

/-- Both are layers. -/
theorem RecasedFile.isLayered {loader : Loader} {files others : Files} {name : String}
    (h : RecasedFile loader files others name) :
    IsLayered loader files name ∧ IsLayered loader others name := by
  cases h with
  | missing hone hother => exact ⟨isLayered_of_missing hone, isLayered_of_missing hother⟩
  | written hone hother hmembers hrenamed hlayer hrecased =>
    refine ⟨fun source hsource => ?_, fun source hsource => ?_⟩
    · rw [fileSource_of_parse hone hmembers, Except.ok.injEq] at hsource
      exact hsource ▸ hlayer
    · rw [fileSource_of_parse hother hrenamed, Except.ok.injEq] at hsource
      exact hsource ▸ hlayer.recased hrecased

/-! ## Specs in the list of models -/

/-- A table without the key of the model makes no spec. -/
theorem not_decodes_spec {origin : Option String} {fields : Entries}
    (h : "model_id" ∉ fields.keys) (spec : ModelSpec) :
    ModelSpec.decodeSetting (.table origin fields) ≠ .ok spec := by
  intro hdecode
  have hrecord : decodeRecord ModelSpec.record ModelSpec.coding.decode (.table origin fields) =
      .ok spec := hdecode
  simp only [decodeRecord] at hrecord
  cases hdraft : draftOfEntries ModelSpec.record ModelSpec.coding.decode fields Draft.empty with
  | error fault =>
    rw [hdraft] at hrecord
    cases hrecord
  | ok draft =>
    have hlacking : draft .modelId = none :=
      draftOfEntries_lacking (f := ModelSpec.Field.modelId) h hdraft
    rw [hdraft] at hrecord
    have hfault : ModelSpec.record.ofMembers draft = .error (.missingField "model_id") := by
      simp only [Record.ofMembers, ModelSpec.record, ModelSpec.ofDraft, hlacking]
      rfl
    simp only [hfault] at hrecord
    cases hrecord

/-- **A spec without an identifier.**  If it is in the merged list of models, there is no
configuration. -/
theorem not_ofEntries_of_spec {entries : Entries} (hentries : (Setting.table none entries).Settled)
    {origin place : Option String} {items : List Setting} {fields : Entries}
    (hread : read ["catalog", "models"] (.table none entries) = some (.list origin items))
    (hitem : Setting.table place fields ∈ items) (hfree : "model_id" ∉ fields.keys)
    (config : Configuration) : ofEntries entries ≠ .ok config := by
  intro hconfig
  simp only [Setting.read, Option.bind_eq_some_iff] at hread
  obtain ⟨catalog, hcatalog, hmodels⟩ := hread
  cases catalog with
  | scalar origin value => cases hmodels
  | list origin items => cases hmodels
  | table written settings =>
    simp only [Setting.read, Option.bind_eq_some_iff, Option.some.injEq, exists_eq_right] at hmodels
    have hsettled := hentries.get? _ hcatalog
    have hwhole : decodeRecord record decodeEntry (.table none entries) = .ok config := hconfig
    obtain ⟨part, hpart⟩ := exists_of_decodeRecord record_lawful hentries.nodup hwhole
      (f := Field.catalog) hcatalog
    have hsettings : decodeRecord CatalogConfig.record CatalogLayer.coding.decode
        (.table written settings) = .ok part := hpart
    obtain ⟨specs, hspecs⟩ := exists_of_decodeRecord CatalogLayer.coding.lawful hsettled.nodup
      hsettings (f := CatalogConfig.Field.models) hmodels
    obtain ⟨spec, hspec⟩ := exists_of_decodeItems hspecs _ hitem
    exact not_decodes_spec hfree spec hspec

/-! ## Loading -/

/-- **The case of keys.**  It does not matter in tables, in either of the two files, whatever the
environment says and in whatever orders the files are gone through: the configuration is the same,
or there is none both times.  In a list it does: a table in the merged list of models without the
very key `model_id` makes loading fail. -/
theorem loadFrom_of_recased (loader : Loader) (defaultName localName : String)
    (environment : List (String × String)) :
    (∀ files others, RecasedFile loader files others defaultName →
      RecasedFile loader files others localName →
      ∀ order : Pass → KeyOrder, order .environment = loader.order .environment →
        (loadFrom loader defaultName localName files environment).toOption =
          (loadFrom { loader with order } defaultName localName others environment).toOption) ∧
    ∀ files entries origin items place fields,
      merge loader [(.lower, fileSource loader files defaultName),
        (.upper, fileSource loader files localName),
        (.environment, .ok (Environment.source environment))] = .ok entries →
      read ["catalog", "models"] (.table none entries) = some (.list origin items) →
      Setting.table place fields ∈ items → "model_id" ∉ Entries.keys fields →
      ∃ fault, loadFrom loader defaultName localName files environment = .error fault := by
  constructor
  · intro files others hdefault hlocal order horder
    have hscalar (last : KeyOrder) : ∀ entry ∈ orderedEntries last (Environment.source environment),
        ∃ origin value, entry.2 = .scalar origin value :=
      fun entry hentry => Environment.scalar_of_mem_source entry
        ((orderedEntries_perm_of_scalars Environment.scalar_of_mem_source last).mem_iff.1 hentry)
    have henvironment : LaidAlike loader { loader with order } .environment
        (.ok (Environment.source environment)) (.ok (Environment.source environment)) := by
      intro below above hbelow
      show AlikeOutcome (assignAll below _) (assignAll above (orderedEntries (order .environment) _))
      rw [horder]
      exact alikeOutcome_assignAll (hscalar _) hbelow
    exact toOption_loadFrom_of_laidAlike (hdefault.laidAlike order .lower)
      (hlocal.laidAlike order .upper) henvironment hdefault.isLayered hlocal.isLayered
  · intro files entries origin items place fields hmerge hread hitem hfree
    have hload : loadFrom loader defaultName localName files environment = ofEntries entries := by
      rw [loadFrom, loadOver, hmerge]
      rfl
    rw [hload]
    cases hconfig : ofEntries entries with
    | error fault => exact ⟨fault, rfl⟩
    | ok config =>
      exact absurd hconfig (not_ofEntries_of_spec (settled_merge hmerge) hread hitem hfree config)

/-- A file with a region, its two keys in any spelling. -/
def regionFile (part key : String) : List (String × Json) :=
  [(part, .object [(key, .string "eu-west-1")])]

/-- A file with a spec, the key of its model in any spelling. -/
def specFile (key : String) : List (String × Json) :=
  [("catalog", .object [("models", .array [.object [(key, .string "m")]])])]

theorem parse_regionFile (part key : String) :
    Json.parse (Json.compact (.object (regionFile part key))) =
      .ok (.object (regionFile part key)) := by
  have hspells : Json.Spells (125 + 1 + 1) (.object (regionFile part key))
      (Json.compactChars (.object (regionFile part key))) := by
    refine Json.spells_object fun member hmember => ?_
    rw [List.mem_singleton.1 hmember]
    refine Json.spells_object fun member hmember => ?_
    rw [List.mem_singleton.1 hmember]
    exact Json.spells_string _ _
  exact Json.parse_of_isText (Json.isText_compact hspells)

theorem parse_specFile (key : String) :
    Json.parse (Json.compact (.object (specFile key))) = .ok (.object (specFile key)) := by
  have hspells : Json.Spells (123 + 1 + 1 + 1 + 1) (.object (specFile key))
      (Json.compactChars (.object (specFile key))) := by
    refine Json.spells_object fun member hmember => ?_
    rw [List.mem_singleton.1 hmember]
    refine Json.spells_object fun member hmember => ?_
    rw [List.mem_singleton.1 hmember]
    refine Json.spells_array fun item hitem => ?_
    rw [List.mem_singleton.1 hitem]
    refine Json.spells_object fun member hmember => ?_
    rw [List.mem_singleton.1 hmember]
    exact Json.spells_string _ _
  exact Json.parse_of_isText (Json.isText_compact hspells)

theorem isLayer_regionFile {part : String} (hpart : Path.IsIdentifier part.toList)
    (origin key : String) : IsLayer (ofMembers origin (regionFile part key)) := by
  refine ⟨fun entry hentry => ?_, .table (by simp [regionFile, ofMembers]) fun entry hentry => ?_⟩
  · rw [List.mem_singleton.1 hentry]
    exact hpart
  · rw [List.mem_singleton.1 hentry]
    refine .table (by simp [ofMembers]) fun entry hentry => ?_
    rw [List.mem_singleton.1 hentry]
    exact .scalar _ _

/-- The two keys may be spelled apart. -/
theorem recased_regionFile {part changed key name : String} (hpart : SameButCase part changed)
    (hkey : SameButCase key name) :
    Json.Recased (.object (regionFile part key)) (.object (regionFile changed name)) := by
  refine .object (fun _ => (changed, .object [(name, .string "eu-west-1")]))
    (fun member hmember => ?_) (fun member hmember => ?_) (List.Perm.refl _)
  · rw [List.mem_singleton.1 hmember]
    exact hpart
  · rw [List.mem_singleton.1 hmember]
    refine .object (fun _ => (name, .string "eu-west-1")) (fun member hmember => ?_)
      (fun member hmember => ?_) (List.Perm.refl _)
    · rw [List.mem_singleton.1 hmember]
      exact hkey
    · rw [List.mem_singleton.1 hmember]
      exact .same nofun

/-- Two files. -/
def twoFilesOf (lower upper : List (String × Json)) : Files :=
  [("config/default.json", Json.compact (.object lower)),
    ("config/local.json", Json.compact (.object upper))]

/-- A file with a region in keys of two cases. -/
theorem recasedFile_region {loader : Loader} {files others : Files} {name : String}
    (path part changed key renamed : String)
    (hone : locate? loader files name =
      some (.json, path, Json.compact (.object (regionFile part key))))
    (hother : locate? loader others name =
      some (.json, path, Json.compact (.object (regionFile changed renamed))))
    (hidentifier : Path.IsIdentifier part.toList) (hpart : SameButCase part changed)
    (hkey : SameButCase key renamed) : RecasedFile loader files others name :=
  .written hone hother (parse_regionFile part key) (parse_regionFile changed renamed)
    (isLayer_regionFile hidentifier path key) (recased_regionFile hpart hkey)

/-- The one file with a spec whose key is in capital letters. -/
def capitalSpec : Files :=
  [("config/default.json", Json.compact (.object (specFile "MODEL_ID")))]

theorem isLayer_specFile (origin key : String) : IsLayer (ofMembers origin (specFile key)) := by
  refine ⟨fun entry hentry => ?_, .table (by simp [specFile, ofMembers]) fun entry hentry => ?_⟩
  · rw [List.mem_singleton.1 hentry]
    exact (by decide : Path.IsIdentifier "catalog".toList)
  · rw [List.mem_singleton.1 hentry]
    refine .table (by simp [ofMembers]) fun entry hentry => ?_
    rw [List.mem_singleton.1 hentry]
    exact .list _ _

/-- The models that are read of it are a list with a table whose key is in capital letters. -/
theorem read_capitalSpec :
    ∃ entries origin items place fields,
      merge .plain [(.lower, fileSource .plain capitalSpec "config/default"),
        (.upper, fileSource .plain capitalSpec "config/local"),
        (.environment, .ok (Environment.source []))] = .ok entries ∧
      read ["catalog", "models"] (.table none entries) = some (.list origin items) ∧
      Setting.table place fields ∈ items ∧ "model_id" ∉ Entries.keys fields := by
  have hlocate : locate? .plain capitalSpec "config/default" =
      some (.json, "config/default.json", Json.compact (.object (specFile "MODEL_ID"))) := by
    decide +kernel
  have hnone : locate? .plain capitalSpec "config/local" = none := by decide +kernel
  have hlower := fileSource_of_parse hlocate (parse_specFile "MODEL_ID")
  have hupper : fileSource .plain capitalSpec "config/local" = .ok [] := by rw [fileSource, hnone]
  have hlayer := isLayer_specFile "config/default.json" "MODEL_ID"
  have hlay := Loader.plain.lay_of_isLayer .lower hlayer []
  have hall : layAll .plain [(.lower, .ok (ofMembers "config/default.json" (specFile "MODEL_ID"))),
      (.upper, .ok []), (.environment, .ok (Environment.source []))] =
        .ok (overlayEntries []
          (orderedEntries (Loader.plain.order .lower)
            (ofMembers "config/default.json" (specFile "MODEL_ID")))) := by
    rw [layAll, List.foldlM_cons]
    show (Loader.plain.lay .lower [] (ofMembers "config/default.json" (specFile "MODEL_ID")) >>= _) = _
    rw [hlay]
    rfl
  have hplain := Loader.plainTable_lay hlayer.startsPlain plainTable_nil hlay
  rw [hlower, hupper]
  exact ⟨_, some "config/default.json", _, some "config/default.json", _,
    merge_of_layAll hall hplain, rfl, List.mem_cons_self, by decide⟩

/-- Regions in keys of any case are the same ones in other cases, also if the files are gone through
in another order, and a spec whose key is in capital letters is none. -/
theorem loadFrom_capitals :
    (loadFrom .plain "config/default" "config/local"
        (twoFilesOf (regionFile "catalog" "Default_Region") (regionFile "Catalog" "DEFAULT_REGION"))
        []).toOption =
      (loadFrom { Loader.plain with order := longerFirst [.lower, .upper] }
        "config/default" "config/local"
        (twoFilesOf (regionFile "CATALOG" "default_region") (regionFile "catalog" "Default_region"))
        []).toOption ∧
    ∃ fault, loadFrom .plain "config/default" "config/local" capitalSpec [] = .error fault := by
  obtain ⟨htables, hlists⟩ := loadFrom_of_recased .plain "config/default" "config/local" []
  constructor
  · refine htables _ _ ?_ ?_ (longerFirst [.lower, .upper]) rfl
    · exact recasedFile_region "config/default.json" "catalog" "CATALOG" "Default_Region"
        "default_region" (by decide +kernel) (by decide +kernel) (by decide) (by decide) (by decide)
    · exact recasedFile_region "config/local.json" "Catalog" "catalog" "DEFAULT_REGION"
        "Default_region" (by decide +kernel) (by decide +kernel) (by decide) (by decide) (by decide)
  · obtain ⟨entries, origin, items, place, fields, hmerge, hread, hitem, hfree⟩ := read_capitalSpec
    exact hlists _ entries origin items place fields hmerge hread hitem hfree

end Configuration

end ServingCatalog
