import ServingCatalog.Proofs.Configuration.Passes

/-!
# Faults that are reported

Loading crashes only through a variable that is no text, and through a key with a position before
the start of its list.  Decoding never does, whatever the settings are, and a key whose positions
all count from the start can always be written: what is not there yet is made.

`Reported` says that a computation does not end with such a fault.  It is kept by `bind` and `map`,
so it is carried through the decoders one by one.  The main result is `reported_loadOver`.
-/

namespace ServingCatalog

/-- A fault that makes the program crash instead of being reported. -/
def SettingFault.Crashes : SettingFault → Prop
  | .garbled => True
  | .outOfReach _ => True
  | _ => False

/-- A fault crashes wherever it is seen from. -/
theorem SettingFault.crashes_underKey {fault : SettingFault} {name : String} :
    (fault.underKey name).Crashes ↔ fault.Crashes := by
  cases fault <;> rfl

theorem SettingFault.crashes_underIndex {fault : SettingFault} {index : Nat} :
    (fault.underIndex index).Crashes ↔ fault.Crashes := by
  cases fault <;> rfl

/-- A computation does not end with a fault that crashes. -/
def Reported {α : Type} (computed : Except SettingFault α) : Prop :=
  ∀ fault, computed = .error fault → ¬fault.Crashes

namespace Reported

variable {α β : Type}

theorem ok (value : α) : Reported (.ok value) := by
  intro fault h
  cases h

theorem error {fault : SettingFault} (h : ¬fault.Crashes) :
    Reported (.error fault : Except SettingFault α) := by
  intro other hother
  cases hother
  exact h

theorem misfit (reason : Misfit) : Reported (.error (.misfit reason) : Except SettingFault α) :=
  error id

/-- A reported fault stays so where another value was wanted. -/
theorem passOn {fault : SettingFault} (h : Reported (.error fault : Except SettingFault α)) :
    Reported (.error fault : Except SettingFault β) := error (h fault rfl)

/-- A computation reports its faults if its parts do. -/
theorem bind {computed : Except SettingFault α} (h : Reported computed)
    {next : α → Except SettingFault β}
    (hnext : ∀ value, computed = .ok value → Reported (next value)) :
    Reported (computed >>= next) := by
  cases computed with
  | ok value => exact hnext value rfl
  | error fault => exact h.passOn

theorem map {computed : Except SettingFault α} (h : Reported computed) (f : α → β) :
    Reported (computed.map f) := by
  cases computed with
  | ok value => exact ok (f value)
  | error fault => exact h.passOn

/-- A fold reports its faults if its steps do. -/
theorem foldlM {step : β → α → Except SettingFault β} {items : List α}
    (h : ∀ item ∈ items, ∀ below, Reported (step below item)) (below : β) :
    Reported (items.foldlM step below) := by
  induction items generalizing below with
  | nil => exact ok below
  | cons item rest ih =>
    rw [List.foldlM_cons]
    exact (h item List.mem_cons_self below).bind fun next _ =>
      ih (fun other hother => h other (List.mem_cons_of_mem item hother)) next

/-- A reported fault stays so as seen from the table around it. -/
theorem underKey {fault : SettingFault} (h : Reported (.error fault : Except SettingFault α))
    (name : String) : Reported (.error (fault.underKey name) : Except SettingFault β) :=
  error fun hcrashes => h fault rfl (SettingFault.crashes_underKey.1 hcrashes)

/-- Likewise as seen from the list around it. -/
theorem underIndex {fault : SettingFault} (h : Reported (.error fault : Except SettingFault α))
    (index : Nat) : Reported (.error (fault.underIndex index) : Except SettingFault β) :=
  error fun hcrashes => h fault rfl (SettingFault.crashes_underIndex.1 hcrashes)

end Reported

namespace Setting

/-! ## Decoders -/

variable {α : Type}

/-- Whatever the setting is, a decoder does not crash. -/
def Decoder.Reports (decode : Decoder α) : Prop := ∀ setting, Reported (decode setting)

/-- A text is decoded or misfits. -/
theorem reports_decodeText : Decoder.Reports decodeText := by
  intro setting
  cases setting with
  | scalar origin value =>
    cases value <;> first | exact .ok _ | exact .error id
  | list origin items => exact .error id
  | table origin entries => exact .error id

/-- Items are decoded one by one, and the first fault is seen from the list. -/
theorem reported_decodeItems {item : Decoder α} (h : item.Reports) (index : Nat)
    (settings : List Setting) : Reported (decodeItems item index settings) := by
  induction settings generalizing index with
  | nil => exact .ok []
  | cons setting rest ih =>
    rw [decodeItems]
    have hitem := h setting
    cases hdecoded : item setting with
    | error fault =>
      rw [hdecoded] at hitem
      exact hitem.underIndex index
    | ok decoded => exact (ih (index + 1)).map _

/-- A list reports what its items do. -/
theorem reports_decodeList {item : Decoder α} (h : item.Reports) :
    (decodeList item).Reports := by
  intro setting
  cases setting with
  | list origin items => exact reported_decodeItems h 0 items
  | scalar origin value => exact .misfit _
  | table origin entries => exact .misfit _

/-- An absent value is none, and others are decoded. -/
theorem reports_decodeOption {decode : Decoder α} (h : decode.Reports) :
    (decodeOption decode).Reports := by
  intro setting
  rw [decodeOption.eq_def]
  split
  · exact .ok none
  · exact (h setting).map some

/-- A choice is one that is known, or it is refused by name. -/
theorem reports_decodeChoice (choice : String) (name : α → String) (known : List α) :
    (decodeChoice choice name known).Reports := by
  intro setting
  dsimp only [decodeChoice]
  split
  · split <;> first | exact .ok _ | exact .error id
  · split <;> first | exact .ok _ | exact .error id
  · exact .error id

section Records

variable {φ : Type} {Value : φ → Type} [DecidableEq φ]

theorem reported_liftMisfit (computed : Except Misfit α) : Reported (liftMisfit computed) := by
  cases computed with
  | ok value => exact .ok value
  | error reason => exact .misfit reason

/-- Entries are decoded for their fields one by one, and others are passed over. -/
theorem reported_draftOfEntries {r : Record φ Value α} {decode : (f : φ) → Decoder (Value f)}
    (h : ∀ f, (decode f).Reports) (entries : Entries) (draft : Draft φ Value) :
    Reported (draftOfEntries r decode entries draft) := by
  induction entries generalizing draft with
  | nil => exact .ok draft
  | cons entry rest ih =>
    obtain ⟨key, setting⟩ := entry
    rw [draftOfEntries]
    cases r.field? key with
    | none => exact ih draft
    | some f =>
      have hfield := h f setting
      cases hdecoded : decode f setting with
      | error fault =>
        rw [hdecoded] at hfield
        simp only [hdecoded]
        exact hfield.underKey key
      | ok value =>
        simp only [hdecoded]
        exact ih (draft.put f value)

/-- Likewise the items of a list that stands for a record. -/
theorem reported_decodeRecordItems {r : Record φ Value α} {decode : (f : φ) → Decoder (Value f)}
    (h : ∀ f, (decode f).Reports) (fields : List φ) (settings : List Setting) (count : Nat)
    (draft : Draft φ Value) : Reported (decodeRecordItems r decode fields settings count draft) := by
  induction fields generalizing settings count draft with
  | nil => exact reported_liftMisfit _
  | cons f fields ih =>
    cases settings with
    | nil => exact reported_liftMisfit _
    | cons setting settings =>
      rw [decodeRecordItems]
      have hfield := h f setting
      cases hdecoded : decode f setting with
      | error fault =>
        rw [hdecoded] at hfield
        exact hfield.underIndex count
      | ok value => exact ih settings (count + 1) (draft.put f value)

/-- A record reports its faults if its fields do. -/
theorem reports_decodeRecord {r : Record φ Value α} {decode : (f : φ) → Decoder (Value f)}
    (h : ∀ f, (decode f).Reports) : (decodeRecord r decode).Reports := by
  intro setting
  cases setting with
  | scalar origin value => exact .misfit _
  | list origin items => exact reported_decodeRecordItems h r.fields items 0 Draft.empty
  | table origin entries =>
    have hdraft := reported_draftOfEntries (r := r) h entries Draft.empty
    rw [decodeRecord]
    cases hentries : draftOfEntries r decode entries Draft.empty with
    | error fault =>
      rw [hentries] at hdraft
      exact hdraft.passOn
    | ok draft => exact reported_liftMisfit _

end Records

end Setting

open Setting

/-! ## The decoder of the configuration -/

theorem ScopeSpec.reports_decodeSetting : ScopeSpec.decodeSetting.Reports :=
  reports_decodeRecord fun f => by
    cases f with
    | instanceTypes => exact reports_decodeList reports_decodeText
    | default => exact reports_decodeOption reports_decodeText

theorem ModelSpec.reports_decodeSetting : ModelSpec.decodeSetting.Reports :=
  reports_decodeRecord fun f => by
    cases f with
    | modelId => exact reports_decodeText
    | version => exact reports_decodeText
    | regions => exact reports_decodeList reports_decodeText
    | acceptTypes => exact reports_decodeList reports_decodeText
    | defaultAcceptType => exact reports_decodeOption reports_decodeText
    | training => exact reports_decodeOption ScopeSpec.reports_decodeSetting
    | inference => exact reports_decodeOption ScopeSpec.reports_decodeSetting

theorem LoggingConfig.reports_decodeSetting : LoggingConfig.decodeSetting.Reports :=
  reports_decodeRecord fun f => by
    cases f with
    | level => exact reports_decodeText
    | format => exact reports_decodeChoice _ _ _

theorem CatalogConfig.reports_decodeSetting : CatalogConfig.decodeSetting.Reports :=
  reports_decodeRecord fun f => by
    cases f with
    | defaultRegion => exact reports_decodeText
    | models => exact reports_decodeList ModelSpec.reports_decodeSetting

/-- **Decoding** never crashes. -/
theorem Configuration.reports_decodeSetting : Configuration.decodeSetting.Reports :=
  reports_decodeRecord fun f => by
    cases f with
    | logging => exact LoggingConfig.reports_decodeSetting
    | catalog => exact CatalogConfig.reports_decodeSetting

namespace Setting

/-! ## Writing to a path -/

/-- All positions on a path count from the start of a list, and not from its end. -/
def AllForward (steps : List PathStep) : Prop :=
  ∀ position : Int, PathStep.index position ∈ steps → 0 ≤ position

/-- The path that a key means leads forward. -/
def GoesForward (key : String) : Prop := AllForward (Path.ofKey key).steps

/-- A key leads forward as it stands and in small letters. -/
def StaysForward (key : String) : Prop := GoesForward key ∧ GoesForward (Text.lower key)

/-- Such a position is one of every list, which is filled up if it is shorter. -/
theorem exists_place? {position : Int} (h : 0 ≤ position) (length : Nat) :
    ∃ place, place? position length = some place := by
  have hforward : ¬position < 0 := by omega
  exact ⟨position.toNat, by simp only [place?, if_neg hforward, if_pos h]⟩

/-- Writing makes whatever is missing on a path that goes forward. -/
theorem exists_write? (setting : Setting) {steps : List PathStep} (h : AllForward steps)
    (held : Option Setting) : ∃ written, write? setting steps held = some written := by
  induction steps generalizing held with
  | nil => exact ⟨_, rfl⟩
  | cons step steps ih =>
    have hsteps : AllForward steps :=
      fun position hposition => h position (List.mem_cons_of_mem step hposition)
    cases step with
    | key name =>
      obtain ⟨written, hwritten⟩ :=
        ih hsteps (((held.map entries).getD []).get? (Text.lower name))
      exact ⟨_, by simp only [write?, hwritten, Option.map_some]; rfl⟩
    | index position =>
      obtain ⟨place, hplace⟩ :=
        exists_place? (h position List.mem_cons_self) ((held.map items).getD []).length
      obtain ⟨written, hwritten⟩ :=
        ih hsteps (fillUpTo place ((held.map items).getD []))[place]?
      simp only [write?, hplace, Option.bind_some, hwritten]
      by_cases hlast : steps = []
      · exact ⟨_, by rw [if_pos hlast, Option.map_some]⟩
      · exact ⟨_, by rw [if_neg hlast, Option.map_some]⟩

/-- A key that leads forward can be written. -/
theorem reported_assign {key : String} (h : GoesForward key) (below : Entries) (setting : Setting) :
    Reported (assign below key setting) := by
  obtain ⟨written, hwritten⟩ :=
    exists_write? setting h (below.get? (Text.lower (Path.ofKey key).root))
  simp only [assign, hwritten]
  exact .ok _

/-- So can several of them, one after the other. -/
theorem reported_assignAll {source : List (String × Setting)}
    (h : ∀ entry ∈ source, GoesForward entry.1) (below : Entries) :
    Reported (assignAll below source) :=
  Reported.foldlM (fun entry hentry below => reported_assign (h entry hentry) below entry.2) below

/-! ## Keys that are written -/

/-- The first step of a key in small letters leads forward: it is an identifier, or the key itself.
-/
theorem goesForward_lower_root {key : String} (h : GoesForward (Text.lower key)) :
    GoesForward (Text.lower (Path.ofKey key).root) := by
  cases hparse : Path.parse? key with
  | some path =>
    have hplain : Path.ofKey (Text.lower (Path.ofKey key).root) =
        ⟨Text.lower (Path.ofKey key).root, []⟩ := Path.startsPlain_of_parse? hparse
    rw [GoesForward, hplain]
    exact nofun
  | none =>
    have hkey : Path.ofKey key = ⟨key, []⟩ := by
      rw [Path.ofKey, hparse]
      rfl
    rw [hkey]
    exact h

/-- Writing to keys that lead forward leaves only such keys. -/
theorem goesForward_assignAll {source : List (String × Setting)}
    (hsource : ∀ entry ∈ source, StaysForward entry.1) {below next : Entries}
    (h : ∀ entry ∈ below, GoesForward entry.1) (hnext : assignAll below source = .ok next) :
    ∀ entry ∈ next, GoesForward entry.1 := by
  have hstep : ∀ entry ∈ source, ∀ below next : Entries, (∀ held ∈ below, GoesForward held.1) →
      assign below entry.1 entry.2 = .ok next → ∀ held ∈ next, GoesForward held.1 := by
    intro entry hentry below next hbelow hassign held hheld
    simp only [assign] at hassign
    split at hassign
    next written hwritten =>
      rw [← Except.ok.inj hassign] at hheld
      rcases mem_put hheld with rfl | hold
      · exact goesForward_lower_root (hsource entry hentry).2
      · exact hbelow held hold
    next => cases hassign
  exact foldlM_keeps hstep h hnext

end Setting

namespace Configuration

/-- A source that does not crash by itself, and if it can be read, has only keys that lead forward.
-/
structure Forward (source : Except SettingFault Entries) : Prop where
  reported : Reported source
  keys : ∀ entries, source = .ok entries → ∀ entry ∈ entries, StaysForward entry.1

/-- A file that cannot be read is reported. -/
theorem reported_fileSource (loader : Loader) (files : Files) (name : String) :
    Reported (fileSource loader files name) := by
  rw [fileSource]
  split
  · exact .ok _
  · split
    · exact .ok _
    · exact .error id

/-- Sources of keys that lead forward are laid, or one of them is reported, and only such keys are
left. -/
theorem reported_layAll (loader : Loader) {sources : List Source}
    (h : ∀ source ∈ sources, Forward source.2) :
    Reported (layAll loader sources) ∧
      ∀ entries, layAll loader sources = .ok entries → ∀ entry ∈ entries, GoesForward entry.1 := by
  constructor
  · refine Reported.foldlM (fun source hsource below => ?_) []
    have hforward := h source hsource
    exact hforward.reported.bind fun entries hentries =>
      reported_assignAll (forall_orderedEntries GoesForward
        (fun entry hentry => (hforward.keys entries hentries entry hentry).1) _) below
  · intro entries hentries
    have hstep : ∀ source ∈ sources, ∀ below next : Entries,
        (∀ entry ∈ below, GoesForward entry.1) →
        laySource loader below source = .ok next → ∀ entry ∈ next, GoesForward entry.1 := by
      intro source hsource below next hbelow hnext
      obtain ⟨above, habove, hlay⟩ := exists_of_bind_eq_ok hnext
      exact goesForward_assignAll
        (forall_orderedEntries StaysForward ((h source hsource).keys above habove) _) hbelow hlay
    exact foldlM_keeps hstep (fun entry hentry => absurd hentry List.not_mem_nil) hentries

/-- **Loading reports its faults** if all keys lead forward. -/
theorem reported_loadOver {loader : Loader} {defaultName localName : String} {files : Files}
    {environment : Except SettingFault Entries}
    (hlower : Forward (fileSource loader files defaultName))
    (hupper : Forward (fileSource loader files localName)) (henvironment : Forward environment) :
    Reported (loadOver loader defaultName localName files environment) := by
  have hsources : ∀ source ∈ [(Pass.lower, fileSource loader files defaultName),
      (.upper, fileSource loader files localName), (.environment, environment)],
      Forward source.2 := by
    intro source hsource
    simp only [List.mem_cons, List.not_mem_nil, or_false] at hsource
    rcases hsource with rfl | rfl | rfl
    · exact hlower
    · exact hupper
    · exact henvironment
  obtain ⟨hreported, hkeys⟩ := reported_layAll loader hsources
  rw [loadOver, merge]
  refine Reported.bind (hreported.bind fun entries hentries => ?_)
    fun entries _ => reports_decodeSetting _
  exact reported_assignAll (forall_orderedEntries GoesForward (hkeys entries hentries) _) []

end Configuration

end ServingCatalog
