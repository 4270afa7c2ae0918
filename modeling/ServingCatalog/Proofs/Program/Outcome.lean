import ServingCatalog.Program
import ServingCatalog.Proofs.CommandLine.Printing
import ServingCatalog.Proofs.Configuration.Reach
import ServingCatalog.Proofs.EnvFile
import ServingCatalog.Proofs.LogFilter.Cutting

/-!
# The order of failures

What a caller of the program sees are its exit code and its output.  They are decided in order: by
the arguments, then by the settings, then by what the command comes to on the configured catalog
(`sight_run`).  Logging has no part in them: the decision is one about the catalog alone
(`verdict_congr`), so two runs with the same arguments and the same catalog are seen to be the same,
whatever is logged, and at whatever level.

Settings that are not usable end the program with exit code 1, unless it crashes: then it ends with
an exit code of its own, and prints nothing (`sight_of_crashes`).  Where it can crash is told by
`Crashes`; in `Ordinary` surroundings it does not.  The main result is `sight_of_surroundings`.
-/

namespace ServingCatalog

/-- A line that is no command by mistake, and not by asking for help or for the version. -/
def UsageFault.IsMistake (fault : UsageFault) : Prop :=
  fault ≠ .helpWanted ∧ fault ≠ .versionWanted

/-- All mistaken lines end the program with the same exit code. -/
theorem UsageFault.IsMistake.exitCode {fault : UsageFault} (h : fault.IsMistake) :
    fault.exitCode = 2 := by
  obtain ⟨hhelp, hversion⟩ := h
  cases fault with
  | helpWanted => exact absurd rfl hhelp
  | versionWanted => exact absurd rfl hversion
  | _ => rfl

namespace Program

variable {loader : Loader} {s t : Surroundings}

/-! ## What is decided -/

/-- What a caller sees of the program. -/
structure Sight where
  exitCode : Nat
  output : String
  deriving DecidableEq

/-- What is seen of a result. -/
def Result.sight (result : Result) : Sight := ⟨result.exitCode, result.output⟩

/-- What is seen of a command on a configured catalog. -/
def commandSight (command : Command) (config : CatalogConfig) : Sight :=
  match (command.run config).outcome.value with
  | .ok output => ⟨0, output⟩
  | .error _ => ⟨1, ""⟩

/-- What the arguments and the settings of a program come to, unless it crashes. -/
def verdict (command : Except UsageFault Command)
    (configuration : Except SettingFault Configuration) : Sight :=
  match command with
  | .error fault => (usageResult fault).sight
  | .ok command =>
    match configuration with
    | .error _ => ⟨1, ""⟩
    | .ok configuration => commandSight command configuration.catalog

/-- A mistaken line is seen the same on all settings. -/
theorem verdict_of_isMistake {fault : UsageFault} (h : fault.IsMistake)
    (configuration : Except SettingFault Configuration) :
    verdict (.error fault) configuration = ⟨2, ""⟩ := by
  show (usageResult fault).sight = _
  rw [Result.sight, usageResult, h.exitCode, if_neg h.2]

/-- Of a configuration only the catalog has a part in the decision. -/
theorem verdict_congr (command : Except UsageFault Command) {c d : Configuration}
    (h : c.catalog = d.catalog) : verdict command (.ok c) = verdict command (.ok d) := by
  cases command with
  | error fault => rfl
  | ok command =>
    change commandSight command c.catalog = commandSight command d.catalog
    rw [h]

/-- A command on a catalog is seen to print JSON, or to fail without printing. -/
theorem commandSight_cases (command : Command) (config : CatalogConfig) :
    (∃ value, (command.run config).outcome.value = .ok (Command.printed value) ∧
      commandSight command config = ⟨0, Command.printed value⟩) ∨
    (∃ fault, (command.run config).outcome.value = .error fault ∧
      commandSight command config = ⟨1, ""⟩) := by
  have hrun := Command.value_run config command
  rw [commandSight]
  cases hanswer : (command.answer config.build.resolver).outcome.value with
  | ok value =>
    rw [hanswer] at hrun
    exact .inl ⟨value, hrun, by rw [hrun]; rfl⟩
  | error fault =>
    rw [hanswer] at hrun
    exact .inr ⟨fault, hrun, by rw [hrun]; rfl⟩

/-! ## Crashes -/

/-- A program gets as far as its arguments: its threads are started, and the variables of its file
are set. -/
structure Starts (s t : Surroundings) : Prop where
  threads : canStart s = true
  envFile : withEnvFile? s = some t

/-- A program crashes: on its way to the arguments, on settings it should report, or on a log filter
that is cut inside a character. -/
inductive Crashes (loader : Loader) (s : Surroundings) : Prop
  | early (h : ∀ t, ¬Starts s t)
  | settings {t : Surroundings} {command : Command} {fault : SettingFault} (hstart : Starts s t)
      (hline : Command.parse s.arguments = .ok command) (hload : load loader t = .error fault)
      (h : fault.Crashes)
  | filter {t : Surroundings} {command : Command} {configuration : Configuration}
      {complaints : String} (hstart : Starts s t) (hline : Command.parse s.arguments = .ok command)
      (hload : load loader t = .ok configuration)
      (h : filterOf t.environment configuration.logging = .error complaints)

namespace Starts

/-- The variables of its file leave the arguments and the files as they are, and texts remain texts.
-/
theorem unchanged (h : Starts s t) :
    t.arguments = s.arguments ∧ t.files = s.files ∧ (s.garbled = [] → t.garbled = []) := by
  have henvFile := h.envFile
  rw [withEnvFile?] at henvFile
  split at henvFile
  · cases henvFile
    exact ⟨rfl, rfl, id⟩
  · obtain ⟨environment, -, rfl⟩ := Option.map_eq_some_iff.1 henvFile
    refine ⟨rfl, rfl, fun hs => ?_⟩
    show s.garbled.filter _ = []
    rw [hs, List.filter_nil]

/-- From there on the program goes by its arguments. -/
theorem run_eq (h : Starts s t) (loader : Loader) : run loader s = runArguments loader t := by
  rw [run, if_pos h.threads, h.envFile]

end Starts

/-- A program that does not get as far as its arguments crashes. -/
theorem exists_starts (h : ¬Crashes loader s) : ∃ t, Starts s t :=
  Classical.byContradiction fun hnone => h (.early fun t ht => hnone ⟨t, ht⟩)

/-- A fault that crashes leaves nothing but a crash. -/
theorem settingsResult_of_crashes {fault : SettingFault} (h : fault.Crashes) :
    settingsResult fault = crashResult "" := by
  cases fault <;> first | rfl | exact h.elim

/-- Any other is reported. -/
theorem sight_settingsResult {fault : SettingFault} (h : ¬fault.Crashes) :
    (settingsResult fault).sight = ⟨1, ""⟩ := by
  cases fault <;> first | rfl | exact absurd trivial h

/-- **A crash** is seen as an exit code of its own, and nothing printed. -/
theorem sight_of_crashes (h : Crashes loader s) : (run loader s).sight = ⟨101, ""⟩ := by
  cases h with
  | early h =>
    rw [run]
    split
    next hthreads =>
      split
      next => rfl
      next t ht => exact absurd ⟨hthreads, ht⟩ (h t)
    next => rfl
  | settings hstart hline hload h =>
    rw [hstart.run_eq, runArguments, session, prepare, hstart.unchanged.1, hline]
    simp only [hload]
    rw [settingsResult_of_crashes h]
    rfl
  | filter hstart hline hload h =>
    rw [hstart.run_eq, runArguments, session, prepare, hstart.unchanged.1, hline]
    simp only [hload, h]
    rfl

/-! ## Runs -/

/-- The events of a session and the complaints about its filter are not seen. -/
theorem sight_sessionResult (filter : LogFilter) (complaints : String) (session : Session) :
    (sessionResult filter complaints session).sight =
      match session.outcome with
      | .ok output => ⟨0, output⟩
      | .error _ => ⟨1, ""⟩ := by
  rw [sessionResult]
  cases session.outcome <;> rfl

/-- What is seen of a run is decided by its arguments and its settings. -/
theorem sight_run (h : ¬Crashes loader s) (hstart : Starts s t) :
    (run loader s).sight = verdict (Command.parse s.arguments) (load loader t) := by
  rw [hstart.run_eq, runArguments, session, prepare, hstart.unchanged.1]
  cases hline : Command.parse s.arguments with
  | error fault => rfl
  | ok command =>
    cases hload : load loader t with
    | error fault =>
      have hreported : ¬fault.Crashes := fun hfault => h (.settings hstart hline hload hfault)
      exact sight_settingsResult hreported
    | ok configuration =>
      cases hfilter : filterOf t.environment configuration.logging with
      | error complaints => exact absurd (.filter hstart hline hload hfilter) h
      | ok read =>
        obtain ⟨filter, complaints⟩ := read
        simp only [hfilter]
        exact sight_sessionResult filter complaints _

/-! ## Ordinary surroundings -/

/-- Surroundings in which nothing makes the program crash: a number of threads is one, all variables
are texts without a NUL, and there is none in their file; all keys lead forward; and the text of the
log filter, in the environment or in the settings, is not cut inside a character. -/
structure Ordinary (loader : Loader) (s : Surroundings) : Prop where
  threads : ∀ text, s.environment.lookup threadsVariable = some text → isThreadCount text = true
  texts : s.garbled = []
  environment : EnvFile.CleanVariables s.environment
  envFile : ∀ text, envText? s = some text → EnvFile.Clean text.toList
  defaultKeys : Configuration.Forward
    (Configuration.fileSource loader s.files Configuration.defaultName)
  localKeys : Configuration.Forward
    (Configuration.fileSource loader s.files Configuration.localName)
  variableKeys : ∀ t, Starts s t →
    ∀ entry ∈ Environment.source t.environment, Setting.StaysForward entry.1
  filter : ∀ t, Starts s t →
    ∀ text, t.environment.lookup filterVariable = some text → LogFilter.IsAligned text
  level : ∀ t, Starts s t → ∀ configuration, load loader t = .ok configuration →
    LogFilter.IsAligned configuration.logging.level

namespace Ordinary

/-- The threads are started. -/
theorem canStart (h : Ordinary loader s) : canStart s = true := by
  rw [Program.canStart, h.texts]
  cases hlookup : s.environment.lookup threadsVariable with
  | none => rfl
  | some text =>
    show (true && isThreadCount text) = true
    rw [h.threads text hlookup]
    rfl

/-- The variables of the file are set. -/
theorem exists_starts (h : Ordinary loader s) : ∃ t, Starts s t := by
  cases htext : envText? s with
  | none => exact ⟨s, h.canStart, by rw [withEnvFile?, htext]⟩
  | some text =>
    obtain ⟨environment, hadd⟩ := EnvFile.exists_add? (h.envFile text htext) h.environment
    exact ⟨_, h.canStart, by simp only [withEnvFile?, htext, hadd]; rfl⟩

/-- Loading reports its faults. -/
theorem reported_load (h : Ordinary loader s) (hstart : Starts s t) : Reported (load loader t) := by
  have hsource : environmentSource t = .ok (Environment.source t.environment) := by
    rw [environmentSource, if_pos (hstart.unchanged.2.2 h.texts)]
  rw [load, hstart.unchanged.2.1, hsource]
  refine Configuration.reported_loadOver h.defaultKeys h.localKeys ⟨.ok _, fun entries hentries => ?_⟩
  cases hentries
  exact h.variableKeys t hstart

/-- A filter is found, in the environment or in the settings. -/
theorem exists_filterOf (h : Ordinary loader s) (hstart : Starts s t) {configuration : Configuration}
    (hload : load loader t = .ok configuration) :
    ∃ filter complaints, filterOf t.environment configuration.logging = .ok (filter, complaints) := by
  have hlevel := LogFilter.exists_parseSome (h.level t hstart configuration hload)
  rw [filterOf]
  split
  · exact hlevel
  next text htext =>
    split
    next filter _ => exact ⟨filter, "", rfl⟩
    next hcut => exact absurd hcut (LogFilter.parse_ne_cut (h.filter t hstart text htext))
    next => exact hlevel

/-- **Nothing crashes** in ordinary surroundings. -/
theorem not_crashes (h : Ordinary loader s) : ¬Crashes loader s := by
  intro hcrashes
  cases hcrashes with
  | early hnone =>
    obtain ⟨t, hstart⟩ := h.exists_starts
    exact hnone t hstart
  | settings hstart hline hload hfault => exact h.reported_load hstart _ hload hfault
  | filter hstart hline hload hfilter =>
    obtain ⟨filter, complaints, hfound⟩ := h.exists_filterOf hstart hload
    rw [hfilter] at hfound
    cases hfound

end Ordinary

/-- **The order of failures.**  A program that crashes ends with exit code 101 and prints nothing;
in ordinary surroundings it does not crash.  Otherwise it gets as far as its arguments.  A mistaken
line ends it with exit code 2, whatever the settings are.  Otherwise settings that are not usable
end it with exit code 1, whatever the command is; and in neither case is anything printed.
Otherwise the command decides: the program prints its value as JSON and ends with 0, or prints
nothing and ends with 1.  So nothing but the arguments and the catalog has a part in what is seen of
a program whose settings are usable. -/
theorem sight_of_surroundings (loader : Loader) (s : Surroundings) :
    (Crashes loader s → (run loader s).sight = ⟨101, ""⟩) ∧
    (Ordinary loader s → ¬Crashes loader s) ∧
    (¬Crashes loader s → ∃ t, Starts s t ∧
      (∀ fault, Command.parse s.arguments = .error fault → fault.IsMistake →
        (run loader s).sight = ⟨2, ""⟩) ∧
      ∀ command, Command.parse s.arguments = .ok command →
        (∀ fault, load loader t = .error fault → (run loader s).sight = ⟨1, ""⟩) ∧
        ∀ configuration, load loader t = .ok configuration →
          (∃ value,
            (command.run configuration.catalog).outcome.value = .ok (Command.printed value) ∧
              (run loader s).sight = ⟨0, Command.printed value⟩) ∨
          (∃ fault, (command.run configuration.catalog).outcome.value = .error fault ∧
            (run loader s).sight = ⟨1, ""⟩)) ∧
    (∀ (other : Loader) (r t u : Surroundings) (c d : Configuration),
      ¬Crashes loader s → ¬Crashes other r → s.arguments = r.arguments →
        Starts s t → Starts r u → load loader t = .ok c → load other u = .ok d →
          c.catalog = d.catalog → (run loader s).sight = (run other r).sight) := by
  refine ⟨sight_of_crashes, Ordinary.not_crashes, fun h => ?_,
    fun other r t u c d hs hr hline ht hu hc hd hcatalog => ?_⟩
  · obtain ⟨t, hstart⟩ := exists_starts h
    refine ⟨t, hstart, fun fault hline hmistake => ?_, fun command hline =>
      ⟨fun fault hload => ?_, fun configuration hload => ?_⟩⟩
    · rw [sight_run h hstart, hline, verdict_of_isMistake hmistake]
    · rw [sight_run h hstart, hline, hload]
      rfl
    · rw [sight_run h hstart, hline, hload]
      exact commandSight_cases command configuration.catalog
  · rw [sight_run hs ht, sight_run hr hu, hline, hc, hd]
    exact verdict_congr _ hcatalog

/-- The check of a volume that the runs below ask for. -/
theorem parse_volumeCheck :
    Command.parse ["instance-types", "volume-size-supported", "ml.m5.large"] =
      .ok (.volumeSizeSupported "ml.m5.large") :=
  Command.parse_volumeSizeSupported (by rw [IsPlainWord]; decide)

/-! ## Bare surroundings -/

/-- Without a file of variables the surroundings stay as they are. -/
theorem Starts.eq_of_noFile (h : Starts s t) (hfile : envText? s = none) : t = s := by
  have henvFile := h.envFile
  rw [withEnvFile?, hfile] at henvFile
  exact (Option.some.inj henvFile).symm

/-- The level of settings that say nothing, and a level that shows everything, are aligned. -/
theorem isAligned_info_trace : LogFilter.IsAligned "info" ∧ LogFilter.IsAligned "trace" := by
  have hinfo : LogFilter.parts "info" = ["info".toList] := by decide +kernel
  have htrace : LogFilter.parts "trace" = ["trace".toList] := by decide +kernel
  refine ⟨fun part hpart => .inl fun c hc => ?_, fun part hpart => .inl fun c hc => ?_⟩
  · rw [hinfo, List.mem_singleton] at hpart
    subst hpart
    cases hc
    decide
  · rw [htrace, List.mem_singleton] at hpart
    subst hpart
    cases hc
    decide

/-- A file without entries has no keys that could lead nowhere. -/
theorem forward_of_empty {files : Files} {name : String}
    (h : ∀ entries, Configuration.fileSource loader files name = .ok entries → entries = []) :
    Configuration.Forward (Configuration.fileSource loader files name) := by
  refine ⟨Configuration.reported_fileSource _ _ _, fun entries hentries => ?_⟩
  rw [h entries hentries]
  exact fun entry hentry => absurd hentry List.not_mem_nil

/-- Surroundings without entries in files, and with at most the variable for the filter, are
ordinary. -/
theorem ordinary_of_bare (hfile : envText? s = none) (htexts : s.garbled = [])
    (hvariables : s.environment = [] ∨ s.environment = [(filterVariable, "trace")])
    (hlower : ∀ entries,
      Configuration.fileSource loader s.files Configuration.defaultName = .ok entries → entries = [])
    (hupper : ∀ entries,
      Configuration.fileSource loader s.files Configuration.localName = .ok entries → entries = [])
    (hlevel : ∀ configuration, load loader s = .ok configuration →
      configuration.logging.level = "info") : Ordinary loader s where
  threads text htext := by
    rcases hvariables with hnone | hone
    · rw [hnone] at htext
      cases htext
    · rw [hone] at htext
      cases htext
  texts := htexts
  environment := by
    unfold EnvFile.CleanVariables EnvFile.Clean
    rcases hvariables with hnone | hone
    · rw [hnone]
      decide
    · rw [hone]
      decide
  envFile text htext := by
    rw [hfile] at htext
    cases htext
  defaultKeys := forward_of_empty hlower
  localKeys := forward_of_empty hupper
  variableKeys t hstart := by
    have hsource : Environment.source t.environment = [] := by
      rw [hstart.eq_of_noFile hfile]
      rcases hvariables with hnone | hone
      · rw [hnone]
        rfl
      · rw [hone]
        rfl
    rw [hsource]
    exact fun entry hentry => absurd hentry List.not_mem_nil
  filter t hstart text htext := by
    rw [hstart.eq_of_noFile hfile] at htext
    rcases hvariables with hnone | hone
    · rw [hnone] at htext
      cases htext
    · rw [hone] at htext
      cases htext
      exact isAligned_info_trace.2
  level t hstart configuration hload := by
    rw [hstart.eq_of_noFile hfile] at hload
    rw [hlevel configuration hload]
    exact isAligned_info_trace.1

/-- A default file that is cut off. -/
def cutOff : Files := [("config/default.json", "[")]

theorem load_cutOff (arguments : List String) :
    load .plain ⟨arguments, cutOff, [], [], none⟩ =
      .error (.unreadable "config/default.json") := by rfl

/-- Nor does it make the program crash. -/
theorem ordinary_cutOff (arguments : List String) :
    Ordinary .plain ⟨arguments, cutOff, [], [], none⟩ := by
  have hlower : Configuration.fileSource .plain cutOff Configuration.defaultName =
      .error (.unreadable "config/default.json") := by rfl
  have hupper : Configuration.fileSource .plain cutOff Configuration.localName = .ok [] := by rfl
  refine ordinary_of_bare rfl rfl (.inl rfl) (fun entries hentries => ?_) (fun entries hentries => ?_)
    fun configuration hload => ?_
  · cases hlower.symm.trans hentries
  · exact (Except.ok.inj (hupper.symm.trans hentries)).symm
  · cases (load_cutOff arguments).symm.trans hload

/-- Without files and settings in the environment everything is as usual. -/
theorem load_bare {environment : Variables}
    (h : environment = [] ∨ environment = [(filterVariable, "trace")]) (arguments : List String) :
    load .plain ⟨arguments, [], environment, [], none⟩ = .ok ⟨.default, .default⟩ := by
  rcases h with rfl | rfl <;> rfl

theorem ordinary_noFiles {environment : Variables}
    (h : environment = [] ∨ environment = [(filterVariable, "trace")]) (arguments : List String) :
    Ordinary .plain ⟨arguments, [], environment, [], none⟩ := by
  have hlower : Configuration.fileSource .plain [] Configuration.defaultName = .ok [] := by rfl
  have hupper : Configuration.fileSource .plain [] Configuration.localName = .ok [] := by rfl
  refine ordinary_of_bare rfl rfl h (fun entries hentries => ?_) (fun entries hentries => ?_)
    fun configuration hload => ?_
  · exact (Except.ok.inj (hlower.symm.trans hentries)).symm
  · exact (Except.ok.inj (hupper.symm.trans hentries)).symm
  · cases (load_bare h arguments).symm.trans hload
    rfl

/-- A default file that is cut off: an empty line is a mistake all the same, and a check of a
volume, which needs no catalog, ends with exit code 1.  Without that file it is seen to end the same
whether everything is logged or nothing is asked for, and it crashes where there are to be no
threads. -/
theorem sight_cutOff :
    let check := ["instance-types", "volume-size-supported", "ml.m5.large"]
    (run .plain ⟨[], cutOff, [], [], none⟩).sight = ⟨2, ""⟩ ∧
      (run .plain ⟨check, cutOff, [], [], none⟩).sight = ⟨1, ""⟩ ∧
      (run .plain ⟨check, [], [("RUST_LOG", "trace")], [], none⟩).sight =
        (run .plain ⟨check, [], [], [], none⟩).sight ∧
      (run .plain ⟨check, [], [("TOKIO_WORKER_THREADS", "0")], [], none⟩).sight = ⟨101, ""⟩ := by
  intro check
  have hline : Command.parse [] = .error .commandMissing := by
    rw [Command.parse, Menu.main, Menu.parse]
  obtain ⟨-, hcalm, hmistake, -⟩ := sight_of_surroundings .plain ⟨[], cutOff, [], [], none⟩
  obtain ⟨_, -, hmistake, -⟩ := hmistake (hcalm (ordinary_cutOff []))
  obtain ⟨-, hcalm, hchecked, -⟩ := sight_of_surroundings .plain ⟨check, cutOff, [], [], none⟩
  obtain ⟨t, hstart, -, hchecked⟩ := hchecked (hcalm (ordinary_cutOff check))
  obtain rfl := hstart.eq_of_noFile rfl
  have htraced := ordinary_noFiles (.inr rfl) check
  have hsilent := ordinary_noFiles (.inl rfl) check
  have hlogged := (sight_of_surroundings .plain
    ⟨check, [], [("RUST_LOG", "trace")], [], none⟩).2.2.2 .plain ⟨check, [], [], [], none⟩
  have hthreads := (sight_of_surroundings .plain
    ⟨check, [], [("TOKIO_WORKER_THREADS", "0")], [], none⟩).1
  refine ⟨hmistake _ hline ⟨by decide, by decide⟩,
    (hchecked _ parse_volumeCheck).1 _ (load_cutOff check),
    hlogged _ _ _ _ htraced.not_crashes hsilent.not_crashes rfl ⟨htraced.canStart, rfl⟩
      ⟨hsilent.canStart, rfl⟩ (load_bare (.inr rfl) check) (load_bare (.inl rfl) check) rfl,
    hthreads (.early fun t hstart => ?_)⟩
  exact absurd hstart.threads (by decide +kernel)

/-- Without files there is only what the variables say. -/
theorem load_noFiles (arguments : List String) (environment : Variables) :
    load .plain ⟨arguments, [], environment, [], none⟩ =
      Loader.plain.lay .environment [] (Environment.source environment) >>=
        Loader.plain.lay .merged [] >>= Configuration.ofEntries := by
  have hmerge (said : Entries) : Configuration.merge .plain
      [(.lower, Configuration.fileSource .plain [] Configuration.defaultName),
        (.upper, Configuration.fileSource .plain [] Configuration.localName),
        (.environment, .ok said)] =
      Loader.plain.lay .environment [] said >>= Loader.plain.lay .merged [] := by
    show (Loader.plain.lay .environment [] said >>= pure) >>= _ = _
    rw [bind_pure]
  rw [load, Configuration.loadOver, environmentSource, if_pos rfl, hmerge]

/-- A variable whose key has a position before the start of the models cannot be written anywhere.
-/
theorem load_beforeStart (arguments : List String) (value : String) :
    load .plain
        ⟨arguments, [], [("APP__CATALOG__MODELS[-1]__MODEL_ID", value)], [], none⟩ =
      .error (.outOfReach "catalog.models[-1].model_id") := by
  have hkey : Environment.key? "APP__CATALOG__MODELS[-1]__MODEL_ID" =
      some "catalog.models[-1].model_id" := by decide +kernel
  have hpath : Path.ofKey "catalog.models[-1].model_id" =
      ⟨"catalog", [.key "models", .index (-1), .key "model_id"]⟩ := by decide +kernel
  -- There are no models yet, so the last of them is before the start.
  have hassign (setting : Setting) : Setting.assign [] "catalog.models[-1].model_id" setting =
      .error (.outOfReach "catalog.models[-1].model_id") := by
    rw [Setting.assign, hpath]
    rfl
  have hassignAll (setting : Setting) :
      Setting.assignAll [] [("catalog.models[-1].model_id", setting)] =
        .error (.outOfReach "catalog.models[-1].model_id") := by
    simp only [Setting.assignAll, List.foldlM_cons, hassign]
    rfl
  have hlay (setting : Setting) :
      Loader.plain.lay .environment [] [("catalog.models[-1].model_id", setting)] =
        .error (.outOfReach "catalog.models[-1].model_id") := hassignAll _
  have hsource : Environment.source [("APP__CATALOG__MODELS[-1]__MODEL_ID", value)] =
      [("catalog.models[-1].model_id",
        .scalar (some Environment.origin) (Environment.scalar value))] := by
    simp only [Environment.source, Environment.said, List.filterMap_cons, List.filterMap_nil, hkey,
      Option.map_some]
    rfl
  rw [load_noFiles, hsource, hlay]
  rfl

/-- Such a variable crashes a check of a volume, where other settings that are not usable end it
with exit code 1. -/
theorem sight_beforeStart :
    let check := ["instance-types", "volume-size-supported", "ml.m5.large"]
    let s : Surroundings := ⟨check, [], [("APP__CATALOG__MODELS[-1]__MODEL_ID", "a")], [], none⟩
    Command.parse check = .ok (.volumeSizeSupported "ml.m5.large") ∧ Starts s s ∧
      load .plain s = .error (.outOfReach "catalog.models[-1].model_id") ∧
      (run .plain s).sight = ⟨101, ""⟩ := by
  intro check s
  have hstart : Starts s s := ⟨by decide +kernel, rfl⟩
  have hload : load .plain s = .error (.outOfReach "catalog.models[-1].model_id") :=
    load_beforeStart check "a"
  exact ⟨parse_volumeCheck, hstart, hload,
    sight_of_crashes (.settings hstart parse_volumeCheck hload trivial)⟩

end Program

end ServingCatalog
