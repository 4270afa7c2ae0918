import ServingCatalog.Program
import ServingCatalog.Proofs.CommandLine.Arguments
import ServingCatalog.Proofs.Json.Pretty
import ServingCatalog.Proofs.Lookup.Inquiry
import ServingCatalog.Proofs.Lookup.Question

/-!
# Questions on the command line

A question to the catalog may be written as a line of words: two words say which of the four lookups
it is, and then its arguments come in any order (`Question.IsWritten`).  Such a line is the command
of the question, and the program prints the answer that the lookup gives on the configured catalog,
or fails with its fault and prints nothing: `comesTo_of_written`, which also covers the check of
volume sizes.
-/

namespace ServingCatalog

/-! ## Lines -/

/-- The arguments for a query and a scope. -/
def Query.arguments (q : Query) (scope : Option Scope) : List Argument :=
  (q.modelId.toList.map fun value => .option .modelId value) ++
    (q.modelVersion.toList.map fun value => .option .modelVersion value) ++
    (q.region.toList.map fun value => .option .region value) ++
    (scope.toList.map fun scope => .option .scope scope.name) ++
    (if q.tolerateVulnerable then [.flag .tolerateVulnerable] else []) ++
    (if q.tolerateDeprecated then [.flag .tolerateDeprecated] else [])

/-- The line of a query and a scope. -/
def Query.line (q : Query) (scope : Option Scope) : Line :=
  ⟨q.modelId, q.modelVersion, q.region, scope, q.tolerateVulnerable, q.tolerateDeprecated, none⟩

namespace Question

/-- The command of a question. -/
def command : Question → Command
  | .acceptTypes q => .acceptTypes q
  | .defaultAcceptType q => .defaultAcceptType q
  | .instanceTypes q scope => .instanceTypes q scope
  | .defaultInstanceType q scope => .defaultInstanceType q scope

/-- The two words of a lookup. -/
def words : Question → List String
  | .acceptTypes _ => ["accept-types", "options"]
  | .defaultAcceptType _ => ["accept-types", "default"]
  | .instanceTypes _ _ => ["instance-types", "list"]
  | .defaultInstanceType _ _ => ["instance-types", "default"]

/-- The arguments that lines with the words of a question have. -/
def shape : Question → LineShape
  | .acceptTypes _ => Menu.modelShape
  | .defaultAcceptType _ => Menu.modelShape
  | .instanceTypes _ _ => Menu.scopedShape
  | .defaultInstanceType _ _ => Menu.scopedShape

/-- The command of the same lookup for what a line holds. -/
def commandOf : Question → Line → Command
  | .acceptTypes _, line => .acceptTypes line.query
  | .defaultAcceptType _, line => .defaultAcceptType line.query
  | .instanceTypes _ _, line => .instanceTypes line.query line.scope
  | .defaultInstanceType _ _, line => .defaultInstanceType line.query line.scope

/-- The lines of a question: its words, and then its arguments in any order, each of them written in
any way. -/
def IsWritten (question : Question) (line : List String) : Prop :=
  ∃ arguments rest, arguments.Perm (question.query.arguments question.scope?) ∧
    AllWritten arguments rest ∧ line = question.words ++ rest

end Question

namespace Query

/-- A line of a query and a scope holds their arguments. -/
theorem holds_line (q : Query) (scope : Option Scope) :
    (q.line scope).Holds (q.arguments scope) := by
  refine ⟨fun option value => ?_, fun flag => ?_, rfl⟩
  · cases option <;> simp [line, arguments, Line.value?]
  · cases flag <;> simp [line, arguments, Line.isSet]

/-- No two arguments have the same name. -/
theorem nodup_arguments (q : Query) (scope : Option Scope) :
    ((q.arguments scope).map Argument.name).Nodup := by
  obtain ⟨region, modelId, modelVersion, vulnerable, deprecated⟩ := q
  cases region <;> cases modelId <;> cases modelVersion <;> cases scope <;> cases vulnerable <;>
    cases deprecated <;> simp [arguments, Argument.name]

/-- The name of a scope is one that a line takes. -/
theorem valid_of_mem_arguments {q : Query} {scope : Option Scope} {argument : Argument}
    (h : argument ∈ q.arguments scope) : argument.Valid := by
  cases argument with
  | flag flag => trivial
  | option option value =>
    cases option with
    | scope =>
      have hname : ∃ s, scope = some s ∧ s.name = value := by
        simpa [arguments] using h
      obtain ⟨s, -, hs⟩ := hname
      exact ⟨s, hs.symm⟩
    | _ => trivial

/-- Lines of every lookup have the arguments of a query. -/
theorem admitted_of_mem_arguments {q : Query} {argument : Argument}
    (h : argument ∈ q.arguments none) : argument.AdmittedBy Menu.modelShape := by
  cases argument with
  | flag flag => cases flag <;> simp [Argument.AdmittedBy, Menu.modelShape]
  | option option value =>
    cases option with
    | scope => simp [arguments] at h
    | _ => simp [Argument.AdmittedBy, Menu.modelShape, Menu.modelOptions]

end Query

/-- Lines with a scope have all arguments. -/
theorem Argument.admittedBy_scopedShape (argument : Argument) :
    argument.AdmittedBy Menu.scopedShape := by
  cases argument with
  | flag flag => cases flag <;> simp [Argument.AdmittedBy, Menu.scopedShape]
  | option option value =>
    cases option <;> simp [Argument.AdmittedBy, Menu.scopedShape, Menu.modelOptions]

namespace Menu

/-- A word chooses the entry that it names. -/
theorem parse_choice {versioned : Bool} {entries : List (String × Menu)} {word : String}
    {entry : Menu} (h : entries.lookup word = some entry) (words : List String) :
    (choice versioned entries).parse (word :: words) = entry.parse words := by
  rw [parse, h]

/-- At a leaf the rest of the line is read. -/
theorem parse_leaf (shape : LineShape) (build : Line → Command) (words : List String) :
    (leaf shape build).parse words = (shape.read words).map build := by
  rw [parse]

end Menu

namespace Question

/-- Behind the words of a question its arguments are read. -/
theorem parse_words (question : Question) (rest : List String) :
    Command.parse (question.words ++ rest) =
      (question.shape.read rest).map question.commandOf := by
  rw [Command.parse, Menu.main]
  cases question with
  | acceptTypes q =>
    show Menu.parse _ ("accept-types" :: "options" :: rest) = _
    rw [Menu.parse_choice rfl, Menu.acceptTypes, Menu.parse_choice rfl, Menu.parse_leaf]
    rfl
  | defaultAcceptType q =>
    show Menu.parse _ ("accept-types" :: "default" :: rest) = _
    rw [Menu.parse_choice rfl, Menu.acceptTypes, Menu.parse_choice rfl, Menu.parse_leaf]
    rfl
  | instanceTypes q scope =>
    show Menu.parse _ ("instance-types" :: "list" :: rest) = _
    rw [Menu.parse_choice rfl, Menu.instanceTypes, Menu.parse_choice rfl, Menu.parse_leaf]
    rfl
  | defaultInstanceType q scope =>
    show Menu.parse _ ("instance-types" :: "default" :: rest) = _
    rw [Menu.parse_choice rfl, Menu.instanceTypes, Menu.parse_choice rfl, Menu.parse_leaf]
    rfl

/-- No question has a word by itself. -/
theorem operand_shape (question : Question) : question.shape.operand = false := by
  cases question <;> rfl

/-- Lines of a question have its arguments. -/
theorem admitted_of_mem_arguments {question : Question} {argument : Argument}
    (h : argument ∈ question.query.arguments question.scope?) :
    argument.AdmittedBy question.shape := by
  cases question with
  | acceptTypes q => exact Query.admitted_of_mem_arguments h
  | defaultAcceptType q => exact Query.admitted_of_mem_arguments h
  | instanceTypes q scope => exact argument.admittedBy_scopedShape
  | defaultInstanceType q scope => exact argument.admittedBy_scopedShape

/-- What a line of a question holds makes its command. -/
theorem commandOf_line (question : Question) :
    question.commandOf (question.query.line question.scope?) = question.command := by
  cases question <;> rfl

/-- A line of a question is its command. -/
theorem parse_of_isWritten {question : Question} {line : List String}
    (h : question.IsWritten line) : Command.parse line = .ok question.command := by
  obtain ⟨arguments, rest, hperm, hwritten, rfl⟩ := h
  have hnodup : (arguments.map Argument.name).Nodup :=
    (hperm.map Argument.name).nodup_iff.2 (question.query.nodup_arguments question.scope?)
  have hread : question.shape.read rest = .ok (question.query.line question.scope?) :=
    LineShape.read_of_written question.operand_shape hwritten
      (fun a ha => admitted_of_mem_arguments (hperm.mem_iff.1 ha))
      (fun a ha => Query.valid_of_mem_arguments (hperm.mem_iff.1 ha)) hnodup
      (question.query.holds_line question.scope?) hperm
  rw [parse_words, hread, ← question.commandOf_line]
  rfl

end Question

/-- The line of a volume check is its command, unless its word looks like an option. -/
theorem Command.parse_volumeSizeSupported {text : String} (h : IsPlainWord text) :
    Command.parse ["instance-types", "volume-size-supported", text] =
      .ok (.volumeSizeSupported text) := by
  have hread : Menu.operandShape.read [text] = .ok { Line.empty with operand := some text } := by
    rw [LineShape.read, LineShape.readFrom_operand h]
    rfl
  rw [Command.parse, Menu.main, Menu.parse_choice rfl, Menu.instanceTypes, Menu.parse_choice rfl,
    Menu.parse_leaf, hread]
  rfl

/-! ## Answers -/

/-- What an answer is in JSON. -/
def Answer.toJson : Answer → Json
  | .types found => .array (found.map .string)
  | .default found => .string found

/-- The command of a question is answered as the question is. -/
theorem Question.answer_command (r : Resolver) (question : Question) :
    question.command.answer r = Answer.toJson <$> question.ask r := by
  cases question with
  | acceptTypes q =>
    rw [command, Command.answer, ask, bind_pure_comp, Functor.map_map]
    rfl
  | defaultAcceptType q =>
    rw [command, Command.answer, ask, bind_pure_comp, Functor.map_map]
    rfl
  | instanceTypes q scope =>
    rw [command, Command.answer, ask, bind_pure_comp, Functor.map_map]
    rfl
  | defaultInstanceType q scope =>
    rw [command, Command.answer, ask, bind_pure_comp, Functor.map_map]
    rfl

namespace Command

/-- A command prints the answer from the configured catalog. -/
theorem value_run (config : CatalogConfig) (command : Command) :
    (command.run config).outcome.value =
      (command.answer config.build.resolver).outcome.value.map printed := by
  rw [run, Inquiry.value_bind]
  show (command.answer config.build.resolver >>= fun value => pure (printed value)).outcome.value =
    _
  rw [bind_pure_comp, Inquiry.outcome_map]

/-- A value is printed so that parsing finds it again. -/
def Printable (value : Json) : Prop := Json.parse (printed value) = .ok value

/-- A text can be read back from what is printed. -/
theorem printable_string (s : String) : Printable (.string s) :=
  Json.parse_pretty (Json.spells_string Json.maxDepth s)

/-- So can a list of texts. -/
theorem printable_strings (texts : List String) : Printable (.array (texts.map .string)) := by
  have hspells : Json.Spells Json.maxDepth (.array (texts.map .string))
      (Json.prettyChars 0 (.array (texts.map .string))) := by
    refine Json.spells_prettyArray fun item hitem => ?_
    obtain ⟨text, _, rfl⟩ := List.mem_map.1 hitem
    exact Json.spells_string _ text
  have hsorted : (Json.array (texts.map .string)).sorted = .array (texts.map .string) := by
    rw [Json.sorted, Json.sortedItems_eq_map, List.map_map]
    rfl
  rw [Printable, printed, Json.parse_pretty hspells, hsorted]

/-- **Answers** can be read back. -/
theorem printable_answer (answer : Answer) : Printable answer.toJson := by
  cases answer with
  | types found => exact printable_strings found
  | default found => exact printable_string found

/-- So can the answer to a check of volume sizes. -/
theorem printable_volumeAnswer (text : String) (supported : Bool) :
    Printable (volumeAnswer text supported) := by
  have hspells : Json.Spells Json.maxDepth (volumeAnswer text supported)
      (Json.prettyChars 0 (volumeAnswer text supported)) := by
    refine Json.spells_prettyObject fun member hmember => ?_
    rcases List.mem_cons.1 hmember with rfl | hrest
    · exact Json.spells_string _ text
    · rw [List.mem_singleton.1 hrest]
      cases supported <;> rfl
  -- The two members are in the order of their keys already.
  have hsorted : (volumeAnswer text supported).sorted = volumeAnswer text supported := by
    have hother : ¬"volume_size_supported" = "instance_type" := by decide
    have hbehind : ¬"volume_size_supported" < "instance_type" := by decide
    simp only [volumeAnswer, Json.sorted, Json.sortedMembers, Json.insertMember, hother, hbehind,
      if_false]
  rw [Printable, printed, Json.parse_pretty hspells, hsorted]

end Command

namespace Program

/-- The program comes to run a command on a configuration: its threads are started, the variables of
its file are set, and the line, the settings and the log filter are usable. -/
inductive Runs (loader : Loader) (s : Surroundings) (command : Command)
    (configuration : Configuration) : Prop
  | intro (t : Surroundings) (filter : LogFilter) (complaints : String)
      (hthreads : canStart s = true) (henvFile : withEnvFile? s = some t)
      (hprepare : prepare loader t = .ok (command, configuration))
      (hfilter : filterOf t.environment configuration.logging = .ok (filter, complaints))

/-- It leaves behind what its command comes to then. -/
theorem Runs.exists_result {loader : Loader} {s : Surroundings} {command : Command}
    {configuration : Configuration} (h : Runs loader s command configuration) :
    ∃ filter complaints, run loader s = sessionResult filter complaints
      ⟨configuration, (command.run configuration.catalog).outcome.events,
        (command.run configuration.catalog).outcome.value⟩ := by
  obtain ⟨t, filter, complaints, hthreads, henvFile, hprepare, hfilter⟩ := h
  refine ⟨filter, complaints, ?_⟩
  simp only [run, if_pos hthreads, henvFile, runArguments, session, hprepare, hfilter]

/-- A result tells an outcome: its output is the value and nothing went wrong, or there is no output
and the fault is reported. -/
def Result.Tells (result : Result) : Except Fault Json → Prop
  | .ok value => result.exitCode = 0 ∧ Json.parse result.output = .ok value ∧ result.report = ""
  | .error fault => result.exitCode = 1 ∧ result.output = "" ∧ result.report = fault.report

end Program

/-- On a configuration, a command comes to an outcome: it prints the value as a text that is read
back as this value, or fails with the fault, and a program that runs it tells the same. -/
structure Command.ComesTo (command : Command) (configuration : Configuration)
    (outcome : Except Fault Json) : Prop where
  value : (command.run configuration.catalog).outcome.value = outcome.map Command.printed
  printable : ∀ value, outcome = .ok value → Command.Printable value
  tells : ∀ loader s, Program.Runs loader s command configuration →
    (Program.run loader s).Tells outcome

namespace Command

/-- A command comes to what it is answered, if all such answers are printable. -/
theorem comesTo_of_answer {α : Type} {command : Command} {configuration : Configuration}
    {outcome : Except Fault α} {encode : α → Json}
    (hanswer : (command.answer configuration.catalog.build.resolver).outcome.value =
      outcome.map encode)
    (hprintable : ∀ a, Printable (encode a)) :
    command.ComesTo configuration (outcome.map encode) := by
  have hrun : (command.run configuration.catalog).outcome.value =
      (outcome.map encode).map printed := by
    rw [value_run, hanswer]
  refine ⟨hrun, fun value hvalue => ?_, fun loader s hs => ?_⟩
  · cases outcome with
    | ok a =>
      cases hvalue
      exact hprintable a
    | error fault => cases hvalue
  · obtain ⟨filter, complaints, hresult⟩ := hs.exists_result
    rw [hresult, hrun, Program.sessionResult]
    cases outcome with
    | ok a => exact ⟨rfl, hprintable a, rfl⟩
    | error fault => exact ⟨rfl, rfl, rfl⟩

/-- **The command line and the lookups.**  On every configuration, a line of a question in whatever
order and writing is the command of the question, and comes to the outcome of the lookup; and
likewise for the check of volume sizes. -/
theorem comesTo_of_written (configuration : Configuration) :
    (∀ (question : Question) (line : List String), question.IsWritten line →
      Command.parse line = .ok question.command ∧
        question.command.ComesTo configuration
          ((question.ask configuration.catalog.build.resolver).outcome.value.map
            Answer.toJson)) ∧
      ∀ text : String, IsPlainWord text →
        Command.parse ["instance-types", "volume-size-supported", text] =
            .ok (.volumeSizeSupported text) ∧
          (Command.volumeSizeSupported text).ComesTo configuration
            ((ServingCatalog.volumeSizeSupported text).map (volumeAnswer text)) := by
  refine ⟨fun question line hwritten => ⟨question.parse_of_isWritten hwritten, ?_⟩,
    fun text hplain => ⟨parse_volumeSizeSupported hplain, ?_⟩⟩
  · refine comesTo_of_answer ?_ printable_answer
    rw [question.answer_command, Inquiry.outcome_map]
  · exact comesTo_of_answer rfl (printable_volumeAnswer text)

/-- A line with its arguments out of order, the scope apart from its value and a model whose name
looks like an option, asked of a catalog without models; and a check of a volume. -/
theorem comesTo_scopeFirst :
    let question := Question.defaultInstanceType ⟨none, some "-m", some "1", false, true⟩
      (some .training)
    let line := ["instance-types", "default", "--scope", "training", "--tolerate-deprecated",
      "--model-version", "1", "--model-id=-m"]
    (question.IsWritten line ∧ Command.parse line = .ok question.command ∧
      question.command.ComesTo ⟨.default, .default⟩
        (.error (.notFound "Model '-m' version '1' not found"))) ∧
      IsPlainWord "ml.g5.large" ∧
      (Command.volumeSizeSupported "ml.g5.large").ComesTo ⟨.default, .default⟩
        (.ok (.object
          [("instance_type", .string "ml.g5.large"), ("volume_size_supported", .bool false)])) := by
  intro question line
  have hwritten : question.IsWritten line := by
    refine ⟨[.option .scope "training", .flag .tolerateDeprecated, .option .modelVersion "1",
      .option .modelId "-m"], ["--scope", "training", "--tolerate-deprecated", "--model-version",
      "1", "--model-id=-m"], by decide, ?_, rfl⟩
    exact .cons (.apart .scope (by unfold IsPlainWord; decide)) (.cons (.flag .tolerateDeprecated)
      (.cons (.apart .modelVersion (by unfold IsPlainWord; decide))
        (.cons (.joined .modelId "-m") .nil)))
  have hplain : IsPlainWord "ml.g5.large" := by
    unfold IsPlainWord
    decide
  have hcomes := comesTo_of_written ⟨.default, .default⟩
  obtain ⟨hparse, hlookup⟩ := hcomes.1 question line hwritten
  exact ⟨⟨hwritten, hparse, hlookup⟩, hplain, (hcomes.2 "ml.g5.large" hplain).2⟩

end Command

end ServingCatalog
