import ServingCatalog.CommandLine.Parse
import ServingCatalog.CommandLine.Run
import ServingCatalog.Configuration.Load
import ServingCatalog.EnvFile
import ServingCatalog.LogFilter

/-!
# The program as a whole

From arguments, files and environment to exit code and output. First the threads are started and the
variables of a file are added to the environment. Then the arguments come: a line that is no command
ends the program whatever else is wrong. Then the configuration is loaded and the log filter is
read, and only then is the command run. Logging decides which events are shown, and nothing else.

At some places the program does not report what is wrong, but crashes. Memory and threads have no
end here.
-/

namespace ServingCatalog

namespace Program

/-- What the program starts with: arguments, files, the variables of the environment, the names of
those variables whose values are no texts, with nothing for a name that is none either, and the text
of the nearest file of variables in the directories around this one. -/
structure Surroundings where
  arguments : List String
  files : Files
  environment : Variables
  garbled : List (Option String)
  enclosing : Option String

/-- Why the program did not come to run a command. -/
inductive Stop where
  | usage (fault : UsageFault)
  | settings (fault : SettingFault)

/-- A command that was run, on its configuration. -/
structure Session where
  configuration : Configuration
  events : List Event
  outcome : Except Fault String

/-! ## Before the arguments -/

/-- The variable for the number of threads. -/
def threadsVariable : String := "TOKIO_WORKER_THREADS"

/-- Whether a text is a positive number of 64 bits; a plus sign may stand before it. -/
def isThreadCount (text : String) : Bool :=
  let digits := if text.toList.head? = some '+' then text.toList.drop 1 else text.toList
  digits ≠ [] && digits.all Char.isDigit && 0 < Literal.natOfDigits digits &&
    Literal.natOfDigits digits ≤ Json.Numeral.maxSignificand

/-- Whether threads can be started: their number is not given, or given as one. -/
def canStart (s : Surroundings) : Bool :=
  !s.garbled.contains (some threadsVariable) &&
    (match s.environment.lookup threadsVariable with
      | none => true
      | some text => isThreadCount text)

/-- The name of the file whose variables the program adds to the environment. -/
def envFileName : String := ".env"

/-- The text of that file, which may be in a directory around this one. -/
def envText? (s : Surroundings) : Option String :=
  match s.files.read? envFileName with
  | some text => some text
  | none => s.enclosing

/-- The environment with the variables of that file, if they can be set. A variable whose value is
no text is not set, and may get a value that is one. -/
def withEnvFile? (s : Surroundings) : Option Surroundings :=
  match envText? s with
  | none => some s
  | some text =>
    (EnvFile.add? text s.environment).map fun environment =>
      { s with
        environment
        garbled := s.garbled.filter fun name =>
          (name.bind fun name => environment.lookup name).isNone }

/-! ## Running a command -/

/-- What the environment says of the settings: all variables must be texts. -/
def environmentSource (s : Surroundings) : Except SettingFault Entries :=
  if s.garbled = [] then .ok (Environment.source s.environment) else .error .garbled

/-- Loads the configuration from where it usually is. -/
def load (loader : Loader) (s : Surroundings) : Except SettingFault Configuration :=
  Configuration.loadOver loader Configuration.defaultName Configuration.localName s.files
    (environmentSource s)

/-- The command and the configuration it runs on. -/
def prepare (loader : Loader) (s : Surroundings) : Except Stop (Command × Configuration) :=
  match Command.parse s.arguments with
  | .error fault => .error (.usage fault)
  | .ok command =>
    match load loader s with
    | .error fault => .error (.settings fault)
    | .ok configuration => .ok (command, configuration)

/-- Runs the command that the arguments make. -/
def session (loader : Loader) (s : Surroundings) : Except Stop Session :=
  match prepare loader s with
  | .error stop => .error stop
  | .ok (command, configuration) =>
    let traced := (command.run configuration.catalog).outcome
    .ok ⟨configuration, traced.events, traced.value⟩

/-! ## Logging -/

/-- The variable that replaces the configured level. -/
def filterVariable : String := "RUST_LOG"

/-- The filter for events, and complaints about what is wrong with it. A filter in the environment
counts only if all of it is right. A part that is cut inside a character leaves no filter, but the
complaints so far. -/
def filterOf (environment : Variables) (logging : LoggingConfig) :
    Except String (LogFilter × String) :=
  match environment.lookup filterVariable with
  | none => LogFilter.parseSome logging.level
  | some text =>
    match LogFilter.parse text with
    | .ok filter => .ok (filter, "")
    | .error .cut => .error ""
    | .error _ => LogFilter.parseSome logging.level

/-- The first event of a program that logs. -/
def startEvent (logging : LoggingConfig) : Event :=
  { level := .debug
    target := "model_accessors::infrastructure::logging"
    message := "Logging initialized with level: " ++ logging.level
    fields := [] }

/-! ## Results -/

/-- What the program leaves behind: its exit code and what it printed, and on the error stream
complaints about the log filter, then the events it showed in some layout, then a report of what
went wrong. -/
structure Result where
  exitCode : Nat
  output : String
  complaints : String
  shown : List Event
  format : LogFormat
  report : String

/-- The result of a crash; what it says of itself on the error stream is left out. -/
def crashResult (complaints : String) : Result := ⟨101, "", complaints, [], .pretty, ""⟩

/-- The result of a line that is no command. -/
def usageResult (fault : UsageFault) : Result :=
  { exitCode := fault.exitCode
    output := if fault = .versionWanted then UsageFault.versionText else ""
    complaints := ""
    shown := []
    format := .pretty
    report := "" }

/-- The result of settings that are not usable. A variable that is no text and a key that leads
nowhere are not reported, but make the program crash. -/
def settingsResult : SettingFault → Result
  | .garbled => crashResult ""
  | .outOfReach _ => crashResult ""
  | fault => ⟨1, "", "", [], .pretty, "Error: " ++ fault.message ++ "\n"⟩

/-- The result of a command that was run, with a filter for its events. -/
def sessionResult (filter : LogFilter) (complaints : String) (session : Session) : Result :=
  let logging := session.configuration.logging
  let shown := (startEvent logging :: session.events).filter filter.admits
  match session.outcome with
  | .ok output => ⟨0, output, complaints, shown, logging.format, ""⟩
  | .error fault => ⟨1, "", complaints, shown, logging.format, fault.report⟩

/-- The result of the program from the arguments on. -/
def runArguments (loader : Loader) (s : Surroundings) : Result :=
  match session loader s with
  | .error (.usage fault) => usageResult fault
  | .error (.settings fault) => settingsResult fault
  | .ok session =>
    match filterOf s.environment session.configuration.logging with
    | .error complaints => crashResult complaints
    | .ok (filter, complaints) => sessionResult filter complaints session

/-- The result of the program. -/
def run (loader : Loader) (s : Surroundings) : Result :=
  if canStart s then
    match withEnvFile? s with
    | none => crashResult ""
    | some s => runArguments loader s
  else crashResult ""

end Program

end ServingCatalog
