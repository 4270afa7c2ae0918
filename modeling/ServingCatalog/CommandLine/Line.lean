import ServingCatalog.CommandLine.Basic

/-!
# The arguments of one command

Arguments are read from left to right. An option takes its value from behind an equals sign or from
the next argument; a value that stands by itself is settled only when the next option, the next
flag or the end of the line is reached, so a fault before that point wins over one in the value.
Behind `--` every argument is an operand.
-/

namespace ServingCatalog

/-- The options that take a value. -/
inductive OptionName where
  | modelId
  | modelVersion
  | region
  | scope
  deriving DecidableEq

/-- The flags, which take none. -/
inductive FlagName where
  | tolerateVulnerable
  | tolerateDeprecated
  deriving DecidableEq

/-- How an option is written. -/
def OptionName.text : OptionName → String
  | .modelId => "model-id"
  | .modelVersion => "model-version"
  | .region => "region"
  | .scope => "scope"

/-- How a flag is written. -/
def FlagName.text : FlagName → String
  | .tolerateVulnerable => "tolerate-vulnerable"
  | .tolerateDeprecated => "tolerate-deprecated"

/-- The arguments that a command admits, besides the request for help. -/
structure LineShape where
  options : List OptionName
  flags : List FlagName
  operand : Bool

/-- The arguments that have been settled. -/
structure Line where
  modelId : Option String
  modelVersion : Option String
  region : Option String
  scope : Option Scope
  tolerateVulnerable : Bool
  tolerateDeprecated : Bool
  operand : Option String
  deriving DecidableEq

namespace Line

/-- The line without arguments. -/
def empty : Line := ⟨none, none, none, none, false, false, none⟩

/-- Settles the value of an option. -/
def setOption (option : OptionName) (value : String) (line : Line) : Except UsageFault Line :=
  match option with
  | .modelId =>
    if line.modelId.isSome then .error .repeatedArgument
    else .ok { line with modelId := some value }
  | .modelVersion =>
    if line.modelVersion.isSome then .error .repeatedArgument
    else .ok { line with modelVersion := some value }
  | .region =>
    if line.region.isSome then .error .repeatedArgument
    else .ok { line with region := some value }
  | .scope =>
    if line.scope.isSome then .error .repeatedArgument
    else
      match Scope.parse value with
      | .ok scope => .ok { line with scope := some scope }
      | .error message => .error (.rejectedValue message)

/-- Settles a flag. -/
def setFlag (flag : FlagName) (line : Line) : Except UsageFault Line :=
  match flag with
  | .tolerateVulnerable =>
    if line.tolerateVulnerable then .error .repeatedArgument
    else .ok { line with tolerateVulnerable := true }
  | .tolerateDeprecated =>
    if line.tolerateDeprecated then .error .repeatedArgument
    else .ok { line with tolerateDeprecated := true }

/-- The query that the arguments make. -/
def query (line : Line) : Query :=
  { region := line.region
    modelId := line.modelId
    modelVersion := line.modelVersion
    tolerateVulnerable := line.tolerateVulnerable
    tolerateDeprecated := line.tolerateDeprecated }

end Line

/-- The form of an argument. -/
inductive ArgumentForm where
  | separator
  | long (name : String) (value : Option String)
  | short (letter : Char)
  | plain
  deriving DecidableEq

/-- The form of an argument; a hyphen alone is plain. -/
def argumentForm (argument : String) : ArgumentForm :=
  match argument.toList with
  | ['-', '-'] => .separator
  | '-' :: '-' :: rest =>
    match rest.dropWhile (· ≠ '=') with
    | [] => .long (String.ofList rest) none
    | _ :: value =>
      .long (String.ofList (rest.takeWhile (· ≠ '='))) (some (String.ofList value))
  | '-' :: letter :: _ => .short letter
  | _ => .plain

/-- An option whose value has not been settled, and the value if it has been read. -/
abbrev Pending := Option (OptionName × Option String)

/-- Settles what is pending. -/
def settle (line : Line) : Pending → Except UsageFault Line
  | none => .ok line
  | some (_, none) => .error .valueMissing
  | some (option, some value) => line.setOption option value

/-- How help is asked for. -/
def helpName : String := "help"

namespace LineShape

/-- What a name behind two hyphens means. -/
inductive Named where
  | option (name : OptionName)
  | flag (name : FlagName)
  | help
  | unknown

/-- What a name behind two hyphens means in a line of this shape. -/
def named (shape : LineShape) (name : String) : Named :=
  match shape.options.find? (·.text = name), shape.flags.find? (·.text = name) with
  | some option, _ => .option option
  | none, some flag => .flag flag
  | none, none => if name = helpName then .help else .unknown

/-- Takes an operand. -/
def takeOperand (shape : LineShape) (argument : String) (line : Line) : Except UsageFault Line :=
  if shape.operand && line.operand.isNone then .ok { line with operand := some argument }
  else .error .unknownArgument

/-- Takes the operands behind the separator. -/
def takeOperands (shape : LineShape) : List String → Line → Pending → Except UsageFault Line
  | [], line, pending => settle line pending
  | argument :: arguments, line, pending => do
    takeOperands shape arguments (← shape.takeOperand argument line) pending

/-- Reads arguments onto those settled and the one pending. -/
def readFrom (shape : LineShape) : List String → Line → Pending → Except UsageFault Line
  | [], line, pending => settle line pending
  | argument :: arguments, line, pending =>
    match argumentForm argument with
    | .separator => shape.takeOperands arguments line pending
    | .long name value =>
      match shape.named name, value with
      | .option option, none => do
        readFrom shape arguments (← settle line pending) (some (option, none))
      | .option option, some value => do
        readFrom shape arguments (← (← settle line pending).setOption option value) none
      | .flag flag, none => do
        readFrom shape arguments (← (← settle line pending).setFlag flag) none
      | .help, none => do
        let _ ← settle line pending
        throw .helpWanted
      | .flag _, some _ => throw .valueUnwanted
      | .help, some _ => throw .valueUnwanted
      | .unknown, _ => throw .unknownArgument
    | .short letter =>
      if letter = 'h' then do
        let _ ← settle line pending
        throw .helpWanted
      else throw .unknownArgument
    | .plain =>
      match pending with
      | some (option, none) => readFrom shape arguments line (some (option, some argument))
      | _ => do
        let line ← shape.takeOperand argument line
        readFrom shape arguments line pending

/-- Reads the arguments of a command; an operand that is admitted has to be there. -/
def read (shape : LineShape) (arguments : List String) : Except UsageFault Line := do
  let line ← shape.readFrom arguments Line.empty none
  if shape.operand && line.operand.isNone then throw .operandMissing
  return line

end LineShape

end ServingCatalog
