import ServingCatalog.CommandLine.Line

/-!
# From arguments to a command

Commands have names of two words. Each of the first words, and the program itself, also answers to
a request for help; the program alone tells its version.
-/

namespace ServingCatalog

/-- A level of commands: one that names others, or one that takes arguments. -/
inductive Menu where
  | choice (versioned : Bool) (entries : List (String × Menu))
  | leaf (shape : LineShape) (build : Line → Command)

namespace Menu

/-- The options that say which model is meant. -/
def modelOptions : List OptionName := [.modelId, .modelVersion, .region]

/-- The arguments of a lookup for content types. -/
def modelShape : LineShape := ⟨modelOptions, [.tolerateVulnerable, .tolerateDeprecated], false⟩

/-- The arguments of a lookup for instance types. -/
def scopedShape : LineShape :=
  ⟨modelOptions ++ [.scope], [.tolerateVulnerable, .tolerateDeprecated], false⟩

/-- The argument of the volume check. -/
def operandShape : LineShape := ⟨[], [], true⟩

/-- The commands on content types. -/
def acceptTypes : Menu :=
  .choice false
    [("options", .leaf modelShape fun line => .acceptTypes line.query),
      ("default", .leaf modelShape fun line => .defaultAcceptType line.query)]

/-- The commands on instance types. -/
def instanceTypes : Menu :=
  .choice false
    [("list", .leaf scopedShape fun line => .instanceTypes line.query line.scope),
      ("default", .leaf scopedShape fun line => .defaultInstanceType line.query line.scope),
      ("volume-size-supported",
        .leaf operandShape fun line => .volumeSizeSupported (line.operand.getD ""))]

/-- All commands. -/
def main : Menu :=
  .choice true [("accept-types", acceptTypes), ("instance-types", instanceTypes)]

/-- The entry of a name. -/
def entry? (name : String) : Menu → Option Menu
  | .choice _ entries => entries.lookup name
  | .leaf _ _ => none

/-- Whether a level offers help as a command. -/
def offersHelp : Menu → Bool
  | .choice _ _ => true
  | .leaf _ _ => false

/-- Follows the words behind a request for help. -/
def help (menu : Menu) : List String → UsageFault
  | [] => .helpWanted
  | word :: words =>
    match menu.entry? word with
    | some entry => help entry words
    | none =>
      if menu.offersHelp && word = helpName then
        (if words = [] then .helpWanted else .unknownCommand)
      else .unknownCommand

/-- The fault of the first word behind a separator, where no command can follow. -/
def afterSeparator (menu : Menu) : List String → UsageFault
  | [] => .commandMissing
  | word :: _ =>
    if (menu.entry? word).isSome || word = helpName then .unknownArgument else .unknownCommand

/-- The fault of a word with a hyphen, or of a word that names no command. -/
def refuse (versioned : Bool) : ArgumentForm → UsageFault
  | .long name value =>
    if name = helpName || (versioned && name = "version") then
      match value with
      | some _ => .valueUnwanted
      | none => if name = helpName then .helpWanted else .versionWanted
    else .unknownArgument
  | .short letter =>
    if letter = 'h' then .helpWanted
    else if versioned && letter = 'V' then .versionWanted
    else .unknownArgument
  | _ => .unknownCommand

/-- Follows arguments to a command. -/
def parse : Menu → List String → Except UsageFault Command
  | .leaf shape build, arguments => (shape.read arguments).map build
  | .choice _ _, [] => .error .commandMissing
  | .choice versioned entries, word :: words =>
    match entries.lookup word with
    | some entry => parse entry words
    | none =>
      if word = helpName then .error (help (.choice versioned entries) words)
      else
        match argumentForm word with
        | .separator => .error (afterSeparator (.choice versioned entries) words)
        | form => .error (refuse versioned form)
termination_by _ arguments => arguments.length

end Menu

/-- The command that the arguments of the program make. -/
def Command.parse (arguments : List String) : Except UsageFault Command :=
  Menu.main.parse arguments

end ServingCatalog
