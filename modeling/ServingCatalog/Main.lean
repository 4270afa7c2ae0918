import ServingCatalog.Json.Printer
import ServingCatalog.Program

/-!
# The command line

Gathers arguments, files and environment, runs the program on them, and writes what it leaves
behind.
-/

namespace ServingCatalog

namespace Main

/-- The files that can matter: the two configuration files in each form, and the variables. -/
def candidates : List String :=
  Program.envFileName ::
    [Configuration.defaultName, Configuration.localName].flatMap fun name =>
      name :: (FileForm.all.flatMap FileForm.extensions).map fun extension =>
        name ++ "." ++ extension

/-- The text of a file, if it can be read. -/
def readFile? (path : String) : IO (Option String) := do
  try
    return some (← IO.FS.readFile path)
  catch _ => return none

/-- Reads those of the candidates that are files. -/
def readFiles : IO Files :=
  candidates.filterMapM fun path => do
    return (← readFile? path).map (path, ·)

/-- The nearest file of variables in so many directories around this one. -/
def readEnclosing : Nat → String → IO (Option String)
  | 0, _ => return none
  | depth + 1, above => do
    match ← readFile? (above ++ Program.envFileName) with
    | some text => return some text
    | none => readEnclosing depth (above ++ "../")

/-- A variable as the system lists it, its name before the first equals sign. -/
def splitVariable (line : List UInt8) : Option (List UInt8 × List UInt8) :=
  match line.dropWhile (· ≠ 61) with
  | [] => none
  | _ :: value => some (line.takeWhile (· ≠ 61), value)

/-- The text of some bytes. -/
def text? (bytes : List UInt8) : Option String := String.fromUTF8? ⟨bytes.toArray⟩

/-- All environment variables: those that are texts, and the names of the others. -/
def readVariables : IO (Variables × List (Option String)) := do
  let listing ←
    try
      IO.FS.readBinFile "/proc/self/environ"
    catch _ => return ([], [])
  let listed := (listing.toList.splitOn 0).filterMap splitVariable
  return listed.partitionMap fun (name, value) =>
    match text? name, text? value with
    | some name, some value => .inl (name, value)
    | name?, _ => .inr name?

/-- A field of an event as JSON. -/
def fieldJson : FieldValue → Json
  | .text s => .string s
  | .count n => .number (.int n)

/-- An event as a line of JSON. -/
def eventJson (e : Event) : Json :=
  .object
    [("level", .string e.level.name),
      ("fields", .object (("message", .string e.message) ::
        e.fields.map fun (name, value) => (name, fieldJson value))),
      ("target", .string e.target)]

/-- The text of a field in a line for people. -/
def fieldText : String × FieldValue → String
  | (name, .text s) => ", " ++ name ++ ": " ++ s
  | (name, .count n) => ", " ++ name ++ ": " ++ toString n

/-- An event as a line for people. -/
def eventText (e : Event) : String :=
  "  " ++ e.level.name ++ " " ++ e.target ++ ": " ++ e.message ++
    String.join (e.fields.map fieldText)

/-- An event in a layout. -/
def eventLine (format : LogFormat) (e : Event) : String :=
  match format with
  | .json => (eventJson e).compact
  | .pretty => eventText e

end Main

end ServingCatalog

open ServingCatalog in
/-- Runs the program. -/
def main (arguments : List String) : IO UInt32 := do
  let files ← Main.readFiles
  let (environment, garbled) ← Main.readVariables
  let enclosing ← Main.readEnclosing 64 "../"
  let result := Program.run .plain ⟨arguments, files, environment, garbled, enclosing⟩
  IO.eprint result.complaints
  for event in result.shown do
    IO.eprintln (Main.eventLine result.format event)
  IO.eprint result.report
  IO.print result.output
  return UInt32.ofNat result.exitCode
