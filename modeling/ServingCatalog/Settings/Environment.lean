import ServingCatalog.Settings.Order

/-!
# Settings in environment variables

A variable whose name starts with `APP__`, in any letter case, is a setting; two underscores in the
rest of the name separate the steps of its path. A value that reads as a boolean, an integer or a
floating-point number is one, and any other value is a text. Of names that differ in letter case
only the last one counts.
-/

namespace ServingCatalog

namespace Environment

/-- How the names of settings start, in small letters. -/
def namePrefix : List Char := "app__".toList

/-- Two underscores become a point, from the left. -/
def pointed : List Char → List Char
  | '_' :: '_' :: rest => '.' :: pointed rest
  | c :: rest => c :: pointed rest
  | [] => []

/-- The key of a variable that is a setting. -/
def key? (name : String) : Option String :=
  let small := (Text.lower name).toList
  if namePrefix.isPrefixOf small then
    some (String.ofList (pointed (small.drop namePrefix.length)))
  else none

/-- The boolean that a word is in any letter case. -/
def bool? (value : String) : Option Bool :=
  let small := value.map Char.toLower
  if small = "true" then some true else if small = "false" then some false else none

/-- What the value of a variable reads as. -/
def scalar (value : String) : Scalar :=
  match bool? value, Literal.integer? value.toList, Literal.float? value.toList with
  | some b, _, _ => .bool b
  | none, some i, _ => .int i
  | none, none, some x => .float x
  | none, none, none => .text value

/-- Where these settings were written. -/
def origin : String := "the environment"

/-- The settings that variables say, one after the other. -/
def said (environment : List (String × String)) : List (String × Setting) :=
  environment.filterMap fun (name, value) =>
    (key? name).map fun key => (key, .scalar (some origin) (scalar value))

/-- The settings among the variables, each key once. -/
def source (environment : List (String × String)) : Entries := Entries.collect (said environment)

end Environment

end ServingCatalog
