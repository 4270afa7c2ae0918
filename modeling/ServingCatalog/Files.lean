/-!
# Files and their paths

The files below one directory, by their paths from there. A path leads from step to step: an empty
step and `.` stay in place, and `..` leads back, which needs a directory to come from. What lies
outside the directory is not known, so a path that leaves it, or that starts at the root of all
files, leads nowhere.
-/

namespace ServingCatalog

/-- The files of a directory, by their paths. -/
abbrev Files := List (String × String)

namespace Files

/-- The step that leads back. -/
def backStep : List Char := ['.', '.']

/-- Whether a step stays in place. -/
def isStay (step : List Char) : Bool := step = [] || step = ['.']

/-- All steps of a path. -/
def allSteps (path : String) : List (List Char) := path.toList.splitOn '/'

/-- The steps of a path but those that stay in place. -/
def steps (path : String) : List (List Char) := (allSteps path).filter (!isStay ·)

/-- A path in its plain form. -/
def plainPath (path : String) : String := String.ofList (['/'].intercalate (steps path))

/-- Whether a path starts at the root of all files. -/
def isAbsolute (path : String) : Bool := path.toList.head? = some '/'

/-- Whether a path ends with a step that stays in place, so that it can only mean a directory. -/
def endsInStay (path : String) : Bool := isStay ((allSteps path).getLastD [])

/-- Whether some file lies below a place. -/
def isDirectory (files : Files) (place : List (List Char)) : Bool :=
  place = [] ||
    files.any fun (name, _) => place.isPrefixOf (steps name) && place.length < (steps name).length

/-- The place that steps lead to from a place. -/
def walk? (files : Files) : List (List Char) → List (List Char) → Option (List (List Char))
  | place, [] => some place
  | place, step :: rest =>
    if !isDirectory files place then none
    else if step = backStep then
      if place = [] then none else walk? files place.dropLast rest
    else walk? files (place ++ [step]) rest

/-- The text of the file that a path leads to. -/
def read? (files : Files) (path : String) : Option String :=
  if isAbsolute path || endsInStay path then none
  else do
    let place ← walk? files [] (steps path)
    let (_, text) ← files.find? fun (name, _) => steps name = place
    return text

/-- A path with an extension behind its last step, if that step has a name to put it behind. -/
def withExtension? (extension : String) (path : String) : Option String :=
  match (steps path).getLast? with
  | none => none
  | some last =>
    if isAbsolute path || last = backStep then none
    else some (plainPath path ++ "." ++ extension)

/-- The extension of a path: what follows the last period of its last step, unless the step starts
with it. -/
def extensionOf? (path : String) : Option (List Char) :=
  match (((steps path).getLastD []).splitOn '.').reverse with
  | [] => none
  | [_] => none
  | extension :: before => if before = [[]] then none else some extension

end Files

end ServingCatalog
