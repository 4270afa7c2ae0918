import ServingCatalog.Json.Quoted
import ServingCatalog.Json.Numeral

/-!
# Whole values in JSON text

`Json.value` reads a value of any shape. A value that is kept is checked down to its last
character, and arrays and objects nest in it at most 127 deep. A value that is skipped is only
stepped over: halves of pairs in its strings, numbers out of range and any depth pass.
-/

namespace ServingCatalog

namespace Json

/-- Whether a value is kept or only stepped over. -/
inductive Care where
  | keep
  | skip
  deriving DecidableEq

/-- Reads a string behind its opening quote. -/
def readQuoted : Care → Reader String
  | .keep, text => Quoted.read text
  | .skip, text =>
    match Quoted.skip text with
    | .ok (_, rest) => .ok ("", rest)
    | .error failure => .error failure

/-- Reads a number from its first digit on. -/
def readNumber (care : Care) (negative : Bool) : Reader Number := fun text =>
  match care with
  | .keep => Numeral.read negative text
  | .skip =>
    match Numeral.skip text with
    | .ok (_, rest) => .ok (.int 0, rest)
    | .error failure => .error failure

/-- A reader followed by a function on its value. -/
def Reader.map {α β : Type} (f : α → β) (reader : Reader α) : Reader β := fun text =>
  match reader text with
  | .ok (value, rest) => .ok (f value, rest)
  | .error failure => .error failure

/-- The rest of a word and then its value. -/
def word {α : Type} (letters : String) (value : α) : Reader α := fun text =>
  match readWord letters.toList text with
  | .ok rest => .ok (value, rest)
  | .error failure => .error failure

/-- Reads a value, its arrays and objects by the two readers given for them. -/
def valueWith (care : Care) (array object : Reader Json) : Reader Json := fun text =>
  match skipBlanks text with
  | [] => .error .cutShort
  | c :: rest =>
    if c = '"' then (readQuoted care).map .string rest
    else if c = '[' then array rest
    else if c = '\x7b' then object rest
    else if c = 'n' then word "ull" .null rest
    else if c = 't' then word "rue" (.bool true) rest
    else if c = 'f' then word "alse" (.bool false) rest
    else if c = '-' then (readNumber care true).map .number rest
    else if c.isDigit then (readNumber care false).map .number (c :: rest)
    else .error .malformed

/-- Reads the value of a member and puts it among those before it. -/
def readMember (value : Reader Json) (key : String) (before : List (String × Json)) :
    Reader (List (String × Json)) := fun text =>
  match readColon text with
  | .error failure => .error failure
  | .ok rest => value.map (insertMember key · before) rest

/-- Reads a value in which arrays and objects nest at most as deep as the number given. -/
def value (care : Care) : Nat → Reader Json
  | 0 => valueWith care (fun _ => .error .malformed) (fun _ => .error .malformed)
  | depth + 1 =>
    valueWith care
      ((items (value care depth)).map .array)
      ((members (readQuoted care) (readMember (value care depth)) []).map .object)

/-- How deep the values of a kept text nest. -/
def maxDepth : Nat := 127

/-- Reads a text that is one value. -/
def parse (text : String) : Except Failure Json :=
  readWhole (value .keep maxDepth) text.toList

/-- Steps over a value. -/
def skipValue : Reader Unit := fun text =>
  (value .skip text.length).map (fun _ => ()) text

end Json

end ServingCatalog
