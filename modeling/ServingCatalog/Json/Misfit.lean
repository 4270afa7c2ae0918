import ServingCatalog.Json.Basic
import ServingCatalog.Text.Inspect

/-!
# Well-formed data of the wrong shape

A `Misfit` says how a value differs from what was wanted, and `Misfit.message` words it. How null
and floating-point numbers are worded differs between kinds of data, so both are parameters.
-/

namespace ServingCatalog

/-- What a value turned out to be, as far as a message shows it. -/
inductive Found where
  | null
  | bool (value : Bool)
  | int (value : Int)
  | float (value : Binary64)
  | text (value : String)
  | sequence
  | map
  deriving DecidableEq

/-- A value that is not of the shape wanted. -/
inductive Misfit where
  | wrongType (found : Found) (wanted : String)
  | wrongLength (length : Nat) (wanted : String)
  | missingField (name : String)
  | duplicateField (name : String)
  | unknownVariant (name : String) (known : List String)
  deriving DecidableEq

/-- How a number shows in a message. -/
def Number.found : Number → Found
  | .int i => .int i
  | .float x => .float x

/-- How a value shows in a message. -/
def Json.found : Json → Found
  | .null => .null
  | .bool b => .bool b
  | .number n => n.found
  | .string s => .text s
  | .array _ => .sequence
  | .object _ => .map

/-- A text between backticks. -/
def ticked (text : String) : String := "`" ++ text ++ "`"

/-- The words for the two kinds of value that are not worded alike everywhere. -/
structure Wording where
  null : String
  float : Binary64 → String

/-- JSON says `null`, and gives numbers an exponent where they are very large or small. -/
def Json.wording : Wording := ⟨"null", Binary64.ranged⟩

/-- The words for what was found. -/
def Found.describe (words : Wording) : Found → String
  | .null => words.null
  | .bool b => "boolean " ++ ticked (toString b)
  | .int i => "integer " ++ ticked (toString i)
  | .float x => "floating point " ++ ticked (words.float x)
  | .text s => "string " ++ Text.inspect s
  | .sequence => "sequence"
  | .map => "map"

/-- The message for a misfit. -/
def Misfit.message (words : Wording) : Misfit → String
  | .wrongType found wanted =>
    "invalid type: " ++ found.describe words ++ ", expected " ++ wanted
  | .wrongLength length wanted =>
    "invalid length " ++ toString length ++ ", expected " ++ wanted
  | .missingField name => "missing field " ++ ticked name
  | .duplicateField name => "duplicate field " ++ ticked name
  | .unknownVariant name known =>
    "unknown variant " ++ ticked name ++ ", expected " ++ " or ".intercalate (known.map ticked)

end ServingCatalog
