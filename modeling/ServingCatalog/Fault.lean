/-!
# What goes wrong in a lookup

A fault is an argument that cannot be used, something that is not there, or a failure of the
resolver that was asked. Only the first kind can have a cause: an instance type of the wrong form.
-/

namespace ServingCatalog

/-- A text that is not of the form `ml.family.size`. -/
inductive MalformedInstanceType where
  | malformed
  deriving DecidableEq

/-- The message for a malformed instance type. -/
def MalformedInstanceType.message : MalformedInstanceType → String
  | .malformed => "Instance type must have 2 periods and start with 'ml'."

/-- A failed lookup. -/
inductive Fault where
  | invalidArgument (message : String) (cause : Option MalformedInstanceType)
  | notFound (message : String)
  | resolver (message : String)
  deriving DecidableEq

namespace Fault

/-- An unusable argument without a cause. -/
def invalid (message : String) : Fault := .invalidArgument message none

/-- An instance type that cannot be read. -/
def invalidInstanceType (text : String) (cause : MalformedInstanceType) : Fault :=
  .invalidArgument ("Failed to parse instance type '" ++ text ++ "': " ++ cause.message)
    (some cause)

/-- The text of a fault: its kind and its message. -/
def describe : Fault → String
  | .invalidArgument message _ => "Invalid argument: " ++ message
  | .notFound message => "Not found: " ++ message
  | .resolver message => "Resolver error: " ++ message

/-- The cause of a fault. -/
def cause? : Fault → Option MalformedInstanceType
  | .invalidArgument _ cause => cause
  | _ => none

/-- Whether an argument was at fault. -/
def isInvalidArgument : Fault → Bool
  | .invalidArgument _ _ => true
  | _ => false

/-- A fault as the error stream reports it, with its cause below. -/
def report (fault : Fault) : String :=
  match fault.cause? with
  | none => "Error: " ++ fault.describe ++ "\n"
  | some cause => "Error: " ++ fault.describe ++ "\n\nCaused by:\n    " ++ cause.message ++ "\n"

end Fault

end ServingCatalog
