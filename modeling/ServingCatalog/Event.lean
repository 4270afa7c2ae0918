/-!
# Log events

What a lookup or the program tells about itself while it works. An event has a level, the part of
the program it comes from, a message and fields.
-/

namespace ServingCatalog

/-- How serious an event is, the most serious first. -/
inductive Level where
  | error
  | warn
  | info
  | debug
  | trace
  deriving DecidableEq

/-- The name of a level in log lines. -/
def Level.name : Level → String
  | .error => "ERROR"
  | .warn => "WARN"
  | .info => "INFO"
  | .debug => "DEBUG"
  | .trace => "TRACE"

/-- The value of a field. -/
inductive FieldValue where
  | text (value : String)
  | count (value : Nat)
  deriving DecidableEq

/-- One event. -/
structure Event where
  level : Level
  target : String
  message : String
  fields : List (String × FieldValue)
  deriving DecidableEq

end ServingCatalog
