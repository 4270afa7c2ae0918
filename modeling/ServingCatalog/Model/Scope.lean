/-!
# Scopes of instance types

A model is either trained or asked for answers, and has instance types for each.
-/

namespace ServingCatalog

/-- What an instance is used for. -/
inductive Scope where
  | training
  | inference
  deriving DecidableEq

namespace Scope

/-- The name of a scope. -/
def name : Scope → String
  | .training => "training"
  | .inference => "inference"

/-- A scope is shown by its name. -/
instance : ToString Scope where
  toString scope := scope.name

/-- The message for a name that no scope has. -/
def unknownMessage (name : String) : String :=
  "Unknown scope '" ++ name ++ "', expected 'training' or 'inference'"

/-- The scope that a text names, or the message that there is none. -/
def parse : String → Except String Scope
  | "training" => .ok .training
  | "inference" => .ok .inference
  | other => .error (unknownMessage other)

end Scope

end ServingCatalog
