import ServingCatalog.Model.Query
import ServingCatalog.Model.Scope

/-!
# Commands

What the program can be asked to do, and what can be wrong with a command line. Asking for help or
for the version ends a line as a fault does, but is no error.
-/

namespace ServingCatalog

/-- A command with its arguments. -/
inductive Command where
  | acceptTypes (query : Query)
  | defaultAcceptType (query : Query)
  | instanceTypes (query : Query) (scope : Option Scope)
  | defaultInstanceType (query : Query) (scope : Option Scope)
  | volumeSizeSupported (instanceType : String)
  deriving DecidableEq

/-- Why a command line is no command. -/
inductive UsageFault where
  | helpWanted
  | versionWanted
  | commandMissing
  | unknownCommand
  | unknownArgument
  | valueMissing
  | valueUnwanted
  | repeatedArgument
  | rejectedValue (message : String)
  | operandMissing
  deriving DecidableEq

namespace UsageFault

/-- The exit code of the program: 0 where help or the version is shown at request, else 2. -/
def exitCode : UsageFault → Nat
  | .helpWanted => 0
  | .versionWanted => 0
  | _ => 2

/-- The name of the program and its version. -/
def versionText : String := "model-accessors 0.1.0\n"

end UsageFault

end ServingCatalog
