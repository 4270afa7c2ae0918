import ServingCatalog.Resolver

/-!
# Resolvers with fixed answers

A resolver that gives the same lists to every query, or fails with the same fault, and accepts
identifiers by the usual rule, always or never. It keeps a record of the calls that reach it.
-/

namespace ServingCatalog

/-- What a resolver with fixed answers says. -/
structure FixedAnswers where
  accepts : Option Bool
  acceptTypes : List String
  instanceTypes : List String
  fault : Option Fault

namespace FixedAnswers

/-- The fault of an empty list that is asked for its default. -/
def noDefault : Fault := .notFound "No default configured"

/-- The list, unless there is a fault. -/
def listOf (fixed : FixedAnswers) (types : List String) : Except Fault (List String) :=
  match fixed.fault with
  | some fault => .error fault
  | none => .ok types

/-- The first entry of the list, unless there is a fault. -/
def defaultOf (fixed : FixedAnswers) (types : List String) : Except Fault String :=
  match fixed.fault, types with
  | some fault, _ => .error fault
  | none, first :: _ => .ok first
  | none, [] => .error noDefault

/-- The resolver that gives these answers. -/
def resolver (fixed : FixedAnswers) : Resolver :=
  Resolver.recorded
    { name := "mock"
      acceptsModel := fun modelId modelVersion =>
        fixed.accepts.getD (isModelInput modelId modelVersion)
      supportedAcceptTypes := fun _ => .settled (fixed.listOf fixed.acceptTypes)
      defaultAcceptType := fun _ => .settled (fixed.defaultOf fixed.acceptTypes)
      instanceTypes := fun _ _ => .settled (fixed.listOf fixed.instanceTypes)
      defaultInstanceType := fun _ _ => .settled (fixed.defaultOf fixed.instanceTypes) }

end FixedAnswers

end ServingCatalog
