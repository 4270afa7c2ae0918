import ServingCatalog.Model.Scope

/-!
# Model specs

What a catalog knows of one version of a model: the regions it is offered in, the content types it
can answer with, and the instance types it runs on. Each builder step writes one of these and makes
the first entry of a list its default.
-/

namespace ServingCatalog

/-- The instance types of a model for one scope. -/
structure ScopeSpec where
  instanceTypes : List String
  default : Option String
  deriving DecidableEq

/-- One version of a model. No regions at all stand for every region. -/
structure ModelSpec where
  modelId : String
  version : String
  regions : List String
  acceptTypes : List String
  defaultAcceptType : Option String
  training : Option ScopeSpec
  inference : Option ScopeSpec
  deriving DecidableEq

/-- A list of instance types whose first entry is the default. -/
def ScopeSpec.ofList (types : List String) : ScopeSpec := ⟨types, types.head?⟩

namespace ModelSpec

/-- A version of a model of which nothing else is known. -/
def named (modelId version : String) : ModelSpec :=
  ⟨modelId, version, [], [], none, none, none⟩

/-- Writes the regions. -/
def withRegions (regions : List String) (spec : ModelSpec) : ModelSpec :=
  { spec with regions }

/-- Writes the content types. -/
def withAcceptTypes (types : List String) (spec : ModelSpec) : ModelSpec :=
  { spec with acceptTypes := types, defaultAcceptType := types.head? }

/-- Writes the instance types of a scope. -/
def withInstanceTypes (scope : Scope) (types : List String) (spec : ModelSpec) : ModelSpec :=
  match scope with
  | .training => { spec with training := some (.ofList types) }
  | .inference => { spec with inference := some (.ofList types) }

/-- The instance types of a scope. -/
def scope? (spec : ModelSpec) : Scope → Option ScopeSpec
  | .training => spec.training
  | .inference => spec.inference

/-- Whether the model is offered in a region. -/
def isOfferedIn (region : String) (spec : ModelSpec) : Bool :=
  spec.regions.isEmpty || spec.regions.contains region

end ModelSpec

end ServingCatalog
