import ServingCatalog.Model.Spec
import ServingCatalog.Record

/-!
# The fields of model specs

Names and order of the fields of a spec as it is written down. A model and its version must be
named; a list left out is empty, and a default or a scope left out is absent.
-/

namespace ServingCatalog

namespace ScopeSpec

/-- The fields of the instance types of a scope. -/
inductive Field where
  | instanceTypes
  | default
  deriving DecidableEq

/-- What each field holds. -/
abbrev Field.Value : Field → Type
  | .instanceTypes => List String
  | .default => Option String

/-- The name of each field. -/
def Field.name : Field → String
  | .instanceTypes => "instance_types"
  | .default => "default"

/-- Every field may be left out. -/
def ofDraft (draft : Draft Field Field.Value) : ScopeSpec :=
  { instanceTypes := (draft .instanceTypes).getD []
    default := (draft .default).getD none }

/-- The instance types of a scope as a record. -/
def record : Record Field Field.Value ScopeSpec where
  label := "struct ScopeSpec"
  fields := [.instanceTypes, .default]
  name := Field.name
  build _ draft := .ok (ofDraft draft)

end ScopeSpec

namespace ModelSpec

/-- The fields of a spec. -/
inductive Field where
  | modelId
  | version
  | regions
  | acceptTypes
  | defaultAcceptType
  | training
  | inference
  deriving DecidableEq

/-- What each field holds. -/
abbrev Field.Value : Field → Type
  | .modelId => String
  | .version => String
  | .regions => List String
  | .acceptTypes => List String
  | .defaultAcceptType => Option String
  | .training => Option ScopeSpec
  | .inference => Option ScopeSpec

/-- The name of each field. -/
def Field.name : Field → String
  | .modelId => "model_id"
  | .version => "version"
  | .regions => "regions"
  | .acceptTypes => "accept_types"
  | .defaultAcceptType => "default_accept_type"
  | .training => "training"
  | .inference => "inference"

/-- The spec of a draft, or what is lacking. -/
def ofDraft (lacking : Field → Misfit) (draft : Draft Field Field.Value) :
    Except Misfit ModelSpec :=
  match draft .modelId, draft .version with
  | none, _ => .error (lacking .modelId)
  | some _, none => .error (lacking .version)
  | some modelId, some version =>
    .ok
      { modelId
        version
        regions := (draft .regions).getD []
        acceptTypes := (draft .acceptTypes).getD []
        defaultAcceptType := (draft .defaultAcceptType).getD none
        training := (draft .training).getD none
        inference := (draft .inference).getD none }

/-- The spec as a record. -/
def record : Record Field Field.Value ModelSpec where
  label := "struct ModelSpec"
  fields :=
    [.modelId, .version, .regions, .acceptTypes, .defaultAcceptType, .training, .inference]
  name := Field.name
  build := ofDraft

end ModelSpec

end ServingCatalog
