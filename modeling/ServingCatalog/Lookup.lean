import ServingCatalog.Resolver

/-!
# Lookups

The four questions about a model: which content types it answers with and which instance types it
runs on, and the default of each. A lookup checks the query, for instance types also the scope,
says what it is about to do, and passes the query on to the resolver unchanged.
-/

namespace ServingCatalog

namespace Lookup

/-- What an accept-type lookup retrieves, in messages. -/
def acceptTypesPurpose : String := "accept types"

/-- What an instance-type lookup retrieves, in messages. -/
def instanceTypesPurpose : String := "instance types"

/-- Where accept-type lookups log. -/
def acceptTypesTarget : String := "model_accessors::domain::accept_types"

/-- Where instance-type lookups log. -/
def instanceTypesTarget : String := "model_accessors::domain::instance_types"

/-- The fields of a query in an event. -/
def queryFields (q : Query) : List (String × FieldValue) :=
  [inspected "model_id" q.modelId, inspected "model_version" q.modelVersion,
    inspected "region" q.region]

/-- The event of an accept-type lookup that passed its checks. -/
def acceptTypesEvent (q : Query) (message : String) : Event :=
  ⟨.debug, acceptTypesTarget, message, queryFields q⟩

/-- The event of an instance-type lookup that passed its checks. -/
def instanceTypesEvent (q : Query) (scope : Scope) (message : String) : Event :=
  ⟨.debug, instanceTypesTarget, message, queryFields q ++ [("scope", .text (toString scope))]⟩

/-- The event of an instance-type lookup that names no scope. -/
def missingScopeEvent : Event :=
  ⟨.warn, instanceTypesTarget, "Instance type lookup without scope", []⟩

/-- The fault of an instance-type lookup that names no scope. -/
def missingScopeFault : Fault := .invalid "Must specify scope for instance types."

/-- The content types a model supports. -/
def acceptTypes (r : Resolver) (q : Query) : Inquiry (List String) := do
  requireModelInput r q acceptTypesPurpose
  Inquiry.emit (acceptTypesEvent q "Retrieving supported accept types")
  r.supportedAcceptTypes q

/-- The content type a model answers with by default. -/
def defaultAcceptType (r : Resolver) (q : Query) : Inquiry String := do
  requireModelInput r q acceptTypesPurpose
  Inquiry.emit (acceptTypesEvent q "Retrieving default accept type")
  r.defaultAcceptType q

/-- The scope of an instance-type lookup. -/
def requireScope : Option Scope → Inquiry Scope
  | some scope => pure scope
  | none => do
    Inquiry.emit missingScopeEvent
    throw missingScopeFault

/-- The instance types a model runs on. -/
def instanceTypes (r : Resolver) (q : Query) (scope : Option Scope) : Inquiry (List String) := do
  requireModelInput r q instanceTypesPurpose
  let scope ← requireScope scope
  Inquiry.emit (instanceTypesEvent q scope "Retrieving supported instance types")
  r.instanceTypes q scope

/-- The instance type a model runs on by default. -/
def defaultInstanceType (r : Resolver) (q : Query) (scope : Option Scope) : Inquiry String := do
  requireModelInput r q instanceTypesPurpose
  let scope ← requireScope scope
  Inquiry.emit (instanceTypesEvent q scope "Retrieving default instance type")
  r.defaultInstanceType q scope

end Lookup

end ServingCatalog
