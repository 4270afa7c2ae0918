import ServingCatalog.Model.Spec
import ServingCatalog.Resolver

/-!
# Catalogs

A catalog is a list of model specs, at most one for each model and version, and a region for
queries that name none. It is a resolver: it finds the spec of a query, checks that the model is
offered in the region, and answers from the spec.
-/

namespace ServingCatalog

/-- What identifies a spec in a catalog. -/
def ModelSpec.key (spec : ModelSpec) : String × String := (spec.modelId, spec.version)

/-- Model specs with different keys. -/
structure Catalog where
  defaultRegion : String
  specs : List ModelSpec
  keys_nodup : (specs.map ModelSpec.key).Nodup

namespace Catalog

/-- A catalog without models. -/
def empty (defaultRegion : String) : Catalog := ⟨defaultRegion, [], List.nodup_nil⟩

/-- The specs with another key than the one given. -/
def without (key : String × String) (specs : List ModelSpec) : List ModelSpec :=
  specs.filter (·.key ≠ key)

private theorem keys_nodup_append {specs : List ModelSpec} (spec : ModelSpec)
    (h : (specs.map ModelSpec.key).Nodup) :
    ((without spec.key specs ++ [spec]).map ModelSpec.key).Nodup := by
  rw [List.map_append, List.nodup_append]
  refine ⟨h.sublist (List.filter_sublist.map _), by simp, ?_⟩
  intro a ha b hb
  obtain ⟨s, hs, rfl⟩ := List.mem_map.1 ha
  simp only [List.map_cons, List.map_nil, List.mem_singleton] at hb
  simpa [without, hb] using (List.mem_filter.1 hs).2

/-- Puts a spec into the catalog, in the place of one with the same key. -/
def insert (spec : ModelSpec) (c : Catalog) : Catalog :=
  ⟨c.defaultRegion, without spec.key c.specs ++ [spec], keys_nodup_append spec c.keys_nodup⟩

/-- The catalog of a list in which later specs replace earlier ones. -/
def ofList (defaultRegion : String) (specs : List ModelSpec) : Catalog :=
  specs.foldl (fun c spec => c.insert spec) (empty defaultRegion)

/-- How many models and versions the catalog knows. -/
def size (c : Catalog) : Nat := c.specs.length

/-- Whether the catalog knows no model. -/
def isEmpty (c : Catalog) : Bool := c.specs.isEmpty

/-- The spec of a model and version. -/
def get? (c : Catalog) (key : String × String) : Option ModelSpec :=
  c.specs.find? (·.key = key)

@[simp] theorem get?_empty (defaultRegion : String) (key : String × String) :
    (empty defaultRegion).get? key = none := rfl

@[simp] theorem get?_insert_same (spec : ModelSpec) (c : Catalog) :
    (c.insert spec).get? spec.key = some spec := by
  have hgone : (without spec.key c.specs).find? (·.key = spec.key) = none := by
    rw [List.find?_eq_none]
    intro other hother
    simpa [without] using (List.mem_filter.1 hother).2
  simp [get?, insert, List.find?_append, hgone]

theorem get?_insert_other {spec : ModelSpec} {key : String × String} (h : spec.key ≠ key)
    (c : Catalog) : (c.insert spec).get? key = c.get? key := by
  have hkept : (without spec.key c.specs).find? (·.key = key) = c.get? key := by
    rw [without, List.find?_filter, get?]
    congr 1
    funext other
    by_cases hother : other.key = key
    · simp [hother, h.symm]
    · simp [hother]
  simp [get?, insert, List.find?_append, hkept, h]

/-- The model and version of a query, empty where it names none. -/
def queryKey (q : Query) : String × String := (q.modelId.getD "", q.modelVersion.getD "")

/-- The region of a query. -/
def regionOf (c : Catalog) (q : Query) : String := q.region.getD c.defaultRegion

/-- The fault of a key that the catalog does not have. -/
def unknownModel (key : String × String) : Fault :=
  .notFound ("Model '" ++ key.1 ++ "' version '" ++ key.2 ++ "' not found")

/-- The fault of a model that is not offered in a region. -/
def unavailableModel (key : String × String) (region : String) : Fault :=
  .notFound ("Model '" ++ key.1 ++ "' version '" ++ key.2 ++ "' is not available in region '"
    ++ region ++ "'")

/-- The fault of a spec without a default content type. -/
def noDefaultAcceptType (spec : ModelSpec) : Fault :=
  .notFound ("Model '" ++ spec.modelId ++ "' has no default accept type")

/-- The fault of a spec without instance types for a scope. -/
def noInstanceTypes (spec : ModelSpec) (scope : Scope) : Fault :=
  .notFound ("Model '" ++ spec.modelId ++ "' has no " ++ toString scope ++ " instance types")

/-- The fault of a spec without a default instance type for a scope. -/
def noDefaultInstanceType (spec : ModelSpec) (scope : Scope) : Fault :=
  .notFound ("Model '" ++ spec.modelId ++ "' has no default " ++ toString scope ++ " instance type")

/-- The event of a spec that was found. -/
def resolvedEvent (key : String × String) (region : String) : Event :=
  { level := .debug
    target := "model_accessors::infrastructure::catalog::static_resolver"
    message := "Resolved model spec"
    fields := [("model_id", .text key.1), ("version", .text key.2), ("region", .text region)] }

/-- The spec that a query is about. -/
def find (c : Catalog) (q : Query) : Inquiry ModelSpec :=
  let key := queryKey q
  let region := c.regionOf q
  match c.get? key with
  | none => throw (unknownModel key)
  | some spec =>
    if spec.isOfferedIn region then do
      Inquiry.emit (resolvedEvent key region)
      pure spec
    else throw (unavailableModel key region)

/-- The instance types of a spec for a scope. -/
def scopeOf (spec : ModelSpec) (scope : Scope) : Inquiry ScopeSpec :=
  match spec.scope? scope with
  | some found => pure found
  | none => throw (noInstanceTypes spec scope)

/-- The catalog as a resolver. -/
def resolver (c : Catalog) : Resolver where
  name := "static"
  supportedAcceptTypes q := do
    let spec ← c.find q
    return spec.acceptTypes
  defaultAcceptType q := do
    let spec ← c.find q
    match spec.defaultAcceptType with
    | some type => return type
    | none => throw (noDefaultAcceptType spec)
  instanceTypes q scope := do
    let spec ← c.find q
    let found ← scopeOf spec scope
    return found.instanceTypes
  defaultInstanceType q scope := do
    let spec ← c.find q
    let found ← scopeOf spec scope
    match found.default with
    | some type => return type
    | none => throw (noDefaultInstanceType spec scope)

end Catalog

end ServingCatalog
