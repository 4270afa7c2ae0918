import ServingCatalog.Model.Spec

/-!
# Specs that are built

A spec is built from a name and a version by steps, each of which writes one of its lists.  A step
makes the first entry of the list that it writes the default, and none where the list is empty, so
every default of a built spec leads its list: `leads_afterAll`, by induction over the steps from
`leads_after`.
-/

namespace ServingCatalog

/-- A step of building a spec. -/
inductive BuildStep where
  | regions (regions : List String)
  | acceptTypes (types : List String)
  | instanceTypes (scope : Scope) (types : List String)
  deriving DecidableEq

namespace ModelSpec

/-- The spec after one more step. -/
def after (spec : ModelSpec) : BuildStep → ModelSpec
  | .regions regions => spec.withRegions regions
  | .acceptTypes types => spec.withAcceptTypes types
  | .instanceTypes scope types => spec.withInstanceTypes scope types

/-- The spec after steps, one behind the other. -/
def afterAll (spec : ModelSpec) (steps : List BuildStep) : ModelSpec := steps.foldl after spec

/-- Writing the instance types of a scope leaves the other scope alone. -/
theorem scope?_withInstanceTypes (scope other : Scope) (types : List String) (spec : ModelSpec) :
    (spec.withInstanceTypes scope types).scope? other =
      if other = scope then some (.ofList types) else spec.scope? other := by
  cases scope <;> cases other <;> rfl

/-- Each default is the first entry of its list, and is missing if there is no entry. -/
structure Leads (spec : ModelSpec) : Prop where
  acceptTypes : spec.defaultAcceptType = spec.acceptTypes.head?
  instanceTypes : ∀ scope found, spec.scope? scope = some found →
    found.default = found.instanceTypes.head?

theorem leads_named (modelId version : String) : (named modelId version).Leads := by
  refine ⟨rfl, fun scope found hfound => ?_⟩
  cases scope <;> cases hfound

/-- A step writes a list together with its default. -/
theorem leads_after {spec : ModelSpec} (h : spec.Leads) (step : BuildStep) :
    (spec.after step).Leads := by
  cases step with
  | regions regions => exact ⟨h.acceptTypes, h.instanceTypes⟩
  | acceptTypes types => exact ⟨rfl, h.instanceTypes⟩
  | instanceTypes scope types =>
    refine ⟨?_, fun other found hfound => ?_⟩
    · cases scope <;> exact h.acceptTypes
    · rw [after, scope?_withInstanceTypes] at hfound
      by_cases hsame : other = scope
      · rw [if_pos hsame] at hfound
        cases hfound
        rfl
      · rw [if_neg hsame] at hfound
        exact h.instanceTypes other found hfound

/-- What is built from a spec whose defaults lead keeps them so. -/
theorem leads_afterAll {spec : ModelSpec} (h : spec.Leads) (steps : List BuildStep) :
    (spec.afterAll steps).Leads := by
  induction steps generalizing spec with
  | nil => exact h
  | cons step rest ih => exact ih (leads_after h step)

end ModelSpec

/-- A spec as it is built: a name, a version, and the steps from there. -/
structure Blueprint where
  modelId : String
  version : String
  steps : List BuildStep
  deriving DecidableEq

/-- The spec that is built. -/
def Blueprint.spec (b : Blueprint) : ModelSpec :=
  (ModelSpec.named b.modelId b.version).afterAll b.steps

/-- **Specs that are built** lead with their defaults. -/
theorem Blueprint.leads_spec (b : Blueprint) : b.spec.Leads :=
  ModelSpec.leads_afterAll (ModelSpec.leads_named b.modelId b.version) b.steps

end ServingCatalog
