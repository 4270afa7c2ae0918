import Mathlib.Data.List.Induction
import ServingCatalog.Model.SpecJson
import ServingCatalog.Proofs.Model.Building

/-!
# The last write wins

The steps that build a spec write four facets of it: the regions, the content types, and the
instance types of either scope, each list but the regions together with its default.  A step writes
one facet whole and leaves the others alone: `content_after_same` and `content_after_other`.  So a
run of steps leaves in each facet what its last step there has written, and what was there before
if it has none: `content_afterAll`, by induction from the last step backwards.

A spec is its name, its version and its four facets (`ext_content`).  Runs that agree on the last
step for each facet therefore build the same spec, whatever else they do and in whatever order; the
main result is `afterAll_lastWrites`.
-/

namespace ServingCatalog

/-- What one step of building writes as a whole. -/
inductive Facet where
  | regions
  | acceptTypes
  | instanceTypes (scope : Scope)
  deriving DecidableEq

namespace Facet

/-- What is known of a facet. -/
def Content : Facet → Type
  | .regions => List String
  | .acceptTypes => List String × Option String
  | .instanceTypes _ => Option ScopeSpec

/-- What is known of a facet for which a list has been written: the list as it stands, and its first
entry as the default. -/
def written : (facet : Facet) → List String → facet.Content
  | .regions, names => names
  | .acceptTypes, types => (types, types.head?)
  | .instanceTypes _, types => some ⟨types, types.head?⟩

end Facet

namespace BuildStep

/-- The facet that a step writes. -/
def facet : BuildStep → Facet
  | .regions _ => .regions
  | .acceptTypes _ => .acceptTypes
  | .instanceTypes scope _ => .instanceTypes scope

/-- The list that a step writes. -/
def list : BuildStep → List String
  | .regions names => names
  | .acceptTypes types => types
  | .instanceTypes _ types => types

/-- The list of the last step for a facet, if there is any. -/
def lastList? (steps : List BuildStep) (facet : Facet) : Option (List String) :=
  (steps.filter (·.facet = facet)).getLast?.map BuildStep.list

/-- The last step on a facet decides. -/
theorem lastList?_concat_same (steps : List BuildStep) (step : BuildStep) :
    lastList? (steps ++ [step]) step.facet = some step.list := by
  simp [lastList?, List.filter_append]

/-- A step on another facet does not. -/
theorem lastList?_concat_other {step : BuildStep} {facet : Facet} (h : step.facet ≠ facet)
    (steps : List BuildStep) : lastList? (steps ++ [step]) facet = lastList? steps facet := by
  simp [lastList?, List.filter_append, h]

end BuildStep

open BuildStep

namespace ModelSpec

/-- What a spec says about a facet. -/
def content (spec : ModelSpec) : (facet : Facet) → facet.Content
  | .regions => spec.regions
  | .acceptTypes => (spec.acceptTypes, spec.defaultAcceptType)
  | .instanceTypes scope => spec.scope? scope

/-- Beside its name and its version a spec holds nothing but its facets. -/
theorem ext_content {one other : ModelSpec} (hid : one.modelId = other.modelId)
    (hversion : one.version = other.version) (h : ∀ facet, one.content facet = other.content facet) :
    one = other := by
  have hregions : one.regions = other.regions := h .regions
  have hacceptTypes : (one.acceptTypes, one.defaultAcceptType) =
      (other.acceptTypes, other.defaultAcceptType) := h .acceptTypes
  have htraining : one.training = other.training := h (.instanceTypes .training)
  have hinference : one.inference = other.inference := h (.instanceTypes .inference)
  obtain ⟨htypes, hdefault⟩ := Prod.mk.inj hacceptTypes
  cases one
  cases other
  simp only [ModelSpec.mk.injEq]
  exact ⟨hid, hversion, hregions, htypes, hdefault, htraining, hinference⟩

/-! ## One step -/

/-- No step renames a spec. -/
theorem names_after (spec : ModelSpec) (step : BuildStep) :
    (spec.after step).modelId = spec.modelId ∧ (spec.after step).version = spec.version := by
  cases step with
  | regions regions => exact ⟨rfl, rfl⟩
  | acceptTypes types => exact ⟨rfl, rfl⟩
  | instanceTypes scope types => cases scope <;> exact ⟨rfl, rfl⟩

/-- A step writes its facet as a whole, whatever was there. -/
theorem content_after_same (spec : ModelSpec) (step : BuildStep) :
    (spec.after step).content step.facet = step.facet.written step.list := by
  cases step with
  | regions regions => rfl
  | acceptTypes types => rfl
  | instanceTypes scope types =>
    exact (scope?_withInstanceTypes scope scope types spec).trans (if_pos rfl)

/-- A step leaves the other facets alone. -/
theorem content_after_other {step : BuildStep} {facet : Facet} (h : step.facet ≠ facet)
    (spec : ModelSpec) : (spec.after step).content facet = spec.content facet := by
  cases step with
  | regions regions =>
    cases facet with
    | regions => exact absurd rfl h
    | acceptTypes => rfl
    | instanceTypes scope => rfl
  | acceptTypes types =>
    cases facet with
    | regions => rfl
    | acceptTypes => exact absurd rfl h
    | instanceTypes scope => rfl
  | instanceTypes scope types =>
    cases facet with
    | regions => cases scope <;> rfl
    | acceptTypes => cases scope <;> rfl
    | instanceTypes other =>
      have hother : other ≠ scope := fun hsame => h (congrArg Facet.instanceTypes hsame.symm)
      exact (scope?_withInstanceTypes scope other types spec).trans (if_neg hother)

/-! ## Runs -/

theorem afterAll_concat (spec : ModelSpec) (steps : List BuildStep) (step : BuildStep) :
    spec.afterAll (steps ++ [step]) = (spec.afterAll steps).after step := by
  rw [afterAll, List.foldl_append]
  rfl

/-- No steps change the names. -/
theorem names_afterAll (spec : ModelSpec) (steps : List BuildStep) :
    (spec.afterAll steps).modelId = spec.modelId ∧
      (spec.afterAll steps).version = spec.version := by
  induction steps using List.reverseRecOn with
  | nil => exact ⟨rfl, rfl⟩
  | append_singleton steps step ih =>
    obtain ⟨hid, hversion⟩ := names_after (spec.afterAll steps) step
    rw [afterAll_concat]
    exact ⟨hid.trans ih.1, hversion.trans ih.2⟩

/-- A run leaves in a facet what its last step there has written. -/
theorem content_afterAll (spec : ModelSpec) (steps : List BuildStep) (facet : Facet) :
    (spec.afterAll steps).content facet =
      ((lastList? steps facet).map facet.written).getD (spec.content facet) := by
  -- The last step decides if it is one for the facet; if not, those before it do.
  induction steps using List.reverseRecOn with
  | nil => rfl
  | append_singleton steps step ih =>
    rw [afterAll_concat]
    by_cases h : step.facet = facet
    · subst h
      rw [content_after_same, lastList?_concat_same]
      rfl
    · rw [content_after_other h, lastList?_concat_other h, ih]

/-- Runs with the same last write in a facet agree there, if they start from the same. -/
theorem content_afterAll_congr {spec other : ModelSpec} {steps others : List BuildStep}
    {facet : Facet} (hstart : other.content facet = spec.content facet)
    (hlast : lastList? others facet = lastList? steps facet) :
    (other.afterAll others).content facet = (spec.afterAll steps).content facet := by
  rw [content_afterAll, content_afterAll, hstart, hlast]

/-- **The last write wins.**  Steps of building keep the name and the version of any spec.  Each
list is the one that the last step for it has written, with its first entry as the default, and it
is left as it was, with its default, if no step writes it.  So the order of the steps does not
matter as long as the last one for each facet is the same, and what is known of a scope hangs on
nothing but what was known of it before and the steps for it. -/
theorem afterAll_lastWrites (spec : ModelSpec) (steps : List BuildStep) :
    let built := spec.afterAll steps
    built.modelId = spec.modelId ∧
      built.version = spec.version ∧
      built.regions = (lastList? steps .regions).getD spec.regions ∧
      (built.acceptTypes, built.defaultAcceptType) =
        ((lastList? steps .acceptTypes).map fun types => (types, types.head?)).getD
          (spec.acceptTypes, spec.defaultAcceptType) ∧
      built.training =
        ((lastList? steps (.instanceTypes .training)).map fun types =>
          some ⟨types, types.head?⟩).getD spec.training ∧
      built.inference =
        ((lastList? steps (.instanceTypes .inference)).map fun types =>
          some ⟨types, types.head?⟩).getD spec.inference ∧
      (∀ others : List BuildStep, (∀ facet, lastList? others facet = lastList? steps facet) →
        spec.afterAll others = built) ∧
      ∀ (scope : Scope) (other : ModelSpec) (others : List BuildStep),
        other.scope? scope = spec.scope? scope →
        others.filter (·.facet = .instanceTypes scope) =
          steps.filter (·.facet = .instanceTypes scope) →
        (other.afterAll others).scope? scope = built.scope? scope := by
  intro built
  obtain ⟨hid, hversion⟩ := names_afterAll spec steps
  refine ⟨hid, hversion, ?_, content_afterAll spec steps .acceptTypes,
    content_afterAll spec steps (.instanceTypes .training),
    content_afterAll spec steps (.instanceTypes .inference), ?_, ?_⟩
  · refine (content_afterAll spec steps .regions).trans ?_
    cases lastList? steps .regions <;> rfl
  · intro others hlast
    obtain ⟨hotherId, hotherVersion⟩ := names_afterAll spec others
    refine ext_content (hotherId.trans hid.symm) (hotherVersion.trans hversion.symm) ?_
    exact fun facet => content_afterAll_congr rfl (hlast facet)
  · intro scope other others hstart hsteps
    have hlast : lastList? others (.instanceTypes scope) =
        lastList? steps (.instanceTypes scope) := by
      rw [lastList?, hsteps, lastList?]
    have hcontent : (other.afterAll others).content (.instanceTypes scope) =
        built.content (.instanceTypes scope) := content_afterAll_congr hstart hlast
    exact hcontent

/-- A spec that was read with defaults but without their lists, and two runs from it that write the
same last lists in different orders.  The default that was read goes when an empty list is written,
and the scope that no step writes keeps its own. -/
theorem afterAll_reordered :
    let start : ModelSpec :=
      ⟨"m", "1", [], [], some "text/csv", some ⟨[], some "ml.p3.2xlarge"⟩, none⟩
    let onlyInference : List BuildStep := [.instanceTypes .inference ["ml.m5.large", "ml.c5.large"]]
    let steps : List BuildStep :=
      .acceptTypes ["image/png"] :: onlyInference ++ [.acceptTypes [], .regions ["eu-west-1"]]
    let others : List BuildStep :=
      [.regions ["us-east-1"], .acceptTypes [], .regions ["eu-west-1"]] ++ onlyInference
    ofText "[\"m\",\"1\",[],[],\"text/csv\",[[],\"ml.p3.2xlarge\"]]" = .ok start ∧
      (∀ facet, lastList? others facet = lastList? steps facet) ∧
      start.afterAll others = start.afterAll steps ∧
      (start.afterAll steps).defaultAcceptType = none ∧
      (start.afterAll steps).training = some ⟨[], some "ml.p3.2xlarge"⟩ ∧
      ((named "n" "2").afterAll onlyInference).scope? .inference =
        (start.afterAll steps).scope? .inference := by
  intro start onlyInference steps others
  have hlast : ∀ facet, lastList? others facet = lastList? steps facet := by
    rintro (_ | _ | (_ | _)) <;> rfl
  obtain ⟨-, -, -, htypes, htraining, -, hothers, hscope⟩ := afterAll_lastWrites start steps
  exact ⟨rfl, hlast, hothers others hlast, congrArg Prod.snd htypes, htraining,
    hscope .inference (named "n" "2") onlyInference rfl rfl⟩

end ModelSpec

end ServingCatalog
