import ServingCatalog.Configuration.Basic
import ServingCatalog.Proofs.Lookup.Inquiry
import ServingCatalog.Proofs.Lookup.Question

/-!
# A catalog answers like a scan of its list

A catalog is built by putting specs in one after the other.  Here the same questions are decided on
the plain list instead, by a scan for the last spec of a model and version, and the two are shown to
agree on every list, every question and every outcome.

The step lemma is `get?_foldl_insert`: what a catalog holds after some more specs went in is the
last of these with the key, or else what it held before.
-/

namespace ServingCatalog

namespace Catalog

/-- What a catalog holds of a key after a list of specs went in: the last one with that key, or
else what was there. -/
theorem get?_foldl_insert (specs : List ModelSpec) (c : Catalog) (key : String × String) :
    (specs.foldl (fun c spec => c.insert spec) c).get? key =
      (specs.reverse.find? (·.key = key)).or (c.get? key) := by
  induction specs generalizing c with
  | nil => rfl
  | cons spec rest ih =>
    rw [List.foldl_cons, ih, List.reverse_cons, List.find?_append, Option.or_assoc]
    congr 1
    by_cases h : spec.key = key
    · subst h
      simp
    · simp [get?_insert_other h, h]

/-- A catalog of a list holds the last spec of each key. -/
theorem get?_ofList (region : String) (specs : List ModelSpec) (key : String × String) :
    (ofList region specs).get? key = specs.reverse.find? (·.key = key) := by
  rw [ofList, get?_foldl_insert, get?_empty, Option.or_none]

/-- Specs that go in leave the region alone. -/
theorem defaultRegion_ofList (region : String) (specs : List ModelSpec) :
    (ofList region specs).defaultRegion = region := by
  have hfold : ∀ c : Catalog,
      (specs.foldl (fun c spec => c.insert spec) c).defaultRegion = c.defaultRegion := by
    induction specs with
    | nil => exact fun c => rfl
    | cons spec rest ih => exact fun c => ih (c.insert spec)
  exact hfold (empty region)

end Catalog

namespace Call

/-- The query of a call. -/
def query : Call → Query
  | .supportedAcceptTypes q => q
  | .defaultAcceptType q => q
  | .instanceTypes q _ => q
  | .defaultInstanceType q _ => q

/-- What a call finds in the spec of its model. -/
def pick (spec : ModelSpec) : Call → Except Fault Answer
  | .supportedAcceptTypes _ => .ok (.types spec.acceptTypes)
  | .defaultAcceptType _ =>
    match spec.defaultAcceptType with
    | some type => .ok (.default type)
    | none => .error (.notFound ("Model '" ++ spec.modelId ++ "' has no default accept type"))
  | .instanceTypes _ scope =>
    match spec.scope? scope with
    | some found => .ok (.types found.instanceTypes)
    | none =>
      .error (.notFound ("Model '" ++ spec.modelId ++ "' has no " ++ scope.name ++
        " instance types"))
  | .defaultInstanceType _ scope =>
    match spec.scope? scope with
    | none =>
      .error (.notFound ("Model '" ++ spec.modelId ++ "' has no " ++ scope.name ++
        " instance types"))
    | some found =>
      match found.default with
      | some type => .ok (.default type)
      | none =>
        .error (.notFound ("Model '" ++ spec.modelId ++ "' has no default " ++ scope.name ++
          " instance type"))

/-- Decides a call on a list of specs: the last one of the model and version counts, and only if it
is offered in the region. -/
def scan (region : String) (specs : List ModelSpec) (call : Call) : Except Fault Answer :=
  let modelId := call.query.modelId.getD ""
  let version := call.query.modelVersion.getD ""
  let place := call.query.region.getD region
  match specs.reverse.find? fun spec => spec.modelId = modelId ∧ spec.version = version with
  | none =>
    .error (.notFound ("Model '" ++ modelId ++ "' version '" ++ version ++ "' not found"))
  | some spec =>
    if spec.regions ≠ [] ∧ place ∉ spec.regions then
      .error (.notFound ("Model '" ++ modelId ++ "' version '" ++ version ++
        "' is not available in region '" ++ place ++ "'"))
    else call.pick spec

end Call

/-- Decides a question on a list of specs.  Nothing is looked up for a model or version that is
absent or empty, or for instance types without a scope. -/
def Question.scan (region : String) (specs : List ModelSpec) (question : Question) :
    Except Fault Answer :=
  let named := question.query.modelId.getD "" ≠ "" ∧ question.query.modelVersion.getD "" ≠ ""
  match question.reach (decide named) with
  | .ok call => call.scan region specs
  | .error message => .error (.invalidArgument message none)

namespace Catalog

/-- A model is not offered where it has regions and the one asked for is not among them. -/
theorem isOfferedIn_eq_false_iff (spec : ModelSpec) (region : String) :
    spec.isOfferedIn region = false ↔ spec.regions ≠ [] ∧ region ∉ spec.regions := by
  simp [ModelSpec.isOfferedIn]

/-- What the search for a query's spec ends with. -/
theorem value_find (c : Catalog) (q : Query) :
    (c.find q).outcome.value =
      match c.get? (queryKey q) with
      | none => .error (unknownModel (queryKey q))
      | some spec =>
        if spec.isOfferedIn (c.regionOf q) then .ok spec
        else .error (unavailableModel (queryKey q) (c.regionOf q)) := by
  simp only [find]
  cases c.get? (queryKey q) with
  | none => rfl
  | some spec => cases h : spec.isOfferedIn (c.regionOf q) <;> simp only [h] <;> rfl

/-- A catalog answers a call from the spec that it finds. -/
theorem value_answer (c : Catalog) (call : Call) :
    (c.resolver.answer call).outcome.value =
      match (c.find call.query).outcome.value with
      | .ok spec => call.pick spec
      | .error fault => .error fault := by
  cases call with
  | supportedAcceptTypes q =>
    simp only [Resolver.answer, Inquiry.outcome_map, resolver, Inquiry.value_bind, Call.query]
    cases (c.find q).outcome.value <;> rfl
  | defaultAcceptType q =>
    simp only [Resolver.answer, Inquiry.outcome_map, resolver, Inquiry.value_bind, Call.query,
      Call.pick]
    cases (c.find q).outcome.value with
    | error fault => rfl
    | ok spec => cases h : spec.defaultAcceptType <;> simp only [h] <;> rfl
  | instanceTypes q scope =>
    simp only [Resolver.answer, Inquiry.outcome_map, resolver, Inquiry.value_bind, Call.query,
      Call.pick, scopeOf]
    cases (c.find q).outcome.value with
    | error fault => rfl
    | ok spec => cases h : spec.scope? scope <;> simp only [h] <;> rfl
  | defaultInstanceType q scope =>
    simp only [Resolver.answer, Inquiry.outcome_map, resolver, Inquiry.value_bind, Call.query,
      Call.pick, scopeOf]
    cases (c.find q).outcome.value with
    | error fault => rfl
    | ok spec =>
      cases h : spec.scope? scope with
      | none =>
        simp only [h]
        rfl
      | some found =>
        simp only [h, Inquiry.value_pure]
        cases found.default <;> rfl

/-- A catalog of a list answers a call as the list does. -/
theorem value_answer_ofList (region : String) (specs : List ModelSpec) (call : Call) :
    ((ofList region specs).resolver.answer call).outcome.value = call.scan region specs := by
  have hkey : ∀ spec : ModelSpec, decide (spec.key = queryKey call.query) =
      decide (spec.modelId = call.query.modelId.getD "" ∧
        spec.version = call.query.modelVersion.getD "") := by
    intro spec
    simp [ModelSpec.key, queryKey]
  rw [value_answer, value_find, get?_ofList, regionOf, defaultRegion_ofList]
  simp only [hkey, Call.scan]
  cases specs.reverse.find? _ with
  | none => rfl
  | some spec =>
    dsimp only
    have hserved := isOfferedIn_eq_false_iff spec (call.query.region.getD region)
    cases h : spec.isOfferedIn (call.query.region.getD region) with
    | false =>
      rw [if_pos (hserved.1 h)]
      rfl
    | true =>
      have hhere : ¬(spec.regions ≠ [] ∧ call.query.region.getD region ∉ spec.regions) := by
        rw [← hserved, h]
        simp
      rw [if_neg hhere]
      rfl

/-- The catalog accepts the models that are named, by an identifier and a version. -/
theorem acceptedBy_resolver (c : Catalog) (question : Question) :
    question.acceptedBy c.resolver =
      decide (question.query.modelId.getD "" ≠ "" ∧ question.query.modelVersion.getD "" ≠ "") := by
  show isModelInput question.query.modelId question.query.modelVersion = _
  cases question.query.modelId <;> cases question.query.modelVersion <;>
    simp [isModelInput, isGiven]

end Catalog

/-- **A catalog answers like a scan.**  Whatever list of specs is configured, each question is
decided as it is on the list itself: the last spec of the model and version counts, also where an
earlier one is offered in more regions or has what the last one lacks. -/
theorem CatalogConfig.value_ask_build (config : CatalogConfig) (question : Question) :
    (question.ask config.build.resolver).outcome.value =
      question.scan config.defaultRegion config.models := by
  rw [Question.value_ask, Catalog.acceptedBy_resolver]
  simp only [Question.scan]
  cases question.reach _ with
  | error message => rfl
  | ok call => exact Catalog.value_answer_ofList config.defaultRegion config.models call

/-- A later spec hides an earlier one of the same model, also where only the earlier is offered. -/
example :
    (Question.acceptTypes ⟨none, some "m", some "1", false, false⟩).scan "us-west-2"
      [⟨"m", "1", [], ["text/csv"], none, none, none⟩,
        ⟨"m", "1", ["eu-west-1"], ["text/csv"], none, none, none⟩] =
      .error (.notFound "Model 'm' version '1' is not available in region 'us-west-2'") := by
  rfl

end ServingCatalog
