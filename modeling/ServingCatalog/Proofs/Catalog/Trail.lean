import ServingCatalog.Proofs.Catalog.NormalForm

/-!
# What a catalog tells of a question

A question to a catalog leaves one of four trails of events.  It is turned away, with a warning and
nothing else, if it names no model or no scope.  Otherwise it is announced, and if the catalog
offers its model in the region that it is about, the spec is announced too, whether or not the
question is then answered from the spec.  `Course` pairs each trail with the outcomes it can have.

The step lemma is `course_ask`, that each question takes one of the courses.  Since the trails are
different and the two refusals too, the trail tells the outcome: `events_iff_outcome`.
-/

namespace ServingCatalog

namespace Question

/-- An optional text as an event shows it. -/
def shown : Option String → FieldValue
  | none => .text "None"
  | some text => .text ("Some(" ++ Text.inspect text ++ ")")

/-- The warning of a question whose model the catalog does not take for one. -/
def rejection (question : Question) : Event where
  level := .warn
  target := "model_accessors::domain::resolver::guard"
  message := "Rejected model identifier"
  fields :=
    [("model_id", shown question.query.modelId),
      ("model_version", shown question.query.modelVersion), ("resolver", .text "static")]

/-- The warning of a question that lacks a scope. -/
def scopeWarning : Event where
  level := .warn
  target := "model_accessors::domain::instance_types"
  message := "Instance type lookup without scope"
  fields := []

/-- What is announced of a question, in words of its own. -/
def announcementMessage : Question → String
  | .acceptTypes _ => "Retrieving supported accept types"
  | .defaultAcceptType _ => "Retrieving default accept type"
  | .instanceTypes _ _ => "Retrieving supported instance types"
  | .defaultInstanceType _ _ => "Retrieving default instance type"

/-- Where a question is announced. -/
def announcementTarget : Question → String
  | .acceptTypes _ => "model_accessors::domain::accept_types"
  | .defaultAcceptType _ => "model_accessors::domain::accept_types"
  | .instanceTypes _ _ => "model_accessors::domain::instance_types"
  | .defaultInstanceType _ _ => "model_accessors::domain::instance_types"

/-- The announcement of a question, with its query as it is and its scope, if it has one. -/
def announcement (question : Question) : Event where
  level := .debug
  target := question.announcementTarget
  message := question.announcementMessage
  fields :=
    [("model_id", shown question.query.modelId),
      ("model_version", shown question.query.modelVersion),
      ("region", shown question.query.region)] ++
      question.scope?.toList.map fun scope => ("scope", .text scope.name)

/-- The refusal of a question whose model the catalog does not take for one. -/
def modelFault (question : Question) : Fault :=
  .invalidArgument ("Must specify JumpStart `model_id` and `model_version` when retrieving " ++
    question.purpose ++ ".") none

/-- The refusal of a question that lacks a scope. -/
def scopeFault : Fault := .invalidArgument "Must specify scope for instance types." none

end Question

/-- The outcome is the refusal of an argument. -/
def Refused {α : Type} (value : Except Fault α) : Prop :=
  ∃ message cause, value = .error (.invalidArgument message cause)

namespace Catalog

/-- The region that a query is about. -/
def effectiveRegion (c : Catalog) (q : Query) : String := q.region.getD c.defaultRegion

/-- The catalog has an entry for the model of a query and offers it in the region of the query. -/
def Offers (c : Catalog) (q : Query) : Prop :=
  ∃ spec ∈ c.specs, spec.modelId = q.modelId.getD "" ∧ spec.version = q.modelVersion.getD "" ∧
    (spec.regions = [] ∨ c.effectiveRegion q ∈ spec.regions)

/-- The announcement of an entry, with the region that is used. -/
def resolution (c : Catalog) (q : Query) : Event where
  level := .debug
  target := "model_accessors::infrastructure::catalog::static_resolver"
  message := "Resolved model spec"
  fields :=
    [("model_id", .text (q.modelId.getD "")), ("version", .text (q.modelVersion.getD "")),
      ("region", .text (c.effectiveRegion q))]

/-- The courses that a question can take, each with the outcome and the events that it ends with. -/
inductive Course (c : Catalog) (question : Question) : Except Fault Answer → List Event → Prop
  | rejected : Course c question (.error question.modelFault) [question.rejection]
  | scopeless : Course c question (.error Question.scopeFault) [Question.scopeWarning]
  | unoffered {value : Except Fault Answer} (hvalue : ¬Refused value)
      (hoffers : ¬c.Offers question.query) : Course c question value [question.announcement]
  | resolved {value : Except Fault Answer} (hvalue : ¬Refused value)
      (hoffers : c.Offers question.query) :
      Course c question value [question.announcement, c.resolution question.query]

/-! ## What the catalog offers -/

/-- A spec without regions is offered everywhere. -/
theorem isOfferedIn_iff (spec : ModelSpec) (region : String) :
    spec.isOfferedIn region = true ↔ spec.regions = [] ∨ region ∈ spec.regions := by
  simp [ModelSpec.isOfferedIn]

/-- The entry of a query's model is the one that is looked up. -/
theorem offers_iff (c : Catalog) (q : Query) :
    c.Offers q ↔ ∃ spec, c.get? (queryKey q) = some spec ∧ spec.isOfferedIn (c.regionOf q) := by
  have hget : ∀ spec, c.get? (queryKey q) = some spec ↔ spec ∈ c.specs ∧
      spec.modelId = q.modelId.getD "" ∧ spec.version = q.modelVersion.getD "" := by
    intro spec
    rw [get?, find?_key_eq_some_iff c.keys_nodup, ModelSpec.key, queryKey, Prod.mk.injEq]
  constructor
  · rintro ⟨spec, hspec, hmodel, hversion, hregion⟩
    exact ⟨spec, (hget spec).2 ⟨hspec, hmodel, hversion⟩, (isOfferedIn_iff spec _).2 hregion⟩
  · rintro ⟨spec, hfound, hregion⟩
    obtain ⟨hspec, hmodel, hversion⟩ := (hget spec).1 hfound
    exact ⟨spec, hspec, hmodel, hversion, (isOfferedIn_iff spec _).1 hregion⟩

/-- An entry that is offered is found, and announced. -/
theorem find_of_offers {c : Catalog} {q : Query} (h : c.Offers q) :
    ∃ spec, (c.find q).outcome.value = .ok spec ∧ (c.find q).outcome.events = [c.resolution q] := by
  obtain ⟨spec, hfound, hregion⟩ := (offers_iff c q).1 h
  refine ⟨spec, ?_, ?_⟩ <;> simp only [find, hfound, hregion] <;> rfl

/-- Otherwise nothing is found, and nothing is told. -/
theorem find_of_not_offers {c : Catalog} {q : Query} (h : ¬c.Offers q) :
    ∃ message, (c.find q).outcome.value = .error (.notFound message) ∧
      (c.find q).outcome.events = [] := by
  rw [offers_iff] at h
  cases hfound : c.get? (queryKey q) with
  | none => exact ⟨_, by simp only [find, hfound]; rfl, by simp only [find, hfound]; rfl⟩
  | some spec =>
    have hregion : spec.isOfferedIn (c.regionOf q) = false := by
      rw [Bool.eq_false_iff]
      exact fun hregion => h ⟨spec, hfound, hregion⟩
    exact ⟨_, by simp only [find, hfound, hregion]; rfl, by simp only [find, hfound, hregion]; rfl⟩

/-! ## Calls -/

/-- Looking at a scope of a spec shows nothing. -/
theorem events_scopeOf (spec : ModelSpec) (scope : Scope) :
    (scopeOf spec scope).outcome.events = [] := by
  rw [scopeOf]
  cases spec.scope? scope <;> rfl

/-- A catalog tells of a call what it tells of the search for its spec. -/
theorem events_answer (c : Catalog) (call : Call) :
    (c.resolver.answer call).outcome.events = (c.find call.query).outcome.events := by
  cases call with
  | supportedAcceptTypes q =>
    rw [Resolver.answer, Inquiry.outcome_map]
    exact Inquiry.events_bind_of_silent (c.find q) fun _ => rfl
  | defaultAcceptType q =>
    rw [Resolver.answer, Inquiry.outcome_map]
    refine Inquiry.events_bind_of_silent (c.find q) fun spec => ?_
    cases spec.defaultAcceptType <;> rfl
  | instanceTypes q scope =>
    rw [Resolver.answer, Inquiry.outcome_map]
    refine Inquiry.events_bind_of_silent (c.find q) fun spec => ?_
    rw [Inquiry.events_bind_of_silent (scopeOf spec scope) fun _ => rfl, events_scopeOf]
  | defaultInstanceType q scope =>
    rw [Resolver.answer, Inquiry.outcome_map]
    refine Inquiry.events_bind_of_silent (c.find q) fun spec => ?_
    rw [Inquiry.events_bind_of_silent (scopeOf spec scope) fun found => ?_, events_scopeOf]
    cases found.default <;> rfl

theorem not_refused_ok {α : Type} (answer : α) : ¬Refused (.ok answer) := nofun

theorem not_refused_notFound {α : Type} (message : String) :
    ¬Refused (.error (.notFound message) : Except Fault α) := nofun

/-- What is lacking in a spec is no fault of the arguments. -/
theorem not_refused_pick (spec : ModelSpec) (call : Call) : ¬Refused (call.pick spec) := by
  cases call with
  | supportedAcceptTypes q => exact not_refused_ok _
  | defaultAcceptType q =>
    rw [Call.pick]
    cases spec.defaultAcceptType with
    | none => exact not_refused_notFound _
    | some type => exact not_refused_ok _
  | instanceTypes q scope =>
    rw [Call.pick]
    cases spec.scope? scope with
    | none => exact not_refused_notFound _
    | some found => exact not_refused_ok _
  | defaultInstanceType q scope =>
    rw [Call.pick]
    cases spec.scope? scope with
    | none => exact not_refused_notFound _
    | some found =>
      obtain ⟨types, default⟩ := found
      cases default with
      | none => exact not_refused_notFound _
      | some type => exact not_refused_ok _

/-- A catalog refuses no call for its arguments. -/
theorem not_refused_answer (c : Catalog) (call : Call) :
    ¬Refused (c.resolver.answer call).outcome.value := by
  rw [value_answer]
  by_cases hoffers : c.Offers call.query
  · obtain ⟨spec, hvalue, -⟩ := find_of_offers hoffers
    rw [hvalue]
    exact not_refused_pick spec call
  · obtain ⟨message, hvalue, -⟩ := find_of_not_offers hoffers
    rw [hvalue]
    exact not_refused_notFound message

end Catalog

/-! ## Questions -/

namespace Question

/-- An optional text is shown as it is inspected. -/
theorem shown_eq (text : Option String) : shown text = .text (Text.inspectOption text) := by
  cases text <;> rfl

/-- The event of a rejected query is the one for its question. -/
theorem rejectedModel_eq (c : Catalog) (question : Question) :
    rejectedModel c.resolver question.query = question.rejection := by
  rw [rejection, shown_eq, shown_eq]
  rfl

/-- A question is announced by the event of its call. -/
theorem event_of_call? {question : Question} {call : Call} (h : question.call? = some call) :
    call.event = question.announcement ∧ call.query = question.query := by
  rw [announcement, shown_eq, shown_eq, shown_eq]
  rcases question with q | q | ⟨q, _ | scope⟩ | ⟨q, _ | scope⟩ <;> cases h <;> exact ⟨rfl, rfl⟩

end Question

namespace Catalog

/-- A call takes one of the two courses behind the checks. -/
theorem course_call {c : Catalog} {question : Question} {call : Call}
    (h : question.call? = some call) :
    c.Course question (c.resolver.answer call).outcome.value
      (call.event :: (c.resolver.answer call).outcome.events) := by
  obtain ⟨hevent, hquery⟩ := Question.event_of_call? h
  rw [events_answer, hevent, hquery]
  by_cases hoffers : c.Offers question.query
  · obtain ⟨spec, -, hevents⟩ := find_of_offers hoffers
    rw [hevents]
    exact .resolved (not_refused_answer c call) hoffers
  · obtain ⟨message, -, hevents⟩ := find_of_not_offers hoffers
    rw [hevents]
    exact .unoffered (not_refused_answer c call) hoffers

/-- Each question takes one of the courses. -/
theorem course_ask (c : Catalog) (question : Question) :
    c.Course question (question.ask c.resolver).outcome.value
      (question.ask c.resolver).outcome.events := by
  rw [Question.value_ask, Question.events_ask]
  cases haccepted : question.acceptedBy c.resolver with
  | false =>
    rw [Question.refusalEvent, haccepted]
    simp only [Question.reach, Bool.false_eq_true, if_false, Question.rejectedModel_eq]
    exact .rejected
  | true =>
    rw [Question.refusalEvent, haccepted]
    simp only [Question.reach, if_true]
    cases hcall : question.call? with
    | none => exact .scopeless
    | some call => exact course_call hcall

/-- The trails that a question can leave. -/
def trails (c : Catalog) (question : Question) : List (List Event) :=
  [[question.rejection], [Question.scopeWarning], [question.announcement],
    [question.announcement, c.resolution question.query]]

/-- The two warnings are told apart by their texts. -/
theorem rejection_ne_scopeWarning (question : Question) :
    question.rejection ≠ Question.scopeWarning := by
  intro h
  have hmessage := congrArg Event.message h
  simp [Question.rejection, Question.scopeWarning] at hmessage

/-- A warning is no announcement. -/
theorem ne_announcement {event : Event} (h : event.level = .warn) (question : Question) :
    event ≠ question.announcement := by
  rintro rfl
  cases h

/-- A warning is no announcement. -/
theorem rejection_ne_announcement (question : Question) :
    question.rejection ≠ question.announcement := ne_announcement rfl question

theorem scopeWarning_ne_announcement (question : Question) :
    Question.scopeWarning ≠ question.announcement := ne_announcement rfl question

/-- The two refusals are told apart by their messages. -/
theorem modelFault_ne_scopeFault (question : Question) :
    question.modelFault ≠ Question.scopeFault := by
  have hpurpose : ∀ purpose ∈ ["accept types", "instance types"],
      modelInputFault purpose ≠ Question.scopeFault := by decide
  apply hpurpose question.purpose
  cases question <;> simp [Question.purpose]

/-- A fault of the query is a refusal. -/
theorem refused_modelFault (question : Question) :
    Refused (.error question.modelFault : Except Fault Answer) := ⟨_, _, rfl⟩

/-- So is a missing scope. -/
theorem refused_scopeFault : Refused (.error Question.scopeFault : Except Fault Answer) :=
  ⟨_, _, rfl⟩

namespace Course

variable {c : Catalog} {question : Question} {value : Except Fault Answer} {events : List Event}
variable (h : c.Course question value events)

include h

/-- The trail of one rejection goes with the fault of the query. -/
theorem rejected_iff :
    events = [question.rejection] ↔ value = .error question.modelFault := by
  have hmodel := rejection_ne_announcement question
  cases h with
  | rejected => simp
  | scopeless =>
    simp [(rejection_ne_scopeWarning question).symm, (modelFault_ne_scopeFault question).symm]
  | unoffered hvalue hoffers =>
    exact iff_of_false (by simp [hmodel.symm]) fun heq => hvalue (heq ▸ refused_modelFault question)
  | resolved hvalue hoffers =>
    exact iff_of_false (by simp) fun heq => hvalue (heq ▸ refused_modelFault question)

/-- The trail of a missing scope goes with its fault. -/
theorem scopeless_iff :
    events = [Question.scopeWarning] ↔ value = .error Question.scopeFault := by
  have hscope := scopeWarning_ne_announcement question
  cases h with
  | rejected => simp [rejection_ne_scopeWarning question, modelFault_ne_scopeFault question]
  | scopeless => simp
  | unoffered hvalue hoffers =>
    exact iff_of_false (by simp [hscope.symm]) fun heq => hvalue (heq ▸ refused_scopeFault)
  | resolved hvalue hoffers =>
    exact iff_of_false (by simp) fun heq => hvalue (heq ▸ refused_scopeFault)

/-- The announcement alone goes with an answer on a model that is not offered. -/
theorem unoffered_iff :
    events = [question.announcement] ↔ ¬Refused value ∧ ¬c.Offers question.query := by
  cases h with
  | rejected => simp [rejection_ne_announcement, refused_modelFault]
  | scopeless => simp [scopeWarning_ne_announcement, refused_scopeFault]
  | unoffered hvalue hoffers => simp [hvalue, hoffers]
  | resolved hvalue hoffers => simp [hoffers]

/-- With the resolution behind it, it goes with an answer on one that is. -/
theorem resolved_iff :
    events = [question.announcement, c.resolution question.query] ↔
      ¬Refused value ∧ c.Offers question.query := by
  cases h with
  | rejected => simp [refused_modelFault]
  | scopeless => simp [refused_scopeFault]
  | unoffered hvalue hoffers => simp [hoffers]
  | resolved hvalue hoffers => simp [hvalue, hoffers]

/-- The warnings are those of the two refusals. -/
theorem warnings_iff :
    ((∃ event ∈ events, event.level = .warn) ↔ Refused value) ∧
      events.countP (·.level = .warn) ≤ 1 := by
  cases h with
  | rejected => simp [Question.rejection, refused_modelFault]
  | scopeless => simp [Question.scopeWarning, refused_scopeFault]
  | unoffered hvalue hoffers => simp [Question.announcement, hvalue]
  | resolved hvalue hoffers => simp [Question.announcement, resolution, hvalue]

/-- The four trails are different, and the events are one of them. -/
theorem count_trails : (c.trails question).count events = 1 := by
  have hwarnings := rejection_ne_scopeWarning question
  have hmodel := rejection_ne_announcement question
  have hscope := scopeWarning_ne_announcement question
  have hnodup : (c.trails question).Nodup := by simp [trails, hwarnings, hmodel, hscope]
  refine List.count_eq_one_of_mem hnodup ?_
  cases h <;> simp [trails]

end Course

/-- **The trail tells the outcome.**  A question to a catalog leaves exactly one of four trails: a
warning, if it is refused for its model or for its scope, and otherwise an announcement, behind
which the entry is announced if there is one that is offered.  So there is a warning, and then only
one, exactly if an argument is refused. -/
theorem events_iff_outcome (c : Catalog) (question : Question) :
    let outcome := (question.ask c.resolver).outcome
    (c.trails question).count outcome.events = 1 ∧
      (outcome.events = [question.rejection] ↔ outcome.value = .error question.modelFault) ∧
      (outcome.events = [Question.scopeWarning] ↔ outcome.value = .error Question.scopeFault) ∧
      (outcome.events = [question.announcement] ↔
        ¬Refused outcome.value ∧ ¬c.Offers question.query) ∧
      (outcome.events = [question.announcement, c.resolution question.query] ↔
        ¬Refused outcome.value ∧ c.Offers question.query) ∧
      ((∃ event ∈ outcome.events, event.level = .warn) ↔ Refused outcome.value) ∧
      outcome.events.countP (·.level = .warn) ≤ 1 := by
  intro outcome
  have hcourse : c.Course question outcome.value outcome.events := course_ask c question
  exact ⟨hcourse.count_trails, hcourse.rejected_iff, hcourse.scopeless_iff, hcourse.unoffered_iff,
    hcourse.resolved_iff, hcourse.warnings_iff⟩

end Catalog

end ServingCatalog
