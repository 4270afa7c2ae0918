import ServingCatalog.Lookup

/-!
# What becomes of a question

The four lookups as values, so that runs of them can be spoken about: a `Question` is put to a
resolver by `Question.ask`, and what a resolver is asked in the end is a `Call`.

The key fact is `Question.ask_eq`.  A question either stops at the checks, and then the resolver is
not asked at all, or it comes down to exactly one call, and is that call with one event before it.
Which of the two happens is told by `Question.reach`, which looks at the model before it looks at
the scope.
-/

namespace ServingCatalog

/-- What a lookup finds: the types of a model, or the default among them. -/
inductive Answer where
  | types (types : List String)
  | default (type : String)
  deriving DecidableEq

/-- A lookup with everything it is given. -/
inductive Question where
  | acceptTypes (query : Query)
  | defaultAcceptType (query : Query)
  | instanceTypes (query : Query) (scope : Option Scope)
  | defaultInstanceType (query : Query) (scope : Option Scope)
  deriving DecidableEq

/-- Asks a resolver by the method that a call names. -/
def Resolver.answer (r : Resolver) : Call → Inquiry Answer
  | .supportedAcceptTypes q => Answer.types <$> r.supportedAcceptTypes q
  | .defaultAcceptType q => Answer.default <$> r.defaultAcceptType q
  | .instanceTypes q scope => Answer.types <$> r.instanceTypes q scope
  | .defaultInstanceType q scope => Answer.default <$> r.defaultInstanceType q scope

namespace Question

/-- Puts a question to a resolver by the lookup that it is. -/
def ask (r : Resolver) : Question → Inquiry Answer
  | .acceptTypes q => Answer.types <$> Lookup.acceptTypes r q
  | .defaultAcceptType q => Answer.default <$> Lookup.defaultAcceptType r q
  | .instanceTypes q scope => Answer.types <$> Lookup.instanceTypes r q scope
  | .defaultInstanceType q scope => Answer.default <$> Lookup.defaultInstanceType r q scope

/-- The query of a question. -/
def query : Question → Query
  | .acceptTypes q => q
  | .defaultAcceptType q => q
  | .instanceTypes q _ => q
  | .defaultInstanceType q _ => q

/-- The scope of a question, if it has one. -/
def scope? : Question → Option Scope
  | .acceptTypes _ => none
  | .defaultAcceptType _ => none
  | .instanceTypes _ scope => scope
  | .defaultInstanceType _ scope => scope

/-- What a question is about, in messages. -/
def purpose : Question → String
  | .acceptTypes _ => "accept types"
  | .defaultAcceptType _ => "accept types"
  | .instanceTypes _ _ => "instance types"
  | .defaultInstanceType _ _ => "instance types"

/-- The call that a question amounts to; there is none for instance types without a scope. -/
def call? : Question → Option Call
  | .acceptTypes q => some (.supportedAcceptTypes q)
  | .defaultAcceptType q => some (.defaultAcceptType q)
  | .instanceTypes q scope => scope.map (.instanceTypes q)
  | .defaultInstanceType q scope => scope.map (.defaultInstanceType q)

/-- The call that a question comes down to, or the message it is refused with.  A model that is not
accepted is refused first, whether there is a scope or not. -/
def reach (accepted : Bool) (question : Question) : Except String Call :=
  if accepted then
    match question.call? with
    | some call => .ok call
    | none => .error "Must specify scope for instance types."
  else
    .error ("Must specify JumpStart `model_id` and `model_version` when retrieving " ++
      question.purpose ++ ".")

/-- Whether a resolver accepts the model of a question. -/
def acceptedBy (r : Resolver) (question : Question) : Bool :=
  r.acceptsModel question.query.modelId question.query.modelVersion

/-- The event before a question stops at the checks. -/
def refusalEvent (r : Resolver) (question : Question) : Event :=
  if question.acceptedBy r then Lookup.missingScopeEvent else rejectedModel r question.query

end Question

/-- The event before the resolver is asked. -/
def Call.event : Call → Event
  | .supportedAcceptTypes q => Lookup.acceptTypesEvent q "Retrieving supported accept types"
  | .defaultAcceptType q => Lookup.acceptTypesEvent q "Retrieving default accept type"
  | .instanceTypes q scope =>
    Lookup.instanceTypesEvent q scope "Retrieving supported instance types"
  | .defaultInstanceType q scope =>
    Lookup.instanceTypesEvent q scope "Retrieving default instance type"

/-- A model that the resolver accepts passes the check without a trace. -/
theorem requireModelInput_of_accepted {r : Resolver} {q : Query}
    (h : r.acceptsModel q.modelId q.modelVersion = true) (purpose : String) :
    requireModelInput r q purpose = pure () := by
  rw [requireModelInput, if_pos h]

/-- Any other model is refused, with one event. -/
theorem requireModelInput_of_rejected {r : Resolver} {q : Query}
    (h : r.acceptsModel q.modelId q.modelVersion = false) (purpose : String) :
    requireModelInput r q purpose =
      Inquiry.emit (rejectedModel r q) >>= fun _ => throw (modelInputFault purpose) := by
  rw [requireModelInput, if_neg (by simp [h])]

namespace Question

/-- A question about a model that is not accepted stops at the first check. -/
theorem ask_of_rejected {r : Resolver} {question : Question}
    (h : question.acceptedBy r = false) :
    question.ask r = Inquiry.emit (rejectedModel r question.query) >>= fun _ =>
      throw (modelInputFault question.purpose) := by
  cases question with
  | acceptTypes q =>
    simp only [ask, Lookup.acceptTypes, requireModelInput_of_rejected (q := q) h]
    rfl
  | defaultAcceptType q =>
    simp only [ask, Lookup.defaultAcceptType, requireModelInput_of_rejected (q := q) h]
    rfl
  | instanceTypes q scope =>
    simp only [ask, Lookup.instanceTypes, requireModelInput_of_rejected (q := q) h]
    rfl
  | defaultInstanceType q scope =>
    simp only [ask, Lookup.defaultInstanceType, requireModelInput_of_rejected (q := q) h]
    rfl

/-- A question about an accepted model is its call, or lacks a scope. -/
theorem ask_of_accepted {r : Resolver} {question : Question}
    (h : question.acceptedBy r = true) :
    question.ask r =
      match question.call? with
      | some call => Inquiry.emit call.event >>= fun _ => r.answer call
      | none =>
        Inquiry.emit Lookup.missingScopeEvent >>= fun _ => throw Lookup.missingScopeFault := by
  cases question with
  | acceptTypes q =>
    simp only [ask, Lookup.acceptTypes, requireModelInput_of_accepted (q := q) h]
    rfl
  | defaultAcceptType q =>
    simp only [ask, Lookup.defaultAcceptType, requireModelInput_of_accepted (q := q) h]
    rfl
  | instanceTypes q scope =>
    simp only [ask, Lookup.instanceTypes, requireModelInput_of_accepted (q := q) h]
    cases scope <;> rfl
  | defaultInstanceType q scope =>
    simp only [ask, Lookup.defaultInstanceType, requireModelInput_of_accepted (q := q) h]
    cases scope <;> rfl

/-- **Once or not at all.**  A question that passes the checks is the call that it comes down to,
and a question that does not pass them never touches the resolver's answers. -/
theorem ask_eq (r : Resolver) (question : Question) :
    question.ask r =
      match question.reach (question.acceptedBy r) with
      | .ok call => Inquiry.emit call.event >>= fun _ => r.answer call
      | .error message =>
        Inquiry.emit (question.refusalEvent r) >>= fun _ =>
          throw (.invalidArgument message none) := by
  cases h : question.acceptedBy r with
  | false =>
    rw [ask_of_rejected h]
    simp only [reach, refusalEvent, h]
    cases question <;> rfl
  | true =>
    rw [ask_of_accepted h]
    simp only [reach, refusalEvent, h]
    cases question.call? <;> rfl

/-- The answer to a question is that of its call, or the refusal. -/
theorem value_ask (r : Resolver) (question : Question) :
    (question.ask r).outcome.value =
      match question.reach (question.acceptedBy r) with
      | .ok call => (r.answer call).outcome.value
      | .error message => .error (.invalidArgument message none) := by
  rw [ask_eq]
  cases question.reach (question.acceptedBy r) <;> rfl

/-- A question tells of itself and then of its call, or only that it was refused. -/
theorem events_ask (r : Resolver) (question : Question) :
    (question.ask r).outcome.events =
      match question.reach (question.acceptedBy r) with
      | .ok call => call.event :: (r.answer call).outcome.events
      | .error _ => [question.refusalEvent r] := by
  rw [ask_eq]
  cases question.reach (question.acceptedBy r) <;> rfl

/-- A question leads to the calls that its call leads to, or to none. -/
theorem calls_ask (r : Resolver) (question : Question) :
    (question.ask r).outcome.calls =
      match question.reach (question.acceptedBy r) with
      | .ok call => (r.answer call).outcome.calls
      | .error _ => [] := by
  rw [ask_eq]
  cases question.reach (question.acceptedBy r) <;> rfl

end Question

end ServingCatalog
