import ServingCatalog.Proofs.Lookup.Inquiry
import ServingCatalog.Proofs.Lookup.Question
import ServingCatalog.Resolver.Fixed

/-!
# Lookups pass through

A run puts question after question to a resolver that is watched, so that each call that reaches it
is on record and nothing else is.  The resolver is arbitrary in what it accepts, answers and fails
with, and it may be another one at each step, as one with a memory would be.

The run theorem is `run_watched`: what reaches the resolver is, in order, one call for each question
that passes the checks, with the query and the scope of the question, and each of these questions is
answered as the call is.  The two halves of it are inductions on the run over one step lemma each,
`calls_ask_watched` and `value_ask_watched`.
-/

namespace ServingCatalog

/-- An inquiry without the calls that it recorded itself. -/
def Inquiry.unrecorded {α : Type} (inquiry : Inquiry α) : Inquiry α :=
  ExceptT.mk { inquiry.outcome with calls := [] }

namespace Resolver

/-- The same resolver without a record of its own. -/
def unrecorded (r : Resolver) : Resolver :=
  { r with
    supportedAcceptTypes := fun q => (r.supportedAcceptTypes q).unrecorded
    defaultAcceptType := fun q => (r.defaultAcceptType q).unrecorded
    instanceTypes := fun q scope => (r.instanceTypes q scope).unrecorded
    defaultInstanceType := fun q scope => (r.defaultInstanceType q scope).unrecorded }

/-- The same resolver with a record of exactly the calls that reach it. -/
def watched (r : Resolver) : Resolver := r.unrecorded.recorded

/-- A watched resolver records the call that it answers. -/
theorem calls_answer_watched (r : Resolver) (call : Call) :
    (r.watched.answer call).outcome.calls = [call] := by
  cases call with
  | supportedAcceptTypes q =>
    rw [answer, Inquiry.outcome_map]
    rfl
  | defaultAcceptType q =>
    rw [answer, Inquiry.outcome_map]
    rfl
  | instanceTypes q scope =>
    rw [answer, Inquiry.outcome_map]
    rfl
  | defaultInstanceType q scope =>
    rw [answer, Inquiry.outcome_map]
    rfl

/-- Watching a resolver does not change its answers. -/
theorem value_answer_watched (r : Resolver) (call : Call) :
    (r.watched.answer call).outcome.value = (r.answer call).outcome.value := by
  cases call with
  | supportedAcceptTypes q =>
    simp only [answer, Inquiry.outcome_map]
    rfl
  | defaultAcceptType q =>
    simp only [answer, Inquiry.outcome_map]
    rfl
  | instanceTypes q scope =>
    simp only [answer, Inquiry.outcome_map]
    rfl
  | defaultInstanceType q scope =>
    simp only [answer, Inquiry.outcome_map]
    rfl

end Resolver

/-- A question, and the resolver as it is when the question comes. -/
structure Visit where
  resolver : Resolver
  question : Question

namespace Visit

/-- The visit with the resolver under watch. -/
def watched (visit : Visit) : Visit := { visit with resolver := visit.resolver.watched }

/-- The call that a visit comes down to, or the message it is refused with. -/
def reach (visit : Visit) : Except String Call :=
  visit.question.reach (visit.question.acceptedBy visit.resolver)

/-- The call that reaches the resolver. -/
def call? (visit : Visit) : Option Call :=
  match visit.reach with
  | .ok call => some call
  | .error _ => none

/-- What a visit brings back: the answer to its call, unchanged, or an unusable argument. -/
def answer (visit : Visit) : Except Fault Answer :=
  match visit.reach with
  | .ok call => (visit.resolver.answer call).outcome.value
  | .error message => .error (.invalidArgument message none)

/-- Puts the questions of visits one after the other. -/
def run (visits : List Visit) : Traced (List (Except Fault Answer)) :=
  visits.mapM fun visit => (visit.question.ask visit.resolver).outcome

/-- A run is its first step and then the others. -/
theorem run_cons (visit : Visit) (rest : List Visit) :
    run (visit :: rest) =
      ⟨(visit.question.ask visit.resolver).outcome.value :: (run rest).value,
        (visit.question.ask visit.resolver).outcome.events ++ (run rest).events,
        (visit.question.ask visit.resolver).outcome.calls ++ (run rest).calls⟩ := by
  rw [run, List.mapM_cons]
  simp [bind, pure, Traced.andThen, Traced.silent, run]

/-- One step of a run leaves its call on record, if it comes down to one. -/
theorem calls_ask_watched (visit : Visit) :
    (visit.question.ask visit.resolver.watched).outcome.calls = visit.call?.toList := by
  rw [Question.calls_ask]
  show (match visit.reach with
    | .ok call => (visit.resolver.watched.answer call).outcome.calls
    | .error _ => []) = visit.call?.toList
  rw [call?]
  cases visit.reach with
  | ok call => exact visit.resolver.calls_answer_watched call
  | error message => rfl

/-- One step of a run brings back what its call does. -/
theorem value_ask_watched (visit : Visit) :
    (visit.question.ask visit.resolver.watched).outcome.value = visit.answer := by
  rw [Question.value_ask]
  show (match visit.reach with
    | .ok call => (visit.resolver.watched.answer call).outcome.value
    | .error message => .error (.invalidArgument message none)) = visit.answer
  rw [answer]
  cases visit.reach with
  | ok call => exact visit.resolver.value_answer_watched call
  | error message => rfl

/-- Over a run, the calls on record are those that the visits come down to. -/
theorem calls_run_watched (visits : List Visit) :
    (run (visits.map watched)).calls = visits.filterMap call? := by
  induction visits with
  | nil => rfl
  | cons visit rest ih =>
    have hstep := calls_ask_watched visit
    rw [List.map_cons, run_cons, List.filterMap_cons]
    show (visit.question.ask visit.resolver.watched).outcome.calls ++ _ = _
    rw [hstep, ih]
    cases visit.call? <;> rfl

/-- Over a run, the visits bring back what their calls do. -/
theorem value_run_watched (visits : List Visit) :
    (run (visits.map watched)).value = visits.map answer := by
  induction visits with
  | nil => rfl
  | cons visit rest ih =>
    have hstep := value_ask_watched visit
    rw [List.map_cons, run_cons, List.map_cons]
    show (visit.question.ask visit.resolver.watched).outcome.value :: _ = _
    rw [hstep, ih]

/-- **Pass-through.**  Over a whole run, the calls that reach the resolvers are those that the
questions come down to, in their order, and the questions are answered as these calls are.  A
resolver with fixed answers is watched already, so the same holds of its own record. -/
theorem run_watched (visits : List Visit) :
    (run (visits.map watched)).calls = visits.filterMap call? ∧
      (run (visits.map watched)).value = visits.map answer ∧
      ∀ fixed : FixedAnswers, fixed.resolver.watched = fixed.resolver :=
  ⟨calls_run_watched visits, value_run_watched visits, fun _ => rfl⟩

end Visit

end ServingCatalog
