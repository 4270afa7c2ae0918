import ServingCatalog.Event
import ServingCatalog.Fault
import ServingCatalog.Model.Query
import ServingCatalog.Model.Scope
import ServingCatalog.Text.Inspect

/-!
# Resolvers

A resolver knows the deployment metadata of models. Asking it is an `Inquiry`: an answer or a
fault, together with the events on the way and the calls that reached a resolver which keeps a
record. `requireModelInput` is the check that every lookup makes first.
-/

namespace ServingCatalog

/-- A question that a resolver can be asked. -/
inductive Call where
  | supportedAcceptTypes (query : Query)
  | defaultAcceptType (query : Query)
  | instanceTypes (query : Query) (scope : Scope)
  | defaultInstanceType (query : Query) (scope : Scope)
  deriving DecidableEq

/-- A value, the events emitted on the way to it, and the calls recorded. -/
structure Traced (α : Type) where
  value : α
  events : List Event
  calls : List Call

namespace Traced

/-- A value with nothing to tell. -/
def silent {α : Type} (value : α) : Traced α := ⟨value, [], []⟩

/-- Goes on with a value, keeping the order of events and calls. -/
def andThen {α β : Type} (first : Traced α) (next : α → Traced β) : Traced β :=
  let second := next first.value
  ⟨second.value, first.events ++ second.events, first.calls ++ second.calls⟩

instance : Monad Traced where
  pure := silent
  bind := andThen

instance : LawfulMonad Traced :=
  LawfulMonad.mk' Traced
    (fun x => by cases x; simp [Functor.map, andThen, silent])
    (fun a f => by simp [bind, pure, andThen, silent])
    (fun x f g => by simp [bind, andThen])

/-- Emits an event. -/
def emit (event : Event) : Traced Unit := ⟨(), [event], []⟩

/-- Records a call. -/
def record (call : Call) : Traced Unit := ⟨(), [], [call]⟩

end Traced

/-- The way to an answer or a fault. -/
abbrev Inquiry (α : Type) := ExceptT Fault Traced α

namespace Inquiry

/-- An answer or a fault that needs no further step. -/
def settled {α : Type} (outcome : Except Fault α) : Inquiry α :=
  ExceptT.mk (Traced.silent outcome)

/-- Emits an event. -/
def emit (event : Event) : Inquiry Unit := ExceptT.lift (Traced.emit event)

/-- Records a call. -/
def record (call : Call) : Inquiry Unit := ExceptT.lift (Traced.record call)

/-- The traced outcome of an inquiry. -/
def outcome {α : Type} (inquiry : Inquiry α) : Traced (Except Fault α) := inquiry.run

end Inquiry

/-- Answers questions about models. By default every model and version that are named pass as an
identifier. -/
structure Resolver where
  name : String
  acceptsModel : Option String → Option String → Bool := isModelInput
  supportedAcceptTypes : Query → Inquiry (List String)
  defaultAcceptType : Query → Inquiry String
  instanceTypes : Query → Scope → Inquiry (List String)
  defaultInstanceType : Query → Scope → Inquiry String

/-- The same resolver, with a record of the calls that reach it. -/
def Resolver.recorded (r : Resolver) : Resolver :=
  { r with
    supportedAcceptTypes := fun q => do
      Inquiry.record (.supportedAcceptTypes q)
      r.supportedAcceptTypes q
    defaultAcceptType := fun q => do
      Inquiry.record (.defaultAcceptType q)
      r.defaultAcceptType q
    instanceTypes := fun q scope => do
      Inquiry.record (.instanceTypes q scope)
      r.instanceTypes q scope
    defaultInstanceType := fun q scope => do
      Inquiry.record (.defaultInstanceType q scope)
      r.defaultInstanceType q scope }

/-- Field of an event that shows an optional text. -/
def inspected (name : String) (text : Option String) : String × FieldValue :=
  (name, .text (Text.inspectOption text))

/-- The event of an identifier that the resolver does not accept. -/
def rejectedModel (r : Resolver) (q : Query) : Event :=
  { level := .warn
    target := "model_accessors::domain::resolver::guard"
    message := "Rejected model identifier"
    fields :=
      [inspected "model_id" q.modelId, inspected "model_version" q.modelVersion,
        ("resolver", .text r.name)] }

/-- The fault of an identifier that the resolver does not accept. -/
def modelInputFault (purpose : String) : Fault :=
  .invalid ("Must specify JumpStart `model_id` and `model_version` when retrieving " ++ purpose
    ++ ".")

/-- Refuses a query whose identifier the resolver does not accept. -/
def requireModelInput (r : Resolver) (q : Query) (purpose : String) : Inquiry Unit :=
  if r.acceptsModel q.modelId q.modelVersion then pure ()
  else do
    Inquiry.emit (rejectedModel r q)
    throw (modelInputFault purpose)

end ServingCatalog
