import ServingCatalog.Resolver

/-!
# Outcomes of inquiries

How the outcome of an inquiry that is put together follows from the outcomes of its parts.
-/

namespace ServingCatalog

namespace Inquiry

variable {α β : Type}

@[simp] theorem value_pure (answer : α) : (pure answer : Inquiry α).outcome.value = .ok answer :=
  rfl

/-- A function on the answer changes nothing else about an inquiry. -/
theorem outcome_map (f : α → β) (inquiry : Inquiry α) :
    (f <$> inquiry).outcome =
      ⟨inquiry.outcome.value.map f, inquiry.outcome.events, inquiry.outcome.calls⟩ := by
  obtain ⟨value, events, calls⟩ := inquiry
  cases value <;>
    simp [outcome, ExceptT.run, Functor.map, ExceptT.map, ExceptT.mk, bind, Traced.andThen, pure,
      Traced.silent, Except.map]

/-- An inquiry goes on with an answer, and ends with a fault. -/
theorem value_bind (inquiry : Inquiry α) (next : α → Inquiry β) :
    (inquiry >>= next).outcome.value =
      match inquiry.outcome.value with
      | .ok answer => (next answer).outcome.value
      | .error fault => .error fault := by
  obtain ⟨value, events, calls⟩ := inquiry
  cases value <;> rfl

/-- The events of the first part come first. -/
theorem events_bind (inquiry : Inquiry α) (next : α → Inquiry β) :
    (inquiry >>= next).outcome.events =
      inquiry.outcome.events ++
        match inquiry.outcome.value with
        | .ok answer => (next answer).outcome.events
        | .error _ => [] := by
  obtain ⟨value, events, calls⟩ := inquiry
  cases value <;> rfl

/-- Steps that tell nothing leave the events as they are. -/
theorem events_bind_of_silent (inquiry : Inquiry α) {next : α → Inquiry β}
    (h : ∀ answer, (next answer).outcome.events = []) :
    (inquiry >>= next).outcome.events = inquiry.outcome.events := by
  rw [events_bind]
  cases inquiry.outcome.value with
  | ok answer => simp only [h answer, List.append_nil]
  | error fault => exact List.append_nil _

end Inquiry

end ServingCatalog
