import ServingCatalog.Proofs.Catalog.Scan
import ServingCatalog.Proofs.Model.Building

/-!
# Defaults follow their lists

In a catalog of built specs the lookup of a default tells no other story than the lookup of its
list: it finds the first entry, finds nothing in an empty list, and fails where the list fails, with
the same fault (`Inquiry.DefaultOf`).  The two lookups take the same steps up to the spec and part
only there, so the relation is carried backwards through the steps that they share:
`DefaultOf.bind` and `DefaultOf.emit`.

The main result is `defaultOf_of_blueprints`.
-/

namespace ServingCatalog

namespace Inquiry

/-- One inquiry asks for the default of the list that another one asks for. -/
structure DefaultOf (types : Inquiry (List String)) (default : Inquiry String) : Prop where
  ok_iff : ∀ type, default.outcome.value = .ok type ↔
    ∃ others, types.outcome.value = .ok (type :: others)
  notFound : types.outcome.value = .ok [] →
    ∃ message, default.outcome.value = .error (.notFound message)
  fault : ∀ fault, types.outcome.value = .error fault → default.outcome.value = .error fault

namespace DefaultOf

/-- A list, and its first entry or the fault that there is none. -/
theorem of_head? (types : List String) (message : String) :
    DefaultOf (pure types)
      (match types.head? with
        | some type => pure type
        | none => throw (.notFound message)) := by
  cases types with
  | nil =>
    refine ⟨fun type => ⟨?_, ?_⟩, ?_, ?_⟩
    · intro hfound
      cases hfound
    · rintro ⟨others, hlist⟩
      cases hlist
    · exact fun _ => ⟨message, rfl⟩
    · intro fault hfault
      cases hfault
  | cons first rest =>
    refine ⟨fun type => ⟨?_, ?_⟩, ?_, ?_⟩
    · intro hfound
      cases hfound
      exact ⟨rest, rfl⟩
    · rintro ⟨others, hlist⟩
      cases hlist
      rfl
    · intro hempty
      cases hempty
    · intro fault hfault
      cases hfault

/-- Events on the way may differ. -/
theorem emit {types : Inquiry (List String)} {default : Inquiry String}
    (h : DefaultOf types default) (one other : Event) :
    DefaultOf (Inquiry.emit one >>= fun _ => types) (Inquiry.emit other >>= fun _ => default) :=
  ⟨h.ok_iff, h.notFound, h.fault⟩

/-- A step that both take first: if it fails, both fail with its fault. -/
theorem bind {α : Type} (step : Inquiry α) {types : α → Inquiry (List String)}
    {default : α → Inquiry String}
    (h : ∀ a, step.outcome.value = .ok a → DefaultOf (types a) (default a)) :
    DefaultOf (step >>= types) (step >>= default) := by
  cases hstep : step.outcome.value with
  | ok a =>
    obtain ⟨hok, hnone, hfault⟩ := h a hstep
    refine ⟨fun type => ?_, ?_, fun fault => ?_⟩ <;> simp only [value_bind, hstep]
    · exact hok type
    · exact hnone
    · exact hfault fault
  | error first =>
    refine ⟨fun type => ?_, ?_, fun fault => ?_⟩ <;> simp only [value_bind, hstep]
    · simp
    · intro hempty
      cases hempty
    · intro hfault
      cases hfault
      rfl

end DefaultOf

end Inquiry

open Inquiry

namespace Lookup

/-! ## Checks before the resolver -/

theorem defaultOf_acceptTypes {r : Resolver} {q : Query}
    (h : DefaultOf (r.supportedAcceptTypes q) (r.defaultAcceptType q)) :
    DefaultOf (acceptTypes r q) (defaultAcceptType r q) :=
  .bind (requireModelInput r q acceptTypesPurpose) fun _ _ => h.emit _ _

/-- The lookups of instance types pass on what the resolver answers. -/
theorem defaultOf_instanceTypes {r : Resolver} {q : Query}
    (h : ∀ scope, DefaultOf (r.instanceTypes q scope) (r.defaultInstanceType q scope))
    (scope : Option Scope) :
    DefaultOf (instanceTypes r q scope) (defaultInstanceType r q scope) :=
  .bind (requireModelInput r q instanceTypesPurpose) fun _ _ =>
    .bind (requireScope scope) fun scope _ => (h scope).emit _ _

end Lookup

namespace Catalog

/-! ## Answers from a spec -/

/-- A spec that is found is one of those that went in. -/
theorem mem_of_find_ofList {region : String} {specs : List ModelSpec} {q : Query}
    {spec : ModelSpec} (h : ((ofList region specs).find q).outcome.value = .ok spec) :
    spec ∈ specs := by
  rw [value_find, get?_ofList] at h
  cases hfind : specs.reverse.find? (·.key = queryKey q) with
  | none =>
    rw [hfind] at h
    cases h
  | some found =>
    rw [hfind] at h
    have hmem : found ∈ specs := List.mem_reverse.1 (List.mem_of_find?_eq_some hfind)
    dsimp only at h
    split at h
    · cases h
      exact hmem
    · cases h

/-- The default content type heads the list that the catalog answers. -/
theorem defaultOf_supportedAcceptTypes {c : Catalog} {q : Query}
    (h : ∀ spec, (c.find q).outcome.value = .ok spec → spec.Leads) :
    DefaultOf (c.resolver.supportedAcceptTypes q) (c.resolver.defaultAcceptType q) := by
  refine .bind (c.find q) fun spec hspec => ?_
  rw [(h spec hspec).acceptTypes]
  exact .of_head? spec.acceptTypes _

/-- Likewise the default instance type. -/
theorem defaultOf_instanceTypes {c : Catalog} {q : Query}
    (h : ∀ spec, (c.find q).outcome.value = .ok spec → spec.Leads) (scope : Scope) :
    DefaultOf (c.resolver.instanceTypes q scope) (c.resolver.defaultInstanceType q scope) := by
  refine .bind (c.find q) fun spec hspec => .bind (scopeOf spec scope) fun found hfound => ?_
  have hscope : spec.scope? scope = some found := by
    rw [scopeOf] at hfound
    cases hscope : spec.scope? scope with
    | none =>
      rw [hscope] at hfound
      cases hfound
    | some other =>
      rw [hscope] at hfound
      cases hfound
      rfl
  rw [(h spec hspec).instanceTypes scope found hscope]
  exact .of_head? found.instanceTypes _

/-- **Defaults follow their lists.**  Whatever specs are built and put into a catalog, one over
another, each lookup of a default agrees with the lookup of the list, for every query and scope. -/
theorem defaultOf_of_blueprints (region : String) (blueprints : List Blueprint) (q : Query) :
    DefaultOf (Lookup.acceptTypes (ofList region (blueprints.map Blueprint.spec)).resolver q)
        (Lookup.defaultAcceptType (ofList region (blueprints.map Blueprint.spec)).resolver q) ∧
      ∀ scope : Option Scope,
        DefaultOf
          (Lookup.instanceTypes (ofList region (blueprints.map Blueprint.spec)).resolver q scope)
          (Lookup.defaultInstanceType (ofList region (blueprints.map Blueprint.spec)).resolver q
            scope) := by
  have hleads : ∀ spec,
      ((ofList region (blueprints.map Blueprint.spec)).find q).outcome.value = .ok spec →
        spec.Leads := by
    intro spec hfind
    obtain ⟨b, -, rfl⟩ := List.mem_map.1 (mem_of_find_ofList hfind)
    exact b.leads_spec
  exact ⟨Lookup.defaultOf_acceptTypes (defaultOf_supportedAcceptTypes hleads),
    Lookup.defaultOf_instanceTypes (defaultOf_instanceTypes hleads)⟩

/-- An empty list that is written later takes the default away. -/
example :
    (Lookup.defaultAcceptType
        (ofList "us-west-2" [Blueprint.spec
          ⟨"m", "1", [.acceptTypes ["text/csv"], .acceptTypes []]⟩]).resolver
        (Query.ofModel "m" "1")).outcome.value =
      .error (.notFound "Model 'm' has no default accept type") := by
  rfl

end Catalog

end ServingCatalog
