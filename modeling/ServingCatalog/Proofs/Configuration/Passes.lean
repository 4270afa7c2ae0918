import ServingCatalog.Configuration.Load
import ServingCatalog.Proofs.Settings.Route

/-!
# Passes over the sources

Sources are laid over each other pass by pass, and what they make together is laid once more, over
nothing.  Whatever the sources are, what is merged is settled (`settled_merge`).

The last pass changes nothing but the order, if all keys are one step each (`merge_of_layAll`), and
in any case it makes the same of entries that are alike (`merge_eq_of_alike`).  So two ways of
loading are compared source by source, up to what shows.
-/

namespace ServingCatalog

open Setting

/-! ## Laying in the order of a pass -/

namespace Loader

variable {loader : Loader} {pass : Pass} {below next : Entries} {source : List (String × Setting)}

/-- Laying over what is settled leaves it so. -/
theorem settled_lay (h : Settled (.table none below)) (hnext : loader.lay pass below source = .ok next) :
    Settled (.table none next) := settled_assignAll h hnext

/-- Laying keys of one first step leaves only such keys. -/
theorem plainTable_lay (hsource : ∀ entry ∈ source, Path.StartsPlain entry.1)
    (h : PlainTable below) (hnext : loader.lay pass below source = .ok next) : PlainTable next :=
  plainTable_assignAll (forall_orderedEntries Path.StartsPlain hsource _) h hnext

/-- A layer is laid over what is held as a table. -/
theorem lay_of_isLayer (loader : Loader) (pass : Pass) (h : IsLayer source) (below : Entries) :
    loader.lay pass below source =
      .ok (overlayEntries below (orderedEntries (loader.order pass) source)) :=
  (h.ordered _).assignAll below

/-- A source that is laid alike in the order of a pass can be laid in this pass. -/
theorem exists_lay_alike (h : LaysAlike source (orderedEntries (loader.order pass) source))
    {other : Entries} (hbelow : AlikeEntries below other)
    (hnext : assignAll below source = .ok next) :
    ∃ last, loader.lay pass other source = .ok last ∧ AlikeEntries next last := by
  obtain ⟨same, last, hsame, hlast, halike⟩ := h below other hbelow
  rw [hnext, Except.ok.injEq] at hsame
  subst hsame
  exact ⟨last, hlast, halike⟩

end Loader

namespace Configuration

variable {loader : Loader} {sources : List Source} {entries : Entries}

/-! ## Pass by pass -/

/-- One more source is laid over what the others make, if it can be had. -/
theorem layAll_append (loader : Loader) (sources : List Source) (pass : Pass)
    (source : Except SettingFault Entries) :
    layAll loader (sources ++ [(pass, source)]) =
      layAll loader sources >>= fun below => laySource loader below (pass, source) := by
  rw [layAll, List.foldlM_append, ← layAll]
  exact congrArg (layAll loader sources >>= ·)
    (funext fun below => bind_pure (laySource loader below (pass, source)))

/-- A source that can be laid is laid last. -/
theorem layAll_concat {below next : Entries} {pass : Pass} {source : Entries}
    (hsources : layAll loader sources = .ok below) (hnext : loader.lay pass below source = .ok next) :
    layAll loader (sources ++ [(pass, .ok source)]) = .ok next := by
  rw [layAll_append, hsources]
  exact hnext

/-- What sources make together is settled. -/
theorem settled_layAll (h : layAll loader sources = .ok entries) : Settled (.table none entries) := by
  have hstep : ∀ source ∈ sources, ∀ below next, Settled (.table none below) →
      laySource loader below source = .ok next → Settled (.table none next) := by
    intro source _ below next hbelow hnext
    obtain ⟨above, -, hlay⟩ := exists_of_bind_eq_ok hnext
    exact Loader.settled_lay hbelow hlay
  exact foldlM_keeps hstep settled_nil h

/-- The keys of sources that start plain are one step each once they are laid. -/
theorem plainTable_layAll
    (hsources : ∀ source ∈ sources, ∀ read, source.2 = .ok read →
      ∀ entry ∈ read, Path.StartsPlain entry.1)
    (h : layAll loader sources = .ok entries) : PlainTable entries := by
  refine foldlM_keeps (fun source hsource below next hbelow hnext => ?_) plainTable_nil h
  obtain ⟨above, habove, hlay⟩ := exists_of_bind_eq_ok hnext
  exact Loader.plainTable_lay (hsources source hsource above habove) hbelow hlay

/-- Two sources are laid alike in a pass, each by a loader of its own. -/
def LaidAlike (loader other : Loader) (pass : Pass) (source changed : Except SettingFault Entries) :
    Prop :=
  ∀ below above, AlikeEntries below above →
    AlikeOutcome (source >>= loader.lay pass below) (changed >>= other.lay pass above)

/-- One more source keeps outcomes alike, if it is laid alike. -/
theorem alikeOutcome_layAll_append {other : Loader} {others : List Source}
    (h : AlikeOutcome (layAll loader sources) (layAll other others)) (pass : Pass)
    {source changed : Except SettingFault Entries}
    (hlast : LaidAlike loader other pass source changed) :
    AlikeOutcome (layAll loader (sources ++ [(pass, source)]))
      (layAll other (others ++ [(pass, changed)])) := by
  rw [layAll_append, layAll_append]
  exact h.bind hlast

/-- **What is merged is settled**, whatever the sources are. -/
theorem settled_merge (h : merge loader sources = .ok entries) : Settled (.table none entries) := by
  obtain ⟨first, -, hlay⟩ := exists_of_bind_eq_ok h
  exact Loader.settled_lay settled_nil hlay

/-- A file that can be read is a layer. -/
def IsLayered (loader : Loader) (files : Files) (name : String) : Prop :=
  ∀ source, fileSource loader files name = .ok source → IsLayer source

/-- A missing file says nothing. -/
theorem isLayered_of_missing {files : Files} {name : String} (h : locate? loader files name = none) :
    IsLayered loader files name := by
  intro source hsource
  rw [fileSource, h, Except.ok.injEq] at hsource
  rw [← hsource]
  have hnone (entry : String × Setting) : entry ∉ ([] : Entries) := List.not_mem_nil
  exact ⟨fun entry h => absurd h (hnone entry),
    .table List.nodup_nil fun entry h => absurd h (hnone entry)⟩

/-- Layers and an environment are merged into settings whose keys are one step each. -/
theorem plainTable_of_isLayered (loader : Loader) {files : Files} {defaultName localName : String}
    (hdefault : IsLayered loader files defaultName) (hlocal : IsLayered loader files localName)
    {environment : List (String × String)} {entries : Entries}
    (h : layAll loader [(.lower, fileSource loader files defaultName),
      (.upper, fileSource loader files localName),
      (.environment, .ok (Environment.source environment))] = .ok entries) :
    PlainTable entries := by
  refine plainTable_layAll (fun source hsource read hread => ?_) h
  simp only [List.mem_cons, List.not_mem_nil, or_false] at hsource
  rcases hsource with rfl | rfl | rfl
  · exact (hdefault read hread).startsPlain
  · exact (hlocal read hread).startsPlain
  · rw [← Except.ok.inj hread]
    exact fun _ => Environment.startsPlain_of_mem_source

/-- The last pass changes nothing but the order of keys that are one step each. -/
theorem merge_of_layAll (h : layAll loader sources = .ok entries) (hplain : PlainTable entries) :
    merge loader sources = .ok (orderedEntries (loader.order .merged) entries) := by
  rw [merge, h]
  exact assignAll_nil (settled_layAll h) hplain _

/-- The order in which longer keys come first, in some passes. -/
def longerFirst (passes : List Pass) (pass : Pass) : KeyOrder := fun _ key =>
  if pass ∈ passes then 99 - key.length else 0

end Configuration

end ServingCatalog
