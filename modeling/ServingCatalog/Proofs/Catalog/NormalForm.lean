import Mathlib.Data.Finset.Card
import ServingCatalog.Proofs.Catalog.Scan

/-!
# Catalogs do not depend on order

In a list of specs those that a later one hides do not matter, and the others may come in any order:
catalogs that hold the same spec for each key are alike in all their answers.  `lastOfEach` is the
list without the hidden specs.

What a catalog holds of a key is the one member of its list with that key, `find?_key_eq_some_iff`,
which says nothing about where the member stands.  The main result is `alike_of_perm_lastOfEach`.
-/

namespace ServingCatalog

/-- A question comes down to a call with the same query. -/
theorem Question.query_of_reach {accepted : Bool} {question : Question} {call : Call}
    (h : question.reach accepted = .ok call) : call.query = question.query := by
  cases accepted with
  | false => cases h
  | true =>
    rcases question with q | q | ⟨q, _ | scope⟩ | ⟨q, _ | scope⟩ <;> cases h <;> rfl

namespace Catalog

/-- A list without the specs that are followed by one of the same key. -/
def lastOfEach : List ModelSpec → List ModelSpec
  | [] => []
  | spec :: rest =>
    if spec.key ∈ rest.map ModelSpec.key then lastOfEach rest else spec :: lastOfEach rest

/-! ## Hidden specs -/

/-- The keys that are left are those of the list, each where it comes last. -/
theorem keys_lastOfEach (specs : List ModelSpec) :
    (lastOfEach specs).map ModelSpec.key = (specs.map ModelSpec.key).dedup := by
  induction specs with
  | nil => rfl
  | cons spec rest ih =>
    by_cases h : spec.key ∈ rest.map ModelSpec.key
    · rw [lastOfEach, if_pos h, ih, List.map_cons, List.dedup_cons_of_mem h]
    · rw [lastOfEach, if_neg h, List.map_cons, ih, List.map_cons, List.dedup_cons_of_notMem h]

/-- The last spec of a key is never hidden. -/
theorem find?_reverse_lastOfEach (specs : List ModelSpec) (key : String × String) :
    (lastOfEach specs).reverse.find? (·.key = key) = specs.reverse.find? (·.key = key) := by
  induction specs with
  | nil => rfl
  | cons spec rest ih =>
    rw [List.reverse_cons, List.find?_append, ← ih]
    by_cases h : spec.key ∈ rest.map ModelSpec.key
    · rw [lastOfEach, if_pos h]
      by_cases hkey : spec.key = key
      · -- Some later spec is found, so the hidden one is not looked at.
        have hfound : ((lastOfEach rest).reverse.find? (·.key = key)).isSome = true := by
          rw [ih, List.find?_isSome]
          obtain ⟨later, hlater, hsame⟩ := List.mem_map.1 h
          exact ⟨later, List.mem_reverse.2 hlater, decide_eq_true (hsame.trans hkey)⟩
        rw [Option.or_of_isSome hfound]
      · simp [hkey]
    · rw [lastOfEach, if_neg h, List.reverse_cons, List.find?_append]

/-! ## One member for each key -/

/-- Where no two specs have the same key, the one of a key is found wherever it stands. -/
theorem find?_key_eq_some_iff {specs : List ModelSpec} (h : (specs.map ModelSpec.key).Nodup)
    (key : String × String) (spec : ModelSpec) :
    specs.find? (·.key = key) = some spec ↔ spec ∈ specs ∧ spec.key = key := by
  constructor
  · intro hfind
    have hkey := List.find?_some hfind
    exact ⟨List.mem_of_find?_eq_some hfind, of_decide_eq_true hkey⟩
  · rintro ⟨hmem, hkey⟩
    obtain ⟨found, hfound⟩ : ∃ found, specs.find? (·.key = key) = some found := by
      rw [← Option.isSome_iff_exists, List.find?_isSome]
      exact ⟨spec, hmem, decide_eq_true hkey⟩
    have hsame : found.key = key := by
      have hpred := List.find?_some hfound
      exact of_decide_eq_true hpred
    have hspec : found = spec := List.inj_on_of_nodup_map h (List.mem_of_find?_eq_some hfound)
      hmem (hsame.trans hkey.symm)
    rw [hfound, hspec]

/-- Any order of the specs that are not hidden makes a catalog hold what the list does. -/
theorem get?_ofList_of_perm {specs others : List ModelSpec} (h : others.Perm (lastOfEach specs))
    (region : String) (key : String × String) :
    (ofList region others).get? key = (ofList region specs).get? key := by
  have hnodup : ((lastOfEach specs).reverse.map ModelSpec.key).Nodup := by
    rw [List.map_reverse, List.nodup_reverse, keys_lastOfEach]
    exact List.nodup_dedup _
  have hperm : others.reverse.Perm (lastOfEach specs).reverse :=
    (List.reverse_perm others).trans (h.trans (List.reverse_perm _).symm)
  have hothers : (others.reverse.map ModelSpec.key).Nodup :=
    (hperm.map ModelSpec.key).nodup_iff.2 hnodup
  rw [get?_ofList, get?_ofList, ← find?_reverse_lastOfEach specs]
  ext spec
  rw [find?_key_eq_some_iff hothers, find?_key_eq_some_iff hnodup, hperm.mem_iff]

/-- Specs of other keys do not matter for a key. -/
theorem get?_ofList_filter (region : String) (specs : List ModelSpec) (key : String × String) :
    (ofList region (specs.filter (·.key = key))).get? key = (ofList region specs).get? key := by
  rw [get?_ofList, get?_ofList, ← List.filter_reverse, List.find?_filter]
  simp

/-! ## Size -/

theorem isSome_get?_iff (c : Catalog) (key : String × String) :
    (c.get? key).isSome = true ↔ key ∈ c.specs.map ModelSpec.key := by
  simp [get?]

/-- A catalog of a list knows the keys of the list. -/
theorem keys_ofList (region : String) (specs : List ModelSpec) :
    ((ofList region specs).specs.map ModelSpec.key).toFinset =
      (specs.map ModelSpec.key).toFinset := by
  ext key
  rw [List.mem_toFinset, ← isSome_get?_iff, get?_ofList]
  simp

/-- Its size is the number of different keys. -/
theorem size_ofList (region : String) (specs : List ModelSpec) :
    (ofList region specs).size = (specs.map ModelSpec.key).toFinset.card := by
  rw [← keys_ofList region, List.toFinset_card_of_nodup (ofList region specs).keys_nodup,
    List.length_map, size]

/-- The specs that are not hidden have the same keys, in any order. -/
theorem size_ofList_of_perm {specs others : List ModelSpec} (h : others.Perm (lastOfEach specs))
    (region : String) :
    (ofList region others).size = (specs.map ModelSpec.key).toFinset.card := by
  have hkeys : (others.map ModelSpec.key).Perm (specs.map ModelSpec.key).dedup :=
    keys_lastOfEach specs ▸ h.map ModelSpec.key
  rw [size_ofList, List.toFinset_card_of_nodup (hkeys.nodup_iff.2 (List.nodup_dedup _)),
    hkeys.length_eq, List.card_toFinset]

/-- Only the catalog of an empty list is empty. -/
theorem isEmpty_iff_of_size {c : Catalog} {specs : List ModelSpec}
    (h : c.size = (specs.map ModelSpec.key).toFinset.card) : c.isEmpty = true ↔ specs = [] := by
  have hempty : c.isEmpty = true ↔ c.size = 0 := by
    rw [isEmpty, List.isEmpty_iff, size, List.length_eq_zero_iff]
  rw [hempty, h, Finset.card_eq_zero, List.toFinset_eq_empty_iff, List.map_eq_nil_iff]

/-! ## Answers -/

/-- Two catalogs that find the same for a query answer the calls about it alike. -/
theorem answer_congr {c d : Catalog} {call : Call} (h : c.find call.query = d.find call.query) :
    c.resolver.answer call = d.resolver.answer call := by
  cases call <;>
    · simp only [Call.query] at h
      simp only [Resolver.answer, resolver, h]

/-- They answer the questions about it alike, too: all catalogs check and refuse in the same way. -/
theorem ask_congr {c d : Catalog} {question : Question}
    (h : c.find question.query = d.find question.query) :
    question.ask c.resolver = question.ask d.resolver := by
  have haccepted : question.acceptedBy c.resolver = question.acceptedBy d.resolver := by
    rw [acceptedBy_resolver, acceptedBy_resolver]
  have hrefusal : question.refusalEvent c.resolver = question.refusalEvent d.resolver := by
    have hname : c.resolver.name = d.resolver.name := rfl
    rw [Question.refusalEvent, Question.refusalEvent, haccepted, rejectedModel, rejectedModel,
      hname]
  rw [Question.ask_eq, Question.ask_eq, haccepted, hrefusal]
  cases hreach : question.reach (question.acceptedBy d.resolver) with
  | error message => rfl
  | ok call =>
    have hquery := Question.query_of_reach hreach
    simp only [answer_congr (hquery ▸ h)]

/-- What is found for a query depends on the region and on what is held of its key. -/
theorem find_congr {c d : Catalog} {q : Query} (hregion : c.defaultRegion = d.defaultRegion)
    (hget : c.get? (queryKey q) = d.get? (queryKey q)) : c.find q = d.find q := by
  simp only [find, regionOf, hregion, hget]
  rfl

/-- Two catalogs have the same outcome for every question and for every call. -/
structure Alike (c d : Catalog) : Prop where
  asked : ∀ question : Question,
    (question.ask c.resolver).outcome = (question.ask d.resolver).outcome
  called : ∀ call : Call, (c.resolver.answer call).outcome = (d.resolver.answer call).outcome

/-- Any order of the specs that are not hidden makes a catalog like the one of the list. -/
theorem alike_ofList_of_perm {specs others : List ModelSpec} (h : others.Perm (lastOfEach specs))
    (region : String) : (ofList region others).Alike (ofList region specs) := by
  have hregion : (ofList region others).defaultRegion = (ofList region specs).defaultRegion := by
    rw [defaultRegion_ofList, defaultRegion_ofList]
  have hfind : ∀ q, (ofList region others).find q = (ofList region specs).find q :=
    fun q => find_congr hregion (get?_ofList_of_perm h region (queryKey q))
  exact ⟨fun question => by rw [ask_congr (hfind question.query)],
    fun call => by rw [answer_congr (hfind call.query)]⟩

/-- For a query only the specs of its key matter. -/
theorem find_ofList_filter (region : String) (specs : List ModelSpec) (q : Query) :
    (ofList region specs).find q =
      (ofList region (specs.filter (·.key = queryKey q))).find q := by
  refine find_congr ?_ (get?_ofList_filter region specs (queryKey q)).symm
  rw [defaultRegion_ofList, defaultRegion_ofList]

/-- **Order does not matter.**  Take a list of specs, and those of them that no later one hides, in
any order.  The catalogs of both lists, and the one that the latter are put into one by one, have as
many models as there are different keys, and are alike.  The specs of other keys do not matter for a
question or a call, however similar the keys may look. -/
theorem alike_of_perm_lastOfEach (region : String) {specs others : List ModelSpec}
    (h : others.Perm (lastOfEach specs)) :
    (∀ c ∈ [CatalogConfig.build ⟨region, specs⟩, CatalogConfig.build ⟨region, others⟩,
        others.foldl (fun c spec => c.insert spec) (empty region)],
      c.size = (specs.map ModelSpec.key).toFinset.card ∧ (c.isEmpty = true ↔ specs = []) ∧
        c.Alike (CatalogConfig.build ⟨region, specs⟩)) ∧
      (∀ question : Question,
        (question.ask (CatalogConfig.build ⟨region, specs⟩).resolver).outcome =
          (question.ask (CatalogConfig.build
            ⟨region, specs.filter (·.key = queryKey question.query)⟩).resolver).outcome) ∧
      ∀ call : Call,
        ((CatalogConfig.build ⟨region, specs⟩).resolver.answer call).outcome =
          ((CatalogConfig.build
            ⟨region, specs.filter (·.key = queryKey call.query)⟩).resolver.answer call).outcome := by
  have hsize := size_ofList region specs
  have hothers := size_ofList_of_perm h region
  refine ⟨fun c hc => ?_, fun question => ?_, fun call => ?_⟩
  · simp only [List.mem_cons, List.not_mem_nil, or_false] at hc
    rcases hc with rfl | rfl | rfl
    · exact ⟨hsize, isEmpty_iff_of_size hsize, fun _ => rfl, fun _ => rfl⟩
    · exact ⟨hothers, isEmpty_iff_of_size hothers, alike_ofList_of_perm h region⟩
    · exact ⟨hothers, isEmpty_iff_of_size hothers, alike_ofList_of_perm h region⟩
  · exact congrArg Inquiry.outcome (ask_congr (find_ofList_filter region specs question.query))
  · exact congrArg Inquiry.outcome (answer_congr (find_ofList_filter region specs call.query))

/-- Two keys that are the same when their parts are joined by a period, one of them given twice. -/
theorem alike_pointedKeys :
    let hidden := (ModelSpec.named "a.b" "c").withAcceptTypes ["text/csv"]
    let first := (ModelSpec.named "a" "b.c").withAcceptTypes ["image/png"]
    let second := (ModelSpec.named "a.b" "c").withRegions ["eu-west-1"]
    [second, first].Perm (lastOfEach [hidden, first, second]) ∧
      (CatalogConfig.build ⟨"us-west-2", [second, first]⟩).size = 2 ∧
      (CatalogConfig.build ⟨"us-west-2", [second, first]⟩).Alike
        (CatalogConfig.build ⟨"us-west-2", [hidden, first, second]⟩) := by
  intro hidden first second
  have hperm : [second, first].Perm (lastOfEach [hidden, first, second]) := by decide
  have hcard : ([hidden, first, second].map ModelSpec.key).toFinset.card = 2 := by decide
  obtain ⟨hlists, -, -⟩ := alike_of_perm_lastOfEach "us-west-2" hperm
  obtain ⟨hsize, -, halike⟩ := hlists (CatalogConfig.build ⟨"us-west-2", [second, first]⟩) (by simp)
  exact ⟨hperm, hsize.trans hcard, halike⟩

end Catalog

end ServingCatalog
