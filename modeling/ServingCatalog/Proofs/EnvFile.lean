import Mathlib.Data.List.Basic
import ServingCatalog.EnvFile

/-!
# Files of variables that can be set

A variable cannot be set to a value with a NUL in it.  What such a file gives a variable comes from
its text and from the variables that are set already, so where there is no NUL in either, there is
none in any value: `Clean` is kept line by line, and by each character of a value.

The main result is `exists_add?`.
-/

namespace ServingCatalog

namespace EnvFile

/-- There is no NUL among characters. -/
def Clean (text : List Char) : Prop := '\x00' ∉ text

/-- There is none in the names and values of variables. -/
def CleanVariables (environment : Variables) : Prop :=
  ∀ entry ∈ environment, Clean entry.1.toList ∧ Clean entry.2.toList

theorem Clean.subset {text other : List Char} (h : Clean text) (hin : other ⊆ text) : Clean other :=
  fun hmem => h (hin hmem)

theorem clean_append {text other : List Char} : Clean (text ++ other) ↔ Clean text ∧ Clean other := by
  rw [Clean, List.mem_append, not_or]
  exact Iff.rfl

theorem Clean.reverse {text : List Char} (h : Clean text) : Clean text.reverse :=
  h.subset fun _ hc => List.mem_reverse.1 hc

/-! ## Values -/

variable {environment : Variables}

/-- What stands for a variable is part of what is set. -/
theorem clean_valueOf (henvironment : CleanVariables environment) (name : List Char) :
    Clean (valueOf environment name) := by
  rw [valueOf]
  split
  · exact List.not_mem_nil
  · generalize hfind : List.findSome? _ environment = found
    cases found with
    | none => exact List.not_mem_nil
    | some found =>
      obtain ⟨⟨key, value⟩, hentry, hprefix⟩ := List.exists_of_findSome?_eq_some hfind
      obtain ⟨hkey, hvalue⟩ := henvironment _ hentry
      have htext : name ++ ['='] ++ found = key.toList ++ '=' :: value.toList :=
        List.isPrefixOf?_eq_some_iff_append_eq.1 hprefix
      have hwhole : Clean (key.toList ++ '=' :: value.toList) := by
        refine clean_append.2 ⟨hkey, fun hmem => ?_⟩
        rcases List.mem_cons.1 hmem with hequals | hlater
        · exact absurd hequals (by decide)
        · exact hvalue hlater
      rw [← htext, clean_append] at hwhole
      exact hwhole.2

namespace Reading

/-- There is no NUL in the value so far. -/
def IsClean (r : Reading) : Prop := Clean r.output

/-- Adding a character other than NUL keeps a value clean. -/
theorem IsClean.push {r : Reading} (h : r.IsClean) {c : Char} (hc : c ≠ '\x00') : (r.push c).IsClean :=
  fun hmem => (List.mem_cons.1 hmem).elim (fun hsame => hc hsame.symm) h

/-- So does putting in what stands for a variable. -/
theorem IsClean.resolve {r : Reading} (h : r.IsClean) (henvironment : CleanVariables environment) :
    (r.resolve environment).IsClean :=
  clean_append.2 ⟨(clean_valueOf henvironment r.name).reverse, h⟩

/-- A character of a reference is added, or ends it. -/
theorem IsClean.stepReference {r : Reading} (h : r.IsClean)
    (henvironment : CleanVariables environment) {c : Char} (hc : c ≠ '\x00') :
    (r.stepReference environment c).IsClean := by
  rw [Reading.stepReference]
  split
  · exact h
  · split
    · split
      · exact h.resolve henvironment
      · exact h
    · split
      · exact h
      · dsimp only
        split
        · exact h.resolve henvironment
        · exact (h.resolve henvironment).push hc

/-- No escape stands for a NUL. -/
theorem ne_of_unescape? {c d : Char} (h : unescape? c = some d) (hc : c ≠ '\x00') : d ≠ '\x00' := by
  rw [unescape?] at h
  split at h
  · rw [← Option.some.inj h]
    decide
  · split at h
    · rwa [← Option.some.inj h]
    · cases h

/-- **One character** of a value. -/
theorem IsClean.step {r next : Reading} (h : r.IsClean) (henvironment : CleanVariables environment)
    {c : Char} (hc : c ≠ '\x00') (hnext : r.step environment c = some next) : next.IsClean := by
  rw [Reading.step] at hnext
  split at hnext
  · obtain ⟨d, hd, rfl⟩ := Option.map_eq_some_iff.1 hnext
    exact h.push (ne_of_unescape? hd hc)
  · split at hnext
    · rw [← Option.some.inj hnext]
      split
      · exact h
      · exact h.push hc
    · split at hnext
      · rw [← Option.some.inj hnext]
        exact h.stepReference henvironment hc
      · split at hnext
        · rw [← Option.some.inj hnext]
          exact h
        · split at hnext
          · rw [← Option.some.inj hnext]
            split
            · exact h
            · split
              · exact h
              · exact h.push hc
          · -- Outside of quotes a quote, a backslash or a blank adds nothing.
            repeat' split at hnext
            all_goals rw [← Option.some.inj hnext]
            all_goals first | exact h | exact h.push hc

/-- At the end of the line a value is clean. -/
theorem IsClean.finish {r : Reading} (h : r.IsClean) (henvironment : CleanVariables environment)
    {value : List Char} (hvalue : r.finish environment = some value) : Clean value := by
  rw [Reading.finish] at hvalue
  split at hvalue
  · cases hvalue
  · rw [← Option.some.inj hvalue]
    exact (h.resolve henvironment).reverse

end Reading

/-- A whole value. -/
theorem clean_valueFrom (henvironment : CleanVariables environment) {text value : List Char}
    (htext : Clean text) {r : Reading} (h : r.IsClean)
    (hvalue : valueFrom environment text r = some value) : Clean value := by
  induction text generalizing r with
  | nil => exact h.finish henvironment hvalue
  | cons c rest ih =>
    have hc : c ≠ '\x00' := fun hsame => htext (hsame ▸ List.mem_cons_self)
    have hrest : Clean rest := htext.subset (List.subset_cons_self c rest)
    rw [valueFrom] at hvalue
    split at hvalue
    · split at hvalue
      · exact ih hrest h hvalue
      · split at hvalue
        · exact h.finish henvironment hvalue
        · cases hvalue
    · split at hvalue
      next next hnext => exact ih hrest (h.step henvironment hc hnext) hvalue
      next => cases hvalue

/-! ## Lines -/

theorem trimStart_subset (text : List Char) : Text.trimStart text ⊆ text :=
  (List.dropWhile_suffix _).subset

theorem trim_subset (text : List Char) : Text.trim text ⊆ text := by
  intro c hc
  have hend := (List.dropWhile_suffix _).subset (List.mem_reverse.1 hc)
  exact trimStart_subset text (List.mem_reverse.1 hend)

/-- A name and what follows it are parts of the text. -/
theorem subset_of_name {text name rest : List Char} (h : EnvFile.name text = some (name, rest)) :
    name ⊆ text ∧ rest ⊆ text := by
  cases text with
  | nil => cases h
  | cons c text =>
    rw [EnvFile.name] at h
    split at h
    · cases h
      exact ⟨(List.takeWhile_prefix _).subset, (List.dropWhile_suffix _).subset⟩
    · cases h

theorem subset_of_equalsSign {text rest : List Char} (h : equalsSign text = some rest) :
    rest ⊆ text := by
  rw [equalsSign.eq_def] at h
  split at h
  · rw [← Option.some.inj h]
    exact List.subset_cons_self _ _
  · cases h

/-- Likewise behind the equals sign. -/
theorem subset_of_assigned {text name rest : List Char} (h : assigned text = some (name, rest)) :
    name ⊆ text ∧ rest ⊆ text := by
  simp only [assigned, Option.bind_eq_bind, Option.bind_eq_some_iff, Option.pure_def,
    Option.some.injEq, Prod.mk.injEq] at h
  obtain ⟨⟨word, behind⟩, hname, last, hequals, rfl, rfl⟩ := h
  obtain ⟨hword, hbehind⟩ := subset_of_name hname
  exact ⟨hword, List.Subset.trans (subset_of_equalsSign hequals)
    (List.Subset.trans (trimStart_subset behind) hbehind)⟩

/-- Likewise for a line with or without `export`. -/
theorem subset_of_target {text name rest : List Char} (h : target text = some (name, rest)) :
    name ⊆ text ∧ rest ⊆ text := by
  simp only [target, Option.bind_eq_bind, Option.bind_eq_some_iff] at h
  obtain ⟨⟨word, behind⟩, hname, hassigned⟩ := h
  split at hassigned
  · obtain ⟨hleft, hright⟩ := subset_of_assigned hassigned
    have hbehind := List.Subset.trans (trimStart_subset behind) (subset_of_name hname).2
    exact ⟨List.Subset.trans hleft hbehind, List.Subset.trans hright hbehind⟩
  · exact subset_of_assigned hassigned

/-- What a line says of a variable. -/
theorem clean_statement (henvironment : CleanVariables environment) {text : List Char}
    (htext : Clean text) {name value : String}
    (h : statement environment text = .variable name value) :
    Clean name.toList ∧ Clean value.toList := by
  have htrim : Clean (Text.trim text) := htext.subset (trim_subset text)
  rw [statement] at h
  split at h
  · cases h
  · cases h
  · split at h
    · cases h
    next target rest htarget =>
      obtain ⟨hname, hrest⟩ := subset_of_target htarget
      have hcleanName : Clean (String.ofList target).toList := by
        rw [String.toList_ofList]
        exact htrim.subset hname
      split at h
      · cases h
        exact ⟨hcleanName, List.not_mem_nil⟩
      · cases h
        exact ⟨hcleanName, List.not_mem_nil⟩
      · split at h
        next found hfound =>
          cases h
          refine ⟨hcleanName, ?_⟩
          rw [String.toList_ofList]
          have hstart : Reading.start.IsClean := List.not_mem_nil
          exact clean_valueFrom henvironment
            (htrim.subset (List.Subset.trans (trimStart_subset rest) hrest)) hstart hfound
        next => cases h

theorem afterBreak_subset (text : List Char) : afterBreak text ⊆ text :=
  ((List.drop_suffix 1 _).trans (List.dropWhile_suffix _)).subset

/-- A logical line and what follows it are parts of the text.  The induction is on the text,
whatever stage it is read from. -/
theorem subset_of_lineFrom {stage : Stage} {text line rest : List Char}
    (h : lineFrom stage text = .complete line rest) : line ⊆ text ∧ rest ⊆ text := by
  induction text generalizing stage line with
  | nil =>
    cases stage <;> cases h
    exact ⟨List.Subset.refl _, List.Subset.refl _⟩
  | cons c text ih =>
    rw [lineFrom] at h
    split at h
    · cases h
      exact ⟨List.nil_subset _,
        List.Subset.trans (afterBreak_subset text) (List.subset_cons_self c text)⟩
    · split at h
      · cases h
        exact ⟨List.nil_subset _, List.subset_cons_self c _⟩
      · cases hlater : lineFrom (stage.next c) text with
        | unfinished =>
          rw [hlater] at h
          cases h
        | complete front behind =>
          rw [hlater] at h
          cases h
          obtain ⟨hfront, hbehind⟩ := ih hlater
          exact ⟨List.cons_subset_cons c hfront,
          List.Subset.trans hbehind (List.subset_cons_self c text)⟩

theorem subset_of_line {text line rest : List Char} (h : EnvFile.line text = .complete line rest) :
    line ⊆ text ∧ rest ⊆ text := by
  rw [EnvFile.line] at h
  split at h
  · cases h
    exact ⟨List.nil_subset _, afterBreak_subset text⟩
  · exact subset_of_lineFrom h

/-! ## All variables -/

/-- A variable without a NUL is set. -/
theorem exists_setDefault? (henvironment : CleanVariables environment) {name value : String}
    (hname : Clean name.toList) (hvalue : Clean value.toList) :
    ∃ next, setDefault? name value environment = some next ∧ CleanVariables next := by
  rw [setDefault?]
  split
  · exact ⟨environment, rfl, henvironment⟩
  · rw [if_neg hvalue]
    refine ⟨_, rfl, fun entry hentry => ?_⟩
    rcases List.mem_append.1 hentry with hold | hnew
    · exact henvironment entry hold
    · rw [List.mem_singleton.1 hnew]
      exact ⟨hname, hvalue⟩

/-- **Line by line.**  The induction is on the bound of lines. -/
theorem exists_addWithin? {bound : Nat} {text : List Char} (htext : Clean text)
    (henvironment : CleanVariables environment) :
    ∃ next, addWithin? bound text environment = some next := by
  induction bound generalizing text environment with
  | zero => exact ⟨environment, by rw [addWithin?]⟩
  | succ bound ih =>
    cases text with
    | nil => exact ⟨environment, by rw [addWithin?]⟩
    | cons c text =>
      rw [addWithin?.eq_3 _ _ _ (List.cons_ne_nil c text)]
      cases hline : line (c :: text) with
      | unfinished => exact ⟨environment, rfl⟩
      | complete front rest =>
        obtain ⟨hfront, hrest⟩ := subset_of_line hline
        dsimp only
        cases hstatement : statement environment front with
        | unreadable => exact ⟨environment, rfl⟩
        | nothing => exact ih (htext.subset hrest) henvironment
        | «variable» name value =>
          obtain ⟨hname, hvalue⟩ := clean_statement henvironment (htext.subset hfront) hstatement
          obtain ⟨next, hnext, hclean⟩ := exists_setDefault? henvironment hname hvalue
          dsimp only
          rw [hnext]
          exact ih (htext.subset hrest) hclean

/-- **Setting the variables of a file.**  If there is no NUL in it, nor in the variables that are
set, all of its variables can be set. -/
theorem exists_add? {text : String} (htext : Clean text.toList)
    (henvironment : CleanVariables environment) : ∃ next, add? text environment = some next := by
  have hmark : Text.dropMark text.toList ⊆ text.toList := by
    rw [Text.dropMark.eq_def]
    split
    next heq =>
      rw [heq]
      exact List.subset_cons_self _ _
    next => exact List.Subset.refl _
  exact exists_addWithin? (htext.subset hmark) henvironment

end EnvFile

end ServingCatalog
