import ServingCatalog.CommandLine.Parse

/-!
# Arguments read in any order

The arguments of a lookup are options with values and flags.  `Written` says how one of them is
written: the value of an option stands behind an equals sign, or as the next word if it does not
look like an option itself.

While words are read, the line settled so far and the option that is pending stand together for the
arguments that have been read.  `Line.Holds` is about the line after all of them are settled;
`readFrom_of_written` keeps it up to the last word.  It tells what a line holds by which arguments
there are, so their order does not matter.
-/

namespace ServingCatalog

/-! ## How arguments are written -/

/-- An option with its value, or a flag. -/
inductive Argument where
  | option (name : OptionName) (value : String)
  | flag (name : FlagName)
  deriving DecidableEq

namespace Argument

/-- What an argument is called. -/
def name : Argument → OptionName ⊕ FlagName
  | .option name _ => .inl name
  | .flag name => .inr name

/-- The value of a scope has to be the name of one; other values are free. -/
def Valid : Argument → Prop
  | .option .scope value => ∃ scope : Scope, value = scope.name
  | _ => True

/-- Whether lines of a shape have the argument. -/
def AdmittedBy (shape : LineShape) : Argument → Prop
  | .option name _ => name ∈ shape.options
  | .flag name => name ∈ shape.flags

end Argument

/-- A word that does not look like an option. -/
def IsPlainWord (word : String) : Prop := word.toList.head? ≠ some '-'

/-- The words that an argument is written as. -/
inductive Written : Argument → List String → Prop
  | joined (option : OptionName) (value : String) :
      Written (.option option value) ["--" ++ option.text ++ "=" ++ value]
  | apart (option : OptionName) {value : String} (h : IsPlainWord value) :
      Written (.option option value) ["--" ++ option.text, value]
  | flag (flag : FlagName) : Written (.flag flag) ["--" ++ flag.text]

/-- The words that arguments are written as, one after the other. -/
inductive AllWritten : List Argument → List String → Prop
  | nil : AllWritten [] []
  | cons {a : Argument} {as : List Argument} {words rest : List String}
      (first : Written a words) (tail : AllWritten as rest) : AllWritten (a :: as) (words ++ rest)

/-! ## Words -/

/-- A plain word is no option. -/
theorem argumentForm_plain {word : String} (h : IsPlainWord word) :
    argumentForm word = .plain := by
  rw [IsPlainWord] at h
  rw [argumentForm]
  cases hword : word.toList with
  | nil => rfl
  | cons c rest =>
    have hc : c ≠ '-' := fun hc => h (by rw [hword, hc]; rfl)
    split
    next heq => exact absurd (List.cons.inj heq).1 hc
    next heq => exact absurd (List.cons.inj heq).1 hc
    next heq => exact absurd (List.cons.inj heq).1 hc
    next => rfl

/-- A name that can stand behind two hyphens: it does not end before it starts. -/
structure IsLongName (name : String) : Prop where
  ne_nil : name.toList ≠ []
  free : '=' ∉ name.toList

/-- The characters of such a name are before the equals sign. -/
theorem IsLongName.before {name : String} (h : IsLongName name) :
    ∀ c ∈ name.toList, decide (c ≠ '=') = true :=
  fun _ hc => decide_eq_true fun hsame => h.free (hsame ▸ hc)

/-- Two hyphens and a name are an option whose value is not in the same word. -/
theorem argumentForm_long {name : String} (h : IsLongName name) :
    argumentForm ("--" ++ name) = .long name none := by
  obtain ⟨c, cs, hname⟩ := List.exists_cons_of_ne_nil h.ne_nil
  have hdrop : (name.toList ++ []).dropWhile (· ≠ '=') = [] := by
    rw [List.dropWhile_append_of_pos h.before]
    rfl
  have htext : ("--" ++ name).toList = '-' :: '-' :: name.toList := by simp
  rw [argumentForm, htext]
  rw [List.append_nil] at hdrop
  rw [hname] at hdrop ⊢
  simp only [hdrop]
  rw [← hname, String.ofList_toList]

/-- Behind an equals sign the value is in the same word. -/
theorem argumentForm_joined {name : String} (h : IsLongName name) (value : String) :
    argumentForm ("--" ++ name ++ "=" ++ value) = .long name (some value) := by
  obtain ⟨c, cs, hname⟩ := List.exists_cons_of_ne_nil h.ne_nil
  have hdrop : (name.toList ++ '=' :: value.toList).dropWhile (· ≠ '=') = '=' :: value.toList := by
    rw [List.dropWhile_append_of_pos h.before]
    simp
  have htake : (name.toList ++ '=' :: value.toList).takeWhile (· ≠ '=') = name.toList := by
    rw [List.takeWhile_append_of_pos h.before]
    simp
  have htext : ("--" ++ name ++ "=" ++ value).toList =
      '-' :: '-' :: (name.toList ++ '=' :: value.toList) := by simp
  rw [argumentForm, htext]
  rw [hname, List.cons_append] at hdrop htake ⊢
  simp only [hdrop, htake]
  rw [← hname, String.ofList_toList, String.ofList_toList]

theorem isLongName_option (option : OptionName) : IsLongName option.text := by
  cases option <;> exact ⟨by decide, by decide⟩

theorem isLongName_flag (flag : FlagName) : IsLongName flag.text := by
  cases flag <;> exact ⟨by decide, by decide⟩

/-- Options are told apart by their names. -/
theorem OptionName.text_injective {one other : OptionName} (h : one.text = other.text) :
    one = other := by
  revert h
  cases one <;> cases other <;> decide

/-- So are flags. -/
theorem FlagName.text_injective {one other : FlagName} (h : one.text = other.text) :
    one = other := by
  revert h
  cases one <;> cases other <;> decide

/-- Of things that differ in their texts, the one of a text is found. -/
theorem find?_text {β : Type} {text : β → String}
    (hinjective : ∀ {one other : β}, text one = text other → one = other) {list : List β} {b : β}
    (h : b ∈ list) : list.find? (fun other => text other = text b) = some b := by
  cases hfound : list.find? (fun other => text other = text b) with
  | none =>
    rw [List.find?_eq_none] at hfound
    exact absurd (decide_eq_true rfl) (hfound b h)
  | some other =>
    have hsame := List.find?_some hfound
    rw [hinjective (of_decide_eq_true hsame)]

namespace LineShape

variable {shape : LineShape}

/-- An option of a line is found by its name. -/
theorem named_option {option : OptionName} (h : option ∈ shape.options) :
    shape.named option.text = .option option := by
  rw [named, find?_text OptionName.text_injective h]

/-- So is a flag: no option has its name. -/
theorem named_flag {flag : FlagName} (h : flag ∈ shape.flags) :
    shape.named flag.text = .flag flag := by
  have hother : ∀ option : OptionName, option.text ≠ flag.text := by
    intro option
    cases option <;> cases flag <;> decide
  have hoptions : shape.options.find? (·.text = flag.text) = none := by
    rw [List.find?_eq_none]
    intro option _ hsame
    exact hother option (of_decide_eq_true hsame)
  rw [named, hoptions, find?_text FlagName.text_injective h]

end LineShape

/-! ## Settling -/

/-- Scopes are told apart by their names. -/
theorem Scope.name_injective {one other : Scope} (h : one.name = other.name) : one = other := by
  revert h
  cases one <;> cases other <;> decide

namespace Line

/-- The value of an option as it was written. -/
def value? (line : Line) : OptionName → Option String
  | .modelId => line.modelId
  | .modelVersion => line.modelVersion
  | .region => line.region
  | .scope => line.scope.map Scope.name

/-- Whether a flag is set. -/
def isSet (line : Line) : FlagName → Bool
  | .tolerateVulnerable => line.tolerateVulnerable
  | .tolerateDeprecated => line.tolerateDeprecated

/-- A line is told by its options, its flags and its operand. -/
theorem ext_value? {line other : Line} (hoptions : ∀ option, line.value? option = other.value? option)
    (hflags : ∀ flag, line.isSet flag = other.isSet flag) (hoperand : line.operand = other.operand) :
    line = other := by
  have hscope : line.scope = other.scope :=
    Option.map_injective (fun _ _ => Scope.name_injective) (hoptions .scope)
  have hmodelId := hoptions .modelId
  have hmodelVersion := hoptions .modelVersion
  have hregion := hoptions .region
  have hvulnerable := hflags .tolerateVulnerable
  have hdeprecated := hflags .tolerateDeprecated
  cases line
  cases other
  simp only [value?, isSet] at *
  simp only [*]

/-- An option without a value is given a valid one, and nothing else changes. -/
theorem exists_setOption {line : Line} {option : OptionName} {value : String}
    (hfree : line.value? option = none) (hvalid : (Argument.option option value).Valid) :
    ∃ next, line.setOption option value = .ok next ∧
      (∀ other, next.value? other = if other = option then some value else line.value? other) ∧
      next.isSet = line.isSet ∧ next.operand = line.operand := by
  cases option with
  | modelId =>
    refine ⟨{ line with modelId := some value }, ?_, fun other => ?_, rfl, rfl⟩
    · rw [setOption, show line.modelId = none from hfree]
      rfl
    · cases other <;> rfl
  | modelVersion =>
    refine ⟨{ line with modelVersion := some value }, ?_, fun other => ?_, rfl, rfl⟩
    · rw [setOption, show line.modelVersion = none from hfree]
      rfl
    · cases other <;> rfl
  | region =>
    refine ⟨{ line with region := some value }, ?_, fun other => ?_, rfl, rfl⟩
    · rw [setOption, show line.region = none from hfree]
      rfl
    · cases other <;> rfl
  | scope =>
    obtain ⟨scope, rfl⟩ := hvalid
    have hparse : Scope.parse scope.name = .ok scope := by cases scope <;> rfl
    refine ⟨{ line with scope := some scope }, ?_, fun other => ?_, rfl, rfl⟩
    · rw [setOption, show line.scope = none from Option.map_eq_none_iff.1 hfree, hparse]
      rfl
    · cases other <;> rfl

/-- A flag that is not set is set, and nothing else changes. -/
theorem exists_setFlag {line : Line} {flag : FlagName} (hfree : line.isSet flag = false) :
    ∃ next, line.setFlag flag = .ok next ∧
      (∀ other, next.isSet other = if other = flag then true else line.isSet other) ∧
      next.value? = line.value? ∧ next.operand = line.operand := by
  cases flag with
  | tolerateVulnerable =>
    refine ⟨{ line with tolerateVulnerable := true }, ?_, fun other => ?_, rfl, rfl⟩
    · rw [setFlag, show line.tolerateVulnerable = false from hfree]
      rfl
    · cases other <;> rfl
  | tolerateDeprecated =>
    refine ⟨{ line with tolerateDeprecated := true }, ?_, fun other => ?_, rfl, rfl⟩
    · rw [setFlag, show line.tolerateDeprecated = false from hfree]
      rfl
    · cases other <;> rfl

/-- Settles an argument. -/
def take (line : Line) : Argument → Except UsageFault Line
  | .option option value => line.setOption option value
  | .flag flag => line.setFlag flag

/-- The line holds these arguments and nothing else. -/
structure Holds (line : Line) (arguments : List Argument) : Prop where
  options : ∀ option value, line.value? option = some value ↔ .option option value ∈ arguments
  flags : ∀ flag, line.isSet flag = true ↔ .flag flag ∈ arguments
  operand : line.operand = none

theorem holds_empty : Holds empty [] := by
  refine ⟨fun option value => ?_, fun flag => ?_, rfl⟩
  · cases option <;> simp [empty, value?]
  · cases flag <;> simp [empty, isSet]

/-- There is only one line that holds given arguments, in whatever order they come. -/
theorem Holds.unique {line other : Line} {arguments others : List Argument}
    (h : line.Holds arguments) (hother : other.Holds others) (hperm : arguments.Perm others) :
    line = other := by
  refine ext_value? (fun option => Option.ext fun value => ?_) (fun flag => ?_) ?_
  · rw [h.options, hother.options, hperm.mem_iff]
  · rw [Bool.eq_iff_iff, h.flags, hother.flags, hperm.mem_iff]
  · rw [h.operand, hother.operand]

/-- An argument of a new name is settled, and held from then on besides the others. -/
theorem Holds.exists_take {line : Line} {arguments : List Argument} (h : line.Holds arguments)
    {argument : Argument} (hnew : argument.name ∉ arguments.map Argument.name)
    (hvalid : argument.Valid) :
    ∃ next, line.take argument = .ok next ∧ next.Holds (argument :: arguments) := by
  have hother : ∀ held ∈ arguments, held.name ≠ argument.name :=
    fun held hheld hsame => hnew (List.mem_map.2 ⟨held, hheld, hsame⟩)
  cases argument with
  | option option value =>
    have hfree : line.value? option = none := by
      cases hvalue : line.value? option with
      | none => rfl
      | some held =>
        exact absurd rfl (hother (.option option held) ((h.options option held).1 hvalue))
    obtain ⟨next, hnext, hoptions, hflags, hoperand⟩ := exists_setOption hfree hvalid
    refine ⟨next, hnext, fun other found => ?_, fun flag => ?_, hoperand.trans h.operand⟩
    · rw [hoptions, List.mem_cons]
      by_cases hsame : other = option
      · subst hsame
        have hrest : ∀ held, Argument.option other held ∉ arguments :=
          fun held hheld => hother _ hheld rfl
        simp [hrest, eq_comm]
      · simp [hsame, h.options]
    · rw [hflags, List.mem_cons]
      simp [h.flags]
  | flag flag =>
    have hfree : line.isSet flag = false := by
      cases hset : line.isSet flag with
      | false => rfl
      | true => exact absurd rfl (hother (.flag flag) ((h.flags flag).1 hset))
    obtain ⟨next, hnext, hflags, hoptions, hoperand⟩ := exists_setFlag hfree
    refine ⟨next, hnext, fun option found => ?_, fun other => ?_, hoperand.trans h.operand⟩
    · rw [hoptions, List.mem_cons]
      simp [h.options]
    · rw [hflags, List.mem_cons]
      by_cases hsame : other = flag
      · simp [hsame]
      · simp [hsame, h.flags]

end Line

/-! ## Reading words -/

namespace LineShape

variable {shape : LineShape}

/-- A word that has an option and its value settles both. -/
theorem readFrom_joined {option : OptionName} (h : option ∈ shape.options) (value : String)
    (rest : List String) (line : Line) (pending : Pending) :
    shape.readFrom (("--" ++ option.text ++ "=" ++ value) :: rest) line pending =
      (do
        let now ← settle line pending
        let next ← now.setOption option value
        shape.readFrom rest next none) := by
  rw [readFrom.eq_def]
  simp only [argumentForm_joined (isLongName_option option), named_option h]

/-- An option without its value is pending from then on. -/
theorem readFrom_option {option : OptionName} (h : option ∈ shape.options) (rest : List String)
    (line : Line) (pending : Pending) :
    shape.readFrom (("--" ++ option.text) :: rest) line pending =
      (do
        let now ← settle line pending
        shape.readFrom rest now (some (option, none))) := by
  rw [readFrom.eq_def]
  simp only [argumentForm_long (isLongName_option option), named_option h]

/-- A flag is settled at once. -/
theorem readFrom_flag {flag : FlagName} (h : flag ∈ shape.flags) (rest : List String)
    (line : Line) (pending : Pending) :
    shape.readFrom (("--" ++ flag.text) :: rest) line pending =
      (do
        let now ← settle line pending
        let next ← now.setFlag flag
        shape.readFrom rest next none) := by
  rw [readFrom.eq_def]
  simp only [argumentForm_long (isLongName_flag flag), named_flag h]

/-- A plain word is the value of the option that is pending. -/
theorem readFrom_value {word : String} (h : IsPlainWord word) (rest : List String) (line : Line)
    (option : OptionName) :
    shape.readFrom (word :: rest) line (some (option, none)) =
      shape.readFrom rest line (some (option, some word)) := by
  rw [readFrom.eq_def]
  simp only [argumentForm_plain h]

/-- A plain word is an operand where no option is pending. -/
theorem readFrom_operand {word : String} (h : IsPlainWord word) (rest : List String)
    (line : Line) :
    shape.readFrom (word :: rest) line none =
      (do
        let next ← shape.takeOperand word line
        shape.readFrom rest next none) := by
  rw [readFrom.eq_def]
  simp only [argumentForm_plain h]

/-- The words of an argument settle what is pending, and leave the argument settled or pending. -/
theorem exists_readFrom {argument : Argument} {words : List String} (h : Written argument words)
    (hadmitted : argument.AdmittedBy shape) {line now next : Line} {pending : Pending}
    (hnow : settle line pending = .ok now) (hnext : now.take argument = .ok next)
    (rest : List String) :
    ∃ line' pending', settle line' pending' = .ok next ∧
      shape.readFrom (words ++ rest) line pending = shape.readFrom rest line' pending' := by
  cases h with
  | joined option value =>
    have hset : now.setOption option value = .ok next := hnext
    refine ⟨next, none, rfl, ?_⟩
    rw [List.singleton_append, readFrom_joined hadmitted, hnow]
    show (now.setOption option value >>= fun line => shape.readFrom rest line none) = _
    rw [hset]
    rfl
  | @apart option value hplain =>
    refine ⟨now, some (option, some value), hnext, ?_⟩
    rw [List.cons_append, List.singleton_append, readFrom_option hadmitted, hnow]
    exact readFrom_value hplain rest now option
  | flag flag =>
    have hset : now.setFlag flag = .ok next := hnext
    refine ⟨next, none, rfl, ?_⟩
    rw [List.singleton_append, readFrom_flag hadmitted, hnow]
    show (now.setFlag flag >>= fun line => shape.readFrom rest line none) = _
    rw [hset]
    rfl

/-- Words are read argument by argument.  What the line holds after all is settled are the arguments
held before and those that were read. -/
theorem readFrom_of_written {arguments : List Argument} {words : List String}
    (h : AllWritten arguments words) (hadmitted : ∀ a ∈ arguments, a.AdmittedBy shape)
    (hvalid : ∀ a ∈ arguments, a.Valid) :
    ∀ {line now : Line} {pending : Pending} {held : List Argument},
      settle line pending = .ok now → now.Holds held →
      ((arguments.reverse ++ held).map Argument.name).Nodup →
      ∃ last, shape.readFrom words line pending = .ok last ∧
        last.Holds (arguments.reverse ++ held) := by
  induction h with
  | nil =>
    intro line now pending held hnow hheld _
    exact ⟨now, hnow, hheld⟩
  | @cons argument arguments words rest first tail ih =>
    intro line now pending held hnow hheld hnodup
    rw [List.reverse_cons, List.append_assoc, List.singleton_append] at hnodup ⊢
    have hnew : argument.name ∉ held.map Argument.name := by
      rw [List.map_append, List.map_cons] at hnodup
      exact (List.nodup_cons.1 (List.nodup_append.1 hnodup).2.1).1
    obtain ⟨next, hnext, hholds⟩ :=
      hheld.exists_take hnew (hvalid argument List.mem_cons_self)
    obtain ⟨line', pending', hsettle, hread⟩ :=
      exists_readFrom first (hadmitted argument List.mem_cons_self) hnow hnext rest
    rw [hread]
    exact ih (fun a ha => hadmitted a (List.mem_cons_of_mem argument ha))
      (fun a ha => hvalid a (List.mem_cons_of_mem argument ha)) hsettle hholds hnodup

/-- **Reading a line.**  Arguments of different names are read in any order and writing. -/
theorem read_of_written (hoperand : shape.operand = false) {arguments : List Argument}
    {words : List String} (h : AllWritten arguments words)
    (hadmitted : ∀ a ∈ arguments, a.AdmittedBy shape) (hvalid : ∀ a ∈ arguments, a.Valid)
    (hnodup : (arguments.map Argument.name).Nodup) {line : Line} {others : List Argument}
    (hline : line.Holds others) (hperm : arguments.Perm others) :
    shape.read words = .ok line := by
  have hreverse : ((arguments.reverse ++ []).map Argument.name).Nodup := by
    rw [List.append_nil]
    exact ((List.reverse_perm arguments).map Argument.name).nodup_iff.2 hnodup
  have hsettle : settle Line.empty none = .ok Line.empty := rfl
  obtain ⟨last, hread, hlast⟩ :=
    readFrom_of_written h hadmitted hvalid hsettle Line.holds_empty hreverse
  rw [List.append_nil] at hlast
  have hsame : last = line := hlast.unique hline ((List.reverse_perm arguments).trans hperm)
  rw [read, hread, hsame]
  simp only [hoperand]
  rfl

end LineShape

end ServingCatalog
