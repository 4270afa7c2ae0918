import ServingCatalog.Proofs.Json.Reading

/-!
# Values stepped over

`Json.WellFormed` is the grammar of JSON: which texts are a value of any kind, in any depth, with
blanks wherever they may stand, with halves of pairs in strings and numbers of any size.  A value
that is only stepped over may be any of these, and `skips` says that the reader then stands exactly
behind it.

The depth that the reader counts down is the length of the text, and a part of a value is shorter
than the value; the induction is on the grammar.
-/

namespace ServingCatalog

namespace Json

/-- A member as it stands in an object: what is between the quotes of its key, and the text of its
value. -/
def PairText (pair : List Char × List Char) (text : List Char) : Prop :=
  ∃ before behind, AllBlank before ∧ AllBlank behind ∧
    text = '"' :: (pair.1 ++ '"' :: (before ++ ':' :: (behind ++ pair.2)))

/-- The texts that are a value, without blanks around them. -/
inductive WellFormed : List Char → Prop
  | null : WellFormed "null".toList
  | bool (b : Bool) : WellFormed (toString b).toList
  | number {n : Numeral} {text : List Char} (h : n.Spells text) : WellFormed text
  | negative {n : Numeral} {text : List Char} (h : n.Spells text) : WellFormed ('-' :: text)
  | string {body : List Char} (h : Quoted.Body body) : WellFormed ('"' :: (body ++ ['"']))
  | array {items : List (List Char)} {body : List Char}
      (hitems : ∀ item ∈ items, WellFormed item) (hrow : Row ']' Eq true items body) :
      WellFormed ('[' :: body)
  | object {members : List (List Char × List Char)} {body : List Char}
      (hkeys : ∀ member ∈ members, Quoted.Body member.1)
      (hvalues : ∀ member ∈ members, WellFormed member.2)
      (hrow : Row '\x7d' PairText true members body) : WellFormed ('\x7b' :: body)

/-- A character that is no blank and starts no bracket, quote or word, as digits are. -/
theorem ne_of_isDigit {c : Char} (h : c.isDigit = true) :
    isBlank c = false ∧ c ≠ '"' ∧ c ≠ '[' ∧ c ≠ ']' ∧ c ≠ '\x7b' ∧ c ≠ 'n' ∧ c ≠ 't' ∧ c ≠ 'f' ∧
      c ≠ '-' := by
  have hblank : isBlank c = false := by
    rw [Bool.eq_false_iff]
    intro hblank
    simp only [isBlank, Bool.or_eq_true, decide_eq_true_eq] at hblank
    rcases hblank with ((rfl | rfl) | rfl) | rfl <;> exact absurd h (by decide)
  refine ⟨hblank, ?_, ?_, ?_, ?_, ?_, ?_, ?_, ?_⟩ <;> rintro rfl <;> exact absurd h (by decide)

/-- A value starts with a character that shows what it is. -/
theorem WellFormed.opens {text : List Char} (h : WellFormed text) : Opens text := by
  cases h with
  | null => exact ⟨'n', _, rfl, rfl, by decide⟩
  | bool b =>
    cases b with
    | true => exact ⟨'t', _, rfl, rfl, by decide⟩
    | false => exact ⟨'f', _, rfl, rfl, by decide⟩
  | number h =>
    obtain ⟨c, rest, rfl, hdigit⟩ := h.exists_cons
    obtain ⟨hblank, -, -, hclosing, -⟩ := ne_of_isDigit hdigit
    exact ⟨c, rest, rfl, hblank, hclosing⟩
  | negative h => exact ⟨'-', _, rfl, rfl, by decide⟩
  | string h => exact ⟨'"', _, rfl, rfl, by decide⟩
  | array hitems hrow => exact ⟨'[', _, rfl, rfl, by decide⟩
  | object hkeys hvalues hrow => exact ⟨'\x7b', _, rfl, rfl, by decide⟩

/-! ## Steps of the reader -/

/-- At each depth a value is read by its first character. -/
theorem exists_value_eq (care : Care) (depth : Nat) :
    ∃ array object, value care depth = valueWith care array object := by
  cases depth <;> exact ⟨_, _, rfl⟩

section Scalars

variable (care : Care) (array object : Reader Json)

/-- A value that starts with a digit is a number. -/
theorem valueWith_digit {c : Char} (h : c.isDigit = true) (rest : List Char) :
    valueWith care array object (c :: rest) =
      (readNumber care false).map .number (c :: rest) := by
  obtain ⟨hblank, hquote, hopening, -, hbrace, hn, ht, hf, hminus⟩ := ne_of_isDigit h
  rw [valueWith, skipBlanks_cons hblank]
  simp only [hquote, hopening, hbrace, hn, ht, hf, hminus, h, if_false, if_true]

end Scalars

/-- A numeral that is skipped counts as zero. -/
theorem takesBefore_readNumber_skip {n : Numeral} {text : List Char} (h : n.Spells text)
    (negative : Bool) : TakesBefore (readNumber .skip negative) (.int 0) text := by
  intro rest hrest
  simp only [readNumber, Numeral.skip_of_spells h hrest]

/-- A literal that is skipped counts as empty. -/
theorem takes_readQuoted_skip {body : List Char} (h : Quoted.Body body) :
    Takes (readQuoted .skip) "" (body ++ ['"']) := by
  intro rest
  rw [List.append_assoc]
  simp only [readQuoted, List.singleton_append, Quoted.skip_of_body h]

theorem TakesBefore.map {α β : Type} {reader : Reader α} {value : α} {text : List Char}
    (h : TakesBefore reader value text) (f : α → β) : TakesBefore (reader.map f) (f value) text := by
  intro rest hrest
  simp only [Reader.map, h rest hrest]

/-- Members are stepped over one by one, if each leads from any state to some other. -/
theorem membersWithin_of_forall {κ σ α : Type} {key : Reader κ} {member : κ → σ → Reader σ}
    {part : α → List Char → Prop}
    (hpart : ∀ a text, part a text → ∃ keyText tail k, text = '"' :: (keyText ++ tail) ∧
      Takes key k keyText ∧ ∀ state, ∃ next, TakesBefore (member k state) next tail)
    {first : Bool} {as : List α} {body : List Char} (h : Row '\x7d' part first as body) :
    ∀ state, ∃ last, ∀ bound, body.length < bound → ∀ rest,
      membersWithin key member bound first state (body ++ rest) = .ok (last, rest) := by
  induction h with
  | @done first blanks hend =>
    intro state
    refine ⟨state, fun bound hbound rest => ?_⟩
    cases bound with
    | zero => omega
    | succ bound => rw [List.append_assoc, List.singleton_append, membersWithin_done hend]
  | @more first lead text body a as hlead hone tail ih =>
    intro state
    obtain ⟨keyText, member, k, rfl, hkey, hmember⟩ := hpart a text hone
    obtain ⟨next, hnext⟩ := hmember state
    obtain ⟨last, hlast⟩ := ih next
    refine ⟨last, fun bound hbound rest => ?_⟩
    cases bound with
    | zero => omega
    | succ bound =>
      simp only [List.length_append, List.length_cons] at hbound
      have hstep := membersWithin_more hlead hkey hnext bound (tail.ends (by decide) rest)
      rw [hlast bound (by omega) rest] at hstep
      simpa [List.append_assoc] using hstep

/-! ## Skipping -/

/-- The reader stands behind the value, at any depth that the text can have. -/
def Skips (text : List Char) : Prop :=
  ∀ depth, text.length ≤ depth → ∃ v, TakesBefore (value .skip depth) v text

/-- A scalar is skipped at every depth. -/
theorem skips_of_valueWith {text : List Char}
    (h : ∀ array object, ∃ v, TakesBefore (valueWith .skip array object) v text) :
    Skips text := by
  intro depth _
  obtain ⟨array, object, hvalue⟩ := exists_value_eq .skip depth
  rw [hvalue]
  exact h array object

/-- Arrays are skipped if their items are. -/
theorem skips_array {items : List (List Char)} {body : List Char}
    (hopens : ∀ item ∈ items, Opens item) (hitems : ∀ item ∈ items, Skips item)
    (hrow : Row ']' Eq true items body) : Skips ('[' :: body) := by
  intro depth hdepth
  cases depth with
  | zero => exact absurd hdepth (by simp)
  | succ depth =>
    have hbody : body.length ≤ depth := Nat.le_of_succ_le_succ hdepth
    have hvalues : ∃ values, Row ']'
        (fun v text => TakesBefore (value .skip depth) v text ∧ Opens text) true values body := by
      apply hrow.exists_of_forall
      rintro item hitem _ rfl hlength
      obtain ⟨v, hv⟩ := hitems item hitem depth (by omega)
      exact ⟨v, hv, hopens item hitem⟩
    obtain ⟨values, hvalues⟩ := hvalues
    exact ⟨_, (takes_items (fun _ _ h => h) hvalues).before.map Json.array⟩

/-- Objects are skipped if the values of their members are. -/
theorem skips_object {members : List (List Char × List Char)} {body : List Char}
    (hkeys : ∀ member ∈ members, Quoted.Body member.1)
    (hvalues : ∀ member ∈ members, Skips member.2)
    (hrow : Row '\x7d' PairText true members body) : Skips ('\x7b' :: body) := by
  intro depth hdepth
  cases depth with
  | zero => exact absurd hdepth (by simp)
  | succ depth =>
    have hbody : body.length ≤ depth := Nat.le_of_succ_le_succ hdepth
    have hpairs : ∃ pairs, Row '\x7d' (fun pair text => PairText pair text ∧
        Quoted.Body pair.1 ∧ ∃ v, TakesBefore (value .skip depth) v pair.2) true pairs body := by
      apply hrow.exists_of_forall
      intro pair hpair text htext hlength
      refine ⟨pair, htext, hkeys pair hpair, hvalues pair hpair depth ?_⟩
      obtain ⟨before, behind, -, -, rfl⟩ := htext
      simp only [List.length_cons, List.length_append] at hlength
      omega
    obtain ⟨pairs, hpairs⟩ := hpairs
    have hmember : ∀ (pair : List Char × List Char) text, (PairText pair text ∧
        Quoted.Body pair.1 ∧ ∃ v, TakesBefore (value .skip depth) v pair.2) →
        ∃ keyText tail k, text = '"' :: (keyText ++ tail) ∧ Takes (readQuoted .skip) k keyText ∧
          ∀ state, ∃ next, TakesBefore (readMember (value .skip depth) k state) next tail := by
      rintro ⟨key, text⟩ _ ⟨⟨before, behind, hbefore, hbehind, rfl⟩, hkey, v, hv⟩
      refine ⟨key ++ ['"'], before ++ ':' :: (behind ++ text), "", by simp,
        takes_readQuoted_skip hkey, fun state => ⟨insertMember "" v state, ?_⟩⟩
      intro rest hrest
      rw [List.append_assoc, List.cons_append, readMember, readColon_append hbefore]
      simp only [Reader.map]
      rw [List.append_assoc, value_blanks .skip depth hbehind, hv rest hrest]
    obtain ⟨last, hlast⟩ := membersWithin_of_forall hmember hpairs []
    refine ⟨.object last, Takes.before fun rest => ?_⟩
    show ((Json.members (readQuoted .skip) (readMember (value .skip depth)) []).map Json.object)
      (body ++ rest) = _
    simp only [Reader.map, Json.members, hlast _ (length_lt_append body rest)]

/-- **Stepping over.**  At any depth that it can have, a value is stepped over to its end. -/
theorem WellFormed.skips {text : List Char} (h : WellFormed text) : Skips text := by
  induction h with
  | null => exact skips_of_valueWith fun _ _ => ⟨.null, fun _ _ => rfl⟩
  | bool b =>
    refine skips_of_valueWith fun _ _ => ⟨.bool b, fun _ _ => ?_⟩
    cases b <;> rfl
  | number h =>
    refine skips_of_valueWith fun array object => ⟨.number (.int 0), fun rest hrest => ?_⟩
    have hnumber := (takesBefore_readNumber_skip h false).map Json.number rest hrest
    obtain ⟨c, text, rfl, hdigit⟩ := h.exists_cons
    rw [List.cons_append] at hnumber ⊢
    rw [valueWith_digit .skip array object hdigit, hnumber]
  | negative h =>
    exact skips_of_valueWith fun array object =>
      ⟨.number (.int 0), (takesBefore_readNumber_skip h true).map Json.number⟩
  | string h =>
    exact skips_of_valueWith fun array object =>
      ⟨.string "", (takes_readQuoted_skip h).before.map Json.string⟩
  | array hitems hrow ih =>
    exact skips_array (fun item hitem => (hitems item hitem).opens) ih hrow
  | object hkeys hvalues hrow ih => exact skips_object hkeys ih hrow

/-- A value of an unknown member is stepped over, with the blanks before it. -/
theorem takesBefore_skipValue {text blanks : List Char} (h : WellFormed text)
    (hblanks : AllBlank blanks) : TakesBefore skipValue () (blanks ++ text) := by
  intro rest hrest
  obtain ⟨v, hv⟩ := h.skips (blanks ++ text ++ rest).length (by simp; omega)
  rw [List.append_assoc] at hv ⊢
  simp only [skipValue, Reader.map, value_blanks _ _ hblanks, hv rest hrest]

end Json

end ServingCatalog
