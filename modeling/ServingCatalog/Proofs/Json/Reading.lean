import ServingCatalog.Json.Decode
import ServingCatalog.Json.Printer
import ServingCatalog.Proofs.Json.Numeral
import ServingCatalog.Proofs.Json.Quoted

/-!
# What readers take

A reader takes a text for a value if it answers with the value and with all that follows the text,
whatever that is: `Takes`.  In this form the facts about a reader of parts carry over to the reader
of the whole.  Where the part may be a number, what follows must not go on with it: `TakesBefore`.

Between the brackets of an array or an object stands a `Row`: parts with blanks around them and
commas between them.  `takes_items` takes a row part by part, and `membersWithin_more` and
`membersWithin_done` are the two steps over a row of members, whose state the caller follows.
-/

namespace ServingCatalog

namespace Json

variable {α β κ σ : Type}

/-- The reader takes the text for the value, whatever follows the text. -/
def Takes (reader : Reader α) (value : α) (text : List Char) : Prop :=
  ∀ rest, reader (text ++ rest) = .ok (value, rest)

/-- The reader takes the text for the value, whatever follows that no number goes on with. -/
def TakesBefore (reader : Reader α) (value : α) (text : List Char) : Prop :=
  ∀ rest, Ends rest → reader (text ++ rest) = .ok (value, rest)

/-- What is taken before anything is taken before what ends a value. -/
theorem Takes.before {reader : Reader α} {value : α} {text : List Char}
    (h : Takes reader value text) : TakesBefore reader value text := fun rest _ => h rest

/-! ## Blanks -/

/-- Nothing but blanks. -/
def AllBlank (text : List Char) : Prop := ∀ c ∈ text, isBlank c = true

theorem allBlank_nil : AllBlank [] := by
  intro c hc
  cases hc

/-- A text that starts neither with a blank nor with the end of an array. -/
def Opens (text : List Char) : Prop :=
  ∃ c rest, text = c :: rest ∧ isBlank c = false ∧ c ≠ ']'

theorem Opens.ne_nil {text : List Char} (h : Opens text) : text ≠ [] := by
  obtain ⟨c, rest, rfl, -, -⟩ := h
  exact List.cons_ne_nil c rest

/-- It opens one whatever follows it. -/
theorem Opens.append {text : List Char} (h : Opens text) (rest : List Char) :
    Opens (text ++ rest) := by
  obtain ⟨c, tail, rfl, hblank, hclosing⟩ := h
  exact ⟨c, tail ++ rest, rfl, hblank, hclosing⟩

/-- Blanks in front are skipped. -/
theorem skipBlanks_append {blanks : List Char} (h : AllBlank blanks) (text : List Char) :
    skipBlanks (blanks ++ text) = skipBlanks text :=
  List.dropWhile_append_of_pos h

theorem skipBlanks_cons {c : Char} (h : isBlank c = false) (rest : List Char) :
    skipBlanks (c :: rest) = c :: rest := by
  simp [skipBlanks, h]

theorem skipBlanks_eq_nil {blanks : List Char} (h : AllBlank blanks) : skipBlanks blanks = [] := by
  have hskip := skipBlanks_append h []
  rwa [List.append_nil] at hskip

/-- No number goes on with a blank. -/
theorem ends_blanks {blanks rest : List Char} (h : AllBlank blanks) (hrest : Ends rest) :
    Ends (blanks ++ rest) := by
  cases blanks with
  | nil => exact hrest
  | cons c blanks =>
    have hblank := h c List.mem_cons_self
    simp only [isBlank, Bool.or_eq_true, decide_eq_true_eq] at hblank
    refine ends_cons ?_ _
    rcases hblank with ((rfl | rfl) | rfl) | rfl <;> decide

/-- A text that is taken to its end makes a whole text, also with blanks behind it. -/
theorem Takes.readWhole {reader : Reader α} {value : α} {text blanks : List Char}
    (h : Takes reader value text) (hblanks : AllBlank blanks) :
    readWhole reader (text ++ blanks) = .ok value := by
  rw [Json.readWhole, h blanks]
  simp [skipBlanks_eq_nil hblanks]

/-! ## Rows of parts -/

/-- What stands before a part: blanks, with a comma among them unless it is the first part. -/
inductive Lead : Bool → List Char → Prop
  | first {blanks : List Char} (hblanks : AllBlank blanks) : Lead true blanks
  | next {before behind : List Char} (hbefore : AllBlank before) (hbehind : AllBlank behind) :
      Lead false (before ++ ',' :: behind)

/-- Parts up to the closing bracket; the first of them may or may not have parts before it. -/
inductive Row (closing : Char) (part : α → List Char → Prop) :
    Bool → List α → List Char → Prop
  | done {first : Bool} {blanks : List Char} (hblanks : AllBlank blanks) :
      Row closing part first [] (blanks ++ [closing])
  | more {first : Bool} {lead text body : List Char} {a : α} {as : List α}
      (hlead : Lead first lead) (hpart : part a text) (tail : Row closing part false as body) :
      Row closing part first (a :: as) (lead ++ (text ++ body))

/-- Parts that are spelled in one way are spelled in any way that follows from it. -/
theorem Row.map {closing : Char} {part : α → List Char → Prop} {other : β → List Char → Prop}
    (f : α → β) (hpart : ∀ a text, part a text → other (f a) text)
    {first : Bool} {as : List α} {body : List Char} (h : Row closing part first as body) :
    Row closing other first (as.map f) body := by
  induction h with
  | done hblanks => exact .done hblanks
  | more hlead hone tail ih => exact .more hlead (hpart _ _ hone) ih

/-- Parts that are each spelled in some other way as well make up the row in that way too. -/
theorem Row.exists_of_forall {closing : Char} {part : α → List Char → Prop}
    {other : β → List Char → Prop} {first : Bool} {as : List α} {body : List Char}
    (h : Row closing part first as body)
    (hpart : ∀ a ∈ as, ∀ text, part a text → text.length ≤ body.length → ∃ b, other b text) :
    ∃ bs, Row closing other first bs body := by
  induction h with
  | done hblanks => exact ⟨[], .done hblanks⟩
  | @more first lead text body a as hlead hone tail ih =>
    simp only [List.length_append] at hpart
    obtain ⟨b, hb⟩ := hpart a List.mem_cons_self text hone (by omega)
    obtain ⟨bs, hbs⟩ := ih fun c hc text hcpart hlength =>
      hpart c (List.mem_cons_of_mem a hc) text hcpart (by omega)
    exact ⟨b :: bs, .more hlead hb hbs⟩

/-- Behind a part of a row no number goes on. -/
theorem Row.ends {closing : Char} {part : α → List Char → Prop} {as : List α} {body : List Char}
    (h : Row closing part false as body) (hclosing : continuesNumber closing = false)
    (rest : List Char) : Ends (body ++ rest) := by
  cases h with
  | done hblanks =>
    rw [List.append_assoc]
    exact ends_blanks hblanks (ends_cons hclosing rest)
  | more hlead _ _ =>
    cases hlead with
    | next hbefore hbehind =>
      rw [List.append_assoc, List.append_assoc]
      exact ends_blanks hbefore (ends_cons (by decide) _)

/-- Separated texts are the first one, and each other one behind a separator. -/
theorem separate_cons (separator text : List Char) (texts : List (List Char)) :
    separate separator (text :: texts) = text ++ texts.flatMap (separator ++ ·) := by
  induction texts generalizing text with
  | nil => simp [separate]
  | cons next texts ih => rw [separate, ih, List.flatMap_cons, List.append_assoc] <;> simp

/-- Parts that are written behind commas, with the same blanks behind each comma, are the rest of a
row. -/
theorem row_behind {closing : Char} {part : α → List Char → Prop} {write : α → List Char}
    {behind last : List Char} (hbehind : AllBlank behind) (hlast : AllBlank last) {as : List α}
    (hpart : ∀ a ∈ as, part a (write a)) :
    Row closing part false as
      ((as.map write).flatMap ((',' :: behind) ++ ·) ++ (last ++ [closing])) := by
  induction as with
  | nil => exact .done hlast
  | cons a as ih =>
    have htail := ih fun b hb => hpart b (List.mem_cons_of_mem a hb)
    rw [List.map_cons, List.flatMap_cons, List.append_assoc, List.append_assoc]
    exact .more (.next allBlank_nil hbehind) (hpart a List.mem_cons_self) htail

/-- Parts that are written with commas between them and no blanks are a row. -/
theorem row_separate {closing : Char} {part : α → List Char → Prop} {write : α → List Char}
    {as : List α} (hpart : ∀ a ∈ as, part a (write a)) :
    Row closing part true as (separate [','] (as.map write) ++ [closing]) := by
  cases as with
  | nil => exact .done allBlank_nil
  | cons a as =>
    have htail : Row closing part false as _ := row_behind allBlank_nil allBlank_nil
      fun b hb => hpart b (List.mem_cons_of_mem a hb)
    have hrow := Row.more (@Lead.first [] allBlank_nil) (hpart a List.mem_cons_self) htail
    rwa [List.map_cons, separate_cons, List.append_assoc]

/-! ## Arrays -/

/-- The closing bracket ends an array. -/
theorem nextItem_done {blanks : List Char} (h : AllBlank blanks) (first : Bool)
    (rest : List Char) : nextItem first (blanks ++ ']' :: rest) = .ok (.done rest) := by
  simp [nextItem, skipBlanks_append h, skipBlanks_cons (c := ']') rfl]

/-- What leads to an item is stepped over. -/
theorem nextItem_more {first : Bool} {lead text : List Char} (hlead : Lead first lead)
    (hopens : Opens text) : nextItem first (lead ++ text) = .ok (.more text) := by
  obtain ⟨c, rest, rfl, hblank, hclosing⟩ := hopens
  cases hlead with
  | first hblanks =>
    simp [nextItem, skipBlanks_append hblanks, skipBlanks_cons hblank, hclosing]
  | next hbefore hbehind =>
    simp [nextItem, skipBlanks_append hbefore, skipBlanks_append hbehind,
      skipBlanks_cons (c := ',') rfl, skipBlanks_cons hblank, hclosing]

/-- The length of a text with what follows bounds the parts within it. -/
theorem length_lt_append (body rest : List Char) : body.length < (body ++ rest).length + 1 := by
  rw [List.length_append]
  omega

/-- Items are read one by one.  The induction is on the row, and the bound on the number of items
is met because each of them takes at least one character. -/
theorem itemsWithin_of_row {reader : Reader α} {part : α → List Char → Prop}
    (hpart : ∀ a text, part a text → TakesBefore reader a text ∧ Opens text)
    {first : Bool} {values : List α} {body : List Char} (h : Row ']' part first values body) :
    ∀ bound, body.length < bound → ∀ rest,
      itemsWithin reader bound first (body ++ rest) = .ok (values, rest) := by
  induction h with
  | @done first blanks hblanks =>
    intro bound hbound rest
    cases bound with
    | zero => omega
    | succ bound =>
      rw [List.append_assoc, List.singleton_append, itemsWithin, nextItem_done hblanks]
  | @more first lead text body a as hlead hone tail ih =>
    intro bound hbound rest
    obtain ⟨htakes, hopens⟩ := hpart a text hone
    have hlength := List.length_pos_iff.2 hopens.ne_nil
    simp only [List.length_append] at hbound
    cases bound with
    | zero => omega
    | succ bound =>
      have htail := ih bound (by omega) rest
      rw [List.append_assoc, List.append_assoc, itemsWithin,
        nextItem_more hlead (hopens.append (body ++ rest))]
      simp only [htakes (body ++ rest) (tail.ends (by decide) rest), htail]

/-- **Items.**  A reader of items takes a row of texts that the reader of one item takes. -/
theorem takes_items {reader : Reader α} {part : α → List Char → Prop}
    (hpart : ∀ a text, part a text → TakesBefore reader a text ∧ Opens text)
    {values : List α} {body : List Char} (h : Row ']' part true values body) :
    Takes (items reader) values body := by
  intro rest
  exact itemsWithin_of_row hpart h _ (length_lt_append body rest) rest

/-! ## Objects -/

theorem readColon_append {blanks : List Char} (h : AllBlank blanks) (rest : List Char) :
    readColon (blanks ++ ':' :: rest) = .ok rest := by
  simp [readColon, skipBlanks_append h, skipBlanks_cons (c := ':') rfl]

/-- The closing brace ends an object. -/
theorem nextKey_done {blanks : List Char} (h : AllBlank blanks) (first : Bool)
    (rest : List Char) : nextKey first (blanks ++ '\x7d' :: rest) = .ok (.done rest) := by
  simp [nextKey, skipBlanks_append h, skipBlanks_cons (c := '\x7d') rfl]

/-- What leads to a key is stepped over, and its opening quote. -/
theorem nextKey_more {first : Bool} {lead : List Char} (hlead : Lead first lead)
    (rest : List Char) : nextKey first (lead ++ '"' :: rest) = .ok (.more rest) := by
  cases hlead with
  | first hblanks => simp [nextKey, skipBlanks_append hblanks, skipBlanks_cons (c := '"') rfl]
  | next hbefore hbehind =>
    simp [nextKey, skipBlanks_append hbefore, skipBlanks_append hbehind,
      skipBlanks_cons (c := ',') rfl, skipBlanks_cons (c := '"') rfl]

variable {key : Reader κ} {member : κ → σ → Reader σ}

/-- Behind the last member the state is the answer. -/
theorem membersWithin_done {blanks : List Char} (h : AllBlank blanks) (bound : Nat) (first : Bool)
    (state : σ) (rest : List Char) :
    membersWithin key member (bound + 1) first state (blanks ++ '\x7d' :: rest) =
      .ok (state, rest) := by
  rw [membersWithin, nextKey_done h]

/-- A member whose key and whose rest are taken leads to the next state. -/
theorem membersWithin_more {first : Bool} {lead keyText text : List Char} {k : κ}
    {state next : σ} (hlead : Lead first lead) (hkey : Takes key k keyText)
    (hmember : TakesBefore (member k state) next text) (bound : Nat) {rest : List Char}
    (hrest : Ends rest) :
    membersWithin key member (bound + 1) first state
        (lead ++ '"' :: (keyText ++ (text ++ rest))) =
      membersWithin key member bound false next rest := by
  rw [membersWithin, nextKey_more hlead]
  simp only [hkey (text ++ rest), hmember rest hrest]

/-! ## Single values -/

/-- Blanks before a value are stepped over. -/
theorem value_blanks (care : Care) (depth : Nat) {blanks : List Char} (h : AllBlank blanks)
    (text : List Char) : value care depth (blanks ++ text) = value care depth text := by
  cases depth <;> simp [value, valueWith, skipBlanks_append h]

/-- A literal between its quotes. -/
theorem takes_quoted {text body : List Char} (h : Quoted.Spells text body) :
    Takes Quoted.read (String.ofList text) (body ++ ['"']) := by
  intro rest
  rw [List.append_assoc]
  exact Quoted.read_of_spells h rest

/-- A literal is taken up to its closing quote. -/
theorem takes_readText {text body : List Char} (h : Quoted.Spells text body) :
    Takes readText (String.ofList text) ('"' :: (body ++ ['"'])) := by
  intro rest
  rw [List.cons_append, readText, skipBlanks_cons rfl]
  exact takes_quoted h rest

/-- An array is taken up to its closing bracket, if each of its items is taken. -/
theorem takes_readList {reader : Reader α} {part : α → List Char → Prop}
    (hpart : ∀ a text, part a text → TakesBefore reader a text ∧ Opens text)
    {values : List α} {body : List Char} (h : Row ']' part true values body) :
    Takes (readList reader) values ('[' :: body) := by
  intro rest
  rw [List.cons_append, readList, skipBlanks_cons rfl]
  exact takes_items hpart h rest

/-- A value that is there is taken as one; its text must not look like `null`. -/
theorem Takes.readOption_some {reader : Reader α} {value : α} {c : Char} {text : List Char}
    (h : Takes reader value (c :: text)) (hblank : isBlank c = false) (hnull : c ≠ 'n') :
    Takes (readOption reader) (some value) (c :: text) := by
  intro rest
  have hvalue := h rest
  rw [List.cons_append] at hvalue ⊢
  rw [readOption, skipBlanks_cons hblank]
  simp [hnull, Reader.map, hvalue]

end Json

end ServingCatalog
