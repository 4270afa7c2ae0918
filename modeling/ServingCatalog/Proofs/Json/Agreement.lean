import ServingCatalog.Proofs.Json.Rereading
import ServingCatalog.Proofs.Json.Spelling

/-!
# Two ways to a typed value

A typed value is read from a text or decoded from a value.  On the compact text of a value both come
to the same: `Agrees` says that a reader answers on the text as the decoder does on the value, and
goes no further than the text.  It carries over from parts to the whole: `agrees_text`,
`agrees_list`, `agrees_option`, `agrees_record`.

Where the decoder finds a misfit the reader fails with the same one, but for two that a text does
not show: `Failure.ofMisfit`.
-/

namespace ServingCatalog

namespace Json

variable {α : Type}

/-! ## Values that can be held -/

/-- A value whose numbers can be held. -/
inductive Storable : Json → Prop
  | null : Storable .null
  | bool (b : Bool) : Storable (.bool b)
  | number {x : Number} (h : x.Storable) : Storable (.number x)
  | string (s : String) : Storable (.string s)
  | array {items : List Json} (h : ∀ item ∈ items, Storable item) : Storable (.array items)
  | object {members : List (String × Json)} (h : ∀ member ∈ members, Storable member.2) :
      Storable (.object members)

/-- Values in the order of their keys can be stored too. -/
theorem Storable.sorted {v : Json} (h : v.Storable) : v.sorted.Storable := by
  induction h with
  | null => exact .null
  | bool b => exact .bool b
  | number h => exact .number h
  | string s => exact .string s
  | @array items _ ih =>
    refine .array fun item hitem => ?_
    rw [sortedItems_eq_map] at hitem
    obtain ⟨first, hfirst, rfl⟩ := List.mem_map.1 hitem
    exact ih first hfirst
  | @object members _ ih =>
    refine .object fun member hmember => ?_
    rcases mem_sortedMembers hmember with hnone | ⟨first, hfirst, rfl⟩
    · cases hnone
    · exact ih first hfirst

/-- The row of the items of an array. -/
theorem row_compactItems (items : List Json) :
    Row ']' (fun v text => text = compactChars v) true items
      (separate [','] (compactItems items) ++ [']']) := by
  rw [compactItems_eq_map]
  exact row_separate fun _ _ => rfl

/-- The row of the members of an object. -/
theorem row_compactMembers (members : List (String × Json)) :
    Row '\x7d' (fun member text => text = Quoted.literal member.1 ++ ':' :: compactChars member.2)
      true members (separate [','] (compactMembers members) ++ ['\x7d']) := by
  rw [compactMembers_eq_map]
  exact row_separate fun _ _ => rfl

/-- What is written for a value is well-formed. -/
theorem Storable.wellFormed {v : Json} (h : v.Storable) : WellFormed (compactChars v) := by
  induction h with
  | null => exact .null
  | bool b => exact .bool b
  | @number x h =>
    obtain ⟨negative, n, text, hspells, htext, -⟩ := Number.exists_numeral h
    rw [compactChars, htext]
    cases negative with
    | true => exact .negative hspells
    | false => exact .number hspells
  | string s => exact .string (Quoted.spells_encode s.toList).body
  | @array items _ ih =>
    have hrow : Row ']' Eq true (items.map compactChars)
        (separate [','] (compactItems items) ++ [']']) :=
      (row_compactItems items).map compactChars fun _ _ h => h.symm
    refine .array (fun item hitem => ?_) hrow
    obtain ⟨v, hv, rfl⟩ := List.mem_map.1 hitem
    exact ih v hv
  | @object members _ ih =>
    have hrow : Row '\x7d' PairText true
        (members.map fun member => (Quoted.encode member.1.toList, compactChars member.2))
        (separate [','] (compactMembers members) ++ ['\x7d']) := by
      refine (row_compactMembers members).map _ ?_
      rintro member _ rfl
      exact ⟨[], [], allBlank_nil, allBlank_nil, by simp [Quoted.literal]⟩
    refine .object ?_ ?_ hrow
    · intro pair hpair
      obtain ⟨member, -, rfl⟩ := List.mem_map.1 hpair
      exact (Quoted.spells_encode member.1.toList).body
    · intro pair hpair
      obtain ⟨member, hmember, rfl⟩ := List.mem_map.1 hpair
      exact ih member hmember

/-! ## The first character -/

/-- What the first character of a value's text says about the value. -/
structure Starts (v : Json) (c : Char) : Prop where
  blank : isBlank c = false
  closing : c ≠ ']'
  string : c = '"' → ∃ s, v = .string s
  array : c = '[' → ∃ items, v = .array items
  object : c = '\x7b' → ∃ members, v = .object members
  null : c = 'n' → v = .null

/-- A character that starts neither a string nor an array, an object or a null. -/
theorem Starts.of_not_mem {v : Json} {c : Char} (hblank : isBlank c = false)
    (h : c ∉ [']', '"', '[', '\x7b', 'n']) : Starts v c := by
  simp only [List.mem_cons, List.not_mem_nil, or_false, not_or] at h
  obtain ⟨hclosing, hquote, hopening, hbrace, hword⟩ := h
  exact ⟨hblank, hclosing, fun h => absurd h hquote, fun h => absurd h hopening,
    fun h => absurd h hbrace, fun h => absurd h hword⟩

/-- The text of a value starts with a character that tells its kind. -/
theorem Storable.exists_starts {v : Json} (h : v.Storable) :
    ∃ c text, compactChars v = c :: text ∧ Starts v c := by
  cases h with
  | null =>
    refine ⟨'n', _, rfl, by decide, by decide, fun h => ?_, fun h => ?_, fun h => ?_, fun _ => rfl⟩
    all_goals exact absurd h (by decide)
  | bool b =>
    cases b with
    | true => exact ⟨'t', _, rfl, .of_not_mem (by decide) (by decide)⟩
    | false => exact ⟨'f', _, rfl, .of_not_mem (by decide) (by decide)⟩
  | @number x h =>
    obtain ⟨negative, n, text, hspells, htext, -⟩ := Number.exists_numeral h
    rw [compactChars, htext]
    cases negative with
    | true => exact ⟨'-', _, rfl, .of_not_mem (by decide) (by decide)⟩
    | false =>
      obtain ⟨c, tail, rfl, hdigit⟩ := hspells.exists_cons
      obtain ⟨hblank, hquote, hopening, hclosing, hbrace, hword, -⟩ := ne_of_isDigit hdigit
      exact ⟨c, tail, rfl, .of_not_mem hblank
        (by simp [hclosing, hquote, hopening, hbrace, hword])⟩
  | string s =>
    refine ⟨'"', _, rfl, by decide, by decide, fun _ => ⟨s, rfl⟩, fun h => ?_, fun h => ?_,
      fun h => ?_⟩
    all_goals exact absurd h (by decide)
  | @array items _ =>
    refine ⟨'[', _, rfl, by decide, by decide, fun h => ?_, fun _ => ⟨items, rfl⟩, fun h => ?_,
      fun h => ?_⟩
    all_goals exact absurd h (by decide)
  | @object members _ =>
    refine ⟨'\x7b', _, rfl, by decide, by decide, fun h => ?_, fun h => ?_,
      fun _ => ⟨members, rfl⟩, fun h => ?_⟩
    all_goals exact absurd h (by decide)

/-- So it opens a value. -/
theorem Storable.opens {v : Json} (h : v.Storable) : Opens (compactChars v) := by
  obtain ⟨c, text, htext, hstarts⟩ := h.exists_starts
  exact ⟨c, text, htext, hstarts.blank, hstarts.closing⟩

/-! ## Values of another type -/

/-- What a list that is too long is told to be. -/
def shorter : String := "fewer elements in array"

/-- The failure of a text whose value is a misfit.  A floating-point number is the one that its
text is read as, and a list that goes on where it should end is no JSON. -/
def Failure.ofMisfit : Misfit → Failure
  | .wrongType (.float x) wanted => .misfit (.wrongType (.float x.reread) wanted)
  | .wrongLength length wanted =>
    if wanted = shorter then .malformed else .misfit (.wrongLength length wanted)
  | reason => .misfit reason

/-- What a reader answers on a text whose value is decoded so. -/
def answer (outcome : Except Misfit α) (rest : List Char) : Except Failure (α × List Char) :=
  match outcome with
  | .ok value => .ok (value, rest)
  | .error reason => .error (.ofMisfit reason)

/-- A scalar is read up to its end, and refused for what it is read as. -/
theorem mismatch_scalar (wanted : String) {c : Char} {text : List Char} (hopening : c ≠ '[')
    (hbrace : c ≠ '\x7b') :
    mismatch wanted (c :: text) =
      match value .keep 0 (c :: text) with
      | .ok (found, _) => .misfit (.wrongType found.found wanted)
      | .error failure => failure := by
  rcases hvalue : value .keep 0 (c :: text) with failure | ⟨found, rest⟩ <;>
    simp only [mismatch, hopening, hbrace, if_false, hvalue]

/-- A value of another type than wanted is refused for what it is. -/
theorem mismatch_compact (wanted : String) {v : Json} (h : v.Storable) {rest : List Char}
    (hrest : Ends rest) :
    mismatch wanted (compactChars v ++ rest) = .ofMisfit (unwanted wanted v) := by
  cases h with
  | null => rfl
  | bool b => cases b <;> rfl
  | array _ => rfl
  | object _ => rfl
  | string s =>
    have hvalue : value .keep 0 ('"' :: (Quoted.encode s.toList ++ ['"']) ++ rest) =
        .ok (.string s, rest) :=
      takes_value_string _ _ (Quoted.spells_encode s.toList) rest
    show mismatch wanted ('"' :: (Quoted.encode s.toList ++ ['"']) ++ rest) = _
    rw [List.cons_append] at hvalue ⊢
    rw [mismatch_scalar wanted (by decide) (by decide), hvalue]
    rfl
  | @number x h =>
    obtain ⟨c, tail, hcons, hstarts⟩ := (Storable.number h).exists_starts
    obtain ⟨negative, n, text, hspells, htext, hreread⟩ := Number.exists_numeral h
    have hvalue := value_signed 0 hspells negative hrest
    rw [hreread, ← htext, ← compactChars, hcons, List.cons_append] at hvalue
    rw [hcons, List.cons_append, mismatch_scalar wanted
      (fun hc => by obtain ⟨items, hitems⟩ := hstarts.array hc; cases hitems)
      (fun hc => by obtain ⟨members, hmembers⟩ := hstarts.object hc; cases hmembers), hvalue]
    cases x <;> rfl

/-! ## Agreement -/

/-- On the compact text of a value the reader answers as the decoder does on the value. -/
def Agrees (reader : Reader α) (decode : Json → Except Misfit α) : Prop :=
  ∀ v : Json, v.Storable → ∀ rest, Ends rest →
    reader (compactChars v.sorted ++ rest) = answer (decode v.sorted) rest

/-- A reader that refuses the text of a value by its first character answers as a decoder that
refuses the value. -/
theorem read_of_unwanted {reader : Reader α} {wanted : String} {v : Json} (h : v.Storable)
    (hreader : ∀ c text, Starts v c → reader (c :: text) = .error (mismatch wanted (c :: text)))
    {outcome : Except Misfit α} (houtcome : outcome = .error (unwanted wanted v))
    {rest : List Char} (hrest : Ends rest) :
    reader (compactChars v ++ rest) = answer outcome rest := by
  obtain ⟨c, text, htext, hstarts⟩ := h.exists_starts
  have hmismatch := mismatch_compact wanted h hrest
  rw [htext, List.cons_append] at hmismatch ⊢
  rw [hreader c _ hstarts, hmismatch, houtcome]
  rfl

/-- A value that is no string is refused as a text. -/
theorem readText_of_ne {v : Json} (h : v.Storable) (hother : ¬∃ s, v = .string s)
    {rest : List Char} (hrest : Ends rest) :
    readText (compactChars v ++ rest) = answer (decodeText v) rest := by
  have hdecode : decodeText v = .error (unwanted "a string" v) := by
    cases v <;> first | rfl | exact absurd ⟨_, rfl⟩ hother
  refine read_of_unwanted h (fun c text hstarts => ?_) hdecode hrest
  have hquote : c ≠ '"' := fun hc => hother (hstarts.string hc)
  rw [readText, skipBlanks_cons hstarts.blank]
  simp only [hquote, if_false]

/-- Texts are read as they are decoded. -/
theorem agrees_text : Agrees readText decodeText := by
  intro v h rest hrest
  by_cases hstring : ∃ s, v.sorted = .string s
  · obtain ⟨s, hs⟩ := hstring
    rw [hs]
    exact takes_compact_string s rest
  · exact readText_of_ne h.sorted hstring hrest

/-- Items are read one by one, up to the first misfit. -/
theorem itemsWithin_of_agrees {item : Reader α} {decode : Json → Except Misfit α}
    {first : Bool} {values : List Json} {body : List Char}
    (h : Row ']' (fun v text => text = compactChars v) first values body)
    (hopens : ∀ v ∈ values, Opens (compactChars v))
    (hitem : ∀ v ∈ values, ∀ rest, Ends rest →
      item (compactChars v ++ rest) = answer (decode v) rest) :
    ∀ bound, body.length < bound → ∀ rest,
      itemsWithin item bound first (body ++ rest) = answer (decodeItems decode values) rest := by
  induction h with
  | @done first blanks hblanks =>
    intro bound hbound rest
    cases bound with
    | zero => omega
    | succ bound =>
      rw [List.append_assoc, List.singleton_append, itemsWithin, nextItem_done hblanks]
      rfl
  | @more first lead text body v values hlead htext tail ih =>
    subst htext
    intro bound hbound rest
    have hv := hopens v List.mem_cons_self
    have hlength := List.length_pos_iff.2 hv.ne_nil
    simp only [List.length_append] at hbound
    cases bound with
    | zero => omega
    | succ bound =>
      have htail := ih (fun w hw => hopens w (List.mem_cons_of_mem v hw))
        (fun w hw => hitem w (List.mem_cons_of_mem v hw)) bound (by omega) rest
      have hfirst := hitem v List.mem_cons_self (body ++ rest) (tail.ends (by decide) rest)
      rw [List.append_assoc, List.append_assoc, itemsWithin,
        nextItem_more hlead (hv.append (body ++ rest))]
      simp only [hfirst, decodeItems]
      cases decode v with
      | error reason => rfl
      | ok decoded =>
        simp only [answer, htail]
        cases decodeItems decode values <;> rfl

/-- A value that is no array is refused as a list. -/
theorem readList_of_ne {item : Reader α} {decode : Json → Except Misfit α} {v : Json}
    (h : v.Storable) (hother : ¬∃ items, v = .array items) {rest : List Char}
    (hrest : Ends rest) :
    readList item (compactChars v ++ rest) = answer (decodeList decode v) rest := by
  have hdecode : decodeList decode v = .error (unwanted "a sequence" v) := by
    cases v <;> first | rfl | exact absurd ⟨_, rfl⟩ hother
  refine read_of_unwanted h (fun c text hstarts => ?_) hdecode hrest
  have hopening : c ≠ '[' := fun hc => hother (hstarts.array hc)
  rw [readList, skipBlanks_cons hstarts.blank]
  simp only [hopening, if_false]

/-- So are lists, if their items are. -/
theorem agrees_list {item : Reader α} {decode : Json → Except Misfit α}
    (hitem : Agrees item decode) : Agrees (readList item) (decodeList decode) := by
  intro v h rest hrest
  by_cases harray : ∃ items, v.sorted = .array items
  · cases h with
    | @array items hitems =>
      rw [Json.sorted, compactChars, List.cons_append, readList, skipBlanks_cons rfl]
      refine itemsWithin_of_agrees (row_compactItems _) ?_ ?_ _ (length_lt_append _ rest) rest
      all_goals
        intro v hv
        rw [sortedItems_eq_map] at hv
        obtain ⟨w, hw, rfl⟩ := List.mem_map.1 hv
      · exact (hitems w hw).sorted.opens
      · exact hitem w (hitems w hw)
    | _ => exact absurd harray (by rintro ⟨_, h⟩; cases h)
  · exact readList_of_ne h.sorted harray hrest

/-- So are values that may be absent. -/
theorem agrees_option {reader : Reader α} {decode : Json → Except Misfit α}
    (hvalue : Agrees reader decode) : Agrees (readOption reader) (decodeOption decode) := by
  intro v h rest hrest
  have hread := hvalue v h rest hrest
  by_cases hnull : v.sorted = .null
  · rw [hnull]
    rfl
  · obtain ⟨c, text, htext, hstarts⟩ := h.sorted.exists_starts
    have hword : c ≠ 'n' := fun hc => hnull (hstarts.null hc)
    have hdecode : decodeOption decode v.sorted = (decode v.sorted).map some := by
      generalize v.sorted = w at hnull
      cases w <;> first | rfl | exact absurd rfl hnull
    rw [hdecode]
    rw [htext, List.cons_append] at hread ⊢
    rw [readOption, skipBlanks_cons hstarts.blank]
    simp only [hword, if_false, Reader.map, hread]
    cases decode v.sorted <;> rfl

/-! ## Records -/

section Records

variable {φ : Type} {Value : φ → Type} [DecidableEq φ]
variable {r : Record φ Value α} {read : (f : φ) → Reader (Value f)}
variable {decode : (f : φ) → Json → Except Misfit (Value f)}

/-- The member of a field without a value is read for it. -/
theorem recordMember_of_field {key : String} {f : φ} (hkey : r.field? key = some f)
    {draft : Draft φ Value} (hfree : draft f = none) {text rest : List Char}
    {outcome : Except Misfit (Value f)} (hread : read f (text ++ rest) = answer outcome rest) :
    recordMember r read key draft (':' :: text ++ rest) =
      answer (outcome.map (draft.put f)) rest := by
  rw [recordMember]
  simp only [hkey, hfree, Option.isSome_none, Bool.false_eq_true, if_false]
  rw [List.cons_append, show readColon (':' :: (text ++ rest)) = .ok (text ++ rest) from rfl]
  simp only [Reader.map, hread]
  cases outcome <;> rfl

/-- What a member makes of a draft. -/
def draftOfMember (r : Record φ Value α) (decode : (f : φ) → Json → Except Misfit (Value f))
    (key : String) (v : Json) (draft : Draft φ Value) : Except Misfit (Draft φ Value) :=
  match r.field? key with
  | none => .ok draft
  | some f => (decode f v).map (draft.put f)

/-- Members are decoded one after the other. -/
theorem draftOfMembers_cons (key : String) (v : Json) (members : List (String × Json))
    (draft : Draft φ Value) :
    draftOfMembers r decode ((key, v) :: members) draft =
      match draftOfMember r decode key v draft with
      | .error reason => .error reason
      | .ok next => draftOfMembers r decode members next := by
  rw [draftOfMembers, draftOfMember]
  cases r.field? key with
  | none => rfl
  | some f =>
    simp only
    cases decode f v <;> rfl

/-- A member gives its own field a value, and no other field. -/
theorem free_of_draftOfMember {key : String} {v : Json} {draft next : Draft φ Value}
    (hnext : draftOfMember r decode key v draft = .ok next) {f : φ} (hother : r.name f ≠ key)
    (hfree : draft f = none) : next f = none := by
  rw [draftOfMember] at hnext
  cases hkey : r.field? key with
  | none =>
    rw [hkey] at hnext
    cases hnext
    exact hfree
  | some g =>
    simp only [hkey] at hnext
    cases hvalue : decode g v with
    | error reason =>
      rw [hvalue] at hnext
      cases hnext
    | ok value =>
      rw [hvalue] at hnext
      cases hnext
      have hg : g ≠ f := by
        rintro rfl
        exact hother (Record.name_of_field? hkey)
      exact (Draft.put_other hg value draft).trans hfree

/-- The member of a field without a value is read for it, and one of no field stepped over. -/
theorem recordMember_of_agrees {key : String} {v : Json} {draft : Draft φ Value}
    (hfree : ∀ f, r.name f = key → draft f = none) (hwell : WellFormed (compactChars v))
    {rest : List Char} (hrest : Ends rest)
    (hread : ∀ f, read f (compactChars v ++ rest) = answer (decode f v) rest) :
    recordMember r read key draft (':' :: compactChars v ++ rest) =
      answer (draftOfMember r decode key v draft) rest := by
  rw [draftOfMember]
  cases hkey : r.field? key with
  | none =>
    have hskipped : TakesBefore (recordMember r read key draft) draft _ :=
      takesBefore_recordMember hkey draft allBlank_nil (takesBefore_skipValue hwell allBlank_nil)
    have hskip := hskipped rest hrest
    rwa [List.nil_append, List.nil_append] at hskip
  | some f => exact recordMember_of_field hkey (hfree f (Record.name_of_field? hkey)) (hread f)

/-- Members are read one by one, up to the first misfit.  Since their keys are different, a field
has no value before its member comes. -/
theorem membersWithin_of_agrees {first : Bool} {members : List (String × Json)}
    {body : List Char}
    (h : Row '\x7d' (fun member text =>
      text = Quoted.literal member.1 ++ ':' :: compactChars member.2) first members body)
    (hmember : ∀ member ∈ members, WellFormed (compactChars member.2) ∧ ∀ f rest, Ends rest →
      read f (compactChars member.2 ++ rest) = answer (decode f member.2) rest) :
    ∀ draft : Draft φ Value, (members.map (·.1)).Nodup →
      (∀ f, r.name f ∈ members.map (·.1) → draft f = none) →
      ∀ bound, body.length < bound → ∀ rest,
      membersWithin Quoted.read (recordMember r read) bound first draft (body ++ rest) =
        answer (draftOfMembers r decode members draft) rest := by
  induction h with
  | @done first blanks hblanks =>
    intro draft _ _ bound hbound rest
    cases bound with
    | zero => omega
    | succ bound =>
      rw [List.append_assoc, List.singleton_append, membersWithin_done hblanks]
      rfl
  | @more first lead text body member members hlead htext tail ih =>
    subst htext
    obtain ⟨key, v⟩ := member
    intro draft hnodup hfree bound hbound rest
    obtain ⟨hwell, hread⟩ := hmember (key, v) List.mem_cons_self
    obtain ⟨hkeyfree, hnodup⟩ := List.nodup_cons.1 hnodup
    have hends : Ends (body ++ rest) := tail.ends (by decide) rest
    have hname := takes_quoted (Quoted.spells_encode key.toList)
    rw [String.ofList_toList] at hname
    cases bound with
    | zero => omega
    | succ bound =>
      have hbound : body.length < bound := by
        simp only [List.length_append, List.length_cons] at hbound
        omega
      have htext : lead ++ (Quoted.literal key ++ ':' :: compactChars v ++ body) ++ rest =
          lead ++ '"' :: (Quoted.encode key.toList ++ ['"'] ++
            (':' :: compactChars v ++ (body ++ rest))) := by simp [Quoted.literal]
      have hfirst : recordMember r read key draft (':' :: compactChars v ++ (body ++ rest)) =
          answer (draftOfMember r decode key v draft) (body ++ rest) :=
        recordMember_of_agrees (fun f hf => hfree f (hf ▸ List.mem_cons_self)) hwell hends
          fun f => hread f (body ++ rest) hends
      rw [htext, membersWithin, nextKey_more hlead]
      simp only [hname _, hfirst, draftOfMembers_cons]
      cases hnext : draftOfMember r decode key v draft with
      | error reason => rfl
      | ok next =>
        refine ih (fun other hother => hmember other (List.mem_cons_of_mem _ hother)) next hnodup
          (fun f hf => ?_) bound hbound rest
        have hother : r.name f ≠ key := fun hsame => hkeyfree (hsame ▸ hf)
        exact free_of_draftOfMember hnext hother (hfree f (List.mem_cons_of_mem key hf))

/-- Behind what leads to a part of a row stands no closing bracket. -/
theorem skipBlanks_lead {first : Bool} {lead text : List Char} (hlead : Json.Lead first lead)
    (htext : Opens text) : ∃ c rest, skipBlanks (lead ++ text) = c :: rest ∧ c ≠ ']' := by
  cases hlead with
  | first hblanks =>
    obtain ⟨c, rest, rfl, hblank, hclosing⟩ := htext
    exact ⟨c, rest, by rw [skipBlanks_append hblanks, skipBlanks_cons hblank], hclosing⟩
  | @next before behind hbefore hbehind =>
    refine ⟨',', behind ++ text, ?_, by decide⟩
    rw [List.append_assoc, skipBlanks_append hbefore, List.cons_append, skipBlanks_cons rfl]

/-- A record is refused in the same words in a text and in a value. -/
structure Plain (r : Record φ Value α) : Prop where
  members : ∀ draft rest, finish (r.ofMembers draft) rest = answer (r.ofMembers draft) rest
  items : ∀ count draft rest,
    finish (r.ofItems count draft) rest = answer (r.ofItems count draft) rest

/-- Items are read for the fields in their order, up to the first misfit.  Where items are left
behind the last field the text is no JSON any more, and the value too long. -/
theorem recordItems_of_agrees (hplain : Plain r) (length : Nat) {first : Bool}
    {values : List Json} {body : List Char}
    (h : Row ']' (fun v text => text = compactChars v) first values body)
    (hopens : ∀ v ∈ values, Opens (compactChars v))
    (hread : ∀ v ∈ values, ∀ f rest, Ends rest →
      read f (compactChars v ++ rest) = answer (decode f v) rest) :
    ∀ fields count (draft : Draft φ Value), first = decide (count = 0) → ∀ rest,
      recordItems r read fields count draft (body ++ rest) =
        answer (decodeRecordItems r decode length fields values count draft) rest := by
  induction h with
  | @done first blanks hblanks =>
    intro fields count draft hfirst rest
    rw [List.append_assoc, List.singleton_append]
    cases fields with
    | nil =>
      rw [recordItems, hplain.items, decodeRecordItems]
      cases r.ofItems count draft with
      | error reason => rfl
      | ok value =>
        simp only [answer]
        rw [skipBlanks_append hblanks, skipBlanks_cons rfl]
        simp
    | cons f fields =>
      rw [recordItems, ← hfirst, nextItem_done hblanks]
      exact hplain.items count draft rest
  | @more first lead text body v values hlead htext tail ih =>
    subst htext
    intro fields count draft hfirst rest
    have hv := hopens v List.mem_cons_self
    rw [List.append_assoc, List.append_assoc]
    cases fields with
    | nil =>
      rw [recordItems, hplain.items, decodeRecordItems]
      cases r.ofItems count draft with
      | error reason => rfl
      | ok value =>
        obtain ⟨c, tail, hskip, hclosing⟩ := skipBlanks_lead hlead (hv.append (body ++ rest))
        simp only [answer, hskip, hclosing, if_false]
        rfl
    | cons f fields =>
      have htail := fun draft => ih (fun w hw => hopens w (List.mem_cons_of_mem v hw))
        (fun w hw => hread w (List.mem_cons_of_mem v hw)) fields (count + 1) draft (by simp) rest
      have hfirstValue := hread v List.mem_cons_self f (body ++ rest) (tail.ends (by decide) rest)
      rw [recordItems, ← hfirst, nextItem_more hlead (hv.append (body ++ rest))]
      simp only [hfirstValue, decodeRecordItems]
      cases decode f v with
      | error reason => rfl
      | ok value => exact htail (draft.put f value)

/-- A value that is neither an object nor an array is refused as a record. -/
theorem readRecord_of_ne {v : Json} (h : v.Storable) (hobject : ¬∃ members, v = .object members)
    (harray : ¬∃ items, v = .array items) {rest : List Char} (hrest : Ends rest) :
    readRecord r read (compactChars v ++ rest) = answer (decodeRecord r decode v) rest := by
  have hdecode : decodeRecord r decode v = .error (unwanted r.label v) := by
    cases v <;> first | rfl | exact absurd ⟨_, rfl⟩ hobject | exact absurd ⟨_, rfl⟩ harray
  refine read_of_unwanted h (fun c text hstarts => ?_) hdecode hrest
  have hopening : c ≠ '[' := fun hc => harray (hstarts.array hc)
  have hbrace : c ≠ '\x7b' := fun hc => hobject (hstarts.object hc)
  rw [readRecord, skipBlanks_cons hstarts.blank]
  simp only [hopening, hbrace, if_false]

/-- An object is read for a record as it is decoded. -/
theorem readRecord_of_object (hplain : Plain r) (hread : ∀ f, Agrees (read f) (decode f))
    {members : List (String × Json)} (h : ∀ member ∈ members, member.2.Storable)
    (rest : List Char) :
    readRecord r read (compactChars (.object (sortedMembers [] members)) ++ rest) =
      answer (decodeRecord r decode (.object (sortedMembers [] members))) rest := by
  have hmember : ∀ member ∈ sortedMembers [] members, WellFormed (compactChars member.2) ∧
      ∀ f rest, Ends rest →
        read f (compactChars member.2 ++ rest) = answer (decode f member.2) rest := by
    intro member hmember
    rcases mem_sortedMembers hmember with hnone | ⟨first, hfirst, rfl⟩
    · cases hnone
    · exact ⟨(h first hfirst).sorted.wellFormed, fun f => hread f first.2 (h first hfirst)⟩
  have hmembers := membersWithin_of_agrees (r := r) (row_compactMembers _) hmember Draft.empty
    (increasing_nil.sortedMembers members).nodup (fun _ _ => rfl) _ (length_lt_append _ rest) rest
  rw [compactChars, List.cons_append, readRecord, skipBlanks_cons rfl]
  show recordMembers r read _ = _
  rw [recordMembers, Json.members, hmembers, decodeRecord]
  cases draftOfMembers r decode (sortedMembers [] members) Draft.empty with
  | error reason => rfl
  | ok draft => exact hplain.members draft rest

/-- So is an array, which may be too long. -/
theorem readRecord_of_array (hplain : Plain r) (hread : ∀ f, Agrees (read f) (decode f))
    {items : List Json} (h : ∀ item ∈ items, item.Storable) (rest : List Char) :
    readRecord r read (compactChars (.array (sortedItems items)) ++ rest) =
      answer (decodeRecord r decode (.array (sortedItems items))) rest := by
  have hitem : ∀ v ∈ sortedItems items, Opens (compactChars v) ∧ ∀ f rest, Ends rest →
      read f (compactChars v ++ rest) = answer (decode f v) rest := by
    intro v hv
    rw [sortedItems_eq_map] at hv
    obtain ⟨w, hw, rfl⟩ := List.mem_map.1 hv
    exact ⟨(h w hw).sorted.opens, fun f => hread f w (h w hw)⟩
  rw [compactChars, List.cons_append, readRecord, skipBlanks_cons rfl]
  exact recordItems_of_agrees hplain _ (row_compactItems _) (fun v hv => (hitem v hv).1)
    (fun v hv => (hitem v hv).2) r.fields 0 Draft.empty rfl rest

/-- **Records** are read as they are decoded, if their fields are. -/
theorem agrees_record (hplain : Plain r) (hread : ∀ f, Agrees (read f) (decode f)) :
    Agrees (readRecord r read) (decodeRecord r decode) := by
  intro v h rest hrest
  have hsorted := h.sorted
  cases h with
  | object h => exact readRecord_of_object hplain hread h rest
  | array h => exact readRecord_of_array hplain hread h rest
  | null => exact readRecord_of_ne hsorted nofun nofun hrest
  | bool b => exact readRecord_of_ne hsorted nofun nofun hrest
  | number h => exact readRecord_of_ne hsorted nofun nofun hrest
  | string s => exact readRecord_of_ne hsorted nofun nofun hrest

end Records

/-- **Whole texts.**  A compact text is read as its value is decoded. -/
theorem readWhole_of_agrees {reader : Reader α} {decode : Json → Except Misfit α}
    (hread : Agrees reader decode) {v : Json} (h : v.Storable) :
    readWhole reader v.sorted.compact.toList = (decode v.sorted).mapError .ofMisfit := by
  have hanswer := hread v h [] ends_nil
  rw [List.append_nil] at hanswer
  rw [readWhole, compact, String.toList_ofList, hanswer]
  cases decode v.sorted <;> rfl

end Json

end ServingCatalog
