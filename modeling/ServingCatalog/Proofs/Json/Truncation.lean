import Mathlib.Data.List.TakeWhile
import ServingCatalog.Proofs.Json.Compact

/-!
# Texts that end too early

A reader that takes a text need not see that the text is cut: of `12` it might take the `1`.  Most
readers do see it, because what they read has a closing mark: `NeedsAll` says that on each shorter
front of a text the reader finds it cut short, and neither malformed nor complete.

A front of two texts behind each other ends in the first of them, or behind it in the second
(`isCut_append`).  So the proof for a whole goes along its parts, with two facts for each part: the
reader takes it, and needs all of it.  Literals are cut in `needsAll_readText`, arrays in
`needsAll_readList`, and objects, member by member, in `needsAll_readRecord`.
-/

namespace ServingCatalog

namespace Json

variable {α κ σ : Type}

/-- A front of a text that is not the whole text. -/
def IsCut (front text : List Char) : Prop := front <+: text ∧ front ≠ text

/-- On each shorter front of the text the reader finds it cut short. -/
def NeedsAll (reader : Reader α) (text : List Char) : Prop :=
  ∀ front, IsCut front text → reader front = .error .cutShort

/-! ## Fronts -/

/-- A text of one character and more is cut before the character, or behind it. -/
theorem isCut_cons {c : Char} {front text : List Char} (h : IsCut front (c :: text)) :
    front = [] ∨ ∃ rest, front = c :: rest ∧ IsCut rest text := by
  obtain ⟨hfront, hne⟩ := h
  rcases List.prefix_cons_iff.1 hfront with rfl | ⟨rest, rfl, hrest⟩
  · exact .inl rfl
  · exact .inr ⟨rest, rfl, hrest, fun heq => hne (by rw [heq])⟩

/-- A front of two texts is cut in the first of them, or behind it in the second. -/
theorem isCut_append {front text more : List Char} (h : IsCut front (text ++ more)) :
    IsCut front text ∨ ∃ rest, front = text ++ rest ∧ IsCut rest more := by
  induction text generalizing front with
  | nil => exact .inr ⟨front, rfl, h⟩
  | cons c text ih =>
    rcases isCut_cons h with rfl | ⟨rest, rfl, hrest⟩
    · exact .inl ⟨List.nil_prefix, (List.cons_ne_nil c text).symm⟩
    · rcases ih hrest with ⟨hfront, hne⟩ | ⟨tail, rfl, htail⟩
      · exact .inl ⟨List.cons_prefix_cons.2 ⟨rfl, hfront⟩, by simpa using hne⟩
      · exact .inr ⟨tail, rfl, htail⟩

/-- A front that is cut before the last character is a front of what stands before it. -/
theorem prefix_of_isCut_concat {front text : List Char} {c : Char}
    (h : IsCut front (text ++ [c])) : front <+: text :=
  (List.prefix_concat_iff.1 h.1).resolve_left h.2

/-- A front of a text that opens a value opens one too, unless nothing is left of it. -/
theorem Opens.of_isCut {front text : List Char} (h : Opens text) (hcut : IsCut front text) :
    front = [] ∨ Opens front := by
  obtain ⟨c, rest, rfl, hblank, hclosing⟩ := h
  rcases isCut_cons hcut with rfl | ⟨tail, rfl, -⟩
  · exact .inl rfl
  · exact .inr ⟨c, tail, rfl, hblank, hclosing⟩

theorem AllBlank.of_prefix {front blanks : List Char} (h : AllBlank blanks)
    (hfront : front <+: blanks) : AllBlank front := fun c hc => h c (hfront.subset hc)

/-! ## Between the parts -/

/-- A step from one part of an array or an object to the next finds a text cut short where nothing
is left of it, and where nothing is left behind a comma. -/
structure FindsEnd (next : Bool → List Char → Except Failure Next) : Prop where
  ended : ∀ first text, skipBlanks text = [] → next first text = .error .cutShort
  behindComma : ∀ text rest, skipBlanks text = ',' :: rest → skipBlanks rest = [] →
    next false text = .error .cutShort

theorem findsEnd_nextItem : FindsEnd nextItem where
  ended first text h := by rw [nextItem, h]
  behindComma text rest h hrest := by simp [nextItem, h, hrest]

theorem findsEnd_nextKey : FindsEnd nextKey where
  ended first text h := by rw [nextKey, h]
  behindComma text rest h hrest := by simp [nextKey, h, hrest]

/-- Nothing but blanks is neither a next part nor the end of them. -/
theorem FindsEnd.blanks {next : Bool → List Char → Except Failure Next} (h : FindsEnd next)
    {blanks : List Char} (hblanks : AllBlank blanks) (first : Bool) :
    next first blanks = .error .cutShort :=
  h.ended first blanks (skipBlanks_eq_nil hblanks)

theorem readColon_allBlank {blanks : List Char} (h : AllBlank blanks) :
    readColon blanks = .error .cutShort := by
  rw [readColon, skipBlanks_eq_nil h]

/-- What leads to a part ends in blanks, or is a comma and blanks. -/
theorem Lead.of_prefix {first : Bool} {lead front : List Char} (h : Lead first lead)
    (hfront : front <+: lead) :
    AllBlank front ∨ first = false ∧ ∃ before behind, AllBlank before ∧ AllBlank behind ∧
      front = before ++ ',' :: behind := by
  cases h with
  | first hblanks => exact .inl (hblanks.of_prefix hfront)
  | @next before behind hbefore hbehind =>
    by_cases hwhole : front = before ++ ',' :: behind
    · exact .inr ⟨rfl, before, behind, hbefore, hbehind, hwhole⟩
    · rcases isCut_append ⟨hfront, hwhole⟩ with ⟨hcut, -⟩ | ⟨rest, rfl, hcut⟩
      · exact .inl (hbefore.of_prefix hcut)
      · rcases isCut_cons hcut with rfl | ⟨tail, rfl, htail, -⟩
        · rw [List.append_nil]
          exact .inl hbefore
        · exact .inr ⟨rfl, before, tail, hbefore, hbehind.of_prefix htail, rfl⟩

/-- Where a text ends before the next part starts, it is cut short. -/
theorem FindsEnd.lead {next : Bool → List Char → Except Failure Next} (h : FindsEnd next)
    {first : Bool} {lead front : List Char} (hlead : Lead first lead) (hfront : front <+: lead) :
    next first front = .error .cutShort := by
  rcases hlead.of_prefix hfront with hblank | ⟨rfl, before, behind, hbefore, hbehind, rfl⟩
  · exact h.blanks hblank first
  · have hcomma : skipBlanks (before ++ ',' :: behind) = ',' :: behind := by
      rw [skipBlanks_append hbefore, skipBlanks_cons rfl]
    exact h.behindComma _ behind hcomma (skipBlanks_eq_nil hbehind)

/-! ## Literals -/

namespace Quoted

/-- A text that ends in an escape of a unit, or behind it. -/
theorem scan_unitDigits_prefix {u : Nat} {digits body front : List Char} (h : UnitDigits u digits)
    (hfront : front <+: '\\' :: 'u' :: (digits ++ body)) :
    scan .plain front = ([], .cutShort) ∨
      ∃ rest, rest <+: body ∧ front = '\\' :: 'u' :: (digits ++ rest) := by
  obtain ⟨ha, hb, hc, hd⟩ := h
  simp only [List.cons_append, List.nil_append, List.prefix_cons_iff] at hfront
  rcases hfront with rfl | ⟨_, rfl, rfl | ⟨_, rfl, rfl | ⟨_, rfl, rfl | ⟨_, rfl, rfl |
    ⟨_, rfl, rfl | ⟨rest, rfl, hrest⟩⟩⟩⟩⟩⟩
  case inr.inr.inr.inr.inr.inr => exact .inr ⟨rest, hrest, rfl⟩
  all_goals simp [scan, ha, hb, hc]

/-- The scan of a spelling that ends before its closing quote finds it cut short, and the pieces
found until then are none that a text could not go on with. -/
theorem scan_prefix_of_spells {text body : List Char} (h : Spells text body) {front : List Char}
    (hfront : front <+: body) :
    ∃ pieces, scan .plain front = (pieces, .cutShort) ∧
      join pieces .cutShort = .error .cutShort := by
  induction h generalizing front with
  | nil =>
    rw [List.prefix_nil.1 hfront]
    exact ⟨[], rfl, rfl⟩
  | @char c text body hquote hbackslash hcontrol tail ih =>
    rcases List.prefix_cons_iff.1 hfront with rfl | ⟨rest, rfl, hrest⟩
    · exact ⟨[], rfl, rfl⟩
    · obtain ⟨pieces, hscan, hjoin⟩ := ih hrest
      refine ⟨.char c :: pieces, ?_, by simp [join, hjoin, withChar]⟩
      rw [scan_char hquote hbackslash hcontrol, hscan]
      rfl
  | @escape c letter text body hletter tail ih =>
    simp only [List.prefix_cons_iff] at hfront
    rcases hfront with rfl | ⟨_, rfl, rfl | ⟨rest, rfl, hrest⟩⟩
    · exact ⟨[], rfl, rfl⟩
    · exact ⟨[], rfl, rfl⟩
    · obtain ⟨pieces, hscan, hjoin⟩ := ih hrest
      refine ⟨.char c :: pieces, ?_, by simp [join, hjoin, withChar]⟩
      rw [scan_escape hletter, hscan]
      rfl
  | @unit u digits text body hdigits hleading htrailing tail ih =>
    rcases scan_unitDigits_prefix hdigits hfront with hcut | ⟨rest, hrest, rfl⟩
    · exact ⟨[], hcut, rfl⟩
    · obtain ⟨pieces, hscan, hjoin⟩ := ih hrest
      refine ⟨.unit u :: pieces, ?_, by rw [join_unit hleading htrailing, hjoin, withChar]⟩
      rw [scan_unitDigits hdigits, hscan]
      rfl
  | @pair u v digits more text body hdigits hmore hleading htrailing tail ih =>
    rcases scan_unitDigits_prefix hdigits hfront with hcut | ⟨rest, hrest, rfl⟩
    · exact ⟨[], hcut, rfl⟩
    · -- The first half is there, and the second one may be.
      rcases scan_unitDigits_prefix hmore hrest with hcut | ⟨last, hlast, rfl⟩
      · refine ⟨[.unit u], ?_, by simp [join, hleading]⟩
        rw [scan_unitDigits hdigits, hcut]
        rfl
      · obtain ⟨pieces, hscan, hjoin⟩ := ih hlast
        refine ⟨.unit u :: .unit v :: pieces, ?_,
          by rw [join_pair hleading htrailing, hjoin, withChar]⟩
        rw [scan_unitDigits hdigits, scan_unitDigits hmore, hscan]
        rfl

end Quoted

/-- A literal is cut short before its closing quote. -/
theorem needsAll_quoted {text body : List Char} (h : Quoted.Spells text body) :
    NeedsAll Quoted.read (body ++ ['"']) := by
  intro front hcut
  obtain ⟨pieces, hscan, hjoin⟩ :=
    Quoted.scan_prefix_of_spells h (prefix_of_isCut_concat hcut)
  simp [Quoted.read, hscan, hjoin]

/-- A literal with its opening quote is cut short before the closing one. -/
theorem needsAll_readText {text body : List Char} (h : Quoted.Spells text body) :
    NeedsAll readText ('"' :: (body ++ ['"'])) := by
  intro front hcut
  rcases isCut_cons hcut with rfl | ⟨rest, rfl, hrest⟩
  · rfl
  · rw [readText, skipBlanks_cons rfl]
    exact needsAll_quoted h rest hrest

/-! ## Arrays -/

/-- Items are cut short before their closing bracket: in front of an item, in it, or behind it. -/
theorem itemsWithin_of_isCut {reader : Reader α} {part : α → List Char → Prop}
    (hpart : ∀ a text, part a text → Takes reader a text ∧ NeedsAll reader text ∧ Opens text)
    {first : Bool} {values : List α} {body : List Char} (h : Row ']' part first values body) :
    ∀ bound front, IsCut front body →
      itemsWithin reader bound first front = .error .cutShort := by
  induction h with
  | @done first blanks hblanks =>
    intro bound front hcut
    cases bound with
    | zero => rfl
    | succ bound =>
      rw [itemsWithin, findsEnd_nextItem.blanks (hblanks.of_prefix (prefix_of_isCut_concat hcut))]
  | @more first lead text body a as hlead hone tail ih =>
    intro bound front hcut
    obtain ⟨htakes, hneeds, hopens⟩ := hpart a text hone
    cases bound with
    | zero => rfl
    | succ bound =>
      rw [itemsWithin]
      rcases isCut_append hcut with ⟨hfront, -⟩ | ⟨rest, rfl, hrest⟩
      · rw [findsEnd_nextItem.lead hlead hfront]
      · rcases isCut_append hrest with hitem | ⟨behind, rfl, hbehind⟩
        · rcases hopens.of_isCut hitem with rfl | hstart
          · rw [List.append_nil, findsEnd_nextItem.lead hlead (List.prefix_refl lead)]
          · rw [nextItem_more hlead hstart]
            simp only [hneeds rest hitem]
        · rw [nextItem_more hlead (hopens.append behind)]
          simp only [htakes behind, ih bound behind hbehind]

/-- **Arrays.**  A list is cut short before its closing bracket, if its items are before their ends.
-/
theorem needsAll_readList {reader : Reader α} {part : α → List Char → Prop}
    (hpart : ∀ a text, part a text → Takes reader a text ∧ NeedsAll reader text ∧ Opens text)
    {values : List α} {body : List Char} (h : Row ']' part true values body) :
    NeedsAll (readList reader) ('[' :: body) := by
  intro front hcut
  rcases isCut_cons hcut with rfl | ⟨rest, rfl, hrest⟩
  · rfl
  · rw [readList, skipBlanks_cons rfl]
    exact itemsWithin_of_isCut hpart h _ rest hrest

/-! ## Options -/

/-- A word is cut short before its last letter. -/
theorem readWord_of_isCut {word front : List Char} (h : IsCut front word) :
    readWord word front = .error .cutShort := by
  induction word generalizing front with
  | nil => exact absurd (List.prefix_nil.1 h.1) h.2
  | cons c word ih =>
    rcases isCut_cons h with rfl | ⟨rest, rfl, hrest⟩
    · rfl
    · simp only [readWord, if_true, ih hrest]

/-- An absent value is cut short where the word is. -/
theorem needsAll_readOption_none (reader : Reader α) :
    NeedsAll (readOption reader) "null".toList := by
  intro front hcut
  have hword : "null".toList = 'n' :: "ull".toList := rfl
  rw [hword] at hcut
  rcases isCut_cons hcut with rfl | ⟨rest, rfl, hrest⟩
  · rfl
  · rw [readOption, skipBlanks_cons rfl]
    simp only [if_true, word, readWord_of_isCut hrest]

/-- A value that may be absent is cut short where the value is. -/
theorem NeedsAll.readOption_some {reader : Reader α} {c : Char} {text : List Char}
    (h : NeedsAll reader (c :: text)) (hblank : isBlank c = false) (hnull : c ≠ 'n') :
    NeedsAll (readOption reader) (c :: text) := by
  intro front hcut
  rcases isCut_cons hcut with rfl | ⟨rest, rfl, -⟩
  · rfl
  · rw [readOption, skipBlanks_cons hblank]
    simp only [hnull, if_false, Reader.map, h _ hcut]

/-! ## Objects -/

/-- A member is cut short in front of it, in its key, or in what stands behind the key; a text that
is cut behind the member is for the members that follow. -/
theorem membersWithin_of_isCut {key : Reader κ} {member : κ → σ → Reader σ} {first : Bool}
    {lead keyText text body : List Char} {k : κ} {state next : σ} (hlead : Lead first lead)
    (hkey : Takes key k keyText) (hkeyCut : NeedsAll key keyText)
    (hmember : Takes (member k state) next text) (hmemberCut : NeedsAll (member k state) text)
    {bound : Nat} (hbody : ∀ front, IsCut front body →
      membersWithin key member bound false next front = .error .cutShort) {front : List Char}
    (hcut : IsCut front (lead ++ '"' :: (keyText ++ (text ++ body)))) :
    membersWithin key member (bound + 1) first state front = .error .cutShort := by
  rw [membersWithin]
  rcases isCut_append hcut with ⟨hfront, -⟩ | ⟨quoted, rfl, hquoted⟩
  · rw [findsEnd_nextKey.lead hlead hfront]
  · rcases isCut_cons hquoted with rfl | ⟨rest, rfl, hrest⟩
    · rw [List.append_nil, findsEnd_nextKey.lead hlead (List.prefix_refl lead)]
    · rw [nextKey_more hlead]
      rcases isCut_append hrest with hinKey | ⟨behind, rfl, hbehind⟩
      · simp only [hkeyCut rest hinKey]
      · rcases isCut_append hbehind with hinMember | ⟨others, rfl, hothers⟩
        · simp only [hkey behind, hmemberCut behind hinMember]
        · simp only [hkey (text ++ others), hmember others, hbody others hothers]

variable {φ : Type} {Value : φ → Type} [DecidableEq φ]
variable {r : Record φ Value α} {read : (f : φ) → Reader (Value f)}

/-- The member of a field without a value is cut short before its colon, or where the value is. -/
theorem needsAll_recordMember (hlawful : r.Lawful) {f : φ} {draft : Draft φ Value}
    (hfree : draft f = none) {blanks text : List Char} (hblanks : AllBlank blanks)
    (hvalue : NeedsAll (read f) text) :
    NeedsAll (recordMember r read (r.name f) draft) (blanks ++ ':' :: text) := by
  intro front hcut
  rw [recordMember]
  simp only [hlawful f, hfree, Option.isSome_none, Bool.false_eq_true, if_false]
  rcases isCut_append hcut with ⟨hfront, -⟩ | ⟨colon, rfl, hcolon⟩
  · rw [readColon_allBlank (hblanks.of_prefix hfront)]
  · rcases isCut_cons hcolon with rfl | ⟨rest, rfl, hrest⟩
    · rw [List.append_nil, readColon_allBlank hblanks]
    · rw [readColon_append hblanks]
      simp only [Reader.map, hvalue rest hrest]

/-- The text of a slot whose value is taken, and cut short before its end. -/
def SlotText (r : Record φ Value α) (read : (f : φ) → Reader (Value f)) (slot : Slot φ Value) :
    List Char → Prop :=
  KeyedText r (fun f value text => Takes (read f) value text ∧ NeedsAll (read f) text)
    (fun _ => False) (.field slot.1 slot.2)

/-- The members of an object with different fields are cut short before its closing brace.  A field
has no value before its member comes. -/
theorem needsAll_members (hlawful : r.Lawful) {first : Bool} {slots : List (Slot φ Value)}
    {body : List Char} (h : Row '\x7d' (SlotText r read) first slots body) :
    (slots.map (·.1)).Nodup → ∀ draft : Draft φ Value, (∀ slot ∈ slots, draft slot.1 = none) →
      ∀ bound front, IsCut front body →
        membersWithin Quoted.read (recordMember r read) bound first draft front =
          .error .cutShort := by
  induction h with
  | @done first blanks hblanks =>
    intro _ draft _ bound front hcut
    cases bound with
    | zero => rfl
    | succ bound =>
      rw [membersWithin, findsEnd_nextKey.blanks (hblanks.of_prefix (prefix_of_isCut_concat hcut))]
  | @more first lead text body slot slots hlead hslot tail ih =>
    intro hnodup draft hfree bound front hcut
    obtain ⟨key, blanks, value, hkey, hblanks, ⟨htakes, hneeds⟩, rfl⟩ := hslot
    obtain ⟨hother, hnodup⟩ := List.nodup_cons.1 hnodup
    have hname := takes_quoted hkey
    rw [String.ofList_toList] at hname
    have hslot : draft slot.1 = none := hfree slot List.mem_cons_self
    have hnext : ∀ other ∈ slots, (draft.put slot.1 slot.2) other.1 = none := by
      intro other hmem
      have hdifferent : slot.1 ≠ other.1 := fun hsame => hother (List.mem_map.2 ⟨other, hmem, hsame.symm⟩)
      rw [Draft.put_other hdifferent, hfree other (List.mem_cons_of_mem slot hmem)]
    cases bound with
    | zero => rfl
    | succ bound =>
      have htext : lead ++ ('"' :: (key ++ '"' :: (blanks ++ ':' :: value)) ++ body) =
          lead ++ '"' :: (key ++ ['"'] ++ (blanks ++ ':' :: value ++ body)) := by simp
      rw [htext] at hcut
      exact membersWithin_of_isCut hlead hname (needsAll_quoted hkey)
        (takes_recordMember hlawful hslot hblanks htakes)
        (needsAll_recordMember hlawful hslot hblanks hneeds)
        (ih hnodup (draft.put slot.1 slot.2) hnext bound) hcut

/-- **Objects.**  A record is cut short before the closing brace of its object. -/
theorem needsAll_readRecord (hlawful : r.Lawful) {slots : List (Slot φ Value)}
    (hnodup : (slots.map (·.1)).Nodup) {body : List Char}
    (h : Row '\x7d' (SlotText r read) true slots body) :
    NeedsAll (readRecord r read) ('\x7b' :: body) := by
  intro front hcut
  rcases isCut_cons hcut with rfl | ⟨rest, rfl, hrest⟩
  · rfl
  · rw [readRecord, skipBlanks_cons rfl]
    show recordMembers r read rest = _
    rw [recordMembers, Json.members,
      needsAll_members hlawful h hnodup Draft.empty (fun _ _ => rfl) _ rest hrest]

/-! ## Whole texts -/

/-- So is a whole text. -/
theorem NeedsAll.readWhole {reader : Reader α} {text front : List Char} (h : NeedsAll reader text)
    (hcut : IsCut front text) : readWhole reader front = .error .cutShort := by
  rw [Json.readWhole, h front hcut]

/-- What follows a text that is taken must be blank. -/
theorem Takes.readWhole_malformed {reader : Reader α} {value : α} {text more : List Char}
    (h : Takes reader value text) (hmore : ¬AllBlank more) :
    Json.readWhole reader (text ++ more) = .error .malformed := by
  have hleft : skipBlanks more ≠ [] := fun hnil => hmore (List.dropWhile_eq_nil_iff.1 hnil)
  rw [Json.readWhole, h more]
  simp only [hleft, if_false]

/-! ## Compact texts -/

/-- A written text is cut short before its end. -/
theorem needsAll_compact_string (text : String) :
    NeedsAll readText (compactChars (.string text)) :=
  needsAll_readText (Quoted.spells_encode text.toList)

/-- So is a written list of texts. -/
theorem needsAll_compact_texts (texts : List String) :
    NeedsAll (readList readText) (compactChars (ofTexts texts)) := by
  have hpart : ∀ text text', text' = compactChars (.string text) →
      Takes readText text text' ∧ NeedsAll readText text' ∧ Opens text' := by
    rintro text _ rfl
    exact ⟨takes_compact_string text, needsAll_compact_string text, _, _, rfl, rfl, by decide⟩
  have hrow : Row ']' (fun text text' => text' = compactChars (.string text)) true texts
      (separate [','] (texts.map fun text => compactChars (.string text)) ++ [']']) :=
    row_separate fun _ _ => rfl
  have hlist := needsAll_readList hpart hrow
  rwa [ofTexts, compactChars, compactItems_eq_map, List.map_map]

/-- So is a written option, if what it holds is. -/
theorem needsAll_compact_option {reader : Reader α} {encode : α → Json}
    (hvalue : ∀ value, NeedsAll reader (compactChars (encode value)))
    (hopens : ∀ value, ∃ c rest, compactChars (encode value) = c :: rest ∧ isBlank c = false ∧
      c ≠ 'n') (option : Option α) :
    NeedsAll (readOption reader) (compactChars (ofOption encode option)) := by
  cases option with
  | none => exact needsAll_readOption_none reader
  | some value =>
    obtain ⟨c, rest, htext, hblank, hnull⟩ := hopens value
    have hneeds := hvalue value
    rw [ofOption, htext] at *
    exact hneeds.readOption_some hblank hnull

/-- A written record is cut short before its end, if the values of its fields are. -/
theorem needsAll_compact_record {encode : (f : φ) → Value f → Json} (hlawful : r.Lawful)
    (hfield : ∀ f value, Takes (read f) value (compactChars (encode f value)) ∧
      NeedsAll (read f) (compactChars (encode f value)))
    {slots : List (Slot φ Value)} (hnodup : (slots.map (·.1)).Nodup) :
    NeedsAll (readRecord r read) (compactChars (.object (ofSlots r encode slots))) := by
  have hslot : ∀ slot ∈ slots, SlotText r read slot
      (Quoted.literal (r.name slot.1) ++ ':' :: compactChars (encode slot.1 slot.2)) := by
    intro slot _
    refine ⟨Quoted.encode (r.name slot.1).toList, [], compactChars (encode slot.1 slot.2),
      Quoted.spells_encode _, allBlank_nil, hfield slot.1 slot.2, ?_⟩
    simp [Quoted.literal]
  have hrecord := needsAll_readRecord hlawful hnodup (row_separate hslot)
  rwa [compactChars, compactMembers_eq_map, ofSlots, List.map_map]

end Json

end ServingCatalog
