import ServingCatalog.LogFilter

/-!
# Where parts of log filters are cut

The parts of a directive are cut from its whole text, at offsets that were counted without the white
space around it.  So a cut can fall inside a character only if white space comes first and some
characters take more than one byte: `IsAligned` rules this out, and an aligned directive is not cut
(`Directive.parse_ne_cut`).

The invariant is that the part that is being read starts where a character starts, and not behind
the offset.  The main result is `LogFilter.exists_readParts`.
-/

namespace ServingCatalog

namespace Text

/-- An offset at which a character starts, or the end of the text. -/
def IsBoundary (text : List Char) (offset : Nat) : Prop :=
  ∃ front, front <+: text ∧ byteCount front = offset

/-- The end of a text is one. -/
theorem isBoundary_byteCount (text : List Char) : IsBoundary text (byteCount text) :=
  ⟨text, List.prefix_refl text, rfl⟩

/-- Only no characters take no bytes. -/
theorem eq_nil_of_byteCount {text : List Char} (h : byteCount text = 0) : text = [] := by
  cases text with
  | nil => rfl
  | cons c text =>
    have hpos := c.utf8Size_pos
    rw [byteCount_cons] at h
    omega

/-- There is a slice between any two such offsets. -/
theorem exists_slice? {text : List Char} {start stop : Nat} (hstart : IsBoundary text start)
    (hstop : IsBoundary text stop) (hle : start ≤ stop) :
    ∃ part, slice? start stop text = some part := by
  obtain ⟨front, hfront, rfl⟩ := hstart
  obtain ⟨further, hfurther, rfl⟩ := hstop
  have hin : front <+: further := by
    rcases List.prefix_or_prefix_of_prefix hfront hfurther with hin | ⟨more, rfl⟩
    · exact hin
    · rw [byteCount_append] at hle
      have hmore : more = [] := eq_nil_of_byteCount (by omega)
      exact ⟨[], by rw [hmore, List.append_nil, List.append_nil]⟩
  obtain ⟨middle, rfl⟩ := hin
  obtain ⟨behind, rfl⟩ := hfurther
  refine ⟨middle, ?_⟩
  rw [byteCount_append, List.append_assoc]
  exact slice?_byteCount front middle behind

/-- There is none behind the end. -/
theorem le_byteCount {text : List Char} {offset : Nat} (h : IsBoundary text offset) :
    offset ≤ byteCount text := by
  obtain ⟨front, ⟨behind, rfl⟩, rfl⟩ := h
  rw [byteCount_append]
  omega

/-- Where all characters take one byte, one starts at every offset. -/
theorem isBoundary_of_small {text : List Char} (h : ∀ c ∈ text, c.utf8Size = 1) {offset : Nat}
    (hle : offset ≤ byteCount text) : IsBoundary text offset := by
  induction text generalizing offset with
  | nil => exact ⟨[], List.prefix_refl [], (Nat.le_zero.1 hle).symm⟩
  | cons c text ih =>
    cases offset with
    | zero => exact ⟨[], List.nil_prefix, rfl⟩
    | succ offset =>
      have hsize : c.utf8Size = 1 := h c List.mem_cons_self
      rw [byteCount_cons] at hle
      obtain ⟨front, hfront, hcount⟩ :=
        ih (fun d hd => h d (List.mem_cons_of_mem c hd)) (show offset ≤ byteCount text by omega)
      exact ⟨c :: front, List.cons_prefix_cons.2 ⟨rfl, hfront⟩, by rw [byteCount_cons]; omega⟩

theorem trimEnd_prefix (text : List Char) : trimEnd text <+: text := by
  have hsuffix := List.dropWhile_suffix isBlank (l := text.reverse)
  rw [← List.reverse_prefix, List.reverse_reverse] at hsuffix
  exact hsuffix

/-- Trimming makes no text longer. -/
theorem byteCount_trim (text : List Char) : byteCount (trim text) ≤ byteCount text := by
  obtain ⟨end', hend⟩ := trimEnd_prefix (trimStart text)
  have hstart := congrArg byteCount (List.takeWhile_append_dropWhile (p := isBlank) (l := text))
  have hwhole := congrArg byteCount hend
  rw [byteCount_append] at hstart hwhole
  have hdrop : byteCount (trimStart text) = byteCount (text.dropWhile isBlank) := rfl
  have htrim : byteCount (trim text) = byteCount (trimEnd (trimStart text)) := rfl
  omega

end Text

namespace Directive

/-! ## Aligned texts -/

/-- No white space comes first, or all characters take one byte. -/
def IsAligned (text : List Char) : Prop :=
  (∀ c ∈ text.head?, Text.isBlank c = false) ∨ ∀ c ∈ text, c.utf8Size = 1

/-- The offsets in an aligned text without the white space around it are offsets in the text. -/
theorem IsAligned.isBoundary {text : List Char} (h : IsAligned text) {seen : List Char}
    (hseen : seen <+: Text.trim text) : Text.IsBoundary text (Text.byteCount seen) := by
  rcases h with hstart | hsmall
  · have hsame : Text.trimStart text = text := by
      cases text with
      | nil => rfl
      | cons c text =>
        have hblank : Text.isBlank c = false := hstart c rfl
        rw [Text.trimStart, List.dropWhile_cons_of_neg (by simp [hblank])]
    rw [Text.trim, hsame] at hseen
    exact ⟨seen, hseen.trans (Text.trimEnd_prefix text), rfl⟩
  · apply Text.isBoundary_of_small hsmall
    obtain ⟨rest, hrest⟩ := hseen
    have htrim := Text.byteCount_trim text
    rw [← hrest, Text.byteCount_append] at htrim
    omega

/-! ## Reading without cuts -/

/-- The part that is being read starts at a character, and not behind an offset. -/
def Place.StartsWithin (text : List Char) (offset : Nat) : Place → Prop
  | .word first => Text.IsBoundary text first ∧ first ≤ offset
  | .span first => Text.IsBoundary text first ∧ first ≤ offset
  | .field first => Text.IsBoundary text first ∧ first ≤ offset
  | .level first => Text.IsBoundary text first ∧ first ≤ offset
  | _ => True

/-- What comes of reading a character: a fault that is no cut, or a place to go on from. -/
inductive GoesOn (text : List Char) (offset : Nat) :
    Except DirectiveFault (Place × Directive) → Prop
  | error {fault : DirectiveFault} (h : fault ≠ .cut) : GoesOn text offset (.error fault)
  | ok {place : Place} {d : Directive} (h : place.StartsWithin text offset) :
      GoesOn text offset (.ok (place, d))

/-- A part is cut where characters start. -/
theorem exists_part {text : List Char} {first stop : Nat} (hfirst : Text.IsBoundary text first)
    (hstop : Text.IsBoundary text stop) (hle : first ≤ stop) :
    ∃ found, part text first stop = .ok found := by
  obtain ⟨found, hfound⟩ := Text.exists_slice? hfirst hstop hle
  exact ⟨found, by rw [part, hfound]⟩

/-- A field that is none is none for another reason. -/
theorem ne_cut_of_parse_field {text : List Char} {fault : DirectiveFault}
    (h : FieldMatch.parse text = .error fault) : fault ≠ .cut := by
  rintro rfl
  rw [FieldMatch.parse] at h
  split at h
  · split at h
    · cases h
    · split at h <;> cases h
  · cases h

/-- **One step** does not cut inside a character, and the part that is read next starts at one. -/
theorem goesOn_step {text : List Char} {offset : Nat} {c : Char} {place : Place}
    (hhere : Text.IsBoundary text offset) (hnext : Text.IsBoundary text (offset + c.utf8Size))
    (hplace : place.StartsWithin text offset) (d : Directive) :
    GoesOn text (offset + c.utf8Size) (step text offset c d place) := by
  have hpos := c.utf8Size_pos
  -- A part behind a bracket or an equals sign starts at the next character.
  have hbehind {mark : Char} (hsize : mark.utf8Size = 1) (hc : c = mark) :
      Text.IsBoundary text (offset + 1) ∧ offset + 1 ≤ offset + c.utf8Size := by
    subst hc
    rw [hsize] at hnext ⊢
    exact ⟨hnext, Nat.le_refl _⟩
  cases place with
  | start =>
    rw [step]
    split
    next hc => exact .ok (hbehind rfl hc)
    next =>
      split
      · exact .ok ⟨hhere, Nat.le_add_right _ _⟩
      · exact .error nofun
  | word first =>
    obtain ⟨hfirst, hle⟩ := hplace
    obtain ⟨found, hfound⟩ := exists_part hfirst hhere hle
    rw [step, hfound]
    split
    next hc => exact .ok (hbehind rfl hc)
    next =>
      split
      next hc => exact .ok (hbehind rfl hc)
      next => exact .ok ⟨hfirst, by omega⟩
  | span first =>
    obtain ⟨hfirst, hle⟩ := hplace
    obtain ⟨found, hfound⟩ := exists_part hfirst hhere hle
    rw [step, hfound]
    split
    next => exact .ok trivial
    next =>
      split
      next hc => exact .ok (hbehind rfl hc)
      next => exact .ok ⟨hfirst, by omega⟩
  | field first =>
    obtain ⟨hfirst, hle⟩ := hplace
    obtain ⟨found, hfound⟩ := exists_part hfirst hhere hle
    rw [step, hfound]
    split
    next =>
      show GoesOn text _ (if found = [] then _ else _)
      split
      next => exact .error nofun
      next =>
        cases hfield : FieldMatch.parse found with
        | error fault => exact .error (ne_cut_of_parse_field hfield)
        | ok field => exact .ok trivial
    next => exact .ok ⟨hfirst, by omega⟩
  | behindField =>
    rw [step]
    split
    · exact .ok trivial
    · exact .error nofun
  | behindBrackets =>
    rw [step]
    split
    next hc => exact .ok (hbehind rfl hc)
    next => exact .error nofun
  | level first =>
    rw [step]
    exact .ok ⟨hplace.1, by have := hplace.2; omega⟩

/-- What ends at the end of the text is not cut there. -/
theorem finish_ne_cut {text : List Char} {offset : Nat} {place : Place}
    (hplace : place.StartsWithin text offset) (d : Directive) : finish text d place ≠ .error .cut := by
  intro hcut
  cases place with
  | word first =>
    obtain ⟨found, hfound⟩ :=
      exists_part hplace.1 (Text.isBoundary_byteCount text) (Text.le_byteCount hplace.1)
    rw [finish, partFrom, hfound] at hcut
    cases hlevel : Threshold.ofText? found <;>
      simp [bind, Except.bind, pure, Except.pure, hlevel] at hcut
  | level first =>
    obtain ⟨found, hfound⟩ :=
      exists_part hplace.1 (Text.isBoundary_byteCount text) (Text.le_byteCount hplace.1)
    rw [finish, partFrom, hfound] at hcut
    by_cases hnone : found = []
    · simp [bind, Except.bind, pure, Except.pure, hnone] at hcut
    · cases hlevel : Threshold.ofText? found <;>
        simp [bind, Except.bind, pure, Except.pure, hnone, hlevel] at hcut
  | start => cases hcut
  | span first => cases hcut
  | field first => cases hcut
  | behindField => cases hcut
  | behindBrackets => cases hcut

/-- **A whole text.**  The induction is on what is left of the text without the white space around
it. -/
theorem parseFrom_ne_cut {text : List Char} (h : IsAligned text) {seen rest : List Char}
    (htext : seen ++ rest = Text.trim text) {place : Place}
    (hplace : place.StartsWithin text (Text.byteCount seen)) (d : Directive) :
    parseFrom text (Text.byteCount seen) place d rest ≠ .error .cut := by
  induction rest generalizing seen place d with
  | nil => exact finish_ne_cut hplace d
  | cons c rest ih =>
    have hseen : seen <+: Text.trim text := ⟨c :: rest, htext⟩
    have hmore : (seen ++ [c]) ++ rest = Text.trim text := by rw [← htext]; simp
    have hcount : Text.byteCount (seen ++ [c]) = Text.byteCount seen + c.utf8Size := by
      rw [Text.byteCount_append]
      rfl
    have hbehind := h.isBoundary ⟨rest, hmore⟩
    rw [hcount] at hbehind
    have hstep := goesOn_step (h.isBoundary hseen) hbehind hplace d
    rw [parseFrom]
    generalize step text (Text.byteCount seen) c d place = stepped at hstep
    cases hstep with
    | error hfault =>
      intro hcut
      cases hcut
      exact hfault rfl
    | ok hnext =>
      rw [← hcount] at hnext ⊢
      exact ih hmore hnext _

/-- An aligned text is not cut inside a character. -/
theorem parse_ne_cut {text : List Char} (h : IsAligned text) : parse text ≠ .error .cut := by
  have hstart : Place.start.StartsWithin text (Text.byteCount []) := trivial
  exact parseFrom_ne_cut h (List.nil_append (Text.trim text)) hstart everything

end Directive

namespace LogFilter

/-- All parts of a text are aligned. -/
def IsAligned (text : String) : Prop := ∀ part ∈ parts text, Directive.IsAligned part

/-- A filter that is none is none for another reason. -/
theorem parse_ne_cut {text : String} (h : IsAligned text) : parse text ≠ .error .cut := by
  have hmap : ∀ texts : List (List Char), (∀ part ∈ texts, Directive.IsAligned part) →
      texts.mapM Directive.parse ≠ .error .cut := by
    intro texts htexts
    induction texts with
    | nil => exact nofun
    | cons part rest ih =>
      rw [List.mapM_cons]
      have hpart := Directive.parse_ne_cut (htexts part List.mem_cons_self)
      have hrest := ih fun other hother => htexts other (List.mem_cons_of_mem part hother)
      cases hfirst : Directive.parse part with
      | error fault =>
        rw [hfirst] at hpart
        exact fun hcut => hpart (by cases hcut; rfl)
      | ok d =>
        cases hlater : rest.mapM Directive.parse with
        | error fault =>
          rw [hlater] at hrest
          exact fun hcut => hrest (by cases hcut; rfl)
        | ok directives => exact nofun
  rw [parse]
  have hparts := hmap (parts text) h
  cases hread : (parts text).mapM Directive.parse with
  | error fault =>
    rw [hread] at hparts
    exact fun hcut => hparts (by cases hcut; rfl)
  | ok directives => exact nofun

/-- **Reading parts.**  Parts that are aligned are all read, or complained about. -/
theorem exists_readParts {texts : List (List Char)}
    (h : ∀ part ∈ texts, Directive.IsAligned part) :
    ∃ directives complaints, readParts texts = .ok (directives, complaints) := by
  induction texts with
  | nil => exact ⟨[], "", rfl⟩
  | cons part rest ih =>
    obtain ⟨directives, complaints, hrest⟩ :=
      ih fun other hother => h other (List.mem_cons_of_mem part hother)
    have hpart := Directive.parse_ne_cut (h part List.mem_cons_self)
    rw [readParts, hrest]
    split
    · exact ⟨_, _, rfl⟩
    next hcut => exact absurd hcut hpart
    · exact ⟨_, _, rfl⟩

/-- **Filters.**  From an aligned text some filter is read. -/
theorem exists_parseSome {text : String} (h : IsAligned text) :
    ∃ filter complaints, parseSome text = .ok (filter, complaints) := by
  obtain ⟨directives, complaints, hread⟩ := exists_readParts h
  exact ⟨orErrors directives, complaints, by rw [parseSome, hread]; rfl⟩

end LogFilter

end ServingCatalog
