import ServingCatalog.Proofs.Json.Compact
import ServingCatalog.Proofs.Json.Sorted

/-!
# Texts of JSON values

`Json.Spells` says which texts spell a value: blanks may stand around all brackets, commas and
colons, members may come in any order, also repeatedly, and strings may be spelled in any way.
Numbers are left out; they are the only values whose end is not visible in the text itself.

The main fact is `parse_of_isText`: each text of a value is parsed as that value, sorted.  What is
written compactly is such a text: `isText_compact`, from one lemma for each kind of value.
-/

namespace ServingCatalog

namespace Json

/-! ## The texts of a value -/

/-- The text of a member whose value is spelled in a given way. -/
def MemberText (spells : Json → List Char → Prop) (member : String × Json) (text : List Char) :
    Prop :=
  ∃ key before behind value, Quoted.Spells member.1.toList key ∧ AllBlank before ∧
    AllBlank behind ∧ spells member.2 value ∧
    text = '"' :: (key ++ '"' :: (before ++ ':' :: (behind ++ value)))

/-- The texts of a value in which arrays and objects nest at most as deep as the number given,
without the blanks around them. -/
def Spells : Nat → Json → List Char → Prop
  | _, .null, text => text = ['n', 'u', 'l', 'l']
  | _, .bool true, text => text = ['t', 'r', 'u', 'e']
  | _, .bool false, text => text = ['f', 'a', 'l', 's', 'e']
  | _, .number _, _ => False
  | _, .string s, text => ∃ body, Quoted.Spells s.toList body ∧ text = '"' :: (body ++ ['"'])
  | 0, .array _, _ => False
  | 0, .object _, _ => False
  | depth + 1, .array items, text =>
    ∃ body, text = '[' :: body ∧ Row ']' (Spells depth) true items body
  | depth + 1, .object members, text =>
    ∃ body, text = '\x7b' :: body ∧ Row '\x7d' (MemberText (Spells depth)) true members body

/-- A whole text of a value, with blanks around it. -/
def IsText (v : Json) (text : List Char) : Prop :=
  ∃ before body behind, AllBlank before ∧ AllBlank behind ∧ Spells maxDepth v body ∧
    text = before ++ (body ++ behind)

/-! ## Reading them -/

/-- A string is spelled in the same way at each depth. -/
theorem spells_string_iff {depth : Nat} {s : String} {text : List Char} :
    Spells depth (.string s) text ↔
      ∃ body, Quoted.Spells s.toList body ∧ text = '"' :: (body ++ ['"']) := by
  cases depth <;> exact Iff.rfl

/-- The text of a value starts with a character that shows what it is. -/
theorem Spells.opens {depth : Nat} {v : Json} {text : List Char} (h : Spells depth v text) :
    Opens text := by
  cases v with
  | null => cases depth <;> exact ⟨'n', _, h, rfl, by decide⟩
  | bool b =>
    cases b with
    | true => cases depth <;> exact ⟨'t', _, h, rfl, by decide⟩
    | false => cases depth <;> exact ⟨'f', _, h, rfl, by decide⟩
  | number n => cases depth <;> exact absurd h (by simp [Spells])
  | string s =>
    obtain ⟨body, _, htext⟩ := spells_string_iff.1 h
    exact ⟨'"', _, htext, rfl, by decide⟩
  | array items =>
    cases depth with
    | zero => exact absurd h (by simp [Spells])
    | succ depth =>
      obtain ⟨body, htext, _⟩ := h
      exact ⟨'[', _, htext, rfl, by decide⟩
  | object members =>
    cases depth with
    | zero => exact absurd h (by simp [Spells])
    | succ depth =>
      obtain ⟨body, htext, _⟩ := h
      exact ⟨'\x7b', _, htext, rfl, by decide⟩

/-- Members are put among the sorted ones as they come. -/
theorem membersWithin_of_members {reader : Reader Json} {spells : Json → List Char → Prop}
    (hblanks : ∀ {blanks}, AllBlank blanks → ∀ text, reader (blanks ++ text) = reader text)
    (hvalue : ∀ v text, spells v text → Takes reader v.sorted text)
    {first : Bool} {ms : List (String × Json)} {body : List Char}
    (h : Row '\x7d' (MemberText spells) first ms body) :
    ∀ before bound, body.length < bound → ∀ rest,
      membersWithin Quoted.read (readMember reader) bound first before (body ++ rest) =
        .ok (sortedMembers before ms, rest) := by
  induction h with
  | @done first blanks hend =>
    intro before bound hbound rest
    cases bound with
    | zero => omega
    | succ bound =>
      rw [List.append_assoc, List.singleton_append, membersWithin_done hend]
      rfl
  | @more first lead text body member ms hlead hmember tail ih =>
    intro before bound hbound rest
    obtain ⟨key, left, right, value, hkey, hleft, hright, hspells, rfl⟩ := hmember
    have hname := takes_quoted hkey
    rw [String.ofList_toList] at hname
    have hentry : Takes (readMember reader member.1 before)
        (insertMember member.1 member.2.sorted before) (left ++ ':' :: (right ++ value)) := by
      intro rest
      rw [List.append_assoc, List.cons_append, readMember, readColon_append hleft]
      simp only [Reader.map]
      rw [List.append_assoc, hblanks hright, hvalue member.2 value hspells rest]
    cases bound with
    | zero => omega
    | succ bound =>
      simp only [List.length_append, List.length_cons] at hbound
      have htail := ih (insertMember member.1 member.2.sorted before) bound (by omega) rest
      have hstep := membersWithin_more hlead hname hentry.before bound (tail.ends (by decide) rest)
      rw [htail] at hstep
      simpa [List.append_assoc, sortedMembers] using hstep

/-- A text in quotes is taken as a string, whatever reads arrays and objects. -/
theorem takes_value_string (array object : Reader Json) {s : String} {body : List Char}
    (h : Quoted.Spells s.toList body) :
    Takes (valueWith .keep array object) (.string s) ('"' :: (body ++ ['"'])) := by
  intro rest
  have hquoted := takes_quoted h rest
  rw [String.ofList_toList] at hquoted
  rw [List.cons_append, valueWith, skipBlanks_cons rfl]
  simp only [if_true, Reader.map, readQuoted, hquoted]

/-- A row in square brackets is taken as an array, if its items are taken one level down. -/
theorem takes_value_array {depth : Nat}
    (hitem : ∀ v text, Spells depth v text → Takes (value .keep depth) v.sorted text)
    {elements : List Json} {body : List Char} (h : Row ']' (Spells depth) true elements body) :
    Takes (value .keep (depth + 1)) (.array (sortedItems elements)) ('[' :: body) := by
  intro rest
  have hsorted : Row ']' (fun w text => TakesBefore (value .keep depth) w text ∧ Opens text) true
      (elements.map sorted) body :=
    h.map sorted fun w text hw => ⟨(hitem w text hw).before, hw.opens⟩
  have hitems := takes_items (fun w text hw => hw) hsorted
  rw [List.cons_append, value, valueWith, skipBlanks_cons rfl]
  show ((items (value .keep depth)).map Json.array) (body ++ rest) = _
  simp only [Reader.map, hitems rest, sortedItems_eq_map]

/-- A row in braces is taken as an object, if the values of its members are taken one level
down. -/
theorem takes_value_object {depth : Nat}
    (hitem : ∀ v text, Spells depth v text → Takes (value .keep depth) v.sorted text)
    {ms : List (String × Json)} {body : List Char}
    (h : Row '\x7d' (MemberText (Spells depth)) true ms body) :
    Takes (value .keep (depth + 1)) (.object (sortedMembers [] ms)) ('\x7b' :: body) := by
  intro rest
  have hmembers := membersWithin_of_members (value_blanks .keep depth) hitem h []
    ((body ++ rest).length + 1) (length_lt_append body rest) rest
  have hkeep : readQuoted .keep = Quoted.read := funext fun _ => rfl
  rw [List.cons_append, value, valueWith, skipBlanks_cons rfl]
  show ((members (readQuoted .keep) (readMember (value .keep depth)) []).map Json.object)
    (body ++ rest) = _
  simp only [Reader.map, members, hkeep, hmembers]

/-- **Each text of a value is taken for it.**  The induction is on the depth, which bounds the
nesting on both sides. -/
theorem takes_value (depth : Nat) :
    ∀ v text, Spells depth v text → Takes (value .keep depth) v.sorted text := by
  induction depth with
  | zero =>
    intro v text h
    cases v with
    | null => exact fun rest => by rw [h]; rfl
    | bool b => cases b <;> exact fun rest => by rw [h]; rfl
    | number n => exact absurd h (by simp [Spells])
    | string s =>
      obtain ⟨body, hbody, rfl⟩ := h
      exact takes_value_string _ _ hbody
    | array items => exact absurd h (by simp [Spells])
    | object members => exact absurd h (by simp [Spells])
  | succ depth ih =>
    intro v text h
    cases v with
    | null => exact fun rest => by rw [h]; rfl
    | bool b => cases b <;> exact fun rest => by rw [h]; rfl
    | number n => exact absurd h (by simp [Spells])
    | string s =>
      obtain ⟨body, hbody, rfl⟩ := h
      exact takes_value_string _ _ hbody
    | array elements =>
      obtain ⟨body, rfl, hrow⟩ := h
      exact takes_value_array ih hrow
    | object ms =>
      obtain ⟨body, rfl, hrow⟩ := h
      exact takes_value_object ih hrow

/-- **Parsing.**  Each text of a value is parsed as that value, sorted. -/
theorem parse_of_isText {v : Json} {text : String} (h : IsText v text.toList) :
    parse text = .ok v.sorted := by
  obtain ⟨before, body, behind, hbefore, hbehind, hspells, htext⟩ := h
  have hbody := (takes_value maxDepth v body hspells).readWhole hbehind
  rw [parse, htext]
  rw [readWhole] at hbody ⊢
  rwa [value_blanks .keep maxDepth hbefore]

/-! ## Compact texts -/

/-- A written string is a text of it. -/
theorem spells_string (depth : Nat) (s : String) :
    Spells depth (.string s) (compactChars (.string s)) :=
  spells_string_iff.2 ⟨Quoted.encode s.toList, Quoted.spells_encode s.toList, rfl⟩

/-- A written option is a text of it, if each value is. -/
theorem spells_option {α : Type} {depth : Nat} {encode : α → Json}
    (h : ∀ value, Spells depth (encode value) (compactChars (encode value)))
    (option : Option α) :
    Spells depth (ofOption encode option) (compactChars (ofOption encode option)) := by
  cases option with
  | none => cases depth <;> rfl
  | some value => exact h value

/-- A written array is a text of it, if its items are written as texts of theirs. -/
theorem spells_array {depth : Nat} {items : List Json}
    (h : ∀ item ∈ items, Spells depth item (compactChars item)) :
    Spells (depth + 1) (.array items) (compactChars (.array items)) := by
  refine ⟨separate [','] (items.map compactChars) ++ [']'], ?_, row_separate h⟩
  rw [compactChars, compactItems_eq_map]

/-- A written list of strings is a text of it. -/
theorem spells_ofTexts (depth : Nat) (texts : List String) :
    Spells (depth + 1) (ofTexts texts) (compactChars (ofTexts texts)) := by
  apply spells_array
  intro item hitem
  obtain ⟨text, _, rfl⟩ := List.mem_map.1 hitem
  exact spells_string depth text

/-- A written object is a text of it, if the values of its members are written as texts of
theirs. -/
theorem spells_object {depth : Nat} {members : List (String × Json)}
    (h : ∀ member ∈ members, Spells depth member.2 (compactChars member.2)) :
    Spells (depth + 1) (.object members) (compactChars (.object members)) := by
  have hmember : ∀ member ∈ members, MemberText (Spells depth) member
      (Quoted.literal member.1 ++ ':' :: compactChars member.2) := by
    intro member hmem
    refine ⟨Quoted.encode member.1.toList, [], [], compactChars member.2, Quoted.spells_encode _,
      allBlank_nil, allBlank_nil, h member hmem, ?_⟩
    simp [Quoted.literal]
  refine ⟨_, ?_, row_separate hmember⟩
  rw [compactChars, compactMembers_eq_map]

/-- A written object of slots is a text of it, if the values of all fields are. -/
theorem spells_ofSlots {φ : Type} {Value : φ → Type} {α : Type} (r : Record φ Value α)
    {encode : (f : φ) → Value f → Json} {depth : Nat}
    (h : ∀ f value, Spells depth (encode f value) (compactChars (encode f value)))
    (slots : List (Slot φ Value)) :
    Spells (depth + 1) (.object (ofSlots r encode slots))
      (compactChars (.object (ofSlots r encode slots))) := by
  apply spells_object
  intro member hmember
  obtain ⟨slot, _, rfl⟩ := List.mem_map.1 hmember
  exact h slot.1 slot.2

/-- What is written compactly is a whole text. -/
theorem isText_compact {v : Json} (h : Spells maxDepth v (compactChars v)) :
    IsText v v.compact.toList := by
  refine ⟨[], compactChars v, [], allBlank_nil, allBlank_nil, h, ?_⟩
  simp [compact]

end Json

end ServingCatalog
