import Mathlib.Data.List.TakeWhile
import ServingCatalog.Proofs.Json.Spelling

/-!
# What reads as a string

`Quoted.read_of_spells` says that each spelling of a text is read as it.  Here is the converse: what
is read up to the closing quote is a spelling (`Quoted.exists_spelling_of_read`).  So the texts of a
string are those that are parsed as it, and no others (`parse_eq_string_iff`), and reading a literal
takes nothing from what follows it (`Quoted.read_append`).

The two stages of reading are followed one by one.  What is scanned is the text of its pieces
(`PiecesText`), and pieces are joined in one way only (`Joins`), so that their text is a spelling of
what they are joined to.
-/

namespace ServingCatalog

namespace Json

namespace Quoted

/-! ## Scanning -/

/-- What may stand between the quotes for some pieces. -/
inductive PiecesText : List Piece → List Char → Prop
  | nil : PiecesText [] []
  | char {c : Char} {pieces : List Piece} {body : List Char} (hquote : c ≠ '"')
      (hbackslash : c ≠ '\\') (hcontrol : 0x20 ≤ c.toNat) (tail : PiecesText pieces body) :
      PiecesText (.char c :: pieces) (c :: body)
  | escape {c letter : Char} {pieces : List Piece} {body : List Char}
      (hletter : unescape? letter = some c) (tail : PiecesText pieces body) :
      PiecesText (.char c :: pieces) ('\\' :: letter :: body)
  | unit {u : Nat} {digits body : List Char} {pieces : List Piece} (hdigits : UnitDigits u digits)
      (tail : PiecesText pieces body) :
      PiecesText (.unit u :: pieces) ('\\' :: 'u' :: (digits ++ body))

theorem withPiece_eq {piece : Piece} {scanned : List Piece × Ending} {pieces : List Piece}
    {ending : Ending} (h : withPiece piece scanned = (pieces, ending)) :
    ∃ later, pieces = piece :: later ∧ scanned = (later, ending) := by
  obtain ⟨later, last⟩ := scanned
  rw [withPiece, Prod.mk.injEq] at h
  obtain ⟨rfl, rfl⟩ := h
  exact ⟨later, rfl, rfl⟩

/-- Within a unit, a literal that is closed later goes on with a digit. -/
theorem exists_digit_of_scan {count value : Nat} {text rest : List Char} {pieces : List Piece}
    (h : scan (.hex count value) text = (pieces, .closed rest)) :
    ∃ c digit more, text = c :: more ∧ Text.hexValue? c = some digit ∧
      (if count < 3 then scan (.hex (count + 1) (16 * value + digit)) more
        else withPiece (.unit (16 * value + digit)) (scan .plain more)) = (pieces, .closed rest) := by
  cases text with
  | nil => cases h
  | cons c more =>
    rw [scan] at h
    cases hdigit : Text.hexValue? c with
    | none =>
      simp only [hdigit] at h
      split at h <;> cases h
    | some digit =>
      simp only [hdigit] at h
      exact ⟨c, digit, more, rfl, hdigit, h⟩

/-- A unit has four digits. -/
theorem exists_unit_of_scan {text rest : List Char} {pieces : List Piece}
    (h : scan (.hex 0 0) text = (pieces, .closed rest)) :
    ∃ u digits more later, UnitDigits u digits ∧ text = digits ++ more ∧
      pieces = .unit u :: later ∧ scan .plain more = (later, .closed rest) := by
  obtain ⟨a, i, text, rfl, ha, h⟩ := exists_digit_of_scan h
  rw [if_pos (by decide)] at h
  obtain ⟨b, j, text, rfl, hb, h⟩ := exists_digit_of_scan h
  rw [if_pos (by decide)] at h
  obtain ⟨c, k, text, rfl, hc, h⟩ := exists_digit_of_scan h
  rw [if_pos (by decide)] at h
  obtain ⟨d, l, more, rfl, hd, h⟩ := exists_digit_of_scan h
  rw [if_neg (by decide)] at h
  rw [Nat.mul_zero, Nat.zero_add i] at h
  obtain ⟨later, rfl, hscan⟩ := withPiece_eq h
  exact ⟨_, [a, b, c, d], more, later, .digits ha hb hc hd, rfl, rfl, hscan⟩

/-- Behind a backslash stands a unit or a letter. -/
theorem unit_or_letter_of_scan {text rest : List Char} {pieces : List Piece}
    (h : scan .escape text = (pieces, .closed rest)) :
    (∃ u digits more later, UnitDigits u digits ∧ text = 'u' :: (digits ++ more) ∧
      pieces = .unit u :: later ∧ scan .plain more = (later, .closed rest)) ∨
    ∃ c letter more later, unescape? letter = some c ∧ text = letter :: more ∧
      pieces = .char c :: later ∧ scan .plain more = (later, .closed rest) := by
  cases text with
  | nil => cases h
  | cons letter text =>
    rw [scan] at h
    by_cases hunit : letter = 'u'
    · rw [if_pos hunit] at h
      obtain ⟨u, digits, more, later, hdigits, rfl, rfl, hscan⟩ := exists_unit_of_scan h
      rw [hunit]
      exact .inl ⟨u, digits, more, later, hdigits, rfl, rfl, hscan⟩
    · rw [if_neg hunit] at h
      cases hletter : unescape? letter with
      | none =>
        rw [hletter] at h
        cases h
      | some c =>
        rw [hletter] at h
        obtain ⟨later, rfl, hscan⟩ := withPiece_eq h
        exact .inr ⟨c, letter, text, later, hletter, rfl, rfl, hscan⟩

/-- What is scanned up to a closing quote is the text of its pieces.  The induction is on the
length, since an escape takes several characters at once. -/
theorem exists_piecesText_of_scan {text rest : List Char} {pieces : List Piece}
    (h : scan .plain text = (pieces, .closed rest)) :
    ∃ body, text = body ++ '"' :: rest ∧ PiecesText pieces body := by
  induction hlength : text.length using Nat.strongRecOn generalizing text pieces with
  | ind length ih =>
    cases text with
    | nil => cases h
    | cons c text =>
      rw [List.length_cons] at hlength
      rw [scan] at h
      by_cases hquote : c = '"'
      · rw [if_pos hquote, Prod.mk.injEq, Ending.closed.injEq] at h
        obtain ⟨rfl, rfl⟩ := h
        rw [hquote]
        exact ⟨[], rfl, .nil⟩
      · rw [if_neg hquote] at h
        by_cases hbackslash : c = '\\'
        · rw [if_pos hbackslash] at h
          rw [hbackslash]
          rcases unit_or_letter_of_scan h with
            ⟨u, digits, more, later, hdigits, rfl, rfl, hscan⟩ |
              ⟨d, letter, more, later, hletter, rfl, rfl, hscan⟩
          · rw [List.length_cons, List.length_append] at hlength
            obtain ⟨body, rfl, htext⟩ := ih more.length (by omega) hscan rfl
            refine ⟨'\\' :: 'u' :: (digits ++ body), ?_, .unit hdigits htext⟩
            rw [List.cons_append, List.cons_append, List.append_assoc]
          · rw [List.length_cons] at hlength
            obtain ⟨body, rfl, htext⟩ := ih more.length (by omega) hscan rfl
            exact ⟨'\\' :: letter :: body, rfl, .escape hletter htext⟩
        · rw [if_neg hbackslash] at h
          by_cases hcontrol : c.toNat < 0x20
          · rw [if_pos hcontrol] at h
            cases h
          · rw [if_neg hcontrol] at h
            obtain ⟨later, rfl, hscan⟩ := withPiece_eq h
            obtain ⟨body, rfl, htext⟩ := ih text.length (by omega) hscan rfl
            exact ⟨c :: body, rfl, .char hquote hbackslash (by omega) htext⟩

/-! ## Joining -/

/-- The text that pieces are joined to: a unit stands for a character on its own, or together with
the one behind it. -/
inductive Joins : List Piece → List Char → Prop
  | nil : Joins [] []
  | char {c : Char} {pieces : List Piece} {text : List Char} (tail : Joins pieces text) :
      Joins (.char c :: pieces) (c :: text)
  | unit {u : Nat} {pieces : List Piece} {text : List Char} (hleading : isLeading u = false)
      (htrailing : isTrailing u = false) (tail : Joins pieces text) :
      Joins (.unit u :: pieces) (Char.ofNat u :: text)
  | pair {u v : Nat} {pieces : List Piece} {text : List Char} (hleading : isLeading u = true)
      (htrailing : isTrailing v = true) (tail : Joins pieces text) :
      Joins (.unit u :: .unit v :: pieces) (pairChar u v :: text)

theorem withChar_eq_ok {c : Char} {outcome : Except Failure (List Char × List Char)}
    {chars rest : List Char} (h : withChar c outcome = .ok (chars, rest)) :
    ∃ later, chars = c :: later ∧ outcome = .ok (later, rest) := by
  cases outcome with
  | error failure => cases h
  | ok found =>
    obtain ⟨later, last⟩ := found
    rw [withChar, Except.ok.injEq, Prod.mk.injEq] at h
    obtain ⟨rfl, rfl⟩ := h
    exact ⟨later, rfl, rfl⟩

/-- A unit that is read is no half of a pair, or the one behind it is the other half. -/
theorem alone_or_paired_of_join {u : Nat} {pieces : List Piece} {ending : Ending}
    {found : List Char × List Char} (h : join (.unit u :: pieces) ending = .ok found) :
    (isLeading u = false ∧ isTrailing u = false) ∨
      ∃ v later, pieces = .unit v :: later ∧ isLeading u = true ∧ isTrailing v = true := by
  cases hleading : isLeading u with
  | true =>
    right
    cases pieces with
    | nil =>
      simp only [join, hleading, if_true] at h
      cases ending <;> cases h
    | cons piece pieces =>
      cases piece with
      | char c => simp [join, hleading] at h
      | unit v =>
        rw [join, if_pos hleading] at h
        split at h
        next hpaired => exact ⟨v, pieces, rfl, rfl, hpaired⟩
        next => cases h
  | false =>
    left
    refine ⟨rfl, ?_⟩
    cases htrailing : isTrailing u with
    | false => rfl
    | true =>
      exfalso
      cases pieces with
      | nil => simp [join, hleading, htrailing] at h
      | cons piece pieces => cases piece <;> simp [join, hleading, htrailing] at h

/-- Pieces are joined only where the literal was closed.  The induction is on the length, since a
pair takes two pieces at once. -/
theorem joins_of_join {pieces : List Piece} {ending : Ending} {chars rest : List Char}
    (h : join pieces ending = .ok (chars, rest)) : ending = .closed rest ∧ Joins pieces chars := by
  induction hlength : pieces.length using Nat.strongRecOn generalizing pieces chars with
  | ind length ih =>
    cases pieces with
    | nil =>
      cases ending with
      | closed left =>
        rw [join, Except.ok.injEq, Prod.mk.injEq] at h
        obtain ⟨rfl, rfl⟩ := h
        exact ⟨rfl, .nil⟩
      | cutShort => cases h
      | malformed => cases h
    | cons piece pieces =>
      rw [List.length_cons] at hlength
      cases piece with
      | char c =>
        rw [join] at h
        obtain ⟨later, rfl, hlater⟩ := withChar_eq_ok h
        obtain ⟨hending, hjoins⟩ := ih pieces.length (by omega) hlater rfl
        exact ⟨hending, .char hjoins⟩
      | unit u =>
        rcases alone_or_paired_of_join h with
          ⟨hleading, htrailing⟩ | ⟨v, more, rfl, hleading, htrailing⟩
        · rw [join_unit hleading htrailing] at h
          obtain ⟨later, rfl, hlater⟩ := withChar_eq_ok h
          obtain ⟨hending, hjoins⟩ := ih pieces.length (by omega) hlater rfl
          exact ⟨hending, .unit hleading htrailing hjoins⟩
        · rw [List.length_cons] at hlength
          rw [join_pair hleading htrailing] at h
          obtain ⟨later, rfl, hlater⟩ := withChar_eq_ok h
          obtain ⟨hending, hjoins⟩ := ih more.length (by omega) hlater rfl
          exact ⟨hending, .pair hleading htrailing hjoins⟩

/-- The text of pieces is a spelling of what they are joined to. -/
theorem spells_of_joins {pieces : List Piece} {chars : List Char} (h : Joins pieces chars)
    {body : List Char} (hbody : PiecesText pieces body) : Spells chars body := by
  induction h generalizing body with
  | nil =>
    cases hbody
    exact .nil
  | char _ ih =>
    cases hbody with
    | char hquote hbackslash hcontrol tail => exact .char hquote hbackslash hcontrol (ih tail)
    | escape hletter tail => exact .escape hletter (ih tail)
  | unit hleading htrailing _ ih =>
    cases hbody with
    | unit hdigits tail => exact .unit hdigits hleading htrailing (ih tail)
  | pair hleading htrailing _ ih =>
    cases hbody with
    | unit hdigits tail =>
      cases tail with
      | unit hmore tail => exact .pair hdigits hmore hleading htrailing (ih tail)

/-! ## Reading -/

/-- **Only spellings are read.**  What is read for a text, up to the closing quote, spells it. -/
theorem exists_spelling_of_read {start rest : List Char} {s : String}
    (h : read start = .ok (s, rest)) :
    ∃ body, start = body ++ '"' :: rest ∧ Spells s.toList body := by
  simp only [read] at h
  cases hscan : scan .plain start with
  | mk pieces ending =>
    simp only [hscan] at h
    cases hjoin : join pieces ending with
    | error failure =>
      rw [hjoin] at h
      cases h
    | ok found =>
      obtain ⟨chars, left⟩ := found
      rw [hjoin] at h
      simp only [Except.ok.injEq, Prod.mk.injEq] at h
      obtain ⟨rfl, rfl⟩ := h
      obtain ⟨rfl, hjoins⟩ := joins_of_join hjoin
      obtain ⟨body, rfl, hbody⟩ := exists_piecesText_of_scan hscan
      rw [String.toList_ofList]
      exact ⟨body, rfl, spells_of_joins hjoins hbody⟩

/-- Reading a literal takes nothing from what follows it. -/
theorem read_append {text : List Char} {s : String} {rest : List Char}
    (h : read text = .ok (s, rest)) (more : List Char) :
    read (text ++ more) = .ok (s, rest ++ more) := by
  obtain ⟨body, rfl, hbody⟩ := exists_spelling_of_read h
  rw [List.append_assoc, List.cons_append, read_of_spells hbody, String.ofList_toList]

end Quoted

/-! ## Texts of strings -/

theorem exists_of_map_eq_ok {α β : Type} {f : α → β} {reader : Reader α} {text rest : List Char}
    {last : β} (h : reader.map f text = .ok (last, rest)) :
    ∃ value, reader text = .ok (value, rest) ∧ f value = last := by
  rw [Reader.map] at h
  cases hread : reader text with
  | error failure =>
    rw [hread] at h
    cases h
  | ok found =>
    obtain ⟨value, left⟩ := found
    rw [hread] at h
    simp only [Except.ok.injEq, Prod.mk.injEq] at h
    obtain ⟨rfl, rfl⟩ := h
    exact ⟨value, rfl, rfl⟩

theorem eq_of_word_eq_ok {α : Type} {letters : String} {value last : α} {text rest : List Char}
    (h : word letters value text = .ok (last, rest)) : value = last := by
  rw [word] at h
  split at h
  next =>
    rw [Except.ok.injEq, Prod.mk.injEq] at h
    exact h.1
  next => cases h

/-- A value that is a string was a literal. -/
theorem exists_literal_of_valueWith {array object : Reader Json} {text rest : List Char} {s : String}
    (harray : ∀ start, array start ≠ .ok (.string s, rest))
    (hobject : ∀ start, object start ≠ .ok (.string s, rest))
    (h : valueWith .keep array object text = .ok (.string s, rest)) :
    ∃ start, skipBlanks text = '"' :: start ∧ Quoted.read start = .ok (s, rest) := by
  simp only [valueWith] at h
  cases hblanks : skipBlanks text with
  | nil =>
    rw [hblanks] at h
    cases h
  | cons c start =>
    simp only [hblanks] at h
    by_cases hquote : c = '"'
    · rw [if_pos hquote] at h
      obtain ⟨found, hread, hsame⟩ := exists_of_map_eq_ok h
      rw [Json.string.injEq] at hsame
      rw [hquote, ← hsame]
      exact ⟨start, rfl, hread⟩
    · exfalso
      rw [if_neg hquote] at h
      split at h
      next => exact harray start h
      next =>
        split at h
        next => exact hobject start h
        next =>
          split at h
          next => cases eq_of_word_eq_ok h
          next =>
            split at h
            next => cases eq_of_word_eq_ok h
            next =>
              split at h
              next => cases eq_of_word_eq_ok h
              next =>
                split at h
                next =>
                  obtain ⟨number, -, hsame⟩ := exists_of_map_eq_ok h
                  cases hsame
                next =>
                  split at h
                  next =>
                    obtain ⟨number, -, hsame⟩ := exists_of_map_eq_ok h
                    cases hsame
                  next => cases h

/-- A text that is parsed as a string is a literal with blanks around it. -/
theorem exists_literal_of_parse {text s : String} (h : parse text = .ok (.string s)) :
    ∃ start rest, skipBlanks text.toList = '"' :: start ∧ Quoted.read start = .ok (s, rest) ∧
      skipBlanks rest = [] := by
  have hmap : ∀ {α : Type} {f : α → Json} {reader : Reader α}, (∀ value, f value ≠ .string s) →
      ∀ rest start, reader.map f start ≠ .ok (.string s, rest) := by
    intro α f reader hf rest start hread
    obtain ⟨value, -, hsame⟩ := exists_of_map_eq_ok hread
    exact hf value hsame
  rw [parse, readWhole] at h
  cases hvalue : value .keep maxDepth text.toList with
  | error failure =>
    rw [hvalue] at h
    cases h
  | ok found =>
    obtain ⟨root, rest⟩ := found
    simp only [hvalue] at h
    split at h
    next hend =>
      rw [Except.ok.injEq] at h
      rw [h] at hvalue
      have hwith : valueWith .keep ((items (value .keep 126)).map .array)
          ((members (readQuoted .keep) (readMember (value .keep 126)) []).map .object) text.toList =
            .ok (.string s, rest) := hvalue
      obtain ⟨start, hstart, hread⟩ := exists_literal_of_valueWith
        (hmap (f := Json.array) (fun items hsame => by cases hsame) rest)
        (hmap (f := Json.object) (fun members hsame => by cases hsame) rest) hwith
      exact ⟨start, rest, hstart, hread, hend⟩
    next => cases h

/-- What stands in front of the first character that is no blank. -/
theorem exists_blanks_of_skipBlanks {text rest : List Char} (h : skipBlanks text = rest) :
    ∃ blanks, AllBlank blanks ∧ text = blanks ++ rest := by
  refine ⟨text.takeWhile isBlank, fun c hc => List.mem_takeWhile_imp hc, ?_⟩
  rw [← h, skipBlanks, List.takeWhile_append_dropWhile]

/-- **The texts of a string.**  A text is parsed as a string where it is a spelling of it between
quotes, with blanks around it, and nowhere else. -/
theorem parse_eq_string_iff {text s : String} :
    parse text = .ok (.string s) ↔ IsText (.string s) text.toList := by
  constructor
  · intro h
    obtain ⟨start, rest, hstart, hread, hrest⟩ := exists_literal_of_parse h
    obtain ⟨before, hbefore, htext⟩ := exists_blanks_of_skipBlanks hstart
    obtain ⟨behind, hbehind, hlast⟩ := exists_blanks_of_skipBlanks hrest
    obtain ⟨body, rfl, hbody⟩ := Quoted.exists_spelling_of_read hread
    rw [List.append_nil] at hlast
    refine ⟨before, '"' :: (body ++ ['"']), behind, hbefore, hbehind,
      spells_string_iff.2 ⟨body, hbody, rfl⟩, ?_⟩
    rw [htext, hlast]
    simp
  · exact parse_of_isText

end Json

end ServingCatalog
