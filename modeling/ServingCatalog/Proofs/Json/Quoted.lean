import ServingCatalog.Json.Quoted

/-!
# String literals read back

A text has many literals: each character may stand for itself, if it is no quote, no backslash and
no control character, or as a two-character escape, or as the `\u` escape of a unit or of a pair of
units.  `Quoted.Spells` says what may stand between the quotes for a text.

The two main facts are `read_of_spells`, that reading takes every spelling of a text for that text
and stops behind the closing quote, and `spells_encode`, that what is written is one of the
spellings.

A literal that is only stepped over may also hold halves of pairs, which stand for no character:
`Quoted.Body` says what may stand between its quotes.
-/

namespace ServingCatalog

namespace Json

namespace Quoted

/-- Four hexadecimal digits of a unit. -/
inductive UnitDigits : Nat → List Char → Prop
  | digits {a b c d : Char} {i j k l : Nat}
      (ha : Text.hexValue? a = some i) (hb : Text.hexValue? b = some j)
      (hc : Text.hexValue? c = some k) (hd : Text.hexValue? d = some l) :
      UnitDigits (16 * (16 * (16 * i + j) + k) + l) [a, b, c, d]

/-- What may stand between the quotes of a literal for a text. -/
inductive Spells : List Char → List Char → Prop
  | nil : Spells [] []
  | char {c : Char} {text body : List Char}
      (hquote : c ≠ '"') (hbackslash : c ≠ '\\') (hcontrol : 0x20 ≤ c.toNat)
      (tail : Spells text body) : Spells (c :: text) (c :: body)
  | escape {c letter : Char} {text body : List Char}
      (hletter : unescape? letter = some c)
      (tail : Spells text body) : Spells (c :: text) ('\\' :: letter :: body)
  | unit {u : Nat} {digits text body : List Char}
      (hdigits : UnitDigits u digits)
      (hleading : isLeading u = false) (htrailing : isTrailing u = false)
      (tail : Spells text body) :
      Spells (Char.ofNat u :: text) ('\\' :: 'u' :: (digits ++ body))
  | pair {u v : Nat} {digits more text body : List Char}
      (hdigits : UnitDigits u digits) (hmore : UnitDigits v more)
      (hleading : isLeading u = true) (htrailing : isTrailing v = true)
      (tail : Spells text body) :
      Spells (pairChar u v :: text)
        ('\\' :: 'u' :: (digits ++ '\\' :: 'u' :: (more ++ body)))

/-! ## Reading -/

/-- The scan turns four digits into a unit. -/
theorem scan_unitDigits {u : Nat} {digits : List Char} (h : UnitDigits u digits)
    (rest : List Char) :
    scan .plain ('\\' :: 'u' :: (digits ++ rest)) = withPiece (.unit u) (scan .plain rest) := by
  obtain ⟨ha, hb, hc, hd⟩ := h
  simp [scan, ha, hb, hc, hd]

/-- A letter that stands for a character is not the one that starts a unit. -/
theorem ne_of_unescape? {letter c : Char} (h : unescape? letter = some c) : letter ≠ 'u' := by
  rintro rfl
  exact absurd h (by simp [unescape?])

/-- A short escape is scanned as the character that it stands for. -/
theorem scan_escape {letter c : Char} (h : unescape? letter = some c) (rest : List Char) :
    scan .plain ('\\' :: letter :: rest) = withPiece (.char c) (scan .plain rest) := by
  have hletter := ne_of_unescape? h
  simp [scan, hletter, h]

/-- Any other character stands for itself. -/
theorem scan_char {c : Char} (hquote : c ≠ '"') (hbackslash : c ≠ '\\')
    (hcontrol : 0x20 ≤ c.toNat) (rest : List Char) :
    scan .plain (c :: rest) = withPiece (.char c) (scan .plain rest) := by
  have hlow : ¬c.toNat < 0x20 := by omega
  simp [scan, hquote, hbackslash, hlow]

/-- A unit that is no half of a pair is a character, whatever piece follows it. -/
theorem join_unit {u : Nat} (hleading : isLeading u = false) (htrailing : isTrailing u = false)
    (pieces : List Piece) (ending : Ending) :
    join (.unit u :: pieces) ending = withChar (Char.ofNat u) (join pieces ending) := by
  cases pieces with
  | nil => simp [join, hleading, htrailing]
  | cons piece pieces => cases piece <;> simp [join, hleading, htrailing]

/-- Two halves that match are one character. -/
theorem join_pair {u v : Nat} (hleading : isLeading u = true) (htrailing : isTrailing v = true)
    (pieces : List Piece) (ending : Ending) :
    join (.unit u :: .unit v :: pieces) ending =
      withChar (pairChar u v) (join pieces ending) := by
  simp [join, hleading, htrailing]

/-- The scan of a spelling ends at the closing quote, and its pieces make up the text. -/
theorem scan_of_spells {text body : List Char} (h : Spells text body) (rest : List Char) :
    ∃ pieces, scan .plain (body ++ '"' :: rest) = (pieces, .closed rest) ∧
      join pieces (.closed rest) = .ok (text, rest) := by
  induction h with
  | nil => exact ⟨[], by simp [scan], rfl⟩
  | @char c text body hquote hbackslash hcontrol tail ih =>
    obtain ⟨pieces, hscan, hjoin⟩ := ih
    refine ⟨.char c :: pieces, ?_, ?_⟩
    · rw [List.cons_append, scan_char hquote hbackslash hcontrol, hscan]
      rfl
    · simp [join, hjoin, withChar]
  | @escape c letter text body hletter tail ih =>
    obtain ⟨pieces, hscan, hjoin⟩ := ih
    refine ⟨.char c :: pieces, ?_, ?_⟩
    · rw [List.cons_append, List.cons_append, scan_escape hletter, hscan]
      rfl
    · simp [join, hjoin, withChar]
  | @unit u digits text body hdigits hleading htrailing tail ih =>
    obtain ⟨pieces, hscan, hjoin⟩ := ih
    refine ⟨.unit u :: pieces, ?_, ?_⟩
    · rw [List.cons_append, List.cons_append, List.append_assoc, scan_unitDigits hdigits, hscan]
      rfl
    · rw [join_unit hleading htrailing, hjoin, withChar]
  | @pair u v digits more text body hdigits hmore hleading htrailing tail ih =>
    obtain ⟨pieces, hscan, hjoin⟩ := ih
    refine ⟨.unit u :: .unit v :: pieces, ?_, ?_⟩
    · rw [List.cons_append, List.cons_append, List.append_assoc, scan_unitDigits hdigits,
        List.cons_append, List.cons_append, List.append_assoc, scan_unitDigits hmore, hscan]
      rfl
    · rw [join_pair hleading htrailing, hjoin, withChar]

/-- **Every spelling reads back.**  Reading a spelling of a text gives the text, and goes no further
than the closing quote. -/
theorem read_of_spells {text body : List Char} (h : Spells text body) (rest : List Char) :
    read (body ++ '"' :: rest) = .ok (String.ofList text, rest) := by
  obtain ⟨pieces, hscan, hjoin⟩ := scan_of_spells h rest
  simp [read, hscan, hjoin]

/-! ## Stepping over -/

/-- What may stand between the quotes of any literal, halves of pairs included. -/
inductive Body : List Char → Prop
  | nil : Body []
  | char {c : Char} {body : List Char} (hquote : c ≠ '"') (hbackslash : c ≠ '\\')
      (hcontrol : 0x20 ≤ c.toNat) (tail : Body body) : Body (c :: body)
  | escape {c letter : Char} {body : List Char} (hletter : unescape? letter = some c)
      (tail : Body body) : Body ('\\' :: letter :: body)
  | unit {u : Nat} {digits body : List Char} (hdigits : UnitDigits u digits)
      (tail : Body body) : Body ('\\' :: 'u' :: (digits ++ body))

/-- A spelling of a text is such a body. -/
theorem Spells.body {text body : List Char} (h : Spells text body) : Body body := by
  induction h with
  | nil => exact .nil
  | char hquote hbackslash hcontrol _ ih => exact .char hquote hbackslash hcontrol ih
  | escape hletter _ ih => exact .escape hletter ih
  | unit hdigits _ _ _ ih => exact .unit hdigits ih
  | pair hdigits hmore _ _ _ ih => exact .unit hdigits (.unit hmore ih)

/-- The scan of a literal ends at its closing quote, whatever its units. -/
theorem scan_of_body {body : List Char} (h : Body body) (rest : List Char) :
    (scan .plain (body ++ '"' :: rest)).2 = .closed rest := by
  induction h with
  | nil => simp [scan]
  | char hquote hbackslash hcontrol _ ih =>
    rw [List.cons_append, scan_char hquote hbackslash hcontrol]
    exact ih
  | escape hletter _ ih =>
    rw [List.cons_append, List.cons_append, scan_escape hletter]
    exact ih
  | unit hdigits _ ih =>
    rw [List.cons_append, List.cons_append, List.append_assoc, scan_unitDigits hdigits]
    exact ih

/-- A body is skipped with its closing quote. -/
theorem skip_of_body {body : List Char} (h : Body body) (rest : List Char) :
    skip (body ++ '"' :: rest) = .ok ((), rest) := by
  simp [skip, scan_of_body h]

/-! ## Writing -/

/-- The letter of a character's escape stands for that character. -/
theorem unescape?_of_shortEscape? {c letter : Char} (h : shortEscape? c = some letter) :
    unescape? letter = some c := by
  unfold shortEscape? at h
  split at h <;> cases h <;> rfl

/-- A character without a short escape is neither the quote nor the backslash. -/
theorem ne_of_shortEscape? {c : Char} (h : shortEscape? c = none) : c ≠ '"' ∧ c ≠ '\\' := by
  constructor <;> rintro rfl <;> exact absurd h (by decide)

theorem hexValue?_digitChar : ∀ n < 16, Text.hexValue? (Nat.digitChar n) = some n := by decide

/-- The two digits of a control character make up its unit. -/
theorem unitDigits_of_lt {n : Nat} (h : n < 0x20) :
    UnitDigits n ['0', '0', Nat.digitChar (n / 16), Nat.digitChar (n % 16)] := by
  have hzero : Text.hexValue? '0' = some 0 := by decide
  have hdigits := UnitDigits.digits hzero hzero (hexValue?_digitChar (n / 16) (by omega))
    (hexValue?_digitChar (n % 16) (by omega))
  have hvalue : 16 * (16 * (16 * 0 + 0) + n / 16) + n % 16 = n := by omega
  rwa [hvalue] at hdigits

/-- What is written for one character spells it. -/
theorem Spells.encodeChar_cons {text body : List Char} (c : Char) (tail : Spells text body) :
    Spells (c :: text) (encodeChar c ++ body) := by
  unfold encodeChar
  cases hshort : shortEscape? c with
  | some letter => exact .escape (unescape?_of_shortEscape? hshort) tail
  | none =>
    obtain ⟨hquote, hbackslash⟩ := ne_of_shortEscape? hshort
    by_cases hcontrol : c.toNat < 0x20
    · have hleading : isLeading c.toNat = false := by
        simp [isLeading]
        omega
      have htrailing : isTrailing c.toNat = false := by
        simp [isTrailing]
        omega
      have hunit := Spells.unit (unitDigits_of_lt hcontrol) hleading htrailing tail
      rw [Char.ofNat_toNat] at hunit
      simpa [hcontrol] using hunit
    · have hchar := Spells.char hquote hbackslash (by omega) tail
      simpa [hcontrol] using hchar

/-- **What is written is a spelling.** -/
theorem spells_encode (text : List Char) : Spells text (encode text) := by
  induction text with
  | nil => exact .nil
  | cons c text ih =>
    rw [encode, List.flatMap_cons]
    exact ih.encodeChar_cons c

end Quoted

end Json

end ServingCatalog
