import ServingCatalog.Json.Misfit

/-!
# Reading JSON from the left

A reader takes what is left of a text and answers with a value and what is left after it, or fails.
A failure says whether the text ended too early, is no JSON, or is JSON of the wrong shape. This
module holds what is common to all readers: blanks, words, and the steps between the items of an
array and the members of an object.
-/

namespace ServingCatalog

namespace Json

/-- Why reading stopped. -/
inductive Failure where
  | cutShort
  | malformed
  | misfit (reason : Misfit)
  deriving DecidableEq

/-- Reads a value from the front of a text. -/
abbrev Reader (α : Type) := List Char → Except Failure (α × List Char)

/-- The four characters that may stand between tokens. -/
def isBlank (c : Char) : Bool := c = ' ' || c = '\t' || c = '\n' || c = '\r'

/-- What is left after the blanks. -/
def skipBlanks (text : List Char) : List Char := text.dropWhile isBlank

/-- Reads the rest of a word whose first letter has been read. -/
def readWord : List Char → List Char → Except Failure (List Char)
  | [], text => .ok text
  | _ :: _, [] => .error .cutShort
  | c :: word, d :: text => if c = d then readWord word text else .error .malformed

/-- Reads the colon between a key and its value. -/
def readColon (text : List Char) : Except Failure (List Char) :=
  match skipBlanks text with
  | [] => .error .cutShort
  | c :: rest => if c = ':' then .ok rest else .error .malformed

/-- Where a list of items or members goes on. -/
inductive Next where
  | done (rest : List Char)
  | more (start : List Char)

/-- Steps to the next item of an array, or over its closing bracket. -/
def nextItem (first : Bool) (text : List Char) : Except Failure Next :=
  match skipBlanks text with
  | [] => .error .cutShort
  | c :: rest =>
    if c = ']' then .ok (.done rest)
    else if first then .ok (.more (c :: rest))
    else if c = ',' then
      match skipBlanks rest with
      | [] => .error .cutShort
      | d :: rest => if d = ']' then .error .malformed else .ok (.more (d :: rest))
    else .error .malformed

/-- Steps behind the opening quote of the next key of an object, or over its closing brace. -/
def nextKey (first : Bool) (text : List Char) : Except Failure Next :=
  match skipBlanks text with
  | [] => .error .cutShort
  | c :: rest =>
    if c = '\x7d' then .ok (.done rest)
    else if first then if c = '"' then .ok (.more rest) else .error .malformed
    else if c = ',' then
      match skipBlanks rest with
      | [] => .error .cutShort
      | d :: rest => if d = '"' then .ok (.more rest) else .error .malformed
    else .error .malformed

/-- Reads items up to the closing bracket. The first argument bounds their number. -/
def itemsWithin {α : Type} (item : Reader α) : Nat → Bool → Reader (List α)
  | 0, _, _ => .error .cutShort
  | bound + 1, first, text =>
    match nextItem first text with
    | .error failure => .error failure
    | .ok (.done rest) => .ok ([], rest)
    | .ok (.more start) =>
      match item start with
      | .error failure => .error failure
      | .ok (value, rest) =>
        match itemsWithin item bound false rest with
        | .error failure => .error failure
        | .ok (values, rest) => .ok (value :: values, rest)

/-- Reads the items of an array behind its opening bracket. -/
def items {α : Type} (item : Reader α) : Reader (List α) :=
  fun text => itemsWithin item (text.length + 1) true text

/-- Reads members up to the closing brace, each one carrying a state on. The first argument bounds
their number. -/
def membersWithin {κ σ : Type} (key : Reader κ) (member : κ → σ → Reader σ) :
    Nat → Bool → σ → Reader σ
  | 0, _, _, _ => .error .cutShort
  | bound + 1, first, state, text =>
    match nextKey first text with
    | .error failure => .error failure
    | .ok (.done rest) => .ok (state, rest)
    | .ok (.more start) =>
      match key start with
      | .error failure => .error failure
      | .ok (k, rest) =>
        match member k state rest with
        | .error failure => .error failure
        | .ok (state, rest) => membersWithin key member bound false state rest

/-- Reads the members of an object behind its opening brace. -/
def members {κ σ : Type} (key : Reader κ) (member : κ → σ → Reader σ) (state : σ) : Reader σ :=
  fun text => membersWithin key member (text.length + 1) true state text

/-- Reads a whole text: one value, and nothing but blanks after it. -/
def readWhole {α : Type} (reader : Reader α) (text : List Char) : Except Failure α :=
  match reader text with
  | .error failure => .error failure
  | .ok (value, rest) => if skipBlanks rest = [] then .ok value else .error .malformed

end Json

end ServingCatalog
