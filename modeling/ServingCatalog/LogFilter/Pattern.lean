import ServingCatalog.LogFilter.Pattern.Class
import ServingCatalog.Text.Alphanumeric

/-!
# Patterns in log filters

The value that a filter asks of a field can be a pattern: characters, classes between brackets,
groups between parentheses, alternatives, and the marks `?`, `*` and `+` behind what may be left
out or repeated. `Pattern.fault?` says what is wrong with one. No tables of scripts are at hand, so
what would need them is refused: letters in either case, and the classes of digits, words and blanks
unless they are those of the ASCII range. A brace is refused too: the field ends at the closing one.
So is a pattern whose parts stand too deep inside each other.
-/

namespace ServingCatalog

/-- What is wrong with a pattern: its form, or that it looks for the borders of words, which cannot
be found one character at a time. -/
inductive PatternFault where
  | malformed
  | wordBorder
  deriving DecidableEq

/-- The message for a fault. -/
def PatternFault.message : PatternFault → String
  | .malformed => "error building NFA"
  | .wordBorder =>
    "unsupported regex feature for DFAs: cannot build DFAs for regexes with Unicode word " ++
      "boundaries; switch to ASCII word boundaries, or heuristically enable Unicode word " ++
      "boundaries or use a different regex engine"

namespace Pattern

/-- Whether a text can name a group. It starts with a letter or an underscore. -/
def isGroupName : List Char → Bool
  | [] => false
  | c :: rest =>
    (c = '_' || Text.isAlphabetic c) &&
      rest.all fun d => d = '_' || d = '.' || d = '[' || d = ']' || Text.isAlphanumeric d

/-- A group as far as it has been read, or the whole pattern: its modes, the depths of the
alternatives that are complete, and the depths of the parts of the last one. The last part comes
first. -/
structure OpenGroup where
  modes : Modes
  branches : List Nat
  parts : List Nat

namespace OpenGroup

/-- A group of which nothing has been read. -/
def empty (modes : Modes) : OpenGroup := ⟨modes, [], []⟩

/-- The group with one more part. -/
def add (g : OpenGroup) (depth : Nat) : OpenGroup := { g with parts := depth :: g.parts }

/-- The group with its last part repeated. -/
def repeated (g : OpenGroup) : OpenGroup :=
  match g.parts with
  | [] => g
  | depth :: parts => { g with parts := (depth + 1) :: parts }

/-- The group where another alternative starts. -/
def branched (g : OpenGroup) : OpenGroup :=
  { g with branches := joinedDepth g.parts :: g.branches, parts := [] }

/-- The depth of what has been read. -/
def depth (g : OpenGroup) : Nat := joinedDepth (joinedDepth g.parts :: g.branches)

end OpenGroup

/-- A pattern as far as it has been read: the group here and those around it, whether the last part
can be repeated, the names of groups, and whether the border of a word is looked for. -/
structure Reading where
  here : OpenGroup
  outer : List OpenGroup
  repeatable : Bool
  names : List (List Char)
  border : Bool

namespace Reading

/-- The reading of nothing. -/
def start : Reading := ⟨.empty .initial, [], false, [], false⟩

/-- The modes in which the next part is read. -/
def modes (r : Reading) : Modes := r.here.modes

/-- Goes on behind a part that can be repeated. -/
def behindPart (r : Reading) (depth : Nat) : Reading :=
  { r with here := r.here.add depth, repeatable := true }

/-- Opens a group in the given modes. -/
def enter (r : Reading) (modes : Modes) : Reading :=
  { r with here := .empty modes, outer := r.here :: r.outer, repeatable := false }

/-- Closes a group. The modes are those around it again. -/
def leave (r : Reading) : Option Reading :=
  match r.outer with
  | [] => none
  | around :: outer => some ({ r with here := around, outer }.behindPart (r.here.depth + 1))

/-- Opens a group with a name. -/
def named (r : Reading) (text : List Char) : Option (Reading × List Char) :=
  let name := text.takeWhile (· ≠ '>')
  match text.dropWhile (· ≠ '>') with
  | _ :: rest =>
    if isGroupName name ∧ name ∉ r.names then
      some ({ r.enter r.modes with names := name :: r.names }, rest)
    else none
  | [] => none

/-- Sets the modes for the rest of the group. That is a part too, which cannot be repeated. -/
def switch (r : Reading) (modes : Modes) : Reading :=
  { r with here := { r.here with modes }.add 0, repeatable := false }

/-- Opens a group with modes of its own, or sets the modes for the rest of the group. -/
def marked (r : Reading) (text : List Char) : Option (Reading × List Char) :=
  let marks := text.takeWhile fun c => c ≠ ':' && c ≠ ')'
  let modes := r.modes.after marks
  if !Modes.areMarks marks then none
  else
    match text.dropWhile fun c => c ≠ ':' && c ≠ ')' with
    | ':' :: rest => some (r.enter modes, rest)
    | _ :: rest => if marks = [] then none else some (r.switch modes, rest)
    | [] => none

/-- Opens a group behind its parenthesis. Nothing can be looked at ahead or behind. -/
def opened (r : Reading) (text : List Char) : Option (Reading × List Char) :=
  match skipSpaces r.modes false text with
  | '?' :: 'P' :: '<' :: rest => r.named rest
  | '?' :: '<' :: rest => r.named rest
  | '?' :: rest => r.marked rest
  | rest => some (r.enter r.modes, rest)

/-- Goes on behind an escape. -/
def escaped (r : Reading) (text : List Char) : Option (Reading × List Char) := do
  let (found, rest) ← escape r.modes text
  let allowed :=
    match found with
    | .literal _ => r.modes.allowsLiteral
    | .byte c => r.modes.allowsLiteral && r.modes.allowsByte c
    | .asciiClass negated => r.modes.allowsAsciiClass negated
    | .edge => true
    | .wordBorder => true
  let border := r.border || (found = .wordBorder && r.modes.scripts)
  if allowed then some ({ r.behindPart 0 with border }, rest) else none

/-- Reads one part of a pattern. -/
def step (r : Reading) (c : Char) (rest : List Char) : Option (Reading × List Char) :=
  if c = '(' then r.opened rest
  else if c = ')' then r.leave.map fun r => (r, rest)
  else if c = '|' then some ({ r with here := r.here.branched, repeatable := false }, rest)
  else if c = '[' then (readClass r.modes rest).map fun (depth, rest) => (r.behindPart depth, rest)
  else if c = '?' ∨ c = '*' ∨ c = '+' then
    if r.repeatable then
      some ({ r with here := r.here.repeated }, if rest.head? = some '?' then rest.drop 1 else rest)
    else none
  else if c = '\x7b' then none
  else if c = '\\' then r.escaped rest
  else if c = '.' then if r.modes.scripts then some (r.behindPart 0, rest) else none
  else if c = '^' ∨ c = '$' ∨ r.modes.allowsLiteral then some (r.behindPart 0, rest)
  else none

end Reading

/-- Reads a pattern to its end. The first argument bounds the number of parts. -/
def readFrom : Nat → Reading → List Char → Option Reading
  | 0, _, _ => none
  | bound + 1, r, text =>
    match skipSpaces r.modes false text with
    | [] => if r.outer.isEmpty then some r else none
    | c :: rest => (r.step c rest).bind fun (r, rest) => readFrom bound r rest

/-- What is wrong with a pattern. -/
def fault? (text : List Char) : Option PatternFault :=
  match readFrom (text.length + 1) .start text with
  | none => some .malformed
  | some r =>
    if depthLimit < r.here.depth then some .malformed
    else if r.border then some .wordBorder
    else none

end Pattern

end ServingCatalog
