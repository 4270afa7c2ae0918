import ServingCatalog.LogFilter.Pattern.Escape
import ServingCatalog.LogFilter.Pattern.Nesting

/-!
# Classes in patterns

A class stands between brackets: characters, ranges of them, escapes, names between colons, and
classes again, which two marks in a row combine. `readClass` reads one behind its opening bracket
and says how deep it is.
-/

namespace ServingCatalog

namespace Pattern

/-- The names of classes between colons. -/
def classNames : List String :=
  ["alnum", "alpha", "ascii", "blank", "cntrl", "digit", "graph", "lower", "print", "punct",
    "space", "upper", "word", "xdigit"]

/-- What is left behind a named class, if one stands behind the bracket, and whether it is
negated. -/
def namedClass? : List Char → Option (Bool × List Char)
  | ':' :: rest =>
    let negated := rest.head? = some '^'
    let rest := if negated then rest.drop 1 else rest
    let name := rest.takeWhile (· ≠ ':')
    match rest.dropWhile (· ≠ ':') with
    | ':' :: ']' :: rest => if String.ofList name ∈ classNames then some (negated, rest) else none
    | _ => none
  | _ => none

/-! ## Classes that have been opened -/

/-- A class as far as it has been read: the depths of its members since the last mark that combines,
and the depth of what stands before that mark. -/
structure OpenClass where
  members : List Nat
  left : Option Nat

namespace OpenClass

/-- The class with one more member. -/
def add (o : OpenClass) (depth : Nat) : OpenClass := { o with members := depth :: o.members }

/-- The depth of what stands between the brackets. -/
def depth (o : OpenClass) : Nat :=
  match o.left with
  | none => joinedDepth o.members
  | some left => max left (joinedDepth o.members) + 1

/-- The class behind a mark that combines what stands before it with what follows. -/
def combined (o : OpenClass) : OpenClass := ⟨[], some o.depth⟩

end OpenClass

/-- Reads the hyphens at the start of a class, which stand for themselves. The first number bounds
how many there are. -/
def leadingHyphens (m : Modes) : Nat → List Char → List Nat × List Char
  | 0, text => ([], text)
  | bound + 1, text =>
    match skipSpaces m false text with
    | '-' :: rest =>
      let (members, rest) := leadingHyphens m bound rest
      (0 :: members, rest)
    | start => ([], start)

/-- Opens a class behind its bracket. Hyphens stand for themselves there, and without them so does a
closing bracket. What is beyond the ASCII range is in every negated class, which cannot be one of
bytes. -/
def openClass (m : Modes) (text : List Char) : Option (OpenClass × List Char) :=
  let (negated, start) :=
    match skipSpaces m false text with
    | '^' :: rest => (true, rest)
    | start => (false, start)
  if negated && !m.scripts then none
  else
    match leadingHyphens m start.length start with
    | ([], ']' :: rest) => if m.allowsMember ']' then some (⟨[0], none⟩, rest) else none
    | ([], rest) => some (⟨[], none⟩, rest)
    | (hyphens, rest) => if m.allowsMember '-' then some (⟨hyphens, none⟩, rest) else none

/-! ## Members -/

/-- Reads one member of a class; an escape can be a class of its own, which is no end of a range. -/
def classMember (m : Modes) : List Char → Option (Option Char × List Char)
  | [] => none
  | '\\' :: rest =>
    match escape m rest with
    | some (.literal c, rest) => if m.allowsMember c then some (some c, rest) else none
    | some (.byte c, rest) => if m.allowsMember c then some (some c, rest) else none
    | some (.asciiClass negated, rest) =>
      if m.allowsAsciiClass negated then some (none, rest) else none
    | _ => none
  | c :: rest => if m.allowsMember c then some (some c, rest) else none

/-- Reads a member of a class or a range of them. A range has characters at both its ends, not the
greater first; a hyphen before a hyphen or before a closing bracket begins none. -/
def classRange (m : Modes) (text : List Char) : Option (List Char) := do
  let (low, rest) ← classMember m text
  let rest := skipSpaces m false rest
  match rest with
  | '-' :: behind =>
    if peek? m behind = some ']' ∨ peek? m behind = some '-' then some rest
    else
      let (high, rest) ← classMember m (skipSpaces m false behind)
      if (← low) ≤ (← high) then some rest else none
  | _ => some rest

/-- Reads a class to its closing bracket, with the classes around it that are still open. The first
argument bounds the number of steps. -/
def classFrom (m : Modes) :
    Nat → OpenClass → List OpenClass → List Char → Option (Nat × List Char)
  | 0, _, _, _ => none
  | bound + 1, here, outer, text =>
    match skipSpaces m false text with
    | [] => none
    | '[' :: rest =>
      match namedClass? rest with
      | some (negated, rest) =>
        if m.allowsNamedClass negated then classFrom m bound (here.add 0) outer rest else none
      | none => (openClass m rest).bind fun (inner, rest) =>
          classFrom m bound inner (here :: outer) rest
    | ']' :: rest =>
      match outer with
      | [] => some (here.depth + 1, rest)
      | around :: outer => classFrom m bound (around.add (here.depth + 1)) outer rest
    | '&' :: '&' :: rest => classFrom m bound here.combined outer rest
    | '-' :: '-' :: rest => classFrom m bound here.combined outer rest
    | '~' :: '~' :: rest => classFrom m bound here.combined outer rest
    | start => (classRange m start).bind (classFrom m bound (here.add 0) outer)

/-- Reads a class behind its opening bracket: how deep it is, and what is left behind it. -/
def readClass (m : Modes) (text : List Char) : Option (Nat × List Char) := do
  let (here, rest) ← openClass m text
  classFrom m (rest.length + 1) here [] rest

end Pattern

end ServingCatalog
