import ServingCatalog.LogFilter.Directive

/-!
# Log filters

A filter is a list of directives with commas between them. Of the directives that concern an event
the most specific one decides, and of several that are equally specific the last. A filter without
any directive lets errors through.
-/

namespace ServingCatalog

/-- A filter for events. -/
abbrev LogFilter := List Directive

namespace LogFilter

/-- The texts of the directives in a text. -/
def parts (text : String) : List (List Char) :=
  (text.toList.splitOn ',').filter (· ≠ [])

/-- The filter that lets nothing but errors through. -/
def errorsOnly : LogFilter := [{ Directive.everything with threshold := some .error }]

/-- A filter without directives lets errors through. -/
def orErrors (directives : List Directive) : LogFilter :=
  if directives = [] then errorsOnly else directives

/-- The filter that a text is, if every part of it is a directive, or else the first fault. -/
def parse (text : String) : Except DirectiveFault LogFilter :=
  ((parts text).mapM Directive.parse).map orErrors

/-- The complaint about a part of a text that is left out. -/
def complaint (part : List Char) (fault : DirectiveFault) : String :=
  "ignoring `" ++ String.ofList part ++ "`: " ++ fault.message ++ "\n"

/-- Reads parts one after the other: the directives among them, and complaints about those that are
none. A part that is cut inside a character ends this, and leaves the complaints so far. -/
def readParts : List (List Char) → Except String (List Directive × String)
  | [] => .ok ([], "")
  | part :: rest =>
    match Directive.parse part with
    | .ok d => (readParts rest).map fun (directives, complaints) => (d :: directives, complaints)
    | .error .cut => .error ""
    | .error fault =>
      match readParts rest with
      | .ok (directives, complaints) => .ok (directives, complaint part fault ++ complaints)
      | .error complaints => .error (complaint part fault ++ complaints)

/-- The filter of the directives in a text, and complaints about the parts that are none. -/
def parseSome (text : String) : Except String (LogFilter × String) :=
  (readParts (parts text)).map fun (directives, complaints) => (orErrors directives, complaints)

/-- The directive that decides on an event: of the most specific ones the last. -/
def deciding? (event : Event) (filter : LogFilter) : Option Directive :=
  (filter.filter (·.concerns event)).foldl
    (fun best d =>
      match best with
      | some b => if d.isLessSpecific b then some b else some d
      | none => some d)
    none

/-- Whether an event passes. -/
def admits (filter : LogFilter) (event : Event) : Bool :=
  match (deciding? event filter).bind (·.threshold) with
  | some level => event.level.rank ≤ level.rank
  | none => false

end LogFilter

end ServingCatalog
