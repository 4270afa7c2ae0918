import ServingCatalog.Decimal.Literal
import ServingCatalog.Event
import ServingCatalog.LogFilter.Pattern
import ServingCatalog.Text.Bytes

/-!
# Directives of log filters

A directive is a level, for all events, or a target with a level, for the events of that part of
the program; a target alone lets all its events through. Between brackets behind the target it can
name a span, and between braces a field: `target[span{field=value}]=level`. A directive with a field
is for the events that have it, and one with a span or with a value is for no event by itself.
-/

namespace ServingCatalog

/-- How much a directive lets through: nothing, or events up to a level. -/
abbrev Threshold := Option Level

/-- The rank of a level, the most serious first. -/
def Level.rank : Level → Nat
  | .error => 1
  | .warn => 2
  | .info => 3
  | .debug => 4
  | .trace => 5

/-- All levels. -/
def Level.all : List Level := [.error, .warn, .info, .debug, .trace]

/-- The threshold that a word or a number names. -/
def Threshold.ofText? (text : List Char) : Option Threshold :=
  let word := String.ofList (text.map Char.toUpper)
  let digits := if text.head? = some '+' then text.drop 1 else text
  let number? :=
    if digits ≠ [] ∧ digits.all Char.isDigit then some (Literal.natOfDigits digits) else none
  if number? = some 0 ∨ word = "OFF" then some none
  else (Level.all.find? fun level => number? = some level.rank ∨ word = level.name).map some

/-- The field of a directive, and whether a value is asked of it. -/
structure FieldMatch where
  name : List Char
  hasValue : Bool
  deriving DecidableEq

/-- Why a text is no directive. A part that is cut inside a character ends the program. -/
inductive DirectiveFault where
  | malformed
  | cut
  | unknownLevel
  | field (fault : PatternFault)
  deriving DecidableEq

/-- The message for a fault. -/
def DirectiveFault.message : DirectiveFault → String
  | .malformed => "invalid filter directive"
  | .cut => "byte index is not a char boundary"
  | .unknownLevel =>
    "error parsing level filter: expected one of \"off\", \"error\", \"warn\", \"info\", " ++
      "\"debug\", \"trace\", or a number 0-5"
  | .field fault => "invalid field filter: " ++ fault.message

/-- Whether the value asked of a field is a plain one, a boolean or a number. -/
def isPlainValue (text : List Char) : Bool :=
  text = "true".toList || text = "false".toList || (Literal.float? text).isSome

/-- The field that a text is: a name, and perhaps a value behind the first equals sign. A value that
is not plain is a pattern; what follows a second equals sign does not count. -/
def FieldMatch.parse (text : List Char) : Except DirectiveFault FieldMatch :=
  match text.splitOn '=' with
  | name :: value :: _ =>
    if isPlainValue value then .ok ⟨name, true⟩
    else
      match Pattern.fault? value with
      | none => .ok ⟨name, true⟩
      | some fault => .error (.field fault)
  | _ => .ok ⟨text, false⟩

/-- One directive. -/
structure Directive where
  target : Option (List Char)
  span : Option (List Char)
  field : Option FieldMatch
  threshold : Threshold
  deriving DecidableEq

namespace Directive

/-- The directive that lets everything through. -/
def everything : Directive := ⟨none, none, none, some .trace⟩

/-- Whether a directive can start with a character other than a bracket. -/
def canStart (c : Char) : Bool := c = '-' || c = ':' || c = '_' || Text.isAlphanumeric c

/-- Where a character of a directive stands, with the offset at which its part starts: before
everything, in a level or target, in the name of a span, in a field, behind the field, behind the
brackets, or in the level behind an equals sign. -/
inductive Place where
  | start
  | word (start : Nat)
  | span (start : Nat)
  | field (start : Nat)
  | behindField
  | behindBrackets
  | level (start : Nat)
  deriving DecidableEq

/-- The part of a text between two offsets, which must not be inside a character. -/
def part (text : List Char) (start stop : Nat) : Except DirectiveFault (List Char) :=
  match Text.slice? start stop text with
  | some part => .ok part
  | none => .error .cut

/-- The part of a text from an offset on. -/
def partFrom (text : List Char) (start : Nat) : Except DirectiveFault (List Char) :=
  part text start (Text.byteCount text)

/-- Reads the character at an offset. -/
def step (text : List Char) (offset : Nat) (c : Char) (d : Directive) :
    Place → Except DirectiveFault (Place × Directive)
  | .start =>
    if c = '[' then .ok (.span (offset + 1), d)
    else if canStart c then .ok (.word offset, d)
    else .error .malformed
  | .word start =>
    if c = '=' then do
      return (.level (offset + 1), { d with target := some (← part text start offset) })
    else if c = '[' then do
      return (.span (offset + 1), { d with target := some (← part text start offset) })
    else .ok (.word start, d)
  | .span start =>
    if c = ']' then do
      return (.behindBrackets, { d with span := some (← part text start offset) })
    else if c = '\x7b' then do
      let name ← part text start offset
      return (.field (offset + 1), { d with span := if name = [] then none else some name })
    else .ok (.span start, d)
  | .field start =>
    if c = '\x7d' then do
      let field ← part text start offset
      if field = [] then .error .malformed
      else return (.behindField, { d with field := some (← FieldMatch.parse field) })
    else .ok (.field start, d)
  | .behindField => if c = ']' then .ok (.behindBrackets, d) else .error .malformed
  | .behindBrackets => if c = '=' then .ok (.level (offset + 1), d) else .error .malformed
  | .level start => .ok (.level start, d)

/-- The directive at the end of a text. A word is a level if it names one, and else a target. -/
def finish (text : List Char) (d : Directive) : Place → Except DirectiveFault Directive
  | .word start => do
    let word ← partFrom text start
    match Threshold.ofText? word with
    | some threshold => return { d with target := none, threshold }
    | none => return { d with target := some word }
  | .level start => do
    let level ← partFrom text start
    if level = [] then return d
    match Threshold.ofText? level with
    | some threshold => return { d with threshold }
    | none => .error .unknownLevel
  | .behindBrackets => .ok d
  | _ => .error .malformed

/-- Reads characters from an offset on to the end. -/
def parseFrom (text : List Char) : Nat → Place → Directive → List Char →
    Except DirectiveFault Directive
  | _, place, d, [] => finish text d place
  | offset, place, d, c :: rest =>
    match step text offset c d place with
    | .ok (place, d) => parseFrom text (offset + c.utf8Size) place d rest
    | .error fault => .error fault

/-- The directive that a text is. White space around it tells no parts apart, but belongs to them:
parts are cut from the whole text, at the offsets that they have in the text without it. -/
def parse (text : List Char) : Except DirectiveFault Directive :=
  parseFrom text 0 .start everything (Text.trim text)

/-- Whether a directive is for events, and not only within spans or for fields with a value. -/
def isForEvents (d : Directive) : Bool := d.span.isNone && !(d.field.map (·.hasValue)).getD false

/-- The names of the fields of an event. Its message is one of them. -/
def fieldNames (event : Event) : List String := "message" :: event.fields.map (·.1)

/-- Whether a directive concerns an event. -/
def concerns (event : Event) (d : Directive) : Bool :=
  d.isForEvents &&
    (match d.target with
      | none => true
      | some start => start.isPrefixOf event.target.toList) &&
    (match d.field with
      | none => true
      | some field => (fieldNames event).contains (String.ofList field.name))

/-- How specific the target of a directive is: none is the least, and then the bytes count. -/
def targetWeight (d : Directive) : Nat :=
  match d.target with
  | none => 0
  | some target => Text.byteCount target + 1

/-- The names of the fields that a directive asks for. -/
def askedNames (d : Directive) : List (List Char) := (d.field.map (·.name)).toList

/-- Whether a directive is less specific than another one: its target is, or the fields that it
asks for come first. -/
def isLessSpecific (d e : Directive) : Bool :=
  d.targetWeight < e.targetWeight ||
    (d.targetWeight == e.targetWeight && decide (d.askedNames < e.askedNames))

end Directive

end ServingCatalog
