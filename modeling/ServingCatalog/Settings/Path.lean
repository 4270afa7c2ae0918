import ServingCatalog.Decimal.Literal
import ServingCatalog.Settings.Basic
import ServingCatalog.Settings.Fault

/-!
# Paths to settings

A path such as `catalog.models[0].version` leads through tables by keys and through lists by
positions, negative ones counted from the end. Writing to a path makes the tables and lists it
needs, in the place of whatever else is there, and fills lists up with null behind their items.
A position before the start of a list is nowhere, and writing there is a fault.
-/

namespace ServingCatalog

/-- A step into a table or into a list. -/
inductive PathStep where
  | key (name : String)
  | index (position : Int)
  deriving DecidableEq

/-- A key of the outermost table, and the steps from there. -/
structure Path where
  root : String
  steps : List PathStep
  deriving DecidableEq

namespace Path

/-- The characters that a key in a path consists of. -/
def isKeyChar (c : Char) : Bool := c.isAlphanum || c = '_' || c = '-' || c = ' '

/-- Blanks that may stand around a position. -/
def isPadding (c : Char) : Bool := c = ' ' || c = '\t'

/-- The digits of a position, with a minus sign or without. -/
def position? (text : List Char) : Option Int :=
  match text with
  | '+' :: _ => none
  | _ => Literal.integer? text

/-- Drops the blanks at the end. -/
def dropPaddingRight (text : List Char) : List Char :=
  (text.reverse.dropWhile isPadding).reverse

/-- The steps behind the first key. The first argument bounds their number. -/
def stepsWithin : Nat → List Char → Option (List PathStep)
  | _, [] => some []
  | 0, _ :: _ => none
  | bound + 1, c :: text =>
    if c = '.' then
      match text.takeWhile isKeyChar with
      | [] => none
      | name =>
        (stepsWithin bound (text.dropWhile isKeyChar)).map (.key (String.ofList name) :: ·)
    else if c = '[' then
      match text.dropWhile (· ≠ ']') with
      | [] => none
      | _ :: rest =>
        match position? (dropPaddingRight ((text.takeWhile (· ≠ ']')).dropWhile isPadding)) with
        | none => none
        | some position => (stepsWithin bound rest).map (.index position :: ·)
    else none

/-- The path that a text spells. -/
def parse? (text : String) : Option Path :=
  let chars := text.toList
  match chars.takeWhile isKeyChar with
  | [] => none
  | root =>
    (stepsWithin chars.length (chars.dropWhile isKeyChar)).map (⟨String.ofList root, ·⟩)

/-- The path that a key of a source means; a key that spells no path is one step by itself. -/
def ofKey (key : String) : Path := (parse? key).getD ⟨key, []⟩

end Path

namespace Setting

/-- The place that a position means in a list, counted from the start, or from the end if it is
negative. There is none before the start; behind the end there are places to fill up, as far as
anyone wants, since memory has no end here. -/
def place? (position : Int) (length : Nat) : Option Nat :=
  let place := if position < 0 then length + position else position
  if 0 ≤ place then some place.toNat else none

/-- A list filled up with nulls until it has a place. -/
def fillUpTo (place : Nat) (items : List Setting) : List Setting :=
  items ++ List.replicate (place + 1 - items.length) filler

/-- What a place holds after a setting is written there: a key lays it over what is held, a
position takes it as it is. Nothing can be written to a position that has no place. -/
def write? (setting : Setting) : List PathStep → Option Setting → Option Setting
  | [], held => some (overlay held setting)
  | .key name :: steps, held =>
    let entries := (held.map entries).getD []
    (write? setting steps (entries.get? (Text.lower name))).map fun written =>
      .table (held.bind tableOrigin) (entries.put (Text.lower name) written)
  | .index position :: steps, held =>
    let items := (held.map items).getD []
    (place? position items.length).bind fun place =>
      let items := fillUpTo place items
      let written := if steps = [] then some setting else write? setting steps items[place]?
      written.map fun written => .list (held.bind listOrigin) (items.set place written)

/-- Writes a setting to the path that a key means. -/
def assign (below : Entries) (key : String) (setting : Setting) : Except SettingFault Entries :=
  let path := Path.ofKey key
  let root := Text.lower path.root
  match write? setting path.steps (below.get? root) with
  | some written => .ok (below.put root written)
  | none => .error (.outOfReach key)

/-- Writes the entries of a source to the paths that their keys mean, one after the other. -/
def assignAll (below : Entries) (source : List (String × Setting)) :
    Except SettingFault Entries :=
  source.foldlM (fun below (key, setting) => assign below key setting) below

end Setting

end ServingCatalog
