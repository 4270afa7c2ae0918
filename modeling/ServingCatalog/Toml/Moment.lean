import ServingCatalog.Toml.Reader

/-!
# Dates and times in TOML

A date, a time of day or both, with an offset or without. They are read for their text, which is
written in one way: a capital `T` between date and time, and no zeros at the end of a fraction.
-/

namespace ServingCatalog

namespace Toml

/-- Reads so many decimal digits. -/
def digits (count : Nat) (text : List Char) : Option (Nat × List Char) :=
  let front := text.take count
  if front.length = count ∧ front.all Char.isDigit then
    some (Literal.natOfDigits front, text.drop count)
  else none

/-- Reads a number of two digits between two bounds. -/
def twoDigits (low high : Nat) (text : List Char) : Option (Nat × List Char) := do
  let (value, rest) ← digits 2 text
  if low ≤ value ∧ value ≤ high then some (value, rest) else none

/-- Steps over one character. -/
def expect (c : Char) : List Char → Option (List Char)
  | d :: rest => if c = d then some rest else none
  | [] => none

/-- A number with zeros in front up to a width. -/
def padded (width value : Nat) : String :=
  let digits := Nat.toDigits 10 value
  String.ofList (List.replicate (width - digits.length) '0' ++ digits)

/-- How many days a month has. -/
def daysInMonth (year month : Nat) : Nat :=
  let leap := year % 4 = 0 ∧ (year % 100 ≠ 0 ∨ year % 400 = 0)
  if month = 2 then (if leap then 29 else 28)
  else if month = 4 ∨ month = 6 ∨ month = 9 ∨ month = 11 then 30
  else 31

/-- Reads a date. -/
def date : Reader String := fun text => do
  let (year, rest) ← digits 4 text
  let rest ← expect '-' rest
  let (month, rest) ← twoDigits 1 12 rest
  let rest ← expect '-' rest
  let (day, rest) ← twoDigits 1 (daysInMonth year month) rest
  return (padded 4 year ++ "-" ++ padded 2 month ++ "-" ++ padded 2 day, rest)

/-- The text of a fraction of a second, to nine digits at most and without zeros at its end. -/
def fractionText (digits : List Char) : String :=
  let kept := ((digits.take 9).reverse.dropWhile (· = '0')).reverse
  if kept.isEmpty then "" else "." ++ String.ofList kept

/-- Reads a time of day. -/
def timeOfDay : Reader String := fun text => do
  let (hour, rest) ← twoDigits 0 23 text
  let rest ← expect ':' rest
  let (minute, rest) ← twoDigits 0 59 rest
  let rest ← expect ':' rest
  let (second, rest) ← twoDigits 0 60 rest
  let whole := padded 2 hour ++ ":" ++ padded 2 minute ++ ":" ++ padded 2 second
  match rest with
  | '.' :: c :: tail =>
    if c.isDigit then
      let (fraction, rest) := Literal.spanDigits (c :: tail)
      return (whole ++ fractionText fraction, rest)
    else return (whole, rest)
  | _ => return (whole, rest)

/-- Reads an offset from universal time, if there is one. An offset of nothing has a plus sign. -/
def offset : Reader String
  | c :: rest =>
    if c = 'Z' ∨ c = 'z' then some ("Z", rest)
    else if c = '+' ∨ c = '-' then do
      let (hours, rest) ← twoDigits 0 23 rest
      let rest ← expect ':' rest
      let (minutes, rest) ← twoDigits 0 59 rest
      let sign := if c = '-' ∧ (hours, minutes) ≠ (0, 0) then "-" else "+"
      return (sign ++ padded 2 hours ++ ":" ++ padded 2 minutes, rest)
    else some ("", c :: rest)
  | [] => some ("", [])

/-- Reads the time behind a date, if there is one. -/
def timeBehindDate (text : List Char) : Option (String × List Char) :=
  match text with
  | c :: rest =>
    if c = 'T' ∨ c = 't' ∨ (c = ' ' ∧ (digits 2 rest).isSome) then do
      let (time, rest) ← timeOfDay rest
      let (offset, rest) ← offset rest
      return ("T" ++ time ++ offset, rest)
    else some ("", text)
  | [] => some ("", [])

/-- Whether a text can only be a date. -/
def startsDate (text : List Char) : Bool :=
  match digits 4 text with
  | some (_, '-' :: _) => true
  | _ => false

/-- Whether a text can only be a time of day. -/
def startsTime (text : List Char) : Bool :=
  match digits 2 text with
  | some (_, ':' :: _) => true
  | _ => false

/-- Reads a date, a time of day, or both. -/
def moment : Reader String := fun text => do
  if startsDate text then
    let (date, rest) ← date text
    let (time, rest) ← timeBehindDate rest
    return (date ++ time, rest)
  else timeOfDay text

/-- Whether a text can only be a date, a time of day, or both. -/
def startsMoment (text : List Char) : Bool := startsDate text || startsTime text

/-- The date, the time of day or both that a whole text is. -/
def wholeMoment? (text : String) : Option String :=
  match moment text.toList with
  | some (moment, []) => some moment
  | _ => none

end Toml

end ServingCatalog
