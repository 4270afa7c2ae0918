import ServingCatalog.Text.Unprintable

/-!
# Text as messages and log lines quote it

`inspect` puts a text between double quotes. The quote, the backslash, the tab, the line breaks and
the null character are shown by a backslash and one character, and what cannot be printed by its
code point in hexadecimal.
-/

namespace ServingCatalog

namespace Text

/-- One character inside quotes. -/
def inspectChar (c : Char) : List Char :=
  match c with
  | '"' => ['\\', '"']
  | '\\' => ['\\', '\\']
  | '\t' => ['\\', 't']
  | '\n' => ['\\', 'n']
  | '\r' => ['\\', 'r']
  | '\x00' => ['\\', '0']
  | _ =>
    if isUnprintable c then
      ['\\', 'u', '\x7b'] ++ Nat.toDigits 16 c.toNat ++ ['\x7d']
    else [c]

/-- A text between quotes. -/
def inspect (text : String) : String :=
  String.ofList ('"' :: text.toList.flatMap inspectChar ++ ['"'])

/-- An optional text, as `None` or as a quoted one inside `Some`. -/
def inspectOption : Option String → String
  | none => "None"
  | some text => "Some(" ++ inspect text ++ ")"

end Text

end ServingCatalog
