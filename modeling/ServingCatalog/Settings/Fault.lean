import ServingCatalog.Decimal.Binary64
import ServingCatalog.Record

/-!
# Faults of settings

Settings are not usable when a file of them cannot be read, when a variable of the environment is no
text, when a key leads to a position that no list has, or when a setting is not what is wanted in
its place. A fault is raised where it is found, and gathers the path that leads there on its way
out.
-/

namespace ServingCatalog

/-- Why settings are not usable. -/
inductive SettingFault where
  | unreadable (file : String)
  | garbled
  | outOfReach (key : String)
  | noText (found : Found) (path : Option String) (origin : Option String)
  | misfit (reason : Misfit)
  | unknownChoice (choice name : String)
  | noChoice (choice : String)
  deriving DecidableEq

namespace SettingFault

/-- The words for null and for floating-point numbers in messages about settings. -/
def wording : Wording := ⟨"unit value", Binary64.pointed⟩

/-- The message for a fault; a file that cannot be read has none besides its name. -/
def message : SettingFault → String
  | .unreadable file => file
  | .garbled => "a variable is not valid Unicode"
  | .outOfReach key => "no list has the position in key " ++ ticked key
  | .noText found path origin =>
    (Misfit.wrongType found "a string").message wording ++
      (match path with
        | some path => " for key " ++ ticked path
        | none => "") ++
      (match origin with
        | some origin => " in " ++ origin
        | none => "")
  | .misfit reason => reason.message wording
  | .unknownChoice choice name =>
    "enum " ++ choice ++ " does not have variant constructor " ++ name
  | .noChoice choice =>
    "value of enum " ++ choice ++
      " should be represented by either string or table with exactly one key"

/-- A path behind a key; there is no point before a position. -/
def joinKey (key : String) : Option String → String
  | none => key
  | some path => if path.toList.head? = some '[' then key ++ path else key ++ "." ++ path

/-- The fault as seen from the table that holds the setting. -/
def underKey (key : String) : SettingFault → SettingFault
  | .noText found path origin => .noText found (some (joinKey key path)) origin
  | other => other

/-- The fault as seen from the list that holds the setting. -/
def underIndex (index : Nat) : SettingFault → SettingFault
  | .noText found path origin =>
    .noText found (some ("[" ++ toString index ++ "]" ++ path.getD "")) origin
  | other => other

end SettingFault

end ServingCatalog
