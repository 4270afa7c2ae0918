import ServingCatalog.Json.Tree
import ServingCatalog.Settings.Basic

/-!
# Settings in JSON files

Every value of the file becomes a setting of that file. An integer beyond 64 signed bits becomes a
floating-point number.
-/

namespace ServingCatalog

namespace Setting

/-- The scalar of a number. -/
def ofNumber : Number → Scalar
  | .int i => if Literal.fitsInt64 i then .int i else .float (Binary64.ofInt i)
  | .float x => .float x

mutual
/-- The setting of a JSON value. -/
def ofJson (origin : String) : Json → Setting
  | .null => .scalar (some origin) .null
  | .bool b => .scalar (some origin) (.bool b)
  | .number n => .scalar (some origin) (ofNumber n)
  | .string s => .scalar (some origin) (.text s)
  | .array items => .list (some origin) (ofItems origin items)
  | .object members => .table (some origin) (ofMembers origin members)

/-- The settings of a list of values. -/
def ofItems (origin : String) : List Json → List Setting
  | [] => []
  | item :: items => ofJson origin item :: ofItems origin items

/-- The settings of a list of members. -/
def ofMembers (origin : String) : List (String × Json) → List (String × Setting)
  | [] => []
  | (key, value) :: members => (key, ofJson origin value) :: ofMembers origin members
end

/-- The entries of a file, if it is a JSON object. -/
def sourceOfJson? (origin text : String) : Option (List (String × Setting)) :=
  match Json.parse text with
  | .ok (.object members) => some (ofMembers origin members)
  | _ => none

end Setting

end ServingCatalog
