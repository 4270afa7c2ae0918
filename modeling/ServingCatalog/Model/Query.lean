/-!
# Queries

A query names a model, a version and a region, each of which may be left out, and says whether
models with known faults are acceptable.
-/

namespace ServingCatalog

/-- Which model a lookup is about. -/
structure Query where
  region : Option String
  modelId : Option String
  modelVersion : Option String
  tolerateVulnerable : Bool
  tolerateDeprecated : Bool
  deriving DecidableEq

namespace Query

/-- The query that says nothing. -/
def empty : Query := ⟨none, none, none, false, false⟩

/-- The query for a version of a model. -/
def ofModel (modelId modelVersion : String) : Query :=
  { empty with modelId := some modelId, modelVersion := some modelVersion }

/-- The query in a region. -/
def inRegion (region : String) (q : Query) : Query := { q with region := some region }

/-- The query with a word on models with known vulnerabilities. -/
def toleratingVulnerable (tolerate : Bool) (q : Query) : Query :=
  { q with tolerateVulnerable := tolerate }

/-- The query with a word on deprecated models. -/
def toleratingDeprecated (tolerate : Bool) (q : Query) : Query :=
  { q with tolerateDeprecated := tolerate }

end Query

/-- Whether an identifier is present and not empty. -/
def isGiven : Option String → Bool
  | none => false
  | some text => text ≠ ""

/-- Whether a model and a version are named. -/
def isModelInput (modelId modelVersion : Option String) : Bool :=
  isGiven modelId && isGiven modelVersion

end ServingCatalog
