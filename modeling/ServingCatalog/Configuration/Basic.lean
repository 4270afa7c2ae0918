import ServingCatalog.Catalog
import ServingCatalog.Model.SpecRecord

/-!
# The configuration of the program

What can be configured: how the program logs, and the catalog it answers from. The catalog's
settings have a default each; the logging settings have one together, so that either both are given
or none.
-/

namespace ServingCatalog

/-- How log lines are laid out. -/
inductive LogFormat where
  | pretty
  | json
  deriving DecidableEq

/-- The name of a layout. -/
def LogFormat.name : LogFormat → String
  | .pretty => "pretty"
  | .json => "json"

/-- All layouts. -/
def LogFormat.all : List LogFormat := [.pretty, .json]

/-- How the program logs. -/
structure LoggingConfig where
  level : String
  format : LogFormat
  deriving DecidableEq

/-- The catalog the program answers from. -/
structure CatalogConfig where
  defaultRegion : String
  models : List ModelSpec
  deriving DecidableEq

/-- The configuration of the program. -/
structure Configuration where
  logging : LoggingConfig
  catalog : CatalogConfig
  deriving DecidableEq

namespace LoggingConfig

/-- Logging where nothing is configured. -/
def default : LoggingConfig := ⟨"info", .pretty⟩

/-- The logging settings. -/
inductive Field where
  | level
  | format
  deriving DecidableEq

/-- What each setting holds. -/
abbrev Field.Value : Field → Type
  | .level => String
  | .format => LogFormat

/-- The name of each setting. -/
def Field.name : Field → String
  | .level => "level"
  | .format => "format"

/-- The logging settings as a record, both of them required. -/
def record : Record Field Field.Value LoggingConfig where
  label := "struct LoggingConfig"
  fields := [.level, .format]
  name := Field.name
  build lacking draft :=
    match draft .level, draft .format with
    | none, _ => .error (lacking .level)
    | some _, none => .error (lacking .format)
    | some level, some format => .ok ⟨level, format⟩

end LoggingConfig

namespace CatalogConfig

/-- The region of queries that name none, where nothing else is configured. -/
def standardRegion : String := "us-west-2"

/-- The catalog where nothing is configured. -/
def default : CatalogConfig := ⟨standardRegion, []⟩

/-- The catalog settings. -/
inductive Field where
  | defaultRegion
  | models
  deriving DecidableEq

/-- What each setting holds. -/
abbrev Field.Value : Field → Type
  | .defaultRegion => String
  | .models => List ModelSpec

/-- The name of each setting. -/
def Field.name : Field → String
  | .defaultRegion => "default_region"
  | .models => "models"

/-- The catalog settings as a record, both of them optional. -/
def record : Record Field Field.Value CatalogConfig where
  label := "struct CatalogConfig"
  fields := [.defaultRegion, .models]
  name := Field.name
  build _ draft :=
    .ok ⟨(draft .defaultRegion).getD standardRegion, (draft .models).getD []⟩

/-- The catalog that is configured. -/
def build (c : CatalogConfig) : Catalog := Catalog.ofList c.defaultRegion c.models

end CatalogConfig

namespace Configuration

/-- The parts of a configuration. -/
inductive Field where
  | logging
  | catalog
  deriving DecidableEq

/-- What each part holds. -/
abbrev Field.Value : Field → Type
  | .logging => LoggingConfig
  | .catalog => CatalogConfig

/-- The name of each part. -/
def Field.name : Field → String
  | .logging => "logging"
  | .catalog => "catalog"

/-- The configuration as a record, both parts optional. -/
def record : Record Field Field.Value Configuration where
  label := "struct AppConfig"
  fields := [.logging, .catalog]
  name := Field.name
  build _ draft := .ok ⟨(draft .logging).getD .default, (draft .catalog).getD .default⟩

end Configuration

end ServingCatalog
