import ServingCatalog.Configuration.Basic
import ServingCatalog.Settings.Decode

/-!
# The configuration that settings make

Each part of the configuration, decoded from settings field by field.
-/

namespace ServingCatalog

open Setting

/-- The instance types of a scope. -/
def ScopeSpec.decodeSetting : Decoder ScopeSpec :=
  decodeRecord record fun
    | .instanceTypes => decodeList decodeText
    | .default => decodeOption decodeText

/-- A model spec. -/
def ModelSpec.decodeSetting : Decoder ModelSpec :=
  decodeRecord record fun
    | .modelId => decodeText
    | .version => decodeText
    | .regions => decodeList decodeText
    | .acceptTypes => decodeList decodeText
    | .defaultAcceptType => decodeOption decodeText
    | .training => decodeOption ScopeSpec.decodeSetting
    | .inference => decodeOption ScopeSpec.decodeSetting

/-- The layout of log lines. -/
def LogFormat.decodeSetting : Decoder LogFormat := decodeChoice "LogFormat" name all

/-- The logging settings. -/
def LoggingConfig.decodeSetting : Decoder LoggingConfig :=
  decodeRecord record fun
    | .level => decodeText
    | .format => LogFormat.decodeSetting

/-- The catalog settings. -/
def CatalogConfig.decodeSetting : Decoder CatalogConfig :=
  decodeRecord record fun
    | .defaultRegion => decodeText
    | .models => decodeList ModelSpec.decodeSetting

/-- The whole configuration. -/
def Configuration.decodeSetting : Decoder Configuration :=
  decodeRecord record fun
    | .logging => LoggingConfig.decodeSetting
    | .catalog => CatalogConfig.decodeSetting

end ServingCatalog
