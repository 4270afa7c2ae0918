import ServingCatalog.Configuration.Basic
import ServingCatalog.Model.SpecJson

/-!
# Catalogs in JSON

The catalog settings that a JSON value stands for.
-/

namespace ServingCatalog

namespace CatalogConfig

/-- Decodes the value of a setting. -/
def decodeField : (f : Field) → Json → Except Misfit f.Value
  | .defaultRegion => Json.decodeText
  | .models => Json.decodeList ModelSpec.ofJson

/-- The catalog settings that a value stands for. -/
def ofJson : Json → Except Misfit CatalogConfig := Json.decodeRecord record decodeField

end CatalogConfig

end ServingCatalog
