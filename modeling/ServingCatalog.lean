import ServingCatalog.Configuration.CatalogJson
import ServingCatalog.Main
import ServingCatalog.Resolver.Fixed
import ServingCatalog.Proofs.Lookup.Inquiry
import ServingCatalog.Proofs.Lookup.Question
import ServingCatalog.Proofs.Catalog.Scan
import ServingCatalog.Proofs.Model.Building
import ServingCatalog.Proofs.Lookup.PassThrough
import ServingCatalog.Proofs.Json.Quoted
import ServingCatalog.Proofs.Json.Reading
import ServingCatalog.Proofs.Json.Numeral
import ServingCatalog.Proofs.Json.Object
import ServingCatalog.Proofs.Json.Compact
import ServingCatalog.Proofs.Json.Sorted
import ServingCatalog.Proofs.Json.Spelling
import ServingCatalog.Proofs.Model.SpecText
import ServingCatalog.Proofs.Settings.Order
import ServingCatalog.Proofs.Settings.Tables
import ServingCatalog.Proofs.Settings.OfSlots
import ServingCatalog.Proofs.Model.SpecSetting
import ServingCatalog.Proofs.Configuration.Layer
import ServingCatalog.Proofs.Configuration.Holding
import ServingCatalog.Proofs.Configuration.Loading
import ServingCatalog.Proofs.Json.WellFormed
import ServingCatalog.Proofs.Json.Typed
import ServingCatalog.Proofs.Model.SpecObject
import ServingCatalog.Proofs.Decimal.Rounding
import ServingCatalog.Proofs.Decimal.Shortest
import ServingCatalog.Proofs.Json.Range
import ServingCatalog.Proofs.Json.Rendering
import ServingCatalog.Proofs.Json.Rereading
import ServingCatalog.Proofs.Json.Agreement
import ServingCatalog.Proofs.Model.SpecAgreement
import ServingCatalog.Proofs.Settings.Walk
import ServingCatalog.Proofs.Configuration.Merging
import ServingCatalog.Proofs.CommandLine.Arguments
import ServingCatalog.Proofs.Json.Pretty
import ServingCatalog.Proofs.CommandLine.Printing
import ServingCatalog.Proofs.InstanceType.Segments
import ServingCatalog.Proofs.Catalog.Defaults
import ServingCatalog.Proofs.Catalog.NormalForm
import ServingCatalog.Proofs.Configuration.Reach
import ServingCatalog.Proofs.EnvFile
import ServingCatalog.Proofs.LogFilter.Cutting
import ServingCatalog.Proofs.Program.Outcome
import ServingCatalog.Proofs.InstanceType.Volume
import ServingCatalog.Proofs.Catalog.Trail
import ServingCatalog.Proofs.Json.Truncation
import ServingCatalog.Proofs.Model.SpecExtent
import ServingCatalog.Proofs.Json.Positional
import ServingCatalog.Proofs.Model.SpecArray
import ServingCatalog.Proofs.Text.LetterCase
import ServingCatalog.Proofs.Settings.Alike
import ServingCatalog.Proofs.Settings.Steady
import ServingCatalog.Proofs.Settings.Recased
import ServingCatalog.Proofs.Settings.Route
import ServingCatalog.Proofs.Settings.Places
import ServingCatalog.Proofs.Settings.Plain
import ServingCatalog.Proofs.Configuration.Alike
import ServingCatalog.Proofs.Configuration.Passes
import ServingCatalog.Proofs.Configuration.LetterCase
import ServingCatalog.Proofs.Configuration.VariableOrder
import ServingCatalog.Proofs.Decimal.Literal
import ServingCatalog.Proofs.Configuration.Region
import ServingCatalog.Proofs.Json.StringText
import ServingCatalog.Proofs.Model.ScopeSpelling
import ServingCatalog.Proofs.Model.LastWrites
