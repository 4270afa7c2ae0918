import ServingCatalog.Configuration.OfSettings
import ServingCatalog.Files
import ServingCatalog.Settings.Environment
import ServingCatalog.Settings.OfJson
import ServingCatalog.Toml.Document

/-!
# Loading the configuration

Three sources are laid over each other: a default file, a local file and the environment. A file
is named without its extension, in one of several forms; one that is not there says nothing, and one
that cannot be read makes loading fail, as does a key that leads nowhere.

Some of this is open: the order in which the entries of tables are gone through and in which forms
are tried, and how forms other than JSON and TOML are read. A `Loader` settles it.
-/

namespace ServingCatalog

/-- The forms a file of settings can have. -/
inductive FileForm where
  | json
  | toml
  | yaml
  | ini
  | ron
  | json5
  deriving DecidableEq

namespace FileForm

/-- The extensions of files of a form. -/
def extensions : FileForm → List String
  | .json => ["json"]
  | .toml => ["toml"]
  | .yaml => ["yaml", "yml"]
  | .ini => ["ini"]
  | .ron => ["ron"]
  | .json5 => ["json5"]

/-- All forms. -/
def all : List FileForm := [.json, .toml, .yaml, .ini, .ron, .json5]

/-- The form that the extension of a path tells. -/
def ofPath? (path : String) : Option FileForm :=
  all.find? fun form => form.extensions.any fun extension =>
    Files.extensionOf? path = some extension.toList

end FileForm

/-- The passes in which tables are gone through: each of the sources is laid over what is below it,
and at the end everything is laid once more, over nothing. -/
inductive Pass where
  | lower
  | upper
  | environment
  | merged
  deriving DecidableEq

/-- What loading depends on besides names, files and variables. -/
structure Loader where
  /-- The forms in the order in which they are tried. -/
  forms : List FileForm
  forms_perm : forms.Perm FileForm.all
  /-- The settings in a text of a form other than JSON and TOML, with the place it was read from. -/
  other? : FileForm → String → String → Option Entries
  /-- How tables are gone through. -/
  order : Pass → KeyOrder

namespace Loader

/-- The loader that tries JSON and TOML first, reads no other forms, and takes keys by alphabet. -/
def plain : Loader where
  forms := FileForm.all
  forms_perm := .refl _
  other? _ _ _ := none
  order _ _ _ := 0

/-- The settings in a text of a form. A text in JSON does not start with a byte order mark. -/
def source? (loader : Loader) (form : FileForm) (origin text : String) : Option Entries :=
  match form with
  | .json => Setting.sourceOfJson? origin text
  | .toml => Toml.source? origin text
  | form => loader.other? form origin text

/-- Lays entries over those below, in the order of a pass. -/
def lay (loader : Loader) (pass : Pass) (below above : Entries) : Except SettingFault Entries :=
  Setting.assignAll below (Setting.orderedEntries (loader.order pass) above)

end Loader

namespace Configuration

/-- The file that a name means. A file of that very name counts only if its extension is known;
where there is none, an extension is put behind the name. -/
def locate? (loader : Loader) (files : Files) (name : String) :
    Option (FileForm × String × String) :=
  match files.read? name with
  | some text => (FileForm.ofPath? name).map fun form => (form, Files.plainPath name, text)
  | none =>
    loader.forms.findSome? fun form =>
      form.extensions.findSome? fun extension => do
        let path ← Files.withExtension? extension name
        return (form, path, ← files.read? path)

/-- The settings of the file that a name means. -/
def fileSource (loader : Loader) (files : Files) (name : String) : Except SettingFault Entries :=
  match locate? loader files name with
  | none => .ok []
  | some (form, path, text) =>
    match loader.source? form path text with
    | some source => .ok source
    | none => .error (.unreadable path)

/-- A source of settings, with the pass in which it is laid. -/
abbrev Source := Pass × Except SettingFault Entries

/-- Lays a source over the entries below it, if it can be read. -/
def laySource (loader : Loader) (below : Entries) (source : Source) : Except SettingFault Entries :=
  source.2 >>= loader.lay source.1 below

/-- Lays sources over each other, the later over the earlier. Each is laid before the next one is
looked at, so of two faults the one in the earlier source counts. -/
def layAll (loader : Loader) (sources : List Source) : Except SettingFault Entries :=
  sources.foldlM (laySource loader) []

/-- Merges sources: what they make together is laid once more, since a key may spell a path in small
letters that it did not spell before. -/
def merge (loader : Loader) (sources : List Source) : Except SettingFault Entries :=
  layAll loader sources >>= loader.lay .merged []

/-- The configuration that entries make. Which of several faults in one table comes first is open;
here it is the one of the first entry. -/
def ofEntries (entries : Entries) : Except SettingFault Configuration :=
  decodeSetting (.table none entries)

/-- Loads the configuration from two files and what the environment says. -/
def loadOver (loader : Loader) (defaultName localName : String) (files : Files)
    (environment : Except SettingFault Entries) : Except SettingFault Configuration := do
  let entries ← merge loader
    [(.lower, fileSource loader files defaultName), (.upper, fileSource loader files localName),
      (.environment, environment)]
  ofEntries entries

/-- Loads the configuration from two files and the variables of the environment. -/
def loadFrom (loader : Loader) (defaultName localName : String) (files : Files)
    (environment : List (String × String)) : Except SettingFault Configuration :=
  loadOver loader defaultName localName files (.ok (Environment.source environment))

/-- Where the default settings are. -/
def defaultName : String := "config/default"

/-- Where the local settings are. -/
def localName : String := "config/local"

end Configuration

end ServingCatalog
