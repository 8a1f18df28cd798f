import LocaleScript.Build.Config
import LocaleScript.Yaml.Contents

/-!
# Documents of configurations

A document of a configuration is a map with a field for each setting. A field that is missing leaves
the standard setting; a list that is null stands for all there are.
-/

namespace LocaleScript.Build

open Yaml

/-- The names of the settings. -/
def settingNames : List String :=
  ["locales", "features", "test_helpers", "prerender", "source_map"]

/-- A list of texts, or null. -/
def readNames (document : Document) (node : Node) : Contents (Option (List String)) :=
  document.readOption (fun node => do
    (← document.readItems node).mapM document.readText) node

/-- The setting of a field, or the standard one if the field is missing. -/
def readSetting {α : Type} (fields : List (String × Node)) (name : String) (standard : α)
    (read : Node → Contents α) : Contents α :=
  match fields.lookup name with
  | some node => read node
  | none => return standard

/-- The configuration that a document holds. -/
def readConfig (document : Document) : Contents Config := do
  let fields ← document.readFields settingNames
  let standard := Config.standard
  return {
    locales := ← readSetting fields "locales" standard.locales (readNames document)
    features := ← readSetting fields "features" standard.features (readNames document)
    testHelpers := ← readSetting fields "test_helpers" standard.testHelpers (readNames document)
    prerender := ← readSetting fields "prerender" standard.prerender document.readFlag
    sourceMap := ← readSetting fields "source_map" standard.sourceMap document.readFlag }

/-- The configuration that a text holds, unless the text is no document of one. -/
def Config.ofYaml? (text : String) : Option Config :=
  readText? text readConfig

end LocaleScript.Build
