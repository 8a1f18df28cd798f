import LocaleScript.Locale.Store
import LocaleScript.Yaml.Contents

/-!
# Documents of locale data

A document of locale data is a map with two fields, both of which may be missing: `locales`, a map
from locales to maps from categories to data, and `external_tags`, a map from locales to the tags
that they are published under.
-/

namespace LocaleScript.Locale

open Yaml

/-- The collections around the data of a category: the document, its locales, and one of them. -/
def depthOfData : Nat := 3

/-- The data of a locale by category. -/
def readCategories (document : Document) (node : Node) : Contents (Table Json) := do
  let entries ← document.readEntries node
  let categories ← entries.mapM fun (category, data) => do
    return (category, ← document.readJson (depthLimit - depthOfData) data)
  return .ofList categories

/-- The data of all locales. -/
def readLocales (document : Document) (node : Node) : Contents (Table (Table Json)) := do
  let entries ← document.readEntries node
  let locales ← entries.mapM fun (locale, categories) => do
    return (locale, ← readCategories document categories)
  return .ofList locales

/-- The tags that locales are published under. -/
def readTags (document : Document) (node : Node) : Contents (Table String) := do
  let entries ← document.readEntries node
  let tags ← entries.mapM fun (locale, tag) => do
    return (locale, ← document.readText tag)
  return .ofList tags

/-- The store that a document holds. -/
def readStore (document : Document) : Contents Store := do
  let fields ← document.readFields ["locales", "external_tags"]
  let locales ← match fields.lookup "locales" with
    | some node => readLocales document node
    | none => pure .empty
  let tags ← match fields.lookup "external_tags" with
    | some node => readTags document node
    | none => pure .empty
  return ⟨locales, tags⟩

/-- The store that a text holds, unless the text is no document of locale data. -/
def Store.ofYaml? (text : String) : Option Store :=
  readText? text readStore

end LocaleScript.Locale
