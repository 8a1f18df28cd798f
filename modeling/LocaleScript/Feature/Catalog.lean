import LocaleScript.Feature.Writer

/-!
# The catalog of features

The features of the library and the helpers for testing it, each with its template and the locale
data it is written with. A feature may use those before it, so the order of the catalog is the order
in which features go into a script.
-/

namespace LocaleScript.Feature

/-- A feature of the catalog. -/
structure Entry where
  name : String
  template : String
  binding : Binding
deriving DecidableEq, Repr

/-- The writer of a feature. -/
def Entry.writer (entry : Entry) : Writer :=
  Feature.writer entry.name entry.template entry.binding

/-- The features of the library. -/
def libraryEntries : List Entry := [
  ⟨"range", "fragments/range", .code⟩,
  ⟨"code_points", "fragments/code_points", .code⟩,
  ⟨"token", "fragments/token", .code⟩,
  ⟨"number_tokenizer", "fragments/number_tokenizer", .code⟩,
  ⟨"plural_rules", "fragments/plural_rules", .ofLocale "plurals"⟩,
  ⟨"numbers", "fragments/numbers", .ofLocale "numbers"⟩,
  ⟨"number_data_reader", "fragments/number_data_reader", .ofAll "numbers"⟩,
  ⟨"rbnf", "fragments/rbnf", .ofLocale "rbnf"⟩,
  ⟨"currencies", "fragments/currencies", .ofLocale "currencies"⟩,
  ⟨"lists", "fragments/lists", .ofLocale "lists"⟩,
  ⟨"timespan", "fragments/timespan", .ofLocale "units"⟩,
  ⟨"datetime", "fragments/datetime", .ofLocale "calendars"⟩,
  ⟨"languages", "fragments/languages", .ofLocale "languages"⟩]

/-- The helpers for testing the library. -/
def helperEntries : List Entry := [
  ⟨"plural_rules", "test_helpers/plural_rules", .ofLocale "plurals"⟩,
  ⟨"numbers", "test_helpers/numbers", .ofLocale "numbers"⟩,
  ⟨"lists", "test_helpers/lists", .ofLocale "lists"⟩,
  ⟨"rbnf", "test_helpers/rbnf", .ofLocale "rbnf"⟩]

/-- The registry of a list of features. -/
def registryOf (entries : List Entry) : Registry :=
  .ofList (entries.map fun entry => (entry.name, entry.writer))

/-- The registry of the features of the library. -/
def libraryRegistry : Registry := registryOf libraryEntries

/-- The registry of the test helpers. -/
def helperRegistry : Registry := registryOf helperEntries

end LocaleScript.Feature
