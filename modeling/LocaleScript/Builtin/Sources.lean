import LocaleScript.Builtin.Bundles
import LocaleScript.Builtin.CoreFragments
import LocaleScript.Builtin.DataFragments
import LocaleScript.Builtin.TestHelpers
import LocaleScript.Template.Engine

/-!
# The built-in templates

All built-in templates under their names, the library of them, and the engine that renders them.
-/

namespace LocaleScript.Builtin

open Template

/-- The built-in templates under their names. -/
def sources : List (String × String) := [
  ("bundle.jinja", bundle),
  ("test_bundle.jinja", testBundle),
  ("partials/resource.jinja", resource),
  ("fragments/range.jinja", range),
  ("fragments/code_points.jinja", codePoints),
  ("fragments/token.jinja", token),
  ("fragments/number_tokenizer.jinja", numberTokenizer),
  ("fragments/plural_rules.jinja", pluralRules),
  ("fragments/numbers.jinja", numbers),
  ("fragments/number_data_reader.jinja", numberDataReader),
  ("fragments/rbnf.jinja", rbnf),
  ("fragments/currencies.jinja", currencies),
  ("fragments/lists.jinja", lists),
  ("fragments/timespan.jinja", timespan),
  ("fragments/datetime.jinja", datetime),
  ("fragments/languages.jinja", languages),
  ("test_helpers/plural_rules.jinja", pluralRulesHelper),
  ("test_helpers/numbers.jinja", numbersHelper),
  ("test_helpers/lists.jinja", listsHelper),
  ("test_helpers/rbnf.jinja", rbnfHelper)]

/-- The library of the built-in templates. -/
def library : Library :=
  .ofBuiltin sources

/-- The engine of the built-in templates. -/
def engine : Except RenderError Engine :=
  Engine.ofLibrary library

end LocaleScript.Builtin
