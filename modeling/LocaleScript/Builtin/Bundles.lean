import LocaleScript.Builtin.Lines

/-!
# Bundle templates

The outer templates of the two kinds of bundle, and the part that gives a fragment its locale data.
The data stands in the fragment itself, or it is registered in the table of the bundle and looked up
when the script runs.
-/

namespace LocaleScript.Builtin

open Template (lines)

/-- The library bundle: the runtime that fragments rely on, the fragments, and the export. -/
def bundle : String :=
  lines [
    "/*<<module_def>> */",
    "/* cldrjs \x7b\x7b version \x7d\x7d\x7b% if locale %\x7d (\x7b\x7b locale \x7d\x7d)\x7b% endif %\x7d */",
    "var root = this;",
    "var Cldr = \x7b\x7d;",
    "Cldr.VERSION = \x7b\x7b version | tojs \x7d\x7d;",
    "Cldr.locale = \x7b\x7b locale | tojs \x7d\x7d;",
    "Cldr.features = \x7b\x7b features | tojs \x7d\x7d;",
    "Cldr.data = \x7b\x7d;",
    "Cldr.register = function(locale, category, data) \x7b",
    "  (Cldr.data[locale] = Cldr.data[locale] || \x7b\x7d)[category] = data;",
    "\x7d;",
    "Cldr.resource = function(locale, category) \x7b",
    "  var entry = Cldr.data[locale];",
    "  return entry ? entry[category] : undefined;",
    "\x7d;",
    "",
    "\x7b\x7b contents \x7d\x7d",
    "if (typeof module !== \"undefined\" && module.exports) \x7b",
    "  module.exports = Cldr;",
    "\x7d else \x7b",
    "  root.Cldr = Cldr;",
    "\x7d",
    "\x7b% if source_map %\x7d",
    "//# sourceURL=\x7b\x7b source_name \x7d\x7d.js",
    "\x7b% endif %\x7d"]

/-- The bundle of test helpers. -/
def testBundle : String :=
  lines [
    "/* cldrjs \x7b\x7b version \x7d\x7d test helpers */",
    "var root = this;",
    "var CldrTestHelpers = \x7b\x7d;",
    "",
    "\x7b\x7b contents \x7d\x7d",
    "if (typeof module !== \"undefined\" && module.exports) \x7b",
    "  module.exports = CldrTestHelpers;",
    "\x7d else \x7b",
    "  root.CldrTestHelpers = CldrTestHelpers;",
    "\x7d"]

/-- The locale data of a fragment. -/
def resource : String :=
  lines [
    "\x7b% if prerender %\x7d",
    "  var resources = \x7b\x7b resources | tojs \x7d\x7d;",
    "  var resource = function(locale) \x7b",
    "    return resources[locale];",
    "  \x7d;",
    "\x7b% else %\x7d",
    "\x7b% for tag, data in resources | items %\x7d",
    "  Cldr.register(\x7b\x7b tag | tojs \x7d\x7d, \x7b\x7b category | tojs \x7d\x7d, \x7b\x7b data | tojs \x7d\x7d);",
    "\x7b% endfor %\x7d",
    "  var resource = function(locale) \x7b",
    "    return Cldr.resource(locale, \x7b\x7b category | tojs \x7d\x7d);",
    "  \x7d;",
    "\x7b% endif %\x7d"]

end LocaleScript.Builtin
