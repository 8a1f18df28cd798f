import LocaleScript.Builtin.Lines

/-!
# Test helpers

Locale data as tests of the library want it.
-/

namespace LocaleScript.Builtin

open Template (lines)

/-- Plural conditions. -/
def pluralRulesHelper : String :=
  lines [
    "/* feature: \x7b\x7b feature \x7d\x7d */",
    "CldrTestHelpers.PluralRules = \x7b",
    "  locales: \x7b\x7b resources | list | tojs \x7d\x7d,",
    "  conditions: \x7b\x7b resources | tojs \x7d\x7d",
    "\x7d;"]

/-- Number symbols and an expected grouping. -/
def numbersHelper : String :=
  lines [
    "/* feature: \x7b\x7b feature \x7d\x7d */",
    "CldrTestHelpers.Numbers = \x7b",
    "  symbols: \x7b\x7b resources | tojs \x7d\x7d,",
    "  expectedGrouping: function(locale) \x7b",
    "    var symbols = this.symbols[locale] || \x7b\x7d;",
    "    return \"1\" + (symbols.group || \",\") + \"234\" + (symbols.decimal || \".\") + \"5\";",
    "  \x7d",
    "\x7d;"]

/-- List patterns and a sample. -/
def listsHelper : String :=
  lines [
    "/* feature: \x7b\x7b feature \x7d\x7d */",
    "CldrTestHelpers.Lists = \x7b",
    "  patterns: \x7b\x7b resources | tojs \x7d\x7d,",
    "  sample: [\"a\", \"b\", \"c\"]",
    "\x7d;"]

/-- Rule sets and the expected words. -/
def rbnfHelper : String :=
  lines [
    "/* feature: \x7b\x7b feature \x7d\x7d */",
    "CldrTestHelpers.RBNF = \x7b",
    "  locales: \x7b\x7b resources | list | tojs \x7d\x7d,",
    "  ruleSets: \x7b\x7b resources | tojs \x7d\x7d,",
    "  expected: function(locale, ruleSet, number) \x7b",
    "    return ((this.ruleSets[locale] || \x7b\x7d)[ruleSet] || [])[number];",
    "  \x7d",
    "\x7d;"]

end LocaleScript.Builtin
