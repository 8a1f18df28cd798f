import LocaleScript.Builtin.Lines

/-!
# Fragments over locale data

Each of these carries data of its category: number symbols, words, currencies, list patterns, units,
calendars or language names.
-/

namespace LocaleScript.Builtin

open Template (lines)

/-- Number formatting. -/
def numbers : String :=
  lines [
    "/* feature: \x7b\x7b feature \x7d\x7d */",
    "Cldr.NumberFormatter = (function() \x7b",
    "\x7b% include \"partials/resource\" %\x7d",
    "  function NumberFormatter(locale) \x7b",
    "    this.locale = locale || Cldr.locale;",
    "    this.symbols = resource(this.locale) || \x7b\x7d;",
    "  \x7d",
    "  NumberFormatter.prototype.format = function(number, options) \x7b",
    "    options = options || \x7b\x7d;",
    "    var precision = options.precision == null ? 0 : options.precision;",
    "    var parts = Math.abs(number).toFixed(precision).split(\".\");",
    "    var integer = parts[0].replace(/\\B(?=(\\d\x7b3\x7d)+(?!\\d))/g, this.symbols.group || \",\");",
    "    var result = parts.length > 1 ? integer + (this.symbols.decimal || \".\") + parts[1] : integer;",
    "    return number < 0 ? (this.symbols.minus || \"-\") + result : result;",
    "  \x7d;",
    "  return NumberFormatter;",
    "\x7d)();"]

/-- Number symbols of every locale. -/
def numberDataReader : String :=
  lines [
    "/* feature: \x7b\x7b feature \x7d\x7d */",
    "Cldr.NumberDataReader = (function() \x7b",
    "\x7b% include \"partials/resource\" %\x7d",
    "  var locales = \x7b\x7b resources | list | tojs \x7d\x7d;",
    "  function NumberDataReader(locale) \x7b",
    "    this.locale = locale || Cldr.locale;",
    "    this.symbols = resource(this.locale) || \x7b\x7d;",
    "  \x7d",
    "  NumberDataReader.locales = function() \x7b",
    "    return locales.slice(0);",
    "  \x7d;",
    "  NumberDataReader.prototype.symbol = function(name) \x7b",
    "    return this.symbols[name];",
    "  \x7d;",
    "  return NumberDataReader;",
    "\x7d)();"]

/-- Numbers in words. -/
def rbnf : String :=
  lines [
    "/* feature: \x7b\x7b feature \x7d\x7d */",
    "Cldr.RBNF = (function() \x7b",
    "\x7b% include \"partials/resource\" %\x7d",
    "  function RBNF(locale) \x7b",
    "    this.locale = locale || Cldr.locale;",
    "    this.ruleSets = resource(this.locale) || \x7b\x7d;",
    "  \x7d",
    "  RBNF.prototype.ruleSetNames = function() \x7b",
    "    var names = [];",
    "    for (var name in this.ruleSets) \x7b",
    "      if (this.ruleSets.hasOwnProperty(name)) \x7b",
    "        names.push(name);",
    "      \x7d",
    "    \x7d",
    "    return names;",
    "  \x7d;",
    "  RBNF.prototype.format = function(number, ruleSet) \x7b",
    "    var words = this.ruleSets[ruleSet || \"spellout\"] || [];",
    "    var word = number >= 0 && number % 1 === 0 ? words[number] : undefined;",
    "    if (word !== undefined) \x7b",
    "      return word;",
    "    \x7d",
    "    return Cldr.NumberFormatter ? new Cldr.NumberFormatter(this.locale).format(number) : String(number);",
    "  \x7d;",
    "  return RBNF;",
    "\x7d)();"]

/-- Currencies. -/
def currencies : String :=
  lines [
    "/* feature: \x7b\x7b feature \x7d\x7d */",
    "Cldr.Currencies = (function() \x7b",
    "\x7b% include \"partials/resource\" %\x7d",
    "  var table = function(locale) \x7b",
    "    return resource(locale || Cldr.locale) || \x7b\x7d;",
    "  \x7d;",
    "  return \x7b",
    "    forCode: function(code, locale) \x7b",
    "      return table(locale)[code];",
    "    \x7d,",
    "    codes: function(locale) \x7b",
    "      var currencies = table(locale);",
    "      var result = [];",
    "      for (var code in currencies) \x7b",
    "        if (currencies.hasOwnProperty(code)) \x7b",
    "          result.push(code);",
    "        \x7d",
    "      \x7d",
    "      return result;",
    "    \x7d",
    "  \x7d;",
    "\x7d)();"]

/-- List formatting. -/
def lists : String :=
  lines [
    "/* feature: \x7b\x7b feature \x7d\x7d */",
    "Cldr.ListFormatter = (function() \x7b",
    "\x7b% include \"partials/resource\" %\x7d",
    "  var substitute = function(pattern, first, second) \x7b",
    "    return pattern.replace(\"\x7b0\x7d\", first).replace(\"\x7b1\x7d\", second);",
    "  \x7d;",
    "  function ListFormatter(locale) \x7b",
    "    this.patterns = resource(locale || Cldr.locale) || \x7b\x7d;",
    "  \x7d",
    "  ListFormatter.prototype.format = function(items) \x7b",
    "    var p = this.patterns;",
    "    switch (items.length) \x7b",
    "      case 0:",
    "        return \"\";",
    "      case 1:",
    "        return String(items[0]);",
    "      case 2:",
    "        return substitute(p.two, items[0], items[1]);",
    "    \x7d",
    "    var result = substitute(p.end, items[items.length - 2], items[items.length - 1]);",
    "    for (var i = items.length - 3; i >= 0; i--) \x7b",
    "      result = substitute(i === 0 ? p.start : p.middle, items[i], result);",
    "    \x7d",
    "    return result;",
    "  \x7d;",
    "  return ListFormatter;",
    "\x7d)();"]

/-- Spans of time. -/
def timespan : String :=
  lines [
    "/* feature: \x7b\x7b feature \x7d\x7d */",
    "Cldr.TimespanFormatter = (function() \x7b",
    "\x7b% include \"partials/resource\" %\x7d",
    "  var UNITS = [[\"day\", 86400], [\"hour\", 3600], [\"minute\", 60], [\"second\", 1]];",
    "  function TimespanFormatter(locale) \x7b",
    "    this.locale = locale || Cldr.locale;",
    "    this.units = resource(this.locale) || \x7b\x7d;",
    "  \x7d",
    "  TimespanFormatter.prototype.format = function(seconds) \x7b",
    "    var abs = Math.abs(seconds);",
    "    for (var i = 0; i < UNITS.length; i++) \x7b",
    "      if (abs >= UNITS[i][1] || UNITS[i][1] === 1) \x7b",
    "        var value = Math.round(abs / UNITS[i][1]);",
    "        var forms = this.units[UNITS[i][0]] || \x7b\x7d;",
    "        var plural = Cldr.PluralRules ? Cldr.PluralRules.rule(value, this.locale) : (value === 1 ? \"one\" : \"other\");",
    "        var pattern = forms[plural] || forms.other || \"\x7b0\x7d\";",
    "        return pattern.replace(\"\x7b0\x7d\", value);",
    "      \x7d",
    "    \x7d",
    "    return \"\";",
    "  \x7d;",
    "  return TimespanFormatter;",
    "\x7d)();"]

/-- Dates. -/
def datetime : String :=
  lines [
    "/* feature: \x7b\x7b feature \x7d\x7d */",
    "Cldr.DateTimeFormatter = (function() \x7b",
    "\x7b% include \"partials/resource\" %\x7d",
    "  function DateTimeFormatter(locale) \x7b",
    "    this.calendar = resource(locale || Cldr.locale) || \x7b\x7d;",
    "  \x7d",
    "  DateTimeFormatter.prototype.monthName = function(index) \x7b",
    "    return (this.calendar.months || [])[index];",
    "  \x7d;",
    "  DateTimeFormatter.prototype.dayName = function(index) \x7b",
    "    return (this.calendar.days || [])[index];",
    "  \x7d;",
    "  DateTimeFormatter.prototype.format = function(date) \x7b",
    "    var pattern = this.calendar.pattern || \"\x7by\x7d-\x7bM\x7d-\x7bd\x7d\";",
    "    return pattern",
    "      .replace(\"\x7by\x7d\", date.getFullYear())",
    "      .replace(\"\x7bMMMM\x7d\", this.monthName(date.getMonth()))",
    "      .replace(\"\x7bM\x7d\", date.getMonth() + 1)",
    "      .replace(\"\x7bd\x7d\", date.getDate())",
    "      .replace(\"\x7bEEEE\x7d\", this.dayName(date.getDay()));",
    "  \x7d;",
    "  return DateTimeFormatter;",
    "\x7d)();"]

/-- Names of languages. -/
def languages : String :=
  lines [
    "/* feature: \x7b\x7b feature \x7d\x7d */",
    "Cldr.Languages = (function() \x7b",
    "\x7b% include \"partials/resource\" %\x7d",
    "  return \x7b",
    "    fromCode: function(code, locale) \x7b",
    "      return (resource(locale || Cldr.locale) || \x7b\x7d)[code];",
    "    \x7d,",
    "    all: function(locale) \x7b",
    "      return resource(locale || Cldr.locale) || \x7b\x7d;",
    "    \x7d",
    "  \x7d;",
    "\x7d)();"]

end LocaleScript.Builtin
