import LocaleScript.Builtin.Lines

/-!
# Fragments without formatting

Ranges, code points, tokens and plural rules.
-/

namespace LocaleScript.Builtin

open Template (lines)

/-- Ranges of numbers. -/
def range : String :=
  lines [
    "/* feature: \x7b\x7b feature \x7d\x7d */",
    "Cldr.Range = (function() \x7b",
    "  function Range(first, last) \x7b",
    "    this.first = first;",
    "    this.last = last;",
    "  \x7d",
    "  Range.prototype.size = function() \x7b",
    "    return this.last - this.first + 1;",
    "  \x7d;",
    "  Range.prototype.includes = function(value) \x7b",
    "    return value >= this.first && value <= this.last;",
    "  \x7d;",
    "  Range.prototype.toArray = function() \x7b",
    "    var result = [];",
    "    for (var i = this.first; i <= this.last; i++) \x7b",
    "      result.push(i);",
    "    \x7d",
    "    return result;",
    "  \x7d;",
    "  return Range;",
    "\x7d)();"]

/-- Conversion between texts and code points. -/
def codePoints : String :=
  lines [
    "/* feature: \x7b\x7b feature \x7d\x7d */",
    "Cldr.CodePoints = \x7b",
    "  fromString: function(str) \x7b",
    "    var result = [];",
    "    for (var i = 0; i < str.length; i++) \x7b",
    "      var code = str.charCodeAt(i);",
    "      if (code >= 0xD800 && code <= 0xDBFF && i + 1 < str.length) \x7b",
    "        var low = str.charCodeAt(i + 1);",
    "        if (low >= 0xDC00 && low <= 0xDFFF) \x7b",
    "          result.push((code - 0xD800) * 0x400 + (low - 0xDC00) + 0x10000);",
    "          i++;",
    "          continue;",
    "        \x7d",
    "      \x7d",
    "      result.push(code);",
    "    \x7d",
    "    return result;",
    "  \x7d,",
    "  toString: function(codePoints) \x7b",
    "    var result = \"\";",
    "    for (var i = 0; i < codePoints.length; i++) \x7b",
    "      var code = codePoints[i];",
    "      if (code > 0xFFFF) \x7b",
    "        code -= 0x10000;",
    "        result += String.fromCharCode(0xD800 + (code >> 10), 0xDC00 + (code & 0x3FF));",
    "      \x7d else \x7b",
    "        result += String.fromCharCode(code);",
    "      \x7d",
    "    \x7d",
    "    return result;",
    "  \x7d",
    "\x7d;"]

/-- Tokens of number patterns. -/
def token : String :=
  lines [
    "/* feature: \x7b\x7b feature \x7d\x7d */",
    "Cldr.Token = (function() \x7b",
    "  function Token(type, value) \x7b",
    "    this.type = type;",
    "    this.value = value;",
    "  \x7d",
    "  Token.prototype.toString = function() \x7b",
    "    return \"<\" + this.type + \": \" + this.value + \">\";",
    "  \x7d;",
    "  return Token;",
    "\x7d)();"]

/-- Splitting of number patterns into tokens. -/
def numberTokenizer : String :=
  lines [
    "/* feature: \x7b\x7b feature \x7d\x7d */",
    "Cldr.NumberTokenizer = (function() \x7b",
    "  var PATTERN = /([#0,.]+)|(%)|(¤)|([^#0,.%¤]+)/g;",
    "  var TYPES = [\"pattern\", \"percent\", \"currency\", \"plaintext\"];",
    "  var makeToken = function(type, value) \x7b",
    "    return Cldr.Token ? new Cldr.Token(type, value) : \x7b type: type, value: value \x7d;",
    "  \x7d;",
    "  return \x7b",
    "    tokenize: function(pattern) \x7b",
    "      var tokens = [];",
    "      var match;",
    "      PATTERN.lastIndex = 0;",
    "      while ((match = PATTERN.exec(pattern)) !== null) \x7b",
    "        for (var i = 0; i < TYPES.length; i++) \x7b",
    "          if (match[i + 1] !== undefined) \x7b",
    "            tokens.push(makeToken(TYPES[i], match[i + 1]));",
    "            break;",
    "          \x7d",
    "        \x7d",
    "      \x7d",
    "      return tokens;",
    "    \x7d",
    "  \x7d;",
    "\x7d)();"]

/-- Plural rules: a function for each locale, or conditions that are compiled when first used. -/
def pluralRules : String :=
  lines [
    "/* feature: \x7b\x7b feature \x7d\x7d */",
    "Cldr.PluralRules = (function() \x7b",
    "\x7b% if prerender %\x7d",
    "  var rules = \x7b",
    "\x7b% for tag, conditions in resources | items %\x7d",
    "    \x7b\x7b tag | tojs \x7d\x7d: function(n) \x7b",
    "\x7b% for name, condition in conditions | items %\x7d",
    "      if (\x7b\x7b condition \x7d\x7d) \x7b",
    "        return \x7b\x7b name | tojs \x7d\x7d;",
    "      \x7d",
    "\x7b% endfor %\x7d",
    "      return \"other\";",
    "    \x7d,",
    "\x7b% endfor %\x7d",
    "  \x7d;",
    "  var ruleFor = function(locale) \x7b",
    "    return rules[locale];",
    "  \x7d;",
    "\x7b% else %\x7d",
    "\x7b% for tag, conditions in resources | items %\x7d",
    "  Cldr.register(\x7b\x7b tag | tojs \x7d\x7d, \x7b\x7b category | tojs \x7d\x7d, \x7b\x7b conditions | tojs \x7d\x7d);",
    "\x7b% endfor %\x7d",
    "  var compiled = \x7b\x7d;",
    "  var ruleFor = function(locale) \x7b",
    "    if (!compiled[locale]) \x7b",
    "      var conditions = Cldr.resource(locale, \x7b\x7b category | tojs \x7d\x7d);",
    "      if (!conditions) \x7b",
    "        return undefined;",
    "      \x7d",
    "      var checks = [];",
    "      for (var name in conditions) \x7b",
    "        if (conditions.hasOwnProperty(name)) \x7b",
    "          checks.push([name, new Function(\"n\", \"return (\" + conditions[name] + \");\")]);",
    "        \x7d",
    "      \x7d",
    "      compiled[locale] = function(n) \x7b",
    "        for (var i = 0; i < checks.length; i++) \x7b",
    "          if (checks[i][1](n)) \x7b",
    "            return checks[i][0];",
    "          \x7d",
    "        \x7d",
    "        return \"other\";",
    "      \x7d;",
    "    \x7d",
    "    return compiled[locale];",
    "  \x7d;",
    "\x7b% endif %\x7d",
    "  return \x7b",
    "    rule: function(n, locale) \x7b",
    "      var fn = ruleFor(locale || Cldr.locale);",
    "      return fn ? fn(n) : \"other\";",
    "    \x7d",
    "  \x7d;",
    "\x7d)();"]

end LocaleScript.Builtin
