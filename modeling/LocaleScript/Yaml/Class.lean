/-!
# Character classes of YAML

The classes that tell apart the parts of a YAML document.
-/

namespace LocaleScript.Yaml

/-- The characters that may stand in a document. -/
def isAllowed (c : Char) : Bool :=
  let n := c.toNat
  n == 0x09 || n == 0x0A || n == 0x0D || (0x20 ≤ n && n ≤ 0x7E) || n == 0x85 ||
    (0xA0 ≤ n && n ≤ 0xFFFD) || 0x10000 ≤ n

/-- A character that ends a line. -/
def isBreak (c : Char) : Bool :=
  c == '\n' || c == '\r' || c == '\u0085' || c == '\u2028' || c == '\u2029'

/-- A character that stands between words of a line. -/
def isSpace (c : Char) : Bool :=
  c == ' ' || c == '\t'

/-- No word goes on here: a blank, the end of a line or the end of the document. -/
def endsWord : List Char → Bool
  | [] => true
  | c :: _ => isSpace c || isBreak c

/-- The characters of names. -/
def isNameChar (c : Char) : Bool :=
  c.isAlphanum || c == '_' || c == '-'

/-- The characters that separate the parts of flow collections. -/
def isFlowIndicator (c : Char) : Bool :=
  c == ',' || c == '[' || c == ']' || c == '{' || c == '}'

/-- The characters that begin something else than a plain scalar, wherever they stand. -/
def isIndicator (c : Char) : Bool :=
  isFlowIndicator c || "-?:#&*!|>'\"%@\x60".toList.contains c

/-- The characters of a tag, `%` with its digits apart; a tag between angles may hold more. -/
def isTagChar (angled : Bool) (c : Char) : Bool :=
  isNameChar c || ";/?:@&=+$.!~*'()".toList.contains c ||
    (angled && (c == ',' || c == '[' || c == ']'))

/-- A line of three equal marks, `-` or `.`, at the start of which the text stands. -/
def startsWithMarks (mark : Char) : List Char → Bool
  | a :: b :: c :: rest => a == mark && b == mark && c == mark && endsWord rest
  | _ => false

end LocaleScript.Yaml
