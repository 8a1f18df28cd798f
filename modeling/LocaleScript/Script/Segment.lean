import LocaleScript.Text.Position

/-!
# Segments of a script

A script is plain code interrupted by regions whose text is never touched: string, template and
regular expression literals, and comments.
-/

namespace LocaleScript.Script

/-- What a region of a script is. -/
inductive Kind where
  | code
  | string
  | template
  | regex
  | lineComment
  | blockComment
deriving DecidableEq, Repr

/-- The name used in messages. -/
def Kind.name : Kind → String
  | .code => "code"
  | .string => "string literal"
  | .template => "template literal"
  | .regex => "regular expression literal"
  | .lineComment => "line comment"
  | .blockComment => "block comment"

/-- Comments carry no meaning for the text around them. -/
def Kind.isComment : Kind → Bool
  | .lineComment | .blockComment => true
  | _ => false

/-- A region with the byte offset where it begins. -/
structure Segment where
  kind : Kind
  start : Nat
  text : List Char
deriving DecidableEq, Repr

/-- A literal or comment that runs off the end of its line or of the script. -/
structure ScanError where
  /-- Byte offset of the opening character. -/
  offset : Nat
  kind : Kind
deriving DecidableEq, Repr

/-- The text shown for a literal left open. -/
def ScanError.message (e : ScanError) : String :=
  "unterminated " ++ e.kind.name

end LocaleScript.Script
