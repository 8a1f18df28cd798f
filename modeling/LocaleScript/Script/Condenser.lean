import LocaleScript.Script.Scan
import LocaleScript.Script.Error

/-!
# Condensing a script

A condensed script holds the tokens of a script, each unchanged and in order: every literal, every
comment that is kept, and every code character that is not blank. Between two tokens stands at most
one separator. A line break between them stays, so that automatic semicolons fall in the same
places; a space stays only where the two tokens would grow together without it.

`Condenser.pieces` says what a script consists of, tokens and gaps; `emit` writes them down.
-/

namespace LocaleScript.Script

/-- What separates two tokens, from weak to strong. -/
inductive Gap where
  | none
  | space
  | newline
deriving DecidableEq, Repr

/-- The stronger of two gaps. -/
def Gap.max : Gap → Gap → Gap
  | .newline, _ | _, .newline => .newline
  | .space, _ | _, .space => .space
  | .none, .none => .none

/-- A token with its text, or a gap. -/
inductive Piece where
  | token (text : List Char)
  | gap (gap : Gap)
deriving DecidableEq, Repr

/-- Keeps license comments and the comments that begin in one of the given ways. -/
structure Condenser where
  /-- Beginnings of the comments to keep, without the opening slash and star. -/
  preserved : List String
deriving Repr

/-- The text holds the pattern. -/
def holds (pattern : List Char) : List Char → Bool
  | [] => pattern.isEmpty
  | c :: cs => pattern.isPrefixOf (c :: cs) || holds pattern cs

namespace Condenser

/-- The block comment is kept: its body begins with `!` or in a preserved way, or it holds
`@license` or `@preserve`. -/
def keeps (condenser : Condenser) (comment : List Char) : Bool :=
  let body := comment.drop 2
  ['!'].isPrefixOf body || holds "@license".toList body || holds "@preserve".toList body ||
    condenser.preserved.any fun start => start.toList.isPrefixOf body

/-- A character of code: a token of its own unless it is blank. -/
def codePiece (c : Char) : Piece :=
  if c = '\n' then .gap .newline else if Text.isBlank c then .gap .space else .token [c]

/-- What a segment consists of. Dropping a line comment leaves no gap, for its newline is not part
of it; dropping a block comment leaves a line break if it holds one and a space if not. -/
def segmentPieces (condenser : Condenser) (segment : Segment) : List Piece :=
  match segment.kind with
  | .code => segment.text.map codePiece
  | .lineComment => []
  | .blockComment =>
    if condenser.keeps segment.text then [.token segment.text]
    else [.gap (if segment.text.contains '\n' then .newline else .space)]
  | .string | .template | .regex => [.token segment.text]

/-- What a script consists of. -/
def pieces (condenser : Condenser) (segments : List Segment) : List Piece :=
  segments.flatMap condenser.segmentPieces

end Condenser

/-- Two characters would grow together: two word characters, two equal ones of `+`, `-` and `/`, or
a digit and a point. -/
def growTogether (last first : Char) : Bool :=
  (isWordChar last && isWordChar first) ||
    (last == first && (last == '+' || last == '-' || last == '/')) ||
    (last.isDigit && first == '.')

/-- What is written for a gap between two characters. -/
def Gap.separator (gap : Gap) (last first : Char) : List Char :=
  match gap with
  | .newline => if last = '\n' then [] else ['\n']
  | .space => if growTogether last first then [' '] else []
  | .none => []

/-- Writes pieces behind a text whose last character is `last`, none at the start. `gap` is the
strongest gap since. A text that is not empty ends in a newline. -/
def emit (last : Option Char) (gap : Gap) : List Piece → List Char
  | [] =>
    match last with
    | none | some '\n' => []
    | some _ => ['\n']
  | .gap g :: rest => emit last (gap.max g) rest
  | .token text :: rest =>
    let between := match last, text.head? with
      | some l, some f => gap.separator l f
      | _, _ => []
    between ++ text ++ emit (text.getLast?.or last) .none rest

/-- The condensed script. -/
def Condenser.condense (condenser : Condenser) (source : List Char) :
    Except MinifyError (List Char) :=
  match scan source with
  | .error e => .error ⟨e.offset, e.message⟩
  | .ok segments => .ok (emit none .none (condenser.pieces segments))

/-- The condensed script, as a string. -/
def Condenser.minify (condenser : Condenser) (source : String) : Except MinifyError String :=
  (condenser.condense source.toList).map String.ofList

end LocaleScript.Script
