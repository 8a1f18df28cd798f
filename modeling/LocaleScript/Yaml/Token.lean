import LocaleScript.Yaml.Flow
import LocaleScript.Yaml.Block
import LocaleScript.Yaml.Tag

/-!
# Tokens of a document

A document is cut into tokens. Where a block begins and ends shows in the columns only, so tokens
for that are put in. A word turns out to be a key when the colon behind it is reached; the scan
remembers where such a word stands, and then puts the token for a key in front of it.

## Termination

Every token and every gap takes text away, which `Scan.run` makes sure of before it goes on.
-/

namespace LocaleScript.Yaml

/-- The two shapes of a collection. -/
inductive Shape where
  | sequence
  | mapping
deriving DecidableEq, Repr

/-- How a scalar is written. -/
inductive Style where
  | plain
  | quoted
  | literal
  | folded
deriving DecidableEq, Repr

/-- A token of a document. -/
inductive Token where
  | directive (directive : Directive)
  | documentStart
  | documentEnd
  | openBlock (shape : Shape)
  | closeBlock
  | openFlow (shape : Shape)
  | closeFlow (shape : Shape)
  /-- An item of a block sequence follows. -/
  | item
  /-- A comma between the parts of a flow collection. -/
  | comma
  | key
  | value
  | alias (name : String)
  | anchor (name : String)
  | tag (tag : WrittenTag)
  | scalar (style : Style) (text : String)
deriving DecidableEq, Repr

/-- A place where a key may have begun. -/
structure Candidate where
  /-- It must be a key, for nothing else may stand there. -/
  isRequired : Bool
  /-- The tokens before. -/
  count : Nat
  offset : Nat
  line : Nat
  column : Nat
deriving Repr

/-- A document that is cut into tokens up to some place. -/
structure Scan where
  cursor : Cursor
  tokens : Array Token
  /-- The columns of the blocks around, the innermost first. -/
  columns : List Nat
  /-- Where the last key of the innermost collection may have begun. -/
  candidate : Option Candidate
  /-- The same of each collection around it, for every flow collection around. -/
  outer : List (Option Candidate)
  /-- A key may begin here. -/
  keyAllowed : Bool

namespace Scan

/-- The start of a document. -/
def ofChars (cs : List Char) : Scan where
  cursor := .ofChars cs
  tokens := #[]
  columns := []
  candidate := none
  outer := []
  keyAllowed := true

/-- The place lies inside a flow collection. -/
def inFlow (s : Scan) : Bool :=
  !s.outer.isEmpty

/-- Adds a token. -/
def push (token : Token) (s : Scan) : Scan :=
  { s with tokens := s.tokens.push token }

/-! ## Keys -/

/-- Gives up the last candidate; one that is required cannot be given up. -/
def dropKey (s : Scan) : Option Scan :=
  if s.candidate.any (·.isRequired) then none else some { s with candidate := none }

/-- Remembers that a key may begin here. -/
def markKey (s : Scan) : Option Scan :=
  if s.keyAllowed then
    s.dropKey.map fun s => { s with candidate := some {
      isRequired := !s.inFlow && s.columns.head? == some s.cursor.column
      count := s.tokens.size
      offset := s.cursor.offset
      line := s.cursor.line
      column := s.cursor.column } }
  else some s

/-- A key takes at most so many bytes. -/
def keyLimit : Nat := 1024

/-- What is left of a candidate here: keys are short and stand on one line. -/
def keep? (cur : Cursor) : Option Candidate → Option (Option Candidate)
  | none => some none
  | some k =>
    if k.line < cur.line ∨ k.offset + keyLimit < cur.offset then
      if k.isRequired then none else some none
    else some (some k)

/-- Gives up the candidates that are no keys any more. -/
def dropStaleKeys (s : Scan) : Option Scan :=
  match keep? s.cursor s.candidate, s.outer.mapM (keep? s.cursor) with
  | some candidate, some outer => some { s with candidate := candidate, outer := outer }
  | _, _ => none

/-! ## Blocks -/

/-- Opens a block at a column, unless it is open already. Its token goes in front of the one with
the given number. -/
def openBlock (shape : Shape) (column number : Nat) (s : Scan) : Scan :=
  if !s.inFlow && s.columns.head?.all (· < column) then
    { s with
      columns := column :: s.columns
      tokens := s.tokens.insertIdxIfInBounds number (.openBlock shape) }
  else s

/-- Closes the blocks right of a column, all of them if there is none. -/
def closeBlocks (column? : Option Nat) (s : Scan) : Scan :=
  if s.inFlow then s
  else
    let columns := s.columns.dropWhile fun column => column?.all (· < column)
    { s with
      columns := columns
      tokens := s.tokens ++ Array.replicate (s.columns.length - columns.length) .closeBlock }

/-! ## Gaps between tokens -/

/-- A blank between tokens. A tab is one only where it cannot be taken for indentation. -/
def isGap (s : Scan) (c : Char) : Bool :=
  c == ' ' || (c == '\t' && (s.inFlow || !s.keyAllowed))

/-- Goes over one line of blanks and comments. A byte order mark may begin it; what follows the mark
stands one column further right. -/
def skipGapOfLine (s : Scan) : Cursor :=
  let cur := s.cursor
  let cur := if cur.column = 0 ∧ cur.isAt '\ufeff' then cur.skip 1 else cur
  let cur := cur.skipWhile s.isGap
  if cur.isAt '#' then cur.skipLine else cur

/-- Goes over blanks, comments and line breaks. In a block a key may begin on a new line. -/
def skipGap (s : Scan) : Scan :=
  match s.skipGapOfLine.lineBreak? with
  | none => { s with cursor := s.skipGapOfLine }
  | some (_, next) =>
    if next.rest.length < s.cursor.rest.length then
      skipGap { s with cursor := next, keyAllowed := s.keyAllowed || !s.inFlow }
    else s
termination_by s.cursor.rest.length

/-! ## Tokens -/

/-- Adds the token of a mark of the given width. -/
def mark (token : Token) (width : Nat) (s : Scan) : Scan :=
  { s with cursor := s.cursor.skip width, tokens := s.tokens.push token }

/-- A directive. -/
def directive (s : Scan) : Option Scan := do
  let s ← (s.closeBlocks none).dropKey
  let (directive, rest) ← readDirective (s.cursor.rest.drop 1)
  let cursor ← (s.cursor.moveTo rest).endLine?
  return { s with cursor, keyAllowed := false, tokens := s.tokens.push (.directive directive) }

/-- A line that separates documents. -/
def separator (token : Token) (s : Scan) : Option Scan := do
  let s ← (s.closeBlocks none).dropKey
  return { s.mark token 3 with keyAllowed := false }

/-- The opening bracket of a flow collection. -/
def openFlow (shape : Shape) (s : Scan) : Option Scan := do
  let s ← s.markKey
  let s := { s with outer := s.candidate :: s.outer, candidate := none, keyAllowed := true }
  return s.mark (.openFlow shape) 1

/-- The closing bracket of a flow collection. -/
def closeFlow (shape : Shape) (s : Scan) : Option Scan := do
  let s ← s.dropKey
  let s := match s.outer with
    | [] => s
    | candidate :: outer => { s with candidate, outer }
  return { s.mark (.closeFlow shape) 1 with keyAllowed := false }

/-- A comma. -/
def comma (s : Scan) : Option Scan := do
  let s ← s.dropKey
  return { s.mark .comma 1 with keyAllowed := true }

/-- The dash of a block sequence. -/
def item (s : Scan) : Option Scan := do
  if !s.inFlow && !s.keyAllowed then none
  let s ← (s.openBlock .sequence s.cursor.column s.tokens.size).dropKey
  return { s.mark .item 1 with keyAllowed := true }

/-- The question mark of a key. -/
def explicitKey (s : Scan) : Option Scan := do
  if !s.inFlow && !s.keyAllowed then none
  let s ← (s.openBlock .mapping s.cursor.column s.tokens.size).dropKey
  return { s.mark .key 1 with keyAllowed := !s.inFlow }

/-- The colon of a value: the candidate, if there is one, is its key. -/
def value (s : Scan) : Option Scan :=
  match s.candidate with
  | some k =>
    -- The key goes in first, so that the block it opens comes to stand in front of it.
    let s := { s with tokens := s.tokens.insertIdxIfInBounds k.count .key, candidate := none }
    some { (s.openBlock .mapping k.column k.count).mark .value 1 with keyAllowed := false }
  | none =>
    if !s.inFlow && !s.keyAllowed then none
    else
      let s := s.openBlock .mapping s.cursor.column s.tokens.size
      some { s.mark .value 1 with keyAllowed := !s.inFlow }

/-- A token that a key may begin with. -/
def keyed (read : List Char → Option (Token × List Char)) (s : Scan) : Option Scan := do
  let s ← s.markKey
  let (token, rest) ← read s.cursor.rest
  return { s with
    cursor := s.cursor.moveTo rest, keyAllowed := false, tokens := s.tokens.push token }

/-- A quoted scalar. -/
def quoted (quote : Quote) (s : Scan) : Option Scan := do
  let s ← s.markKey
  let (text, cursor) ← readQuoted quote s.cursor
  let token := .scalar .quoted (String.ofList text)
  return { s with cursor, keyAllowed := false, tokens := s.tokens.push token }

/-- A plain scalar. A key may begin behind it if it ends on a later line. -/
def plain (s : Scan) : Option Scan := do
  let s ← s.markKey
  let (text, crossed, cursor) ← readPlain s.inFlow (s.columns.head?.elim 0 (· + 1)) s.cursor
  let token := .scalar .plain (String.ofList text)
  return { s with cursor, keyAllowed := crossed, tokens := s.tokens.push token }

/-- A block scalar. -/
def block (style : Style) (s : Scan) : Option Scan := do
  let s ← s.dropKey
  let (text, cursor) ← readBlock (style == .literal) s.columns.head? s.cursor
  let token := .scalar style (String.ofList text)
  return { s with cursor, keyAllowed := true, tokens := s.tokens.push token }

/-- A plain scalar may begin with these characters. -/
def beginsPlain (s : Scan) (c : Char) (rest : List Char) : Bool :=
  !(isSpace c || isBreak c || isIndicator c) || (c == '-' && !rest.head?.any isSpace) ||
    (!s.inFlow && (c == '?' || c == ':') && !endsWord rest)

/-- The next token. -/
def step (s : Scan) : Option Scan :=
  match s.cursor.rest with
  | [] => none
  | c :: rest =>
    if s.cursor.column = 0 ∧ c = '%' then s.directive
    else if s.cursor.atMarks '-' then s.separator .documentStart
    else if s.cursor.atMarks '.' then s.separator .documentEnd
    else if c = '[' then s.openFlow .sequence
    else if c = '{' then s.openFlow .mapping
    else if c = ']' then s.closeFlow .sequence
    else if c = '}' then s.closeFlow .mapping
    else if c = ',' then s.comma
    else if c = '-' ∧ endsWord rest then s.item
    else if c = '?' ∧ (s.inFlow ∨ endsWord rest) then s.explicitKey
    else if c = ':' ∧ (s.inFlow ∨ endsWord rest) then s.value
    else if c = '*' then s.keyed fun cs => (readNodeName (cs.drop 1)).map fun p => (.alias p.1, p.2)
    else if c = '&' then
      s.keyed fun cs => (readNodeName (cs.drop 1)).map fun p => (.anchor p.1, p.2)
    else if c = '!' then s.keyed fun cs => (readTag s.inFlow cs).map fun p => (.tag p.1, p.2)
    else if c = '|' ∧ !s.inFlow then s.block .literal
    else if c = '>' ∧ !s.inFlow then s.block .folded
    else if c = '\'' then s.quoted .single
    else if c = '"' then s.quoted .double
    else if s.beginsPlain c rest then s.plain
    else none

/-- All tokens from here on. -/
def run (s : Scan) : Option (List Token) :=
  match s.skipGap.dropStaleKeys with
  | none => none
  | some t =>
    let t := t.closeBlocks (some t.cursor.column)
    -- At the end a key that is still required is missing its colon.
    if t.cursor.rest.isEmpty then
      (t.closeBlocks none).dropKey.map (·.tokens.toList)
    else
      match t.step with
      | none => none
      | some next =>
        if next.cursor.rest.length < s.cursor.rest.length then next.run else none
termination_by s.cursor.rest.length

end Scan

/-- The tokens of a document. -/
def tokens? (text : String) : Option (List Token) :=
  let cs := text.toList
  if cs.all isAllowed then (Scan.ofChars cs).run else none

end LocaleScript.Yaml
