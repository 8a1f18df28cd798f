import LocaleScript.Text.Blank
import LocaleScript.Template.Number

/-!
# Chunks of a template

A template is text with three kinds of tags: one that prints an expression, one that holds a
statement, and one that holds a comment. This module splits a template into text and the tokens of
its tags, and settles which blanks of the text belong to the output:

* the newline right behind a statement or comment goes with it;
* so do the blanks before a statement or comment that stand alone on its line;
* a minus at an end of a tag takes all blanks on that side, a plus takes none.

## Termination

Each tag takes at least two characters and each token at least one, so the number of characters
bounds the number of steps.
-/

namespace LocaleScript.Template

/-- A token inside a tag. -/
inductive Token where
  | name (name : String)
  | str (value : String)
  | number (number : Number)
  | symbol (symbol : Char)
  | equal
  | unequal
deriving DecidableEq, Repr

/-- A piece of a template. -/
inductive Chunk where
  | text (text : List Char)
  | print (tokens : List Token)
  /-- A statement, with the line on which its first token stands. -/
  | statement (line : Nat) (tokens : List Token)
deriving DecidableEq, Repr

/-! ## Blanks at the ends of a tag -/

/-- What a tag does to the blanks on one of its sides. -/
inductive Trim where
  | standard
  | all
  | nothing
deriving DecidableEq, Repr

/-- What a character at the end of a tag asks for. -/
def Trim.ofChar? (c : Char) : Option Trim :=
  if c = '-' then some .all else if c = '+' then some .nothing else none

/-- Only blanks stand on the last line of a text, if the line has only blanks before the text. -/
def lineIsBlank (blankBefore : Bool) (text : List Char) : Bool :=
  let line := text.reverse.takeWhile (· != '\n')
  line.all Text.isBlank && (blankBefore || line.length < text.length)

/-- Drops the blanks on the last line. -/
def dropIndent (text : List Char) : List Char :=
  (text.reverse.dropWhile fun c => Text.isBlank c && c != '\n').reverse

/-- Drops one line end, and tells whether a new line begins behind it. A carriage return alone is
dropped, but begins no line. -/
def dropLineEnd : List Char → List Char × Bool
  | '\r' :: '\n' :: cs => (cs, true)
  | '\r' :: cs => (cs, false)
  | '\n' :: cs => (cs, true)
  | cs => (cs, false)

/-! ## Tokens -/

/-- A character that begins a name. -/
def isNameStart (c : Char) : Bool :=
  c.isAlpha || c == '_'

/-- A character of a name. -/
def isNameChar (c : Char) : Bool :=
  c.isAlphanum || c == '_'

/-- The characters that are tokens of their own. -/
def symbols : List Char :=
  ['+', '-', '*', '/', '%', '.', ',', ':', '~', '|', '=', '<', '>', '(', ')', '[', ']', '{', '}']

/-- Splits a string literal behind its opening quote from the text behind its closing one. A
backslash protects the next character. -/
def takeLiteral (quote : Char) : List Char → Option (List Char × List Char)
  | [] => none
  | c :: cs =>
    if c = '\\' then
      match cs with
      | [] => none
      | d :: ds => (takeLiteral quote ds).map fun p => (c :: d :: p.1, p.2)
    else if c = quote then some ([], cs)
    else (takeLiteral quote cs).map fun p => (c :: p.1, p.2)

/-- What a character behind a backslash stands for, unless digits follow it. -/
def escape? (c : Char) : Option Char :=
  if c = '\'' then some c
  else if c = 'a' then some '\x07'
  else if c = 'v' then some '\x0b'
  else Json.unescape? c

/-- The character of a number, if it has one. -/
def scalar? (n : Nat) : Option Char :=
  if n.isValidChar then some (Char.ofNat n) else none

/-- What the characters behind a backslash stand for, and how many of them do. Surrogates must come
in pairs, and an escape that takes hexadecimal digits must have them; a backslash before a character
that no escape begins with stands for itself. -/
def readEscape? : List Char → Option (List Char × Nat)
  | 'u' :: a :: b :: c :: d :: cs =>
    match Json.hexValue4? a b c d with
    | none => none
    | some unit =>
      if unit < 0xD800 ∨ 0xDFFF < unit then some ([Char.ofNat unit], 5)
      else if 0xDC00 ≤ unit then none
      else
        match cs with
        | '\\' :: 'u' :: e :: f :: g :: h :: _ =>
          match Json.hexValue4? e f g h with
          | none => none
          | some low =>
            if 0xDC00 ≤ low ∧ low ≤ 0xDFFF then some ([Json.surrogatePair unit low], 11) else none
        | _ => none
  | 'x' :: a :: b :: _ => (Number.ofDigits? 16 [a, b]).map fun n => ([Char.ofNat n], 3)
  | 'U' :: a :: b :: c :: d :: e :: f :: g :: h :: _ =>
    ((Number.ofDigits? 16 [a, b, c, d, e, f, g, h]).bind scalar?).map fun long => ([long], 9)
  | 'u' :: _ | 'x' :: _ | 'U' :: _ | [] => none
  | c :: cs =>
    let octal := ((c :: cs).take 3).takeWhile fun d => (Number.ofDigits? 8 [d]).isSome
    match Number.ofDigits? 8 octal with
    | some n => some ([Char.ofNat n], octal.length)
    | none =>
      match escape? c with
      | some e => some ([e], 1)
      | none => some (['\\', c], 1)

/-- The text that a string literal stands for. -/
def unescape : List Char → Option (List Char)
  | [] => some []
  | c :: cs =>
    if c = '\\' then
      match readEscape? cs with
      | none => none
      | some (meant, count) => (unescape (cs.drop count)).map (meant ++ ·)
    else (unescape cs).map (c :: ·)
termination_by cs => cs.length
decreasing_by
  · exact Nat.lt_succ_of_le (List.length_drop ▸ Nat.sub_le ..)
  · exact Nat.lt_succ_self _

/-- Reads the token that begins with `c`. -/
def takeToken (c : Char) (cs : List Char) : Option (Token × List Char) :=
  if c = '"' ∨ c = '\'' then
    match takeLiteral c cs with
    | none => none
    | some (literal, rest) => (unescape literal).map fun s => (.str (String.ofList s), rest)
  else if c.isDigit then (Number.read? (c :: cs)).map fun p => (.number p.1, p.2)
  else if isNameStart c then
    some (.name (String.ofList (c :: cs.takeWhile isNameChar)), cs.dropWhile isNameChar)
  else
    match cs with
    | '=' :: rest =>
      if c = '=' then some (.equal, rest)
      else if c = '!' then some (.unequal, rest)
      else if symbols.contains c then some (.symbol c, cs)
      else none
    | _ => if symbols.contains c then some (.symbol c, cs) else none

/-- How the brackets open so far change with a token. -/
def Token.depthChange : Token → Int
  | .symbol c =>
    if c = '(' ∨ c = '[' ∨ c = '{' then 1 else if c = ')' ∨ c = ']' ∨ c = '}' then -1 else 0
  | _ => 0

/-- What stands behind the end of a tag, if the tag ends here. `close` is the character before its
last brace. -/
def tagEnd? (close : Char) : List Char → Option (Trim × List Char)
  | c :: d :: cs =>
    if c = close ∧ d = '}' then some (.standard, cs)
    else
      match Trim.ofChar? c, cs with
      | some trim, e :: rest => if d = close ∧ e = '}' then some (trim, rest) else none
      | _, _ => none
  | _ => none

/-- Reads the tokens of a tag and its end, which counts only outside of brackets. -/
def takeTokens (close : Char) : Nat → Int → List Char → Option (List Token × Trim × List Char)
  | 0, _, _ => none
  | steps + 1, depth, cs =>
    let cs := cs.dropWhile Text.isAsciiBlank
    match if depth = 0 then tagEnd? close cs else none with
    | some (trim, rest) => some ([], trim, rest)
    | none =>
      match cs with
      | [] => none
      | c :: rest =>
        match takeToken c rest with
        | none => none
        | some (token, rest) =>
          (takeTokens close steps (depth + token.depthChange) rest).map fun (tokens, p) =>
            (token :: tokens, p)

/-- What stands behind a comment, and how it trims. -/
def takeComment : List Char → Option (Trim × List Char)
  | [] => none
  | '#' :: '}' :: cs => some (.standard, cs)
  | c :: '#' :: '}' :: cs => some ((Trim.ofChar? c).getD .standard, cs)
  | _ :: cs => takeComment cs

/-! ## Splitting -/

/-- Which kind of tag opens. -/
inductive Opening where
  | print
  | statement
  | comment
deriving DecidableEq, Repr

/-- The kind of tag that a character behind a brace opens. -/
def Opening.ofChar? (c : Char) : Option Opening :=
  if c = '{' then some .print else if c = '%' then some .statement
  else if c = '#' then some .comment else none

/-- The text up to the next tag, and what stands behind the opening of the tag. -/
def takeText : List Char → List Char × Option (Opening × List Char)
  | [] => ([], none)
  | [c] => ([c], none)
  | c :: d :: cs =>
    match if c = '{' then Opening.ofChar? d else none with
    | some opening => ([], some (opening, cs))
    | none =>
      let (text, tag) := takeText (d :: cs)
      (c :: text, tag)

/-- The part of the text before a tag that belongs to the output. -/
def trimBefore (trim : Trim) (opening : Opening) (blankBefore : Bool) (text : List Char) :
    List Char :=
  match trim, opening with
  | .all, _ => Text.trimEnd text
  | .nothing, _ | .standard, .print => text
  | .standard, _ => if lineIsBlank blankBefore text then dropIndent text else text

/-- What follows a tag: the rest of the template, less the blanks that go with the tag, and whether
that rest begins a line. -/
def trimAfter (trim : Trim) (opening : Opening) (rest : List Char) : List Char × Bool :=
  match trim, opening with
  | .all, _ => (rest.dropWhile Text.isBlank, false)
  | .nothing, _ | .standard, .print => (rest, false)
  | .standard, _ => dropLineEnd rest

/-- A chunk of text, unless there is none. -/
def textChunk (text : List Char) : List Chunk :=
  if text.isEmpty then [] else [.text text]

/-- How many lines end between a text and what is left of it. -/
def linesBetween (whole rest : List Char) : Nat :=
  whole.count '\n' - rest.count '\n'

/-- Splits what is left of a template. `line` is the number of the line, and `blankBefore` says that
only blanks stand before on that line. -/
def splitFrom : Nat → Nat → Bool → List Char → Option (List Chunk)
  | 0, _, _, _ => none
  | steps + 1, line, blankBefore, cs =>
    match takeText cs with
    | (text, none) => some (textChunk text)
    | (text, some (opening, inside)) =>
      let (trim, inside) := match inside with
        | c :: rest => match Trim.ofChar? c with
          | some trim => (trim, rest)
          | none => (.standard, inside)
        | [] => (.standard, inside)
      let lead := textChunk (trimBefore trim opening blankBefore text)
      let behind : Option (List Chunk × Trim × List Char) :=
        match opening with
        | .comment => (takeComment inside).map fun p => ([], p)
        | .print => (takeTokens '}' (inside.length + 1) 0 inside).map fun (tokens, p) =>
            ([.print tokens], p)
        | .statement => (takeTokens '%' (inside.length + 1) 0 inside).map fun (tokens, p) =>
            let first := line + linesBetween cs (inside.dropWhile Text.isAsciiBlank)
            ([.statement first tokens], p)
      match behind with
      | none => none
      | some (tag, trimEnd, rest) =>
        let (next, blank) := trimAfter trimEnd opening rest
        (splitFrom steps (line + linesBetween cs next) blank next).map fun chunks =>
          lead ++ tag ++ chunks

/-- Splits a template; none if a tag does not end or holds what is no token. -/
def split (template : String) : Option (List Chunk) :=
  let cs := template.toList
  splitFrom (cs.length + 1) 1 true cs

end LocaleScript.Template
