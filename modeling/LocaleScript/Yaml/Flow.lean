import LocaleScript.Yaml.Gap
import LocaleScript.Json.Reader

/-!
# Plain and quoted scalars

A plain scalar has no marks around it and ends where something else begins. A scalar in single
quotes holds a quote as two; one in double quotes holds escapes. All of them may go over several
lines, which are folded.

## Termination

The loops go from word to word; a gap is not empty, which each of them makes sure of before it goes
on.
-/

namespace LocaleScript.Yaml

/-! ## Plain scalars -/

/-- The characters up to the next blank or to an indicator that ends a plain scalar. Inside a flow
collection a colon must not stand before certain indicators. -/
def plainWord (inFlow : Bool) : List Char → Option (List Char)
  | [] => some []
  | c :: cs =>
    if isSpace c || isBreak c then some []
    else if c = ':' && inFlow && cs.head?.any (fun d => isFlowIndicator d || d == '?') then none
    else if c = ':' && endsWord cs then some []
    else if inFlow && isFlowIndicator c then some []
    else (plainWord inFlow cs).map (c :: ·)

/-- The text of a plain scalar from here on. `gap` stands before this place. Also tells whether the
place where the scalar ends lies on a later line than its last word. -/
def plainWords (inFlow : Bool) (column : Nat) (gap : Gap) (cur : Cursor) :
    Option (List Char × Bool × Cursor) :=
  if cur.atSeparator || cur.isAt '#' then some ([], gap.crossesLine, cur)
  else
    match plainWord inFlow cur.rest with
    | none => none
    | some [] => some ([], gap.crossesLine, cur)
    | some word =>
      let behind := cur.skip word.length
      let text := gap.text ++ word
      match Gap.read column behind with
      | none => none
      | some (next, after) =>
        -- Without a gap the word ends the scalar, and nothing of what follows belongs to it.
        if behind.rest.length = after.rest.length then some (text, false, behind)
        else if !inFlow && after.column < column then some (text, next.crossesLine, after)
        else if after.rest.length < cur.rest.length then
          (plainWords inFlow column next after).map fun (more, r) => (text ++ more, r)
        else none
termination_by cur.rest.length

/-- A plain scalar that begins here; in a block its lines stand at least at the given column. -/
def readPlain (inFlow : Bool) (column : Nat) (cur : Cursor) : Option (List Char × Bool × Cursor) :=
  plainWords inFlow column (.blanks []) cur

/-! ## Quoted scalars -/

/-- What a character behind a backslash stands for. -/
def escaped? (c : Char) : Option Char :=
  if c = '"' ∨ c = '\\' ∨ c = '/' ∨ c = ' ' ∨ c = '\t' then some c
  else if c = '0' then some '\x00'
  else if c = 'a' then some '\x07'
  else if c = 'b' then some '\x08'
  else if c = 't' then some '\t'
  else if c = 'n' then some '\n'
  else if c = 'v' then some '\x0b'
  else if c = 'f' then some '\x0c'
  else if c = 'r' then some '\r'
  else if c = 'e' then some '\x1b'
  else if c = 'N' then some '\u0085'
  else if c = '_' then some '\u00a0'
  else if c = 'L' then some '\u2028'
  else if c = 'P' then some '\u2029'
  else none

/-- The number of digits behind an escape that gives a character by its number. -/
def escapeWidth? (c : Char) : Option Nat :=
  if c = 'x' then some 2 else if c = 'u' then some 4 else if c = 'U' then some 8 else none

/-- The character whose number these digits are. -/
def numbered? (digits : List Char) : Option Char :=
  match digits.mapM Json.hexValue? with
  | none => none
  | some values =>
    let n := values.foldl (fun n d => 16 * n + d) 0
    if h : n.isValidChar then some (Char.ofNatAux n h) else none

/-- How the run of characters in a quoted scalar ends. -/
inductive RunEnd where
  /-- At a blank, a line break or the end of the document. -/
  | gap
  | quote
  /-- At a line break behind a backslash. -/
  | escapedBreak
deriving DecidableEq, Repr

/-- Puts a character in front of a run. -/
def consRun (c : Char) (r : Option (List Char × RunEnd × List Char)) :
    Option (List Char × RunEnd × List Char) :=
  r.map fun (run, stop, rest) => (c :: run, stop, rest)

/-- The characters up to a gap or the closing quote in single quotes. -/
def singleRun : List Char → Option (List Char × RunEnd × List Char)
  | '\'' :: '\'' :: cs => consRun '\'' (singleRun cs)
  | '\'' :: cs => some ([], .quote, cs)
  | c :: cs =>
    if isSpace c || isBreak c then some ([], .gap, c :: cs) else consRun c (singleRun cs)
  | [] => some ([], .gap, [])

/-- The characters up to a gap or the closing quote in double quotes. -/
def doubleRun : List Char → Option (List Char × RunEnd × List Char)
  | '"' :: cs => some ([], .quote, cs)
  | ['\\'] => none
  | '\\' :: c :: cs =>
    if isBreak c then some ([], .escapedBreak, c :: cs)
    else
      match escapeWidth? c with
      | none =>
        match escaped? c with
        | none => none
        | some d => consRun d (doubleRun cs)
      | some width =>
        if cs.length < width then none
        else
          match numbered? (cs.take width) with
          | none => none
          | some d => consRun d (doubleRun (cs.drop width))
  | c :: cs =>
    if isSpace c || isBreak c then some ([], .gap, c :: cs) else consRun c (doubleRun cs)
  | [] => some ([], .gap, [])
termination_by cs => cs.length
decreasing_by all_goals simp only [List.length_cons, List.length_drop]; omega

/-- The two kinds of quotes. -/
inductive Quote where
  | single
  | double
deriving DecidableEq, Repr

/-- The characters up to a gap or the closing quote. -/
def Quote.run : Quote → List Char → Option (List Char × RunEnd × List Char)
  | .single => singleRun
  | .double => doubleRun

/-- The gap behind a run. -/
def gapAfter (stop : RunEnd) (cur : Cursor) : Option (Gap × Cursor) :=
  match stop with
  | .escapedBreak =>
    match cur.lineBreak? with
    | none => none
    | some (_, next) => (Gap.readBreaks 0 next).map fun p => (.breaks none p.1, p.2)
  | _ => Gap.read 0 cur

/-- The text of a quoted scalar from here to its closing quote. A line that separates documents must
not stand in it. -/
def quotedWords (quote : Quote) (cur : Cursor) : Option (List Char × Cursor) :=
  if cur.atSeparator || cur.rest.isEmpty then none
  else
    match quote.run cur.rest with
    | none => none
    | some (run, .quote, rest) => some (run, cur.moveTo rest)
    | some (run, stop, rest) =>
      match gapAfter stop (cur.moveTo rest) with
      | none => none
      | some (gap, after) =>
        if after.rest.length < cur.rest.length then
          (quotedWords quote after).map fun (more, last) => (run ++ gap.text ++ more, last)
        else none
termination_by cur.rest.length

/-- A quoted scalar whose opening quote stands here. -/
def readQuoted (quote : Quote) (cur : Cursor) : Option (List Char × Cursor) :=
  quotedWords quote (cur.skip 1)

end LocaleScript.Yaml
