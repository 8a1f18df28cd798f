import LocaleScript.Script.Scan
import LocaleScript.Script.Error

/-!
# Brackets

The round, square and curly brackets in the code of a script must be balanced; those in literals and
comments do not count. `unbalanced?` finds the first closing bracket that closes nothing or the
wrong bracket, or else the last opening bracket that stays open.
-/

namespace LocaleScript.Script

/-- The opening bracket for a closing one. -/
def openerOf? (c : Char) : Option Char :=
  if c = ')' then some '(' else if c = ']' then some '[' else if c = '}' then some '{' else none

/-- An opening bracket. -/
def isOpener (c : Char) : Bool :=
  c == '(' || c == '[' || c == '{'

/-- A bracket and the byte offset where it stands. -/
structure Bracket where
  char : Char
  offset : Nat
deriving DecidableEq, Repr

/-- The brackets of a text that begins at a byte offset. -/
def bracketsFrom (start : Nat) : List Char → List Bracket
  | [] => []
  | c :: cs =>
    let rest := bracketsFrom (start + c.utf8Size) cs
    if isOpener c || (openerOf? c).isSome then ⟨c, start⟩ :: rest else rest

/-- The brackets in the code of a script, in order. -/
def codeBrackets (segments : List Segment) : List Bracket :=
  (segments.filter (·.kind == .code)).flatMap fun s => bracketsFrom s.start s.text

/-- Why brackets do not balance. -/
inductive Unbalanced where
  | unexpected (closer : Bracket)
  | unclosed (opener : Bracket)
deriving DecidableEq, Repr

/-- The fault in a row of brackets behind the brackets `opened`, the last opened first. -/
def unbalanced? (opened : List Bracket) : List Bracket → Option Unbalanced
  | [] => opened.head?.map .unclosed
  | b :: bs =>
    match openerOf? b.char with
    | none => unbalanced? (b :: opened) bs
    | some opener =>
      match opened with
      | [] => some (.unexpected b)
      | o :: os => if o.char = opener then unbalanced? os bs else some (.unexpected b)

/-- The reason shown. -/
def Unbalanced.reason : Unbalanced → String
  | .unexpected b => "unexpected `" ++ String.singleton b.char ++ "`"
  | .unclosed b => "unclosed `" ++ String.singleton b.char ++ "`"

/-- Where the fault stands. -/
def Unbalanced.offset : Unbalanced → Nat
  | .unexpected b | .unclosed b => b.offset

/-- Accepts a script that scans and whose brackets balance. -/
def checkBrackets (source : List Char) : Except SourceError Unit :=
  match scan source with
  | .error e => .error (.atByte source e.offset e.message)
  | .ok segments =>
    match unbalanced? [] (codeBrackets segments) with
    | none => .ok ()
    | some fault => .error (.atByte source fault.offset fault.reason)

end LocaleScript.Script
