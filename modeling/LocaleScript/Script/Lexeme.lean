import LocaleScript.Script.Cut
import LocaleScript.Text.Blank

/-!
# Lexemes

A script is read lexeme by lexeme: a literal, a comment, a whole word, or one character of other
code. Each is cut off behind its first character, and the text left is read on.

Whether a `/` divides or opens a regular expression hangs on the lexemes before it. One flag carries
that along: it is set where an operand may begin.

## Termination

`lex` needs no fuel: `Kind.cut_append` says that cutting loses nothing, so the text left is shorter
than the text that was there.
-/

namespace LocaleScript.Script

/-- Words after which an operand begins. -/
def operandWords : List (List Char) :=
  ["return", "typeof", "instanceof", "in", "of", "new", "delete", "void", "throw", "case", "do",
    "else", "yield", "await"].map String.toList

/-! ## Reading lexeme by lexeme -/

/-- A literal, a comment, a word or one other character of code. -/
structure Lexeme where
  kind : Kind
  text : List Char
deriving DecidableEq, Repr

/-- What begins with these characters, where `operand` says that an operand may begin here. -/
def Kind.opened (operand : Bool) (c : Char) (cs : List Char) : Kind :=
  if c = '"' ∨ c = '\'' then .string
  else if c = '\x60' then .template
  else if c = '/' then
    match cs.head? with
    | some '/' => .lineComment
    | some '*' => .blockComment
    | _ => if operand then .regex else .code
  else .code

/-- May an operand begin behind this lexeme, if one might begin before it? Comments and blanks
change nothing, literals are operands themselves, words are unless listed, and of the other
characters only those that end an operand say no. -/
def Lexeme.operandAfter (operand : Bool) (l : Lexeme) : Bool :=
  match l.kind, l.text with
  | .lineComment, _ | .blockComment, _ => operand
  | .code, c :: _ =>
    if isWordChar c then operandWords.contains l.text
    else if Text.isAsciiBlank c then operand
    else !(c == ')' || c == ']' || c == '.')
  | _, _ => false

/-- The lexemes of a text and, if the text ends inside a literal or comment, its kind. -/
structure Lexed where
  lexemes : List Lexeme
  unterminated : Option Kind
deriving DecidableEq, Repr

/-- More lexemes in front of what was read. -/
def Lexed.behind (ls : List Lexeme) (lexed : Lexed) : Lexed :=
  ⟨ls ++ lexed.lexemes, lexed.unterminated⟩

theorem behind_append (ls ms : List Lexeme) (lexed : Lexed) :
    lexed.behind (ls ++ ms) = (lexed.behind ms).behind ls := by
  simp only [Lexed.behind, List.append_assoc]

theorem exists_of_behind_eq {l : Lexeme} {ls : List Lexeme} {lexed : Lexed} {left : Option Kind}
    (h : lexed.behind [l] = ⟨ls, left⟩) : ∃ ms, ls = l :: ms ∧ lexed = ⟨ms, left⟩ := by
  obtain ⟨rfl, rfl⟩ := Lexed.mk.inj h
  exact ⟨lexed.lexemes, rfl, rfl⟩

/-- Reads a text to its end or to the first literal or comment that does not end. -/
def lex (operand : Bool) (cs : List Char) : Lexed :=
  match cs with
  | [] => ⟨[], none⟩
  | c :: rest =>
    let kind := Kind.opened operand c rest
    match _h : kind.cut c rest with
    | none => ⟨[], some kind⟩
    | some (taken, left) =>
      let l : Lexeme := ⟨kind, c :: taken⟩
      let tail := lex (l.operandAfter operand) left
      ⟨l :: tail.lexemes, tail.unterminated⟩
termination_by cs.length
decreasing_by
  have := congrArg List.length (Kind.cut_append _h)
  simp only [List.length_append] at this
  simp only [List.length_cons]
  omega

theorem lex_nil (operand : Bool) : lex operand [] = ⟨[], none⟩ := by
  rw [lex]

theorem lex_cons_none {operand : Bool} {c : Char} {rest : List Char}
    (h : (Kind.opened operand c rest).cut c rest = none) :
    lex operand (c :: rest) = ⟨[], some (Kind.opened operand c rest)⟩ := by
  rw [lex]
  split
  · rfl
  · next h' =>
      rw [h] at h'
      cases h'

theorem lex_cons_some {operand : Bool} {c : Char} {rest taken left : List Char}
    (h : (Kind.opened operand c rest).cut c rest = some (taken, left)) :
    lex operand (c :: rest) = .behind [⟨Kind.opened operand c rest, c :: taken⟩]
      (lex (Lexeme.operandAfter operand ⟨Kind.opened operand c rest, c :: taken⟩) left) := by
  rw [lex]
  split
  · next h' =>
      rw [h] at h'
      cases h'
  · next h' =>
    rw [h] at h'
    obtain ⟨rfl, rfl⟩ := Prod.mk.inj (Option.some.inj h')
    rfl

/-- A text is empty, or it begins with a region that does not end or with a lexeme. -/
theorem lex_induction {motive : Bool → List Char → Prop} (nil : ∀ operand, motive operand [])
    (unterminated : ∀ operand c rest, (Kind.opened operand c rest).cut c rest = none →
      motive operand (c :: rest))
    (lexeme : ∀ operand c rest taken left,
      (Kind.opened operand c rest).cut c rest = some (taken, left) →
      motive (Lexeme.operandAfter operand ⟨Kind.opened operand c rest, c :: taken⟩) left →
      motive operand (c :: rest))
    (operand : Bool) (cs : List Char) : motive operand cs :=
  lex.induct motive nil unterminated lexeme operand cs

end LocaleScript.Script
