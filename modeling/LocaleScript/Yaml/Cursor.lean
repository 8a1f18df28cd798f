import LocaleScript.Text.Position
import LocaleScript.Yaml.Class

/-!
# Places in a document

A cursor is a place in a document: the text that follows and where it stands. Layout decides what a
text means, so a cursor knows its column, and its line and offset for the limits on keys.

## Termination

Going over a line break leaves less text (`length_lt_of_lineBreak?`), which ends the loops over
lines.
-/

namespace LocaleScript.Yaml

/-- A place in a document. -/
structure Cursor where
  rest : List Char
  /-- The bytes before. -/
  offset : Nat
  /-- The lines before. -/
  line : Nat
  /-- The characters before on the same line. -/
  column : Nat
deriving Repr

namespace Cursor

/-- The start of a document. -/
def ofChars (cs : List Char) : Cursor := ⟨cs, 0, 0, 0⟩

/-- The characters up to a later place, before which `rest` is left. -/
def upTo (rest : List Char) (cur : Cursor) : List Char :=
  cur.rest.take (cur.rest.length - rest.length)

/-- Goes to a later place on the same line, before which `rest` is left. -/
def moveTo (rest : List Char) (cur : Cursor) : Cursor :=
  let between := cur.upTo rest
  { cur with
    rest := rest
    offset := cur.offset + Text.byteLength between
    column := cur.column + between.length }

/-- Goes over characters of the same line. -/
def skip (n : Nat) (cur : Cursor) : Cursor :=
  cur.moveTo (cur.rest.drop n)

/-- Goes over the characters of a class that holds no line breaks. -/
def skipWhile (p : Char → Bool) (cur : Cursor) : Cursor :=
  cur.moveTo (cur.rest.dropWhile p)

/-- The next character is this one. -/
def isAt (c : Char) (cur : Cursor) : Bool :=
  cur.rest.head? == some c

/-- Goes over the rest of the line. -/
def skipLine (cur : Cursor) : Cursor :=
  cur.skipWhile (!isBreak ·)

/-- The start of the next line, before which `rest` is left. -/
def nextLine (rest : List Char) (cur : Cursor) : Cursor :=
  ⟨rest, cur.offset + Text.byteLength (cur.upTo rest), cur.line + 1, 0⟩

/-- Goes over a line break. In texts it stands for a newline, unless it is one of the two separators
of Unicode, which stand for themselves. -/
def lineBreak? (cur : Cursor) : Option (Char × Cursor) :=
  match cur.rest with
  | '\r' :: '\n' :: rest => some ('\n', cur.nextLine rest)
  | c :: rest =>
    if c = '\u2028' ∨ c = '\u2029' then some (c, cur.nextLine rest)
    else if isBreak c then some ('\n', cur.nextLine rest)
    else none
  | [] => none

theorem length_lt_of_lineBreak? {cur next : Cursor} {c : Char}
    (h : cur.lineBreak? = some (c, next)) : next.rest.length < cur.rest.length := by
  simp only [lineBreak?] at h
  split at h
  · next rest hrest =>
    simp only [Option.some.injEq, Prod.mk.injEq] at h
    rw [← h.2, hrest]
    simp only [nextLine, List.length_cons]
    omega
  · next c rest _ hrest =>
    have hnext : next = cur.nextLine rest := by
      split at h
      · simp_all
      · split at h <;> simp_all
    rw [hnext, hrest]
    simp only [nextLine, List.length_cons]
    omega
  · cases h

@[simp] theorem rest_moveTo (rest : List Char) (cur : Cursor) : (cur.moveTo rest).rest = rest := rfl

/-- Skipping characters leaves no more text. -/
theorem length_skipWhile_le (p : Char → Bool) (cur : Cursor) :
    (cur.skipWhile p).rest.length ≤ cur.rest.length :=
  (List.dropWhile_sublist p).length_le

/-- A line of three marks, at the start of which the cursor stands. -/
def atMarks (mark : Char) (cur : Cursor) : Bool :=
  cur.column == 0 && startsWithMarks mark cur.rest

/-- A line that separates documents. -/
def atSeparator (cur : Cursor) : Bool :=
  cur.atMarks '-' || cur.atMarks '.'

/-- Goes over blanks, a comment and the line break behind them; `none` if something else stands
there. -/
def endLine? (cur : Cursor) : Option Cursor :=
  let cur := cur.skipWhile isSpace
  let cur := if cur.isAt '#' then cur.skipLine else cur
  match cur.lineBreak? with
  | some (_, next) => some next
  | none => if cur.rest.isEmpty then some cur else none

end Cursor

end LocaleScript.Yaml
