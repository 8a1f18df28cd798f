/-!
# Places in a text

Texts are lists of characters; offsets count the bytes of their UTF-8 form, columns count
characters. A place is named by what stands before it, so a position is a function of that text
alone (`Position.after`), and an offset names a place when it is the byte length of a beginning of
the text (`isBoundary`).
-/

namespace LocaleScript.Text

/-! ## Bytes -/

/-- Bytes of the UTF-8 form. -/
def byteLength : List Char → Nat
  | [] => 0
  | c :: cs => c.utf8Size + byteLength cs

@[simp] theorem byteLength_nil : byteLength [] = 0 := rfl

@[simp] theorem byteLength_cons (c : Char) (cs : List Char) :
    byteLength (c :: cs) = c.utf8Size + byteLength cs := rfl

@[simp] theorem byteLength_append (as bs : List Char) :
    byteLength (as ++ bs) = byteLength as + byteLength bs := by
  induction as with
  | nil => exact (Nat.zero_add _).symm
  | cons a as ih => rw [List.cons_append, byteLength_cons, byteLength_cons, ih, Nat.add_assoc]

/-- The longest beginning that takes at most `n` bytes. -/
def takeBytes : Nat → List Char → List Char
  | _, [] => []
  | n, c :: cs => if c.utf8Size ≤ n then c :: takeBytes (n - c.utf8Size) cs else []

/-- Taking the bytes of a beginning gives that beginning back. -/
theorem takeBytes_append (as bs : List Char) : takeBytes (byteLength as) (as ++ bs) = as := by
  induction as with
  | nil =>
    cases bs with
    | nil => rfl
    | cons b bs => simp [takeBytes, Nat.not_le.mpr b.utf8Size_pos]
  | cons a as ih =>
    simp only [List.cons_append, byteLength_cons, takeBytes, Nat.le_add_right, reduceIte,
      Nat.add_sub_cancel_left, ih]

/-- The offset lies between two characters, at an end of the text or beyond it. -/
def isBoundary (offset : Nat) (cs : List Char) : Bool :=
  byteLength cs ≤ offset || byteLength (takeBytes offset cs) == offset

/-! ## Lines -/

/-- Number of lines; a final newline ends the last line and opens no further one. -/
def lineCount (cs : List Char) : Nat :=
  cs.count '\n' + if cs.getLast?.all (· == '\n') then 0 else 1

/-- The pieces between newlines, one more than there are newlines. -/
def splitLines : List Char → List (List Char)
  | [] => [[]]
  | c :: cs =>
    if c = '\n' then [] :: splitLines cs
    else match splitLines cs with
      | [] => [[c]]
      | line :: lines => (c :: line) :: lines

/-- A line and a column, both counted from one. -/
structure Position where
  line : Nat
  column : Nat
deriving DecidableEq, Repr

/-- The place right behind `before`. -/
def Position.after (before : List Char) : Position where
  line := before.count '\n' + 1
  column := (before.reverse.takeWhile (· != '\n')).length + 1

/-- The place of a byte offset: an offset past the end names the end, one inside a character names
the start of that character. -/
def Position.atByte (source : List Char) (offset : Nat) : Position :=
  .after (takeBytes offset source)

end LocaleScript.Text
