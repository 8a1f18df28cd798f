import LocaleScript.Yaml.Cursor

/-!
# Gaps between words

What stands between two words of a plain or quoted scalar is a gap: blanks of one line, or line
breaks with blanks around them. Blanks are kept. Line breaks are folded: a single one becomes a
space, and of several the first is dropped. The separators of Unicode are never dropped.
-/

namespace LocaleScript.Yaml

/-- What stands between two words. -/
inductive Gap where
  | blanks (text : List Char)
  /-- The first line break, none if it was escaped, and those that follow it. -/
  | breaks (first : Option Char) (others : List Char)
deriving Repr

namespace Gap

/-- What a gap stands for. -/
def text : Gap → List Char
  | blanks text => text
  | breaks (some '\n') [] => [' ']
  | breaks (some '\n') others => others
  | breaks first others => first.toList ++ others

/-- The gap holds a line break. -/
def crossesLine : Gap → Bool
  | blanks _ => false
  | breaks .. => true

/-- Line breaks with blanks around them. A tab left of the given column is refused. -/
def readBreaks (column : Nat) (cur : Cursor) : Option (List Char × Cursor) :=
  let blanks := cur.rest.takeWhile isSpace
  if (blanks.take (column - cur.column)).contains '\t' then none
  else
    match h : (cur.skipWhile isSpace).lineBreak? with
    | none => some ([], cur.skipWhile isSpace)
    | some (c, next) =>
      have : next.rest.length < cur.rest.length :=
        Nat.lt_of_lt_of_le (Cursor.length_lt_of_lineBreak? h) (Cursor.length_skipWhile_le ..)
      (readBreaks column next).map fun p => (c :: p.1, p.2)
termination_by cur.rest.length

/-- The gap that begins here. -/
def read (column : Nat) (cur : Cursor) : Option (Gap × Cursor) :=
  let behind := cur.skipWhile isSpace
  match behind.lineBreak? with
  | none => some (.blanks (cur.rest.takeWhile isSpace), behind)
  | some (c, next) => (readBreaks column next).map fun p => (.breaks (some c) p.1, p.2)

end Gap

end LocaleScript.Yaml
