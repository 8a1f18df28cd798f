import LocaleScript.Yaml.Cursor

/-!
# Block scalars

A block scalar holds the lines below its header that are indented far enough. A literal one keeps
its line breaks, a folded one joins lines that do not begin with a blank. The header says how far
the lines are indented, if their first line does not tell, and what becomes of the line breaks at
the end.

## Termination

The loops go from line to line, which is why `Cursor.length_lt_of_lineBreak?` ends them.
-/

namespace LocaleScript.Yaml

/-- What becomes of the line breaks behind the last line. -/
inductive Chomping where
  /-- All are dropped. -/
  | strip
  /-- The first is kept. -/
  | clip
  /-- All are kept. -/
  | keep
deriving DecidableEq, Repr

/-- The header of a block scalar behind its mark. -/
structure BlockHeader where
  chomping : Chomping
  /-- How much further than the block around them the lines are indented. -/
  increment : Option Nat
deriving DecidableEq, Repr

/-- The chomping that a character stands for. -/
def chomping? (c : Char) : Option Chomping :=
  if c = '+' then some .keep else if c = '-' then some .strip else none

/-- The digit that stands first, none if there is none, and the rest; a zero is refused. -/
def readIncrement : List Char → Option (Option Nat × List Char)
  | c :: cs =>
    if c = '0' then none
    else if c.isDigit then some (some (c.toNat - '0'.toNat), cs)
    else some (none, c :: cs)
  | [] => some (none, [])

/-- Reads the header: a digit and a chomping, in either order, both of which may be missing. -/
def readHeader (cs : List Char) : Option (BlockHeader × List Char) :=
  match cs.head?.bind chomping? with
  | some chomping => (readIncrement (cs.drop 1)).map fun (n, rest) => (⟨chomping, n⟩, rest)
  | none =>
    match readIncrement cs with
    | none => none
    | some (none, rest) => some (⟨.clip, none⟩, rest)
    | some (some n, rest) =>
      match rest.head?.bind chomping? with
      | some chomping => some (⟨chomping, n⟩, rest.drop 1)
      | none => some (⟨.clip, n⟩, rest)

/-- Goes over empty lines and the indentation of the next line, up to the given column or, if there
is none, over all its spaces. Gives the line breaks, the greatest column reached and the place. A
tab in the indentation is refused. -/
def readEmptyLines (column? : Option Nat) (widest : Nat) (cur : Cursor) :
    Option (List Char × Nat × Cursor) :=
  let spaces := (cur.rest.takeWhile (· == ' ')).length
  let indented := cur.skip ((column?.map (· - cur.column)).elim spaces (min spaces))
  let widest := max widest indented.column
  if indented.isAt '\t' && column?.all (indented.column < ·) then none
  else
    match h : indented.lineBreak? with
    | none => some ([], widest, indented)
    | some (c, next) =>
      have : next.rest.length < cur.rest.length :=
        Nat.lt_of_lt_of_le (Cursor.length_lt_of_lineBreak? h) (List.drop_sublist ..).length_le
      (readEmptyLines column? widest next).map fun (breaks, r) => (c :: breaks, r)
termination_by cur.rest.length

/-- What stands for the line break between two lines and the empty lines behind it. Folding applies
between lines that do not begin with a blank. -/
def joinLines (folded : Bool) (first : Option Char) (others : List Char) : List Char :=
  if folded && first == some '\n' then (if others.isEmpty then [' '] else others)
  else first.toList ++ others

/-- The lines of a block scalar from here on. `first` and `others` are the line breaks before this
place and `wasBlank` says whether the line before them began with a blank. Gives the text, the line
breaks behind the last line and the place. -/
def blockLines (literal : Bool) (column : Nat) (wasBlank : Bool) (first : Option Char)
    (others : List Char) (cur : Cursor) : Option (List Char × Option Char × List Char × Cursor) :=
  if cur.column ≠ column || cur.rest.isEmpty then some ([], first, others, cur)
  else
    let isBlank := cur.rest.head?.any isSpace
    let line := cur.rest.takeWhile (!isBreak ·)
    let text := joinLines (!literal && !wasBlank && !isBlank) first others ++ line
    match cur.skipLine.lineBreak? with
    | none => some (text, none, [], cur.skipLine)
    | some (c, next) =>
      match readEmptyLines (some column) 0 next with
      | none => none
      | some (breaks, _, after) =>
        if after.rest.length < cur.rest.length then
          (blockLines literal column isBlank (some c) breaks after).map fun (more, r) =>
            (text ++ more, r)
        else none
termination_by cur.rest.length

/-- A block scalar whose mark stands here, inside a block at column `indent`, if any. -/
def readBlock (literal : Bool) (indent : Option Nat) (cur : Cursor) :
    Option (List Char × Cursor) :=
  match readHeader (cur.rest.drop 1) with
  | none => none
  | some (header, rest) =>
    match (cur.moveTo rest).endLine? with
    | none => none
    | some start =>
      let column? := header.increment.map (indent.getD 0 + ·)
      match readEmptyLines column? 0 start with
      | none => none
      | some (breaks, widest, content) =>
        -- The first line tells the column, but never one outside of the block around it.
        let least := indent.elim 1 (· + 1)
        let column := column?.getD (max widest least)
        match blockLines literal column false none breaks content with
        | none => none
        | some (text, first, others, last) =>
          let tail := match header.chomping with
            | .strip => []
            | .clip => first.toList
            | .keep => first.toList ++ others
          some (text ++ tail, last)

end LocaleScript.Yaml
