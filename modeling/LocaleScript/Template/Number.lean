import LocaleScript.Json.Reader

/-!
# Numbers in templates

A number begins with a digit. It is an integer in base 2, 8, 10 or 16, which 128 bits must hold, or
a decimal with a fraction or an exponent. Underscores may stand anywhere behind the first digit but
at the end, and mean nothing.

A number reaches as far as its characters can be those of a number (`Number.take`); whether they
make one up is asked afterwards (`Number.ofChars?`).
-/

namespace LocaleScript.Template

/-- A number as it is written. -/
inductive Number where
  | int (value : Nat)
  /-- `significand · 10 ^ exponent`. -/
  | decimal (significand : Nat) (exponent : Int)
deriving DecidableEq, Repr

namespace Number

/-- The part of a number in which a character stands. -/
inductive Part where
  /-- The digits of an integer that names its base. -/
  | based
  | whole
  | fraction
  /-- Right behind the letter of an exponent. -/
  | exponentSign
  | exponent
deriving DecidableEq, Repr

/-- The part of the number in which a character stands behind one of a given part, if the number
goes on with it. -/
def Part.next? (base : Nat) (part : Part) (c : Char) : Option Part :=
  if c = '_' then some part
  else if c.isDigit then some (if part = .exponentSign then .exponent else part)
  else match part with
    | .based => if base = 16 ∧ (Json.hexValue? c).isSome then some .based else none
    | .whole =>
      if c = '.' then some .fraction
      else if c = 'e' ∨ c = 'E' then some .exponentSign
      else none
    | .fraction => if c = 'e' ∨ c = 'E' then some .exponentSign else none
    | .exponentSign => if c = '+' ∨ c = '-' then some .exponent else none
    | .exponent => none

/-- The characters of a number, its last part, and what stands behind it. -/
def take (base : Nat) : Part → List Char → List Char × Part × List Char
  | part, [] => ([], part, [])
  | part, c :: cs =>
    match part.next? base c with
    | none => ([], part, c :: cs)
    | some next =>
      let (taken, last, rest) := take base next cs
      (c :: taken, last, rest)

/-- Integers lie below this number. -/
def limit : Nat := Decimal.twoTo 128

/-- The integer that digits stand for. -/
def ofDigits? (base : Nat) (ds : List Char) : Option Nat :=
  match ds.mapM Json.hexValue? with
  | none | some [] => none
  | some values =>
    let n := values.foldl (fun n d => base * n + d) 0
    if values.all (· < base) ∧ n < limit then some n else none

/-- The decimal that characters stand for: digits, perhaps a point and more digits, perhaps an
exponent. -/
def ofDecimal? (cs : List Char) : Option Number :=
  let (whole, rest) := Json.takeDigits cs
  let (fraction, rest) := match rest with
    | '.' :: rest => Json.takeDigits rest
    | rest => ([], rest)
  match Json.readExponent rest with
  | some (exponent, []) =>
    some (.decimal (Decimal.ofDigits (whole ++ fraction)) (exponent.getD 0 - fraction.length))
  | _ => none

/-- The number that characters stand for, the last of which stands in a given part. -/
def ofChars? (base : Nat) (last : Part) (cs : List Char) : Option Number :=
  if cs.getLast? = some '_' then none
  else
    let cs := cs.filter (· ≠ '_')
    match last with
    | .based | .whole => (ofDigits? base cs).map .int
    | .fraction | .exponentSign | .exponent => ofDecimal? cs

/-- The base that two characters in front of a number name. -/
def base? (c d : Char) : Option Nat :=
  if c ≠ '0' then none
  else if d = 'b' ∨ d = 'B' then some 2
  else if d = 'o' ∨ d = 'O' then some 8
  else if d = 'x' ∨ d = 'X' then some 16
  else none

/-- Reads the number at the start of a text that begins with a digit. -/
def read? (cs : List Char) : Option (Number × List Char) :=
  let (base, part, cs) := match cs with
    | c :: d :: rest =>
      match base? c d with
      | some base => (base, Part.based, rest)
      | none => (10, .whole, cs)
    | cs => (10, .whole, cs)
  let (taken, last, rest) := take base part cs
  (ofChars? base last taken).map fun number => (number, rest)

end Number

end LocaleScript.Template
