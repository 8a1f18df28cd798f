import LocaleScript.Json.Value
import LocaleScript.Decimal.Layout
import LocaleScript.Json.Reader

/-!
# Values of plain scalars

A plain scalar stands for null, a truth value, an integer or a double if it is written like one, and
for itself otherwise. Integers may be written in four bases. Digits behind a zero make a text. A
double must be finite or spelled out as infinite.
-/

namespace LocaleScript.Yaml

/-- The scalar stands for null. -/
def isNull (text : String) : Bool :=
  ["~", "null", "Null", "NULL"].contains text

/-- The truth value that a scalar stands for. -/
def truth? (text : String) : Option Bool :=
  if ["true", "True", "TRUE"].contains text then some true
  else if ["false", "False", "FALSE"].contains text then some false
  else none

/-- A sign in front. -/
inductive Sign where
  | plus
  | minus
deriving DecidableEq, Repr

/-- Splits off a sign. -/
def splitSign : List Char → Option Sign × List Char
  | '+' :: cs => (some .plus, cs)
  | '-' :: cs => (some .minus, cs)
  | cs => (none, cs)

/-- The bases of integers by the letter that stands behind a zero. -/
def base? (c : Char) : Option Nat :=
  if c = 'x' then some 16 else if c = 'o' then some 8 else if c = 'b' then some 2 else none

/-- The number that digits of a base stand for; there is at least one. -/
def ofDigits? (base : Nat) (cs : List Char) : Option Nat :=
  match cs.mapM Json.hexValue? with
  | some (d :: ds) =>
    if (d :: ds).all (· < base) then some ((d :: ds).foldl (fun n d => base * n + d) 0) else none
  | _ => none

/-- The absolute value of an integer behind its sign. -/
def magnitude? (cs : List Char) : Option Nat :=
  match cs with
  | '0' :: c :: digits =>
    match base? c with
    | some base => ofDigits? base digits
    | none => none
  | _ => ofDigits? 10 cs

/-- An integer: a sign, and digits in one of the bases. -/
def integer? (cs : List Char) : Option Int :=
  match splitSign cs with
  | (some .minus, rest) => (magnitude? rest).map fun n => -(n : Int)
  | (_, rest) => (magnitude? rest).map fun n => (n : Int)

/-- More than one digit, of which the first is a zero. -/
def hasLeadingZero (cs : List Char) : Bool :=
  let digits := (splitSign cs).2
  1 < digits.length && digits.head? == some '0' && digits.all Char.isDigit

/-- The absolute value of a decimal: digits, a point with digits, and an exponent. The digits before
or behind the point may be missing, but not both. -/
def decimal? (cs : List Char) : Option Float :=
  let (whole, rest) := Json.takeDigits cs
  let (fraction, rest) := match rest with
    | '.' :: rest => Json.takeDigits rest
    | rest => ([], rest)
  if whole.isEmpty ∧ fraction.isEmpty then none
  else
    match Json.readExponent rest with
    | some (exponent, []) =>
      some (Decimal.toFloat (Decimal.ofDigits (whole ++ fraction))
        (exponent.getD 0 - fraction.length))
    | _ => none

/-- A double that is spelled out. -/
def named? (text : String) : Option Float :=
  let infinity : Float := 1.0 / 0.0
  if [".inf", ".Inf", ".INF", "+.inf", "+.Inf", "+.INF"].contains text then some infinity
  else if ["-.inf", "-.Inf", "-.INF"].contains text then some (-infinity)
  else if [".nan", ".NaN", ".NAN"].contains text then some (0.0 / 0.0)
  else none

/-- The double that a scalar stands for. -/
def double? (text : String) : Option Float :=
  match named? text with
  | some x => some x
  | none =>
    match splitSign text.toList with
    | (sign, rest) =>
      match decimal? rest with
      | some x =>
        if x.isFinite then some (if sign = some .minus then -x else x) else none
      | none => none

/-- An integer as a value, if 64 bits hold it, signed or unsigned. -/
def ofInteger? (n : Int) : Option Json :=
  if -(Json.signedLimit : Int) ≤ n ∧ n < Json.unsignedLimit then some (.int n) else none

/-- Integers that 128 bits hold, signed or unsigned; longer ones do not count as integers. -/
def isWide (n : Int) : Bool :=
  -(Decimal.twoTo 127 : Int) ≤ n && n < Decimal.twoTo 128

/-- What a plain scalar stands for; an integer that 64 bits do not hold is refused. -/
def plainValue? (text : String) : Option Json :=
  if text = "" ∨ isNull text then some .null
  else
    match truth? text with
    | some b => some (.bool b)
    | none =>
      -- Longer digits than 128 bits hold make a double.
      match (integer? text.toList).filter isWide with
      | some n => ofInteger? n
      | none =>
        if hasLeadingZero text.toList then some (.str text)
        else
          match double? text with
          | some x => some (.ofFloat x)
          | none => some (.str text)

end LocaleScript.Yaml
