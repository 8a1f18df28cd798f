import LocaleScript.Decimal.Shortest

/-!
# Layout of decimals

A layout says which numbers are written with all their places and how an exponent is written; one
record per output format. Reading a decimal rounds it to the nearest double.
-/

namespace LocaleScript.Decimal

/-- How a double is written. There is always a point with a digit behind it, or an exponent. -/
structure Layout where
  /-- The least position of the point, counted from the first digit, without an exponent. -/
  least : Int
  /-- The greatest such position. -/
  greatest : Int
  /-- A positive exponent has a plus. -/
  plus : Bool

/-- All places, with at least one on each side of the point. -/
def Pointed.positional (p : Pointed) : List Char :=
  if p.point ≤ 0 then '0' :: '.' :: (List.replicate (-p.point).toNat '0' ++ p.digits)
  else
    let places := p.point.toNat
    if p.digits.length ≤ places then
      p.digits ++ List.replicate (places - p.digits.length) '0' ++ ['.', '0']
    else p.digits.take places ++ '.' :: p.digits.drop places

/-- One digit before the point and an exponent behind. -/
def Pointed.scientific (plus : Bool) (p : Pointed) : List Char :=
  let exponent := p.point - 1
  let sign := if plus && 0 ≤ exponent then ['+'] else []
  p.digits.take 1 ++ (if p.digits.length ≤ 1 then [] else '.' :: p.digits.drop 1)
    ++ 'e' :: (sign ++ integer exponent)

/-- Writes the absolute value. -/
def Layout.magnitude (l : Layout) (x : Float) : List Char :=
  let b := Binary.ofFloat x
  if b.significand = 0 then ['0', '.', '0']
  else
    let p := shortest b
    if l.least ≤ p.point ∧ p.point ≤ l.greatest then p.positional else p.scientific l.plus

/-- Writes a finite double with the fewest digits that read back, the sign of zero included. -/
def Layout.write (l : Layout) (x : Float) : List Char :=
  if twoTo 63 ≤ x.toBits.toNat then '-' :: l.magnitude x else l.magnitude x

/-- The double nearest to `significand · 10 ^ exponent`; infinite if that is out of range. Exponents
far outside the range of doubles are settled without computing the power. -/
def toFloat (significand : Nat) (exponent : Int) : Float :=
  if significand = 0 then 0.0
  else
    let top := ((digits significand).length : Int) + exponent
    if 400 < top then 1.0 / 0.0
    else if top < -400 then 0.0
    else if 0 ≤ exponent then Float.ofScientific significand false exponent.toNat
    else Float.ofScientific significand true (-exponent).toNat

/-- The value of a row of decimal digits. -/
def ofDigits (ds : List Char) : Nat :=
  ds.foldl (fun n c => 10 * n + (c.toNat - '0'.toNat)) 0

end LocaleScript.Decimal
