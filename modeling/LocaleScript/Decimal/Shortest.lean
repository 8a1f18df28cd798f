/-!
# Shortest decimals

A double stands for every real that rounds to it. Of the decimals in that interval the shortest are
wanted, and of those the one nearest to the double. Both are found in exact arithmetic on naturals:
a point of a decimal grid lies in the interval only if one of the two grid points next to the double
does, so for each number of digits two candidates are tested.
-/

namespace LocaleScript.Decimal

/-- Decimal digits, most significant first. -/
def digits (n : Nat) : List Char :=
  Nat.toDigits 10 n

/-- A power of two. -/
def twoTo (n : Nat) : Nat := Nat.pow 2 n

/-- A power of ten. -/
def tenTo (n : Nat) : Nat := Nat.pow 10 n

/-- The digits of an integer, behind a minus if it is negative. -/
def integer : Int → List Char
  | .ofNat n => digits n
  | .negSucc n => '-' :: digits (n + 1)

/-- A nonnegative double, `significand · 2 ^ exponent`. -/
structure Binary where
  significand : Nat
  exponent : Int
  /-- The next smaller double is only half as far away as the next greater one. -/
  narrowBelow : Bool

/-- The absolute value of a finite double. -/
def Binary.ofFloat (x : Float) : Binary :=
  let bits : Nat := x.toBits.toNat % twoTo 63
  let stored : Nat := bits / twoTo 52
  let fraction : Nat := bits % twoTo 52
  if stored = 0 then ⟨fraction, -1074, false⟩
  else ⟨fraction + twoTo 52, (stored : Int) - 1075, fraction = 0 ∧ 1 < stored⟩

/-- The reals that round to a double, as numerators over one denominator. Its ends belong to it if
the significand is even. -/
structure Interval where
  below : Nat
  value : Nat
  above : Nat
  denominator : Nat
  closed : Bool

def Binary.interval (b : Binary) : Interval :=
  let scale := twoTo (b.exponent - 2).toNat
  { below := (4 * b.significand - if b.narrowBelow then 1 else 2) * scale
    value := 4 * b.significand * scale
    above := (4 * b.significand + 2) * scale
    denominator := twoTo (2 - b.exponent).toNat
    closed := b.significand % 2 = 0 }

/-- Compares `d · 10 ^ grid` with `numerator / denominator`. -/
def compareGrid (d : Nat) (grid : Int) (numerator denominator : Nat) : Ordering :=
  compare (d * tenTo grid.toNat * denominator) (numerator * tenTo (-grid).toNat)

/-- The grid point lies in the interval. -/
def Interval.contains (i : Interval) (d : Nat) (grid : Int) : Bool :=
  match compareGrid d grid i.below i.denominator, compareGrid d grid i.above i.denominator with
  | .gt, .lt => true
  | .eq, _ | _, .eq => i.closed
  | _, _ => false

/-- The power of ten right above the value: `10 ^ (p - 1) ≤ value < 10 ^ p`. -/
def Interval.magnitude (i : Interval) : Int :=
  let whole := i.value / i.denominator
  if whole = 0 then 1 - ((digits ((i.denominator - 1) / i.value)).length : Int)
  else (digits whole).length

/-- The candidate on a grid: the nearer of the two grid points next to the value that lie in the
interval, of two equally near ones the even one. -/
def Interval.candidate (i : Interval) (grid : Int) : Option Nat :=
  let d := i.value * tenTo (-grid).toNat / (i.denominator * tenTo grid.toNat)
  match i.contains d grid, i.contains (d + 1) grid with
  | false, false => none
  | true, false => some d
  | false, true => some (d + 1)
  | true, true =>
    match compareGrid (2 * d + 1) grid (2 * i.value) i.denominator with
    | .gt => some d
    | .lt => some (d + 1)
    | .eq => some (d + d % 2)

/-- Digits with a point: `0.d₁d₂… · 10 ^ point`. -/
structure Pointed where
  digits : List Char
  point : Int
deriving Repr

/-- Tries the numbers of digits `17 - left, …, 17` in turn. -/
def Interval.search (i : Interval) (magnitude : Int) : Nat → Nat × Int
  | 0 =>
    let grid := magnitude - 17
    ((i.candidate grid).getD 0, grid)
  | left + 1 =>
    let grid := magnitude - (17 - (left + 1) : Nat)
    match i.candidate grid with
    | some d => (d, grid)
    | none => i.search magnitude left

/-- The shortest decimal that rounds to a positive double, the nearest of the shortest. -/
def shortest (b : Binary) : Pointed :=
  let i := b.interval
  let (d, grid) := i.search i.magnitude 16
  let ds := digits d
  ⟨(ds.reverse.dropWhile (· == '0')).reverse, ds.length + grid⟩

end LocaleScript.Decimal
