/-!
# Variable-length quantities in base 64

An integer is written least significant digits first, five bits to a digit; a sixth bit says that
another digit follows. The lowest bit of the number written is the sign.

## Termination

`encodeNat` divides by 32 as long as the number has more than five bits.
-/

namespace LocaleScript.SourceMap.Vlq

/-- The digit of a value below 64: `A` to `Z`, `a` to `z`, `0` to `9`, `+` and `/`. -/
def digitChar (d : Nat) : Char :=
  if d < 26 then Char.ofNat ('A'.toNat + d)
  else if d < 52 then Char.ofNat ('a'.toNat + d - 26)
  else if d < 62 then Char.ofNat ('0'.toNat + d - 52)
  else if d = 62 then '+'
  else '/'

/-- The value of a digit. -/
def digitValue (c : Char) : Option Nat :=
  let n := c.toNat
  if 0x41 ≤ n ∧ n ≤ 0x5A then some (n - 0x41)
  else if 0x61 ≤ n ∧ n ≤ 0x7A then some (n - 0x61 + 26)
  else if 0x30 ≤ n ∧ n ≤ 0x39 then some (n - 0x30 + 52)
  else if c = '+' then some 62
  else if c = '/' then some 63
  else none

/-- Reading a digit that was written gives its value back. -/
theorem digitValue_digitChar {d : Nat} (h : d < 64) : digitValue (digitChar d) = some d := by
  have hall : ∀ e ∈ List.range 64, digitValue (digitChar e) = some e := by decide
  exact hall d (List.mem_range.mpr h)

/-- The digits of a natural number. -/
def encodeNat (n : Nat) : List Char :=
  if 32 ≤ n then digitChar (n % 32 + 32) :: encodeNat (n / 32) else [digitChar n]
termination_by n
decreasing_by omega

/-- The natural number that stands for an integer: twice its size, odd for a negative one. -/
def zigzag (v : Int) : Nat :=
  if v < 0 then 2 * v.natAbs + 1 else 2 * v.natAbs

/-- The digits of an integer. -/
def encode (v : Int) : List Char :=
  encodeNat (zigzag v)

end LocaleScript.SourceMap.Vlq
