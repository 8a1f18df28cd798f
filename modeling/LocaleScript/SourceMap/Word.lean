import LocaleScript.SourceMap.Vlq

/-!
# Quantities in words

An integer of 64 bits is written without leaving the word. A shift to the left makes room for the
sign in the lowest bit; then each digit is taken from the lowest five bits, and a shift to the right
that keeps the sign of the word goes on to the next.

## Termination

A word that the first shift has made negative is never shifted down to zero, so there is no end to
its digits. `wordDigits` is given a number of rounds and has no value if they end first. The value
does not depend on the number, and thirteen rounds end later than any digits that end
(`exists_wordDigits_iff` of `LocaleScript.Proofs.SourceMap.Word`).
-/

namespace LocaleScript.SourceMap.Vlq

/-- The digits of a word, if the last one is taken in one of the rounds. -/
def wordDigits : Nat → Int64 → Option (List Char)
  | 0, _ => none
  | rounds + 1, w => do
    let digit := (w &&& 31).toUInt64.toNat
    let rest := w >>> 5
    let c := digitChar (if 0 < rest then digit ||| 32 else digit)
    if rest = 0 then return [c] else return c :: (← wordDigits rounds rest)

/-- The word that stands for an integer: twice its size, with the lowest bit set for a negative one.
Bits that do not fit are lost. -/
def zigzagWord (v : Int64) : Int64 :=
  if v < 0 then ((-v) <<< 1) ||| 1 else v <<< 1

/-- The digits of an integer; none if there is no end to them. -/
def encodeWord? (v : Int64) : Option (List Char) :=
  wordDigits 13 (zigzagWord v)

end LocaleScript.SourceMap.Vlq
