import LocaleScript.SourceMap.Vlq
import Mathlib.Tactic.Ring

/-!
# Reading variable-length quantities

The inverse of writing: five bits of a digit count, least significant digits first, the sixth says
that the number goes on, and the lowest bit of the number is the sign. Integers that were written
one after the other are read off one by one (`decode_encode_append`), since no integer goes on
behind its last digit. What is written is as short as can be (`length_encode_le`): a text of `k`
digits stands for a number below `32 ^ k`.
-/

namespace LocaleScript.SourceMap.Vlq

/-- The integer that a natural number stands for: half of it, negative if it is odd. -/
def ofZigzag (n : Nat) : Int :=
  if n % 2 = 0 then (n / 2 : Nat) else -(n / 2 : Nat)

/-- The integers of a row of digits. The digits read so far of the first one make up `value`, and
its next digit counts `weight` times. -/
def decodeFrom (value weight : Nat) : List Char → Option (List Int)
  | [] => if weight = 1 then some [] else none
  | c :: cs =>
    match digitValue c with
    | none => none
    | some d =>
      if d < 32 then (decodeFrom 0 1 cs).map (ofZigzag (value + weight * d) :: ·)
      else decodeFrom (value + weight * (d - 32)) (32 * weight) cs

/-- The integers of a row of digits. -/
def decode (cs : List Char) : Option (List Int) :=
  decodeFrom 0 1 cs

@[simp] theorem decode_nil : decode [] = some [] := rfl

theorem ofZigzag_zigzag (v : Int) : ofZigzag (zigzag v) = v := by
  unfold ofZigzag zigzag
  split <;> split <;> omega

theorem decodeFrom_encodeNat (n value weight : Nat) (cs : List Char) :
    decodeFrom value weight (encodeNat n ++ cs)
      = (decode cs).map (ofZigzag (value + weight * n) :: ·) := by
  induction n using Nat.strongRecOn generalizing value weight with
  | ind n ih =>
    rw [encodeNat]
    split
    · next hmore =>
      have hdigit := digitValue_digitChar (show n % 32 + 32 < 64 by omega)
      have hlast : ¬(n % 32 + 32 < 32) := by omega
      have hvalue : value + weight * (n % 32) + 32 * weight * (n / 32) = value + weight * n := by
        rw [Nat.mul_comm 32 weight, Nat.mul_assoc, Nat.add_assoc, ← Nat.mul_add, Nat.mod_add_div]
      simp only [List.cons_append, decodeFrom, hdigit, hlast, reduceIte, Nat.add_sub_cancel]
      rw [ih (n / 32) (by omega), hvalue]
    · next hmore =>
      have hlast : n < 32 := Nat.lt_of_not_le hmore
      have hdigit := digitValue_digitChar (show n < 64 by omega)
      simp only [List.singleton_append, decodeFrom, hdigit, hlast, reduceIte]
      rfl

/-- An integer is read off, whatever follows. -/
theorem decode_encode_append (v : Int) (cs : List Char) :
    decode (encode v ++ cs) = (decode cs).map (v :: ·) := by
  unfold decode encode
  rw [decodeFrom_encodeNat, Nat.zero_add, Nat.one_mul, ofZigzag_zigzag]
  rfl

/-- Integers that were written one after the other are read off one by one. -/
theorem decode_flatMap_encode (vs : List Int) : decode (vs.flatMap encode) = some vs := by
  induction vs with
  | nil => rfl
  | cons v vs ih => rw [List.flatMap_cons, decode_encode_append, ih, Option.map_some]

/-! ## No shorter text -/

theorem digitValue_lt {c : Char} {d : Nat} (h : digitValue c = some d) : d < 64 := by
  unfold digitValue at h
  grind

theorem length_encodeNat_le {n k : Nat} (h : n < 32 ^ (k + 1)) : (encodeNat n).length ≤ k + 1 := by
  induction k generalizing n with
  | zero =>
    have hlast : ¬32 ≤ n := Nat.not_le.mpr h
    rw [encodeNat, if_neg hlast]
    exact Nat.le_refl 1
  | succ k ih =>
    rw [encodeNat]
    split
    · have hrest : n / 32 < 32 ^ (k + 1) :=
        Nat.div_lt_of_lt_mul (by rw [Nat.mul_comm, ← Nat.pow_succ]; exact h)
      exact Nat.succ_le_succ (ih hrest)
    · exact Nat.succ_le_succ (Nat.zero_le _)

/-- The first integer of a text is made up of digits of the text, five bits of each. -/
theorem exists_of_decodeFrom {value weight : Nat} {cs : List Char} {v : Int} {vs : List Int}
    (h : decodeFrom value weight cs = some (v :: vs)) :
    ∃ n k, n < 32 ^ (k + 1) ∧ k + 1 ≤ cs.length ∧ v = ofZigzag (value + weight * n) := by
  induction cs generalizing value weight with
  | nil =>
    rw [decodeFrom] at h
    split at h <;> cases h
  | cons c cs ih =>
    rw [decodeFrom] at h
    cases hd : digitValue c with
    | none =>
      rw [hd] at h
      cases h
    | some d =>
      have hlt := digitValue_lt hd
      simp only [hd] at h
      split at h
      · next hlast =>
        obtain ⟨vs', -, hvs⟩ := Option.map_eq_some_iff.mp h
        exact ⟨d, 0, hlast, Nat.le_add_left _ _, (List.cons.inj hvs).1.symm⟩
      · obtain ⟨n, k, hn, hk, hv⟩ := ih h
        refine ⟨d - 32 + 32 * n, k + 1, ?_, Nat.succ_le_succ hk, ?_⟩
        · rw [Nat.pow_succ]
          omega
        · rw [hv, Nat.mul_add, ← Nat.mul_assoc, Nat.mul_comm weight 32, Nat.add_assoc]

/-- Of the two numbers that stand for zero the smaller one is written. -/
theorem zigzag_ofZigzag_le (n : Nat) : zigzag (ofZigzag n) ≤ n := by
  unfold zigzag ofZigzag
  split <;> split <;> omega

/-- No text that is read as an integer is shorter than what is written for it. -/
theorem length_encode_le {v : Int} {cs : List Char} (h : decode cs = some [v]) :
    (encode v).length ≤ cs.length := by
  obtain ⟨n, k, hn, hk, hv⟩ := exists_of_decodeFrom h
  rw [Nat.zero_add, Nat.one_mul] at hv
  have hle : zigzag v ≤ n := hv ▸ zigzag_ofZigzag_le n
  exact Nat.le_trans (length_encodeNat_le (Nat.lt_of_le_of_lt hle hn)) hk

end LocaleScript.SourceMap.Vlq
