import LocaleScript.SourceMap.Word
import LocaleScript.Proofs.SourceMap.Vlq
import Mathlib.Data.List.Forall2
import Mathlib.Tactic.Ring

/-!
# Writing integers in words

Below `2 ^ 62` in size an integer fits into a word with its sign beside it, so the shifts of a word
count as products and quotients, and what is written is what is written for the integer
(`encodeWord?_eq_encode`). Beyond that, the word is negative, and there is no end to its digits
(`encodeWord?_eq_none_iff`); only the least integer loses all of its bits and is written as a zero
with a sign.
-/

namespace LocaleScript.SourceMap.Vlq

/-! ## Shifts as numbers -/

theorem toInt_shiftRight_five (w : Int64) : (w >>> 5).toInt = w.toInt / 32 := by
  rw [← Int64.toInt_toBitVec, Int64.toBitVec_shiftRight]
  change (w.toBitVec.sshiftRight 5).toInt = _
  rw [BitVec.toInt_sshiftRight, Int.shiftRight_eq_div_pow]
  rfl

theorem toNat_and_fiveBits {w : Int64} (h : 0 ≤ w.toInt) :
    (w &&& 31).toUInt64.toNat = w.toInt.toNat % 32 := by
  have hle : 0 ≤ w := Int64.le_iff_toInt_le.mpr h
  rw [Int64.toUInt64_and, UInt64.toNat_and, Int64.toNat_toUInt64_of_le hle]
  exact Nat.and_two_pow_sub_one_eq_mod _ 5

theorem toNat_shiftLeft_one (w : Int64) :
    (w <<< 1).toBitVec.toNat = 2 * w.toBitVec.toNat % 2 ^ 64 := by
  rw [Int64.toBitVec_shiftLeft]
  change (w.toBitVec <<< 1).toNat = _
  rw [BitVec.toNat_shiftLeft, Nat.shiftLeft_eq, Nat.pow_one, Nat.mul_comm]

/-- The lowest bit is free behind a shift to the left. -/
theorem toNat_shiftLeft_one_or (w : Int64) :
    ((w <<< 1) ||| 1).toBitVec.toNat = 2 * w.toBitVec.toNat % 2 ^ 64 + 1 := by
  have heven : (w <<< 1).toBitVec.toNat = (w.toBitVec.toNat % 2 ^ 63) <<< 1 := by
    rw [toNat_shiftLeft_one, Nat.shiftLeft_eq]
    omega
  rw [Int64.toBitVec_or, BitVec.toNat_or, ← toNat_shiftLeft_one, heven]
  exact (Nat.shiftLeft_add_eq_or_of_lt (by decide) _).symm

/-- The word of an integer has the lowest 64 bits of its number. -/
theorem toNat_zigzagWord (v : Int64) :
    (zigzagWord v).toBitVec.toNat = zigzag v.toInt % 2 ^ 64 := by
  have hsigned := BitVec.toInt_eq_toNat_cond v.toBitVec
  have hlt := v.toBitVec.isLt
  rw [Int64.toInt_toBitVec] at hsigned
  simp only [zigzagWord, zigzag, Int64.lt_iff_toInt_lt, Int64.toInt_zero]
  split
  · next hneg =>
    rw [toNat_shiftLeft_one_or, Int64.toBitVec_neg, BitVec.toNat_neg]
    split at hsigned <;> omega
  · next hneg =>
    rw [toNat_shiftLeft_one]
    split at hsigned <;> omega

theorem toInt_zigzagWord {v : Int64} (h : v.toInt.natAbs < 2 ^ 62) :
    (zigzagWord v).toInt = zigzag v.toInt := by
  have hsize : zigzag v.toInt < 2 ^ 63 := by
    unfold zigzag
    split <;> omega
  have hword : (zigzagWord v).toBitVec.toNat = zigzag v.toInt := by
    rw [toNat_zigzagWord, Nat.mod_eq_of_lt (by omega)]
  rw [← Int64.toInt_toBitVec, BitVec.toInt_eq_toNat_of_lt (by omega), hword]

/-- The word is negative if it has no room for the number, unless no bit but the sign is left of the
number. -/
theorem zigzagWord_neg_iff (v : Int64) :
    (zigzagWord v).toInt < 0 ↔ 2 ^ 62 ≤ v.toInt.natAbs ∧ v.toInt ≠ -2 ^ 63 := by
  have hword := toNat_zigzagWord v
  have hle := v.le_toInt
  have hlt := v.toInt_lt
  rw [← Int64.toInt_toBitVec, BitVec.toInt_neg_iff, hword, zigzag]
  split <;> omega

/-! ## The digits of a word -/

theorem wordDigits_last {w : Int64} (h : 0 ≤ w.toInt) (hlast : w.toInt.toNat < 32) (rounds : Nat) :
    wordDigits (rounds + 1) w = some [digitChar w.toInt.toNat] := by
  have hrest : w >>> 5 = 0 := by
    rw [← Int64.toInt_inj, toInt_shiftRight_five, Int64.toInt_zero]
    omega
  simp only [wordDigits, toNat_and_fiveBits h, hrest, Int64.lt_irrefl, reduceIte,
    Nat.mod_eq_of_lt hlast]
  rfl

theorem wordDigits_more {w : Int64} (h : 0 ≤ w.toInt) (hmore : 32 ≤ w.toInt.toNat) (rounds : Nat) :
    wordDigits (rounds + 1) w
      = (wordDigits rounds (w >>> 5)).map (digitChar (w.toInt.toNat % 32 + 32) :: ·) := by
  have hrest := toInt_shiftRight_five w
  have hpos : (0 : Int64) < w >>> 5 := by
    rw [Int64.lt_iff_toInt_lt, hrest, Int64.toInt_zero]
    omega
  have hne : w >>> 5 ≠ 0 := by
    intro hzero
    rw [hzero] at hpos
    exact Int64.lt_irrefl hpos
  have hmark : w.toInt.toNat % 32 ||| 32 = w.toInt.toNat % 32 + 32 := by
    have hlow : w.toInt.toNat % 32 < 2 ^ 5 := Nat.mod_lt _ (by decide)
    rw [Nat.or_comm, Nat.add_comm]
    exact (Nat.two_pow_add_eq_or_of_lt hlow 1).symm
  simp only [wordDigits, toNat_and_fiveBits h, hpos, hne, reduceIte, hmark]
  cases wordDigits rounds (w >>> 5) <;> rfl

/-- The digits of a word that is not negative are those of its number. -/
theorem wordDigits_of_nonneg {rounds : Nat} {w : Int64} (h : 0 ≤ w.toInt)
    (hlt : w.toInt.toNat < 32 ^ (rounds + 1)) :
    wordDigits (rounds + 1) w = some (encodeNat w.toInt.toNat) := by
  induction rounds generalizing w with
  | zero =>
    have hlast : w.toInt.toNat < 32 := hlt
    rw [wordDigits_last h hlast, encodeNat, if_neg (Nat.not_le.mpr hlast)]
  | succ rounds ih =>
    rw [encodeNat]
    split
    · next hmore =>
      have hrest : (w >>> 5).toInt = (w.toInt.toNat / 32 : Nat) := by
        rw [toInt_shiftRight_five]
        omega
      have hbehind := ih (w := w >>> 5) (by omega) (by
        rw [hrest, Int.toNat_natCast]
        exact Nat.div_lt_of_lt_mul (by rw [Nat.mul_comm, ← Nat.pow_succ]; exact hlt))
      rw [wordDigits_more h hmore, hbehind, hrest, Int.toNat_natCast, Option.map_some]
    · next hmore =>
      exact wordDigits_last h (Nat.not_le.mp hmore) _

/-- Five bits to a digit, thirteen digits hold a word. -/
theorem wordDigits_thirteen {w : Int64} (h : 0 ≤ w.toInt) :
    wordDigits 13 w = some (encodeNat w.toInt.toNat) := by
  have hlt := w.toInt_lt
  exact wordDigits_of_nonneg h (by omega)

/-- A word that has digits is not negative: a shift to the right keeps the sign, and the last digit
leaves zero. -/
theorem nonneg_of_wordDigits {rounds : Nat} {w : Int64} {cs : List Char}
    (h : wordDigits rounds w = some cs) : 0 ≤ w.toInt := by
  induction rounds generalizing w cs with
  | zero => cases h
  | succ rounds ih =>
    have hrest := toInt_shiftRight_five w
    simp only [wordDigits] at h
    split at h
    · next hzero =>
      rw [hzero, Int64.toInt_zero] at hrest
      omega
    · obtain ⟨ds, hds, -⟩ := Option.bind_eq_some_iff.mp h
      have hbehind := ih hds
      omega

/-- There is no end to the digits of a negative word, and of no other. -/
theorem wordDigits_eq_none_iff (w : Int64) : wordDigits 13 w = none ↔ w.toInt < 0 := by
  constructor
  · intro hnone
    refine Int.not_le.mp fun hnonneg => ?_
    rw [wordDigits_thirteen hnonneg] at hnone
    cases hnone
  · intro hneg
    cases hdigits : wordDigits 13 w with
    | none => rfl
    | some cs => exact absurd (nonneg_of_wordDigits hdigits) (Int.not_le.mpr hneg)

theorem wordDigits_add {rounds : Nat} {w : Int64} {cs : List Char}
    (h : wordDigits rounds w = some cs) (more : Nat) : wordDigits (rounds + more) w = some cs := by
  induction rounds generalizing w cs with
  | zero => cases h
  | succ rounds ih =>
    rw [Nat.succ_add]
    simp only [wordDigits] at h ⊢
    split at h
    · next hlast =>
      rw [if_pos hlast]
      exact h
    · next hmore =>
      obtain ⟨ds, hds, hcs⟩ := Option.bind_eq_some_iff.mp h
      rw [if_neg hmore]
      exact Option.bind_eq_some_iff.mpr ⟨ds, ih hds, hcs⟩

/-- Thirteen rounds find the digits that any number of rounds finds. -/
theorem exists_wordDigits_iff {w : Int64} {cs : List Char} :
    (∃ rounds, wordDigits rounds w = some cs) ↔ wordDigits 13 w = some cs := by
  constructor
  · rintro ⟨rounds, h⟩
    have hthirteen := wordDigits_thirteen (nonneg_of_wordDigits h)
    have hboth := wordDigits_add hthirteen rounds
    rw [Nat.add_comm, wordDigits_add h 13] at hboth
    rw [hthirteen, hboth]
  · exact fun h => ⟨13, h⟩

/-- A word holds what is written for an integer below `2 ^ 62` in size. -/
theorem encodeWord?_eq_encode {v : Int64} (h : v.toInt.natAbs < 2 ^ 62) :
    encodeWord? v = some (encode v.toInt) := by
  have hzigzag := toInt_zigzagWord h
  have hnonneg : 0 ≤ (zigzagWord v).toInt := by
    rw [hzigzag]
    exact Int.natCast_nonneg _
  rw [encodeWord?, wordDigits_thirteen hnonneg, hzigzag, Int.toNat_natCast, encode]

/-- No other integer is written, the least one apart. -/
theorem encodeWord?_eq_none_iff (v : Int64) :
    encodeWord? v = none ↔ 2 ^ 62 ≤ v.toInt.natAbs ∧ v.toInt ≠ -2 ^ 63 := by
  rw [encodeWord?, wordDigits_eq_none_iff, zigzagWord_neg_iff]

/-! ## Rows of integers -/

theorem mapM_encodeWord? {vs : List Int64} (h : ∀ v ∈ vs, v.toInt.natAbs < 2 ^ 62) :
    vs.mapM encodeWord? = some (vs.map fun v => encode v.toInt) := by
  induction vs with
  | nil => rfl
  | cons v vs ih =>
    rw [List.mapM_cons, encodeWord?_eq_encode (h v (.head _)), ih fun u hu => h u (.tail _ hu)]
    rfl

/-- Integers below `2 ^ 62` in size are all written. Read one behind the other, their texts are
these integers and nothing else, and no shorter text is read as one of them. -/
theorem decode_encodeWords {vs : List Int64} (h : ∀ v ∈ vs, v.toInt.natAbs < 2 ^ 62) :
    ∃ texts, vs.mapM encodeWord? = some texts ∧
      decode texts.flatten = some (vs.map Int64.toInt) ∧
      List.Forall₂ (fun v text => text = encode v.toInt ∧
        ∀ cs, decode cs = some [v.toInt] → text.length ≤ cs.length) vs texts := by
  refine ⟨_, mapM_encodeWord? h, ?_, ?_⟩
  · have hrow := decode_flatMap_encode (vs.map Int64.toInt)
    rwa [List.flatMap_map] at hrow
  · rw [List.forall₂_map_right_iff]
    exact List.forall₂_same.mpr fun v _ => ⟨rfl, fun cs => length_encode_le⟩

/-- Both ends of the range, and numbers of one and of two digits. -/
theorem decode_encodeWords_ends :
    (∀ v ∈ ([4611686018427387903, -4611686018427387903, 16, -1, 0] : List Int64),
        v.toInt.natAbs < 2 ^ 62) ∧
      ∃ texts,
        [4611686018427387903, -4611686018427387903, 16, -1, 0].mapM encodeWord? = some texts ∧
        decode texts.flatten = some [4611686018427387903, -4611686018427387903, 16, -1, 0] := by
  have hends : ∀ v ∈ ([4611686018427387903, -4611686018427387903, 16, -1, 0] : List Int64),
      v.toInt.natAbs ≤ 4611686018427387903 := by
    simp only [List.forall_mem_cons, List.not_mem_nil, false_imp_iff, implies_true, and_true]
    decide
  have hrange : ∀ v ∈ ([4611686018427387903, -4611686018427387903, 16, -1, 0] : List Int64),
      v.toInt.natAbs < 2 ^ 62 := by
    intro v hv
    have hend := hends v hv
    omega
  obtain ⟨texts, htexts, hdecode, -⟩ := decode_encodeWords hrange
  exact ⟨hrange, texts, htexts, hdecode⟩

end LocaleScript.SourceMap.Vlq
