import Mathlib.Tactic.Ring
import LocaleScript.Decimal.Layout

/-!
# Seventeen digits are enough

The interval of reals that round to a double is wider than a step of the grid of seventeen digits,
so that grid has a candidate, and the search for the shortest decimal of a positive double ends with
a positive number (`search_ne_zero`). Its digits do not begin with a zero (`exists_cons_shortest`).
-/

namespace LocaleScript.Decimal

/-! ## Digits -/

theorem ofDigits_digits (n : Nat) : ofDigits (digits n) = n :=
  Nat.ofDigitChars_ten_toDigits

theorem isDigit_of_mem_digits {n : Nat} {c : Char} (h : c ∈ digits n) : c.isDigit = true :=
  Nat.isDigit_of_mem_toDigits (by decide) (by decide) h

/-- Only the number zero begins with the digit zero. -/
theorem digits_head (n : Nat) :
    ∃ d ds, digits n = d :: ds ∧ d.isDigit = true ∧ (d = '0' → ds = []) := by
  obtain ⟨d, ds, hd⟩ := List.exists_cons_of_ne_nil (Nat.toDigits_ne_nil (n := n) (b := 10))
  have hdigits : digits n = d :: ds := hd
  refine ⟨d, ds, hdigits, isDigit_of_mem_digits (hdigits ▸ List.mem_cons_self), ?_⟩
  clear hd
  rintro rfl
  induction n using Nat.strongRecOn generalizing ds with
  | ind n ih =>
    by_cases hn : n < 10
    · rw [digits, Nat.toDigits_of_lt_base hn] at hdigits
      exact (List.cons.inj hdigits).2.symm
    -- A number with more digits begins like its tenth, which is not zero.
    · exfalso
      rw [digits, Nat.toDigits_of_base_le (by decide) (Nat.le_of_not_lt hn)] at hdigits
      obtain ⟨e, es, he⟩ := List.exists_cons_of_ne_nil (Nat.toDigits_ne_nil (n := n / 10) (b := 10))
      rw [he, List.cons_append] at hdigits
      obtain ⟨rfl, -⟩ := List.cons.inj hdigits
      have hes := ih (n / 10) (by omega) es he
      have hvalue := ofDigits_digits (n / 10)
      rw [digits, he, hes] at hvalue
      have hzero : ofDigits ['0'] = 0 := rfl
      omega

theorem lt_tenTo_length (n : Nat) : n < 10 ^ (digits n).length :=
  (Nat.length_toDigits_le_iff (by decide) Nat.length_toDigits_pos).mp (Nat.le_refl _)

theorem tenTo_length_le {n : Nat} (h : n ≠ 0) : 10 ^ ((digits n).length - 1) ≤ n := by
  have hpos : 0 < (digits n).length := Nat.length_toDigits_pos
  by_contra hlt
  by_cases hone : (digits n).length = 1
  · rw [hone] at hlt
    omega
  · have hshorter : (digits n).length ≤ (digits n).length - 1 :=
      (Nat.length_toDigits_le_iff (by decide) (by omega)).mpr (Nat.lt_of_not_le hlt)
    omega

/-! ## Intervals -/

/-- The interval reaches to both sides of the value, and is wider than a part of it. -/
structure Interval.IsWide (i : Interval) : Prop where
  denominator : 0 < i.denominator
  positive : 0 < i.below
  below : i.below < i.value
  above : i.value < i.above
  width : i.value + 10 ^ 16 * i.below < 10 ^ 16 * i.above

theorem isWide_interval {b : Binary} (hpos : 0 < b.significand) (hlt : b.significand < 2 ^ 53)
    (hnarrow : b.narrowBelow = true → b.significand ≤ 2 ^ 52) : b.interval.IsWide := by
  have hscale : 0 < twoTo (b.exponent - 2).toNat := Nat.two_pow_pos _
  have hpositive : 0 < 4 * b.significand - (if b.narrowBelow then 1 else 2) := by
    split <;> omega
  have hbelow : 4 * b.significand - (if b.narrowBelow then 1 else 2) < 4 * b.significand := by
    split <;> omega
  have hwidth : 4 * b.significand + 10 ^ 16 * (4 * b.significand - if b.narrowBelow then 1 else 2)
      < 10 ^ 16 * (4 * b.significand + 2) := by
    split
    · next h =>
      have := hnarrow h
      omega
    · omega
  refine ⟨Nat.two_pow_pos _, Nat.mul_pos hpositive hscale, ?_, ?_, ?_⟩
  · exact Nat.mul_lt_mul_of_pos_right hbelow hscale
  · exact Nat.mul_lt_mul_of_pos_right (by omega) hscale
  · have h := Nat.mul_lt_mul_of_pos_right hwidth hscale
    rw [Nat.add_mul, Nat.mul_assoc (10 ^ 16), Nat.mul_assoc (10 ^ 16)] at h
    exact h

theorem tenTo_eq (n : Nat) : tenTo n = 10 ^ n := rfl

/-- On the grid of seventeen digits the value has at least so many before the point. -/
theorem Interval.magnitude_le {i : Interval} (hvalue : 0 < i.value) (hden : 0 < i.denominator) :
    10 ^ 16 * (i.denominator * tenTo (i.magnitude - 17).toNat)
      ≤ i.value * tenTo (-(i.magnitude - 17)).toNat := by
  simp only [tenTo_eq]
  by_cases hwhole : i.value / i.denominator = 0
  · -- The value is below one: its magnitude is told by its inverse.
    have hmagnitude : i.magnitude
        = 1 - ((digits ((i.denominator - 1) / i.value)).length : Int) := by
      rw [magnitude, if_pos hwhole]
    have hq := lt_tenTo_length ((i.denominator - 1) / i.value)
    generalize (digits ((i.denominator - 1) / i.value)).length = n at hmagnitude hq
    have hle : i.denominator ≤ i.value * 10 ^ n := by
      have hlt := (Nat.lt_mul_div_succ (i.denominator - 1) hvalue).trans_le
        (Nat.mul_le_mul_left i.value (Nat.succ_le_of_lt hq))
      omega
    have hgrid : (i.magnitude - 17).toNat = 0 ∧ (-(i.magnitude - 17)).toNat = n + 16 := by omega
    rw [hgrid.1, hgrid.2, Nat.pow_zero, Nat.mul_one, Nat.pow_add, ← Nat.mul_assoc, Nat.mul_comm]
    exact Nat.mul_le_mul_right _ hle
  · have hmagnitude : i.magnitude = (digits (i.value / i.denominator)).length := by
      rw [magnitude, if_neg hwhole]
    have hlow := tenTo_length_le hwhole
    have hpos : 0 < (digits (i.value / i.denominator)).length := Nat.length_toDigits_pos
    generalize (digits (i.value / i.denominator)).length = n at hmagnitude hlow hpos
    have hle : i.denominator * 10 ^ (n - 1) ≤ i.value :=
      (Nat.mul_le_mul_left _ hlow).trans (Nat.mul_div_le _ _)
    by_cases hmany : 17 ≤ n
    · have hgrid : (i.magnitude - 17).toNat = n - 17 ∧ (-(i.magnitude - 17)).toNat = 0 := by omega
      have hpow : 10 ^ (n - 1) = 10 ^ 16 * 10 ^ (n - 17) := by
        rw [← Nat.pow_add]
        congr 1
        omega
      rw [hgrid.1, hgrid.2, Nat.pow_zero, Nat.mul_one, Nat.mul_left_comm, ← hpow]
      exact hle
    · have hgrid : (i.magnitude - 17).toNat = 0 ∧ (-(i.magnitude - 17)).toNat = 17 - n := by omega
      have hpow : 10 ^ 16 = 10 ^ (n - 1) * 10 ^ (17 - n) := by
        rw [← Nat.pow_add]
        congr 1
        omega
      rw [hgrid.1, hgrid.2, Nat.pow_zero, Nat.mul_one, hpow, Nat.mul_right_comm,
        Nat.mul_comm _ i.denominator]
      exact Nat.mul_le_mul_right _ hle

/-! ## Candidates -/

/-- A grid point strictly between the ends lies in the interval. -/
theorem Interval.contains_of_lt {i : Interval} {d : Nat} {grid : Int}
    (hbelow : i.below * tenTo (-grid).toNat < d * tenTo grid.toNat * i.denominator)
    (habove : d * tenTo grid.toNat * i.denominator < i.above * tenTo (-grid).toNat) :
    i.contains d grid = true := by
  rw [contains, compareGrid, compareGrid, Nat.compare_eq_gt.mpr hbelow,
    Nat.compare_eq_lt.mpr habove]

/-- Zero lies in no interval of a positive double. -/
theorem Interval.IsWide.contains_zero {i : Interval} (h : i.IsWide) (grid : Int) :
    i.contains 0 grid = false := by
  have hpow : 0 < tenTo (-grid).toNat := Nat.pow_pos (by decide)
  have hzero {numerator : Nat} (hpos : 0 < numerator) :
      compareGrid 0 grid numerator i.denominator = .lt := by
    rw [compareGrid, Nat.zero_mul, Nat.zero_mul]
    exact Nat.compare_eq_lt.mpr (Nat.mul_pos hpos hpow)
  rw [contains, hzero h.positive, hzero (h.positive.trans (h.below.trans h.above))]

theorem Interval.isSome_candidate {i : Interval} {grid : Int} {d : Nat}
    (hd : d = i.value * tenTo (-grid).toNat / (i.denominator * tenTo grid.toNat))
    (h : i.contains d grid = true ∨ i.contains (d + 1) grid = true) :
    (i.candidate grid).isSome = true := by
  unfold candidate
  rw [← hd]
  dsimp only
  split
  · next hbelow habove => simp [hbelow, habove] at h
  · rfl
  · rfl
  · split <;> rfl

/-- The interval is wider than a step of the grid of seventeen digits, so one of the two points next
to the value lies in it. -/
theorem Interval.IsWide.isSome_candidate {i : Interval} (h : i.IsWide) :
    (i.candidate (i.magnitude - 17)).isSome = true := by
  have hmagnitude := magnitude_le (Nat.zero_lt_of_lt h.below) h.denominator
  generalize i.magnitude - 17 = grid at hmagnitude
  have hstep : 0 < i.denominator * tenTo grid.toNat :=
    Nat.mul_pos h.denominator (Nat.pow_pos (by decide))
  have hpow : 0 < tenTo (-grid).toNat := Nat.pow_pos (by decide)
  refine Interval.isSome_candidate rfl ?_
  have hpoint (d : Nat) : d * tenTo grid.toNat * i.denominator
      = d * (i.denominator * tenTo grid.toNat) := by
    rw [Nat.mul_assoc, Nat.mul_comm (tenTo _)]
  have hlow :=
    Nat.div_mul_le_self (i.value * tenTo (-grid).toNat) (i.denominator * tenTo grid.toNat)
  have hhigh := Nat.lt_mul_div_succ (i.value * tenTo (-grid).toNat) hstep
  generalize i.value * tenTo (-grid).toNat / (i.denominator * tenTo grid.toNat) = d at hlow hhigh ⊢
  have hbelow := Nat.mul_lt_mul_of_pos_right h.below hpow
  have habove := Nat.mul_lt_mul_of_pos_right h.above hpow
  have hwidth := Nat.mul_lt_mul_of_pos_right h.width hpow
  rw [Nat.add_mul, Nat.mul_assoc, Nat.mul_assoc] at hwidth
  rw [Nat.mul_comm _ (d + 1)] at hhigh
  have hnext : (d + 1) * (i.denominator * tenTo grid.toNat)
      = d * (i.denominator * tenTo grid.toNat) + i.denominator * tenTo grid.toNat :=
    Nat.succ_mul _ _
  by_cases hcase : i.below * tenTo (-grid).toNat < d * (i.denominator * tenTo grid.toNat)
  · refine .inl (contains_of_lt ?_ ?_)
    · rw [hpoint]
      exact hcase
    · rw [hpoint]
      omega
  · refine .inr (contains_of_lt ?_ ?_)
    · rw [hpoint]
      omega
    · rw [hpoint]
      omega

/-- No candidate is zero. -/
theorem Interval.IsWide.candidate_ne_zero {i : Interval} (h : i.IsWide) {grid : Int} {d : Nat}
    (hd : i.candidate grid = some d) : d ≠ 0 := by
  have hne {d : Nat} (hd : i.contains d grid = true) : d ≠ 0 := by
    rintro rfl
    rw [h.contains_zero] at hd
    cases hd
  unfold candidate at hd
  dsimp only at hd
  split at hd
  · cases hd
  · next hlow _ =>
    rw [← Option.some.inj hd]
    exact hne hlow
  · next _ hhigh =>
    rw [← Option.some.inj hd]
    exact hne hhigh
  · next hlow hhigh =>
    split at hd
    · rw [← Option.some.inj hd]
      exact hne hlow
    · rw [← Option.some.inj hd]
      exact hne hhigh
    · rw [← Option.some.inj hd]
      exact Nat.ne_of_gt (Nat.add_pos_left (Nat.pos_of_ne_zero (hne hlow)) _)

theorem Interval.IsWide.search_ne_zero {i : Interval} (h : i.IsWide) (left : Nat) :
    (i.search i.magnitude left).1 ≠ 0 := by
  induction left with
  | zero =>
    obtain ⟨d, hd⟩ := Option.isSome_iff_exists.mp h.isSome_candidate
    rw [search, hd]
    exact h.candidate_ne_zero hd
  | succ left ih =>
    rw [search]
    split
    · next d hd => exact h.candidate_ne_zero hd
    · exact ih

/-! ## Shortest decimals -/

/-- The digits of a number but zero, without the zeros at their end. -/
theorem exists_cons_trimmed {n : Nat} (h : n ≠ 0) :
    ∃ d ds, ((digits n).reverse.dropWhile (· == '0')).reverse = d :: ds ∧ d ≠ '0' := by
  obtain ⟨d, ds, hdigits, -, hzero⟩ := digits_head n
  have hd : d ≠ '0' := by
    rintro rfl
    have hvalue := ofDigits_digits n
    rw [hdigits, hzero rfl] at hvalue
    exact h hvalue.symm
  refine ⟨d, (ds.reverse.dropWhile (· == '0')).reverse, ?_, hd⟩
  have hlast : [d].dropWhile (· == '0') = [d] := List.dropWhile_cons_of_neg (by simp [hd])
  rw [hdigits, List.reverse_cons, List.dropWhile_append, hlast]
  split
  · next hempty => rw [List.isEmpty_iff.mp hempty, List.reverse_singleton, List.reverse_nil]
  · rw [List.reverse_append, List.reverse_singleton, List.singleton_append]

/-- The shortest decimal of a positive double does not begin with a zero. -/
theorem exists_cons_shortest {b : Binary} (h : b.interval.IsWide) :
    ∃ d ds, (shortest b).digits = d :: ds ∧ d ≠ '0' :=
  exists_cons_trimmed (h.search_ne_zero 16)

theorem isDigit_of_mem_shortest {b : Binary} {c : Char} (h : c ∈ (shortest b).digits) :
    c.isDigit = true := by
  rw [shortest, List.mem_reverse] at h
  exact isDigit_of_mem_digits (List.mem_reverse.mp ((List.dropWhile_suffix _).subset h))

theorem isWide_ofFloat {x : Float} (h : (Binary.ofFloat x).significand ≠ 0) :
    (Binary.ofFloat x).interval.IsWide := by
  have hfraction : x.toBits.toNat % twoTo 63 % twoTo 52 < 2 ^ 52 := Nat.mod_lt _ (by decide)
  refine isWide_interval (Nat.pos_of_ne_zero h) ?_ ?_
  · unfold Binary.ofFloat
    dsimp only
    split
    · exact hfraction.trans (by decide)
    · exact Nat.add_lt_add_right hfraction (2 ^ 52)
  · unfold Binary.ofFloat
    dsimp only
    split
    · intro hnarrow
      cases hnarrow
    · intro hnarrow
      have hzero := (of_decide_eq_true hnarrow).1
      dsimp only
      rw [hzero, Nat.zero_add]
      exact Nat.le_refl _

end LocaleScript.Decimal
