import LocaleScript.Json.Printer
import LocaleScript.Json.Reader
import LocaleScript.Proofs.Decimal.Shortest

/-!
# Reading numbers back

A number is read to its end, whatever stands behind it that does not continue it (`EndsNumber`). The
digits of an integer are read as the integer. What is written for a double has digits before its
point, without a superfluous zero, and digits behind its point or an exponent, so it is read as one
number in every layout (`isNumeral_magnitude`).
-/

namespace LocaleScript.Json

/-! ## Digits -/

/-- No digit stands at the beginning. -/
def NoDigit (rest : List Char) : Prop :=
  ∀ c ∈ rest.head?, c.isDigit = false

/-- Nothing at the beginning continues a number. -/
def EndsNumber (rest : List Char) : Prop :=
  ∀ c ∈ rest.head?, c.isDigit = false ∧ c ≠ '.' ∧ c ≠ 'e' ∧ c ≠ 'E'

theorem endsNumber_nil : EndsNumber [] := by
  intro c hc
  cases hc

theorem endsNumber_cons {c : Char} (h : c.isDigit = false ∧ c ≠ '.' ∧ c ≠ 'e' ∧ c ≠ 'E')
    (cs : List Char) : EndsNumber (c :: cs) := by
  intro d hd
  obtain rfl := Option.some.inj hd
  exact h

theorem EndsNumber.noDigit {rest : List Char} (h : EndsNumber rest) : NoDigit rest :=
  fun c hc => (h c hc).1

theorem noDigit_cons {c : Char} (h : c.isDigit = false) (cs : List Char) : NoDigit (c :: cs) := by
  intro d hd
  obtain rfl := Option.some.inj hd
  exact h

theorem takeDigits_append {ds rest : List Char} (hds : ∀ c ∈ ds, c.isDigit = true)
    (h : NoDigit rest) : takeDigits (ds ++ rest) = (ds, rest) := by
  have htake : rest.takeWhile Char.isDigit = [] ∧ rest.dropWhile Char.isDigit = rest := by
    cases rest with
    | nil => exact ⟨rfl, rfl⟩
    | cons c cs =>
      have hc := h c rfl
      exact ⟨List.takeWhile_cons_of_neg (by simp [hc]), List.dropWhile_cons_of_neg (by simp [hc])⟩
  unfold takeDigits
  rw [List.takeWhile_append_of_pos hds, List.dropWhile_append_of_pos hds, htake.1, htake.2,
    List.append_nil]

/-! ## Parts of a number -/

/-- Digits before the point: at least one, and no superfluous zero. -/
structure IsWhole (whole : List Char) : Prop where
  isDigit : ∀ c ∈ whole, c.isDigit = true
  head : ∃ d ds, whole = d :: ds ∧ (d = '0' → ds = [])

theorem isWhole_digits (n : Nat) : IsWhole (Decimal.digits n) := by
  obtain ⟨d, ds, hdigits, -, hzero⟩ := Decimal.digits_head n
  exact ⟨fun _ => Decimal.isDigit_of_mem_digits, d, ds, hdigits, hzero⟩

/-- The number with these digits before and behind its point and this exponent. -/
def ofParts (negative : Bool) (whole fraction : List Char) (exponent : Option Int) : Json :=
  if fraction.isEmpty ∧ exponent.isNone then ofWhole negative (Decimal.ofDigits whole)
  else
    let x := Decimal.toFloat (Decimal.ofDigits (whole ++ fraction))
      (exponent.getD 0 - fraction.length)
    .float (if negative then -x else x)

/-- A number is read part by part. -/
theorem readNumber_append (negative : Bool) {whole cs fraction rest rest' : List Char}
    {exponent : Option Int} (h : IsWhole whole) (hcs : NoDigit cs)
    (hfraction : readFraction cs = some (fraction, rest'))
    (hexponent : readExponent rest' = some (exponent, rest)) :
    readNumber negative (whole ++ cs) = some (ofParts negative whole fraction exponent, rest) := by
  obtain ⟨d, ds, hwhole, hzero⟩ := h.head
  unfold readNumber ofParts
  rw [takeDigits_append h.isDigit hcs, hwhole]
  split
  · next hnil => cases hnil
  · next hlead =>
    obtain ⟨rfl, htail⟩ := List.cons.inj (Prod.mk.inj hlead).1
    rw [hzero rfl] at htail
    cases htail
  · next hparts =>
    obtain ⟨rfl, rfl⟩ := Prod.mk.inj hparts
    rw [hfraction]
    simp only [hexponent]
    split <;> rfl

theorem readFraction_of_endsNumber {rest : List Char} (h : EndsNumber rest) :
    readFraction rest = some ([], rest) := by
  unfold readFraction
  split
  · exact absurd rfl (h '.' rfl).2.1
  · rfl

theorem readExponent_of_endsNumber {rest : List Char} (h : EndsNumber rest) :
    readExponent rest = some (none, rest) := by
  unfold readExponent
  split
  · next c cs =>
    obtain ⟨-, -, he, hE⟩ := h c rfl
    rw [if_neg (not_or.mpr ⟨he, hE⟩)]
  · rfl

theorem readFraction_point {ds rest : List Char} (hne : ds ≠ [])
    (hds : ∀ c ∈ ds, c.isDigit = true) (h : NoDigit rest) :
    readFraction ('.' :: (ds ++ rest)) = some (ds, rest) := by
  rw [readFraction, takeDigits_append hds h]
  split
  · next hnil => exact absurd (Prod.mk.inj hnil).1 hne
  · next hparts =>
    obtain ⟨rfl, rfl⟩ := Prod.mk.inj hparts
    rfl

theorem readExponent_signed (negative : Bool) (n : Nat) {rest : List Char} (h : NoDigit rest) :
    readExponent ('e' :: (if negative then '-' else '+') :: (Decimal.digits n ++ rest))
      = some (some (if negative then -(n : Int) else n), rest) := by
  obtain ⟨d, ds, hdigits, -⟩ := Decimal.digits_head n
  have hvalue := Decimal.ofDigits_digits n
  have htake : takeDigits (Decimal.digits n ++ rest) = (Decimal.digits n, rest) :=
    takeDigits_append (fun _ => Decimal.isDigit_of_mem_digits) h
  rw [hdigits] at hvalue htake ⊢
  cases negative <;> simp only [readExponent, htake, hvalue, true_or, reduceIte, Bool.false_eq_true]

/-- Without a sign an exponent is read as with a plus. -/
theorem readExponent_digits (n : Nat) (rest : List Char) :
    readExponent ('e' :: (Decimal.digits n ++ rest))
      = readExponent ('e' :: '+' :: (Decimal.digits n ++ rest)) := by
  obtain ⟨d, ds, hdigits, hd, -⟩ := Decimal.digits_head n
  have hsign (c : Char) (hc : c.isDigit = false) (cs : List Char) :
      ¬Decimal.digits n ++ rest = c :: cs := by
    intro hcons
    rw [hdigits, List.cons_append] at hcons
    rw [(List.cons.inj hcons).1, hc] at hd
    cases hd
  rw [readExponent, readExponent]
  · rw [if_pos (.inl rfl), if_pos (.inl rfl)]
  · exact fun cs => hsign '-' rfl cs
  · exact fun cs => hsign '+' rfl cs

/-- An exponent is read, with a plus if it has one. -/
theorem readExponent_integer {sign : List Char} {n : Int}
    (hsign : sign = [] ∨ sign = ['+'] ∧ 0 ≤ n) {rest : List Char} (h : NoDigit rest) :
    readExponent ('e' :: (sign ++ Decimal.integer n ++ rest)) = some (some n, rest) := by
  cases n with
  | ofNat n =>
    rcases hsign with rfl | ⟨rfl, -⟩
    · exact (readExponent_digits n rest).trans (readExponent_signed false n h)
    · exact readExponent_signed false n h
  | negSucc n =>
    rcases hsign with rfl | ⟨-, hnegative⟩
    · exact readExponent_signed true (n + 1) h
    · exact absurd hnegative (Int.not_le.mpr (Int.negSucc_lt_zero n))

theorem readNumber_digits (negative : Bool) (n : Nat) {rest : List Char} (h : EndsNumber rest) :
    readNumber negative (Decimal.digits n ++ rest) = some (ofWhole negative n, rest) := by
  rw [readNumber_append negative (isWhole_digits n) h.noDigit (readFraction_of_endsNumber h)
    (readExponent_of_endsNumber h), ofParts, if_pos ⟨rfl, rfl⟩, Decimal.ofDigits_digits]

/-! ## Doubles -/

/-- The characters are read as one number, whatever ends the number behind them. -/
def IsNumeral (cs : List Char) : Prop :=
  ∃ value : Bool → Json, ∀ negative rest, EndsNumber rest →
    readNumber negative (cs ++ rest) = some (value negative, rest)

theorem IsNumeral.exists_cons {cs : List Char} (h : IsNumeral cs) :
    ∃ c cs', cs = c :: cs' ∧ c.isDigit = true := by
  obtain ⟨value, hread⟩ := h
  have hread := hread false [] endsNumber_nil
  rw [List.append_nil] at hread
  cases cs with
  | nil => cases hread
  | cons c cs =>
    refine ⟨c, cs, rfl, ?_⟩
    cases hc : c.isDigit with
    | true => rfl
    | false =>
      have htake := takeDigits_append (fun _ h => absurd h List.not_mem_nil) (noDigit_cons hc cs)
      rw [List.nil_append] at htake
      rw [readNumber, htake] at hread
      cases hread

section

variable {whole fraction : List Char}

theorem isNumeral_point (h : IsWhole whole) (hne : fraction ≠ [])
    (hfraction : ∀ c ∈ fraction, c.isDigit = true) : IsNumeral (whole ++ '.' :: fraction) := by
  refine ⟨fun negative => ofParts negative whole fraction none, fun negative rest hrest => ?_⟩
  rw [List.append_assoc, List.cons_append]
  exact readNumber_append negative h (noDigit_cons rfl _)
    (readFraction_point hne hfraction hrest.noDigit) (readExponent_of_endsNumber hrest)

theorem isNumeral_exponent (h : IsWhole whole) {sign : List Char} {n : Int}
    (hsign : sign = [] ∨ sign = ['+'] ∧ 0 ≤ n) :
    IsNumeral (whole ++ 'e' :: (sign ++ Decimal.integer n)) := by
  refine ⟨fun negative => ofParts negative whole [] (some n), fun negative rest hrest => ?_⟩
  rw [List.append_assoc, List.cons_append]
  exact readNumber_append negative h (noDigit_cons rfl _) rfl
    (readExponent_integer hsign hrest.noDigit)

theorem isNumeral_point_exponent (h : IsWhole whole) (hne : fraction ≠ [])
    (hfraction : ∀ c ∈ fraction, c.isDigit = true) {sign : List Char} {n : Int}
    (hsign : sign = [] ∨ sign = ['+'] ∧ 0 ≤ n) :
    IsNumeral (whole ++ '.' :: fraction ++ 'e' :: (sign ++ Decimal.integer n)) := by
  refine ⟨fun negative => ofParts negative whole fraction (some n), fun negative rest hrest => ?_⟩
  simp only [List.append_assoc, List.cons_append]
  have hexponent := readExponent_integer hsign hrest.noDigit
  rw [List.append_assoc] at hexponent
  exact readNumber_append negative h (noDigit_cons rfl _)
    (readFraction_point hne hfraction (noDigit_cons rfl _)) hexponent

end

section

variable {p : Decimal.Pointed} (hdigits : ∀ c ∈ p.digits, c.isDigit = true)
  (hhead : ∃ d ds, p.digits = d :: ds ∧ d ≠ '0')

include hdigits hhead

theorem isNumeral_positional : IsNumeral p.positional := by
  obtain ⟨d, ds, hcons, hd⟩ := hhead
  have hzeros (n : Nat) : ∀ c ∈ List.replicate n '0', c.isDigit = true := by
    intro c hc
    rw [List.eq_of_mem_replicate hc]
    rfl
  have hne : p.digits ≠ [] := hcons ▸ List.cons_ne_nil _ _
  unfold Decimal.Pointed.positional
  split
  · refine @isNumeral_point ['0'] _ ⟨by simp, '0', [], rfl, fun _ => rfl⟩ ?_ ?_
    · exact List.append_ne_nil_of_right_ne_nil _ hne
    · exact List.forall_mem_append.mpr ⟨hzeros _, hdigits⟩
  · next hpoint =>
    dsimp only
    split
    · refine @isNumeral_point _ ['0'] ⟨?_, d, ds ++ _, by rw [hcons]; rfl, ?_⟩
        (List.cons_ne_nil _ _) (by simp)
      · exact List.forall_mem_append.mpr ⟨hdigits, hzeros _⟩
      · exact fun hzero => absurd hzero hd
    · next hplaces =>
      obtain ⟨places, hplace⟩ : ∃ n, p.point.toNat = n + 1 :=
        Nat.exists_eq_add_one_of_ne_zero (by omega)
      refine isNumeral_point ⟨fun c hc => hdigits c (List.mem_of_mem_take hc), d, ds.take places,
        ?_, fun hzero => absurd hzero hd⟩ ?_ fun c hc => hdigits c (List.mem_of_mem_drop hc)
      · rw [hplace, hcons, List.take_succ_cons]
      · intro hnil
        exact hplaces (List.drop_eq_nil_iff.mp hnil)

theorem isNumeral_scientific (plus : Bool) : IsNumeral (p.scientific plus) := by
  obtain ⟨d, ds, hcons, hd⟩ := hhead
  have hwhole : IsWhole (p.digits.take 1) := by
    refine ⟨fun c hc => hdigits c (List.mem_of_mem_take hc), d, [], ?_, fun _ => rfl⟩
    rw [hcons, List.take_succ_cons, List.take_zero]
  have hsign : (if plus && (0 : Int) ≤ p.point - 1 then ['+'] else []) = [] ∨
      (if plus && (0 : Int) ≤ p.point - 1 then ['+'] else []) = ['+'] ∧ 0 ≤ p.point - 1 := by
    split
    · next h => exact .inr ⟨rfl, by simpa using (Bool.and_eq_true_iff.mp h).2⟩
    · exact .inl rfl
  unfold Decimal.Pointed.scientific
  dsimp only
  split
  · rw [List.append_nil]
    exact isNumeral_exponent hwhole hsign
  · next hlength =>
    refine isNumeral_point_exponent hwhole ?_
      (fun c hc => hdigits c (List.mem_of_mem_drop hc)) hsign
    intro hnil
    exact hlength (List.drop_eq_nil_iff.mp hnil)

end

/-- The absolute value of a double is written as a number, in every layout. -/
theorem isNumeral_magnitude (l : Decimal.Layout) (x : Float) : IsNumeral (l.magnitude x) := by
  unfold Decimal.Layout.magnitude
  dsimp only
  split
  · exact @isNumeral_point ['0'] ['0'] ⟨by simp, '0', [], rfl, fun _ => rfl⟩
      (List.cons_ne_nil _ _) (by simp)
  · next hsignificand =>
    have hdigits (c : Char) (hc : c ∈ (Decimal.shortest (.ofFloat x)).digits) :=
      Decimal.isDigit_of_mem_shortest hc
    have hhead := Decimal.exists_cons_shortest (Decimal.isWide_ofFloat hsignificand)
    split
    · exact isNumeral_positional hdigits hhead
    · exact isNumeral_scientific hdigits hhead l.plus

end LocaleScript.Json
