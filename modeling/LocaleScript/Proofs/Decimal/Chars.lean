import LocaleScript.Proofs.Decimal.Shortest

/-!
# Characters of decimals

A decimal is written with digits, signs, a point and the letter of the exponent, in every layout.
-/

namespace LocaleScript.Decimal

/-- A character of decimals. -/
def isDecimalChar (c : Char) : Bool :=
  c.isDigit || c == '-' || c == '+' || c == '.' || c == 'e'

theorem isDecimalChar_of_isDigit {c : Char} (h : c.isDigit = true) : isDecimalChar c = true := by
  simp [isDecimalChar, h]

theorem isDecimalChar_digits {n : Nat} {c : Char} (h : c ∈ digits n) : isDecimalChar c = true :=
  isDecimalChar_of_isDigit (isDigit_of_mem_digits h)

theorem isDecimalChar_integer {n : Int} {c : Char} (h : c ∈ integer n) :
    isDecimalChar c = true := by
  cases n with
  | ofNat n => exact isDecimalChar_digits h
  | negSucc n =>
    rcases List.mem_cons.mp h with rfl | h
    · rfl
    · exact isDecimalChar_digits h

theorem isDecimalChar_shortest {b : Binary} {c : Char} (h : c ∈ (shortest b).digits) :
    isDecimalChar c = true :=
  isDecimalChar_of_isDigit (isDigit_of_mem_shortest h)

theorem isDecimalChar_positional {p : Pointed} (hp : ∀ c ∈ p.digits, isDecimalChar c = true)
    {c : Char} (h : c ∈ p.positional) : isDecimalChar c = true := by
  unfold Pointed.positional at h
  have hzeros {n : Nat} (h : c ∈ List.replicate n '0') : isDecimalChar c = true := by
    rw [List.eq_of_mem_replicate h]
    rfl
  split at h
  · simp only [List.mem_cons, List.mem_append] at h
    rcases h with rfl | rfl | h | h
    · rfl
    · rfl
    · exact hzeros h
    · exact hp c h
  · dsimp only at h
    split at h
    · simp only [List.mem_append, List.mem_cons, List.not_mem_nil, or_false] at h
      rcases h with (h | h) | rfl | rfl
      · exact hp c h
      · exact hzeros h
      · rfl
      · rfl
    · rcases List.mem_append.mp h with h | h
      · exact hp c (List.mem_of_mem_take h)
      · rcases List.mem_cons.mp h with rfl | h
        · rfl
        · exact hp c (List.mem_of_mem_drop h)

theorem isDecimalChar_scientific (plus : Bool) {p : Pointed}
    (hp : ∀ c ∈ p.digits, isDecimalChar c = true) {c : Char} (h : c ∈ p.scientific plus) :
    isDecimalChar c = true := by
  unfold Pointed.scientific at h
  simp only [List.mem_append, List.mem_cons] at h
  rcases h with (h | h) | rfl | h | h
  · exact hp c (List.mem_of_mem_take h)
  · split at h
    · cases h
    · rcases List.mem_cons.mp h with rfl | h
      · rfl
      · exact hp c (List.mem_of_mem_drop h)
  · rfl
  · split at h
    · rw [List.mem_singleton.mp h]
      rfl
    · cases h
  · exact isDecimalChar_integer h

theorem isDecimalChar_write (l : Layout) {x : Float} {c : Char} (h : c ∈ l.write x) :
    isDecimalChar c = true := by
  have hmagnitude (h : c ∈ l.magnitude x) : isDecimalChar c = true := by
    unfold Layout.magnitude at h
    dsimp only at h
    split at h
    · have hzero : ∀ c ∈ ['0', '.', '0'], isDecimalChar c = true := List.all_eq_true.mp rfl
      exact hzero c h
    · split at h
      · exact isDecimalChar_positional (fun _ => isDecimalChar_shortest) h
      · exact isDecimalChar_scientific l.plus (fun _ => isDecimalChar_shortest) h
  unfold Layout.write at h
  split at h
  · rcases List.mem_cons.mp h with rfl | h
    · rfl
    · exact hmagnitude h
  · exact hmagnitude h

end LocaleScript.Decimal
