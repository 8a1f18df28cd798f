import LocaleScript.Script.Condenser

/-!
# Bytes that grow together

Whether two tokens grow together can be seen from the two bytes that meet. The bytes of a character
beyond ASCII are all beyond ASCII, so a byte taken as a character is a word character when the
character is one that it belongs to (`growTogether_byteChar`).
-/

namespace LocaleScript.Script

/-! ## Bytes of a character -/

/-- The character with the number of a byte. -/
def byteChar (b : UInt8) : Char :=
  Char.ofNat b.toNat

theorem utf8EncodeChar_ascii {c : Char} (h : c.toNat < 0x80) :
    String.utf8EncodeChar c = [UInt8.ofNat c.toNat] :=
  if_pos (Nat.le_of_lt_succ h)

theorem le_of_mem_utf8EncodeChar {c : Char} (h : 0x80 ≤ c.toNat) {b : UInt8}
    (hb : b ∈ String.utf8EncodeChar c) : 0x80 ≤ b.toNat := by
  have hc : ¬c.val.toNat ≤ 0x7f := Nat.not_le.mpr h
  unfold String.utf8EncodeChar at hb
  rw [if_neg hc] at hb
  split at hb
  · simp only [List.mem_cons, List.not_mem_nil, or_false] at hb
    rcases hb with rfl | rfl <;> simp only [UInt8.toNat_ofNat'] <;> omega
  · split at hb
    · simp only [List.mem_cons, List.not_mem_nil, or_false] at hb
      rcases hb with rfl | rfl | rfl <;> simp only [UInt8.toNat_ofNat'] <;> omega
    · simp only [List.mem_cons, List.not_mem_nil, or_false] at hb
      rcases hb with rfl | rfl | rfl | rfl <;> simp only [UInt8.toNat_ofNat'] <;> omega

theorem toNat_byteChar (b : UInt8) : (byteChar b).toNat = b.toNat := by
  have hb : b.toNat < 256 := b.toNat_lt
  have hv : b.toNat.isValidChar := .inl (by omega)
  rw [byteChar, Char.ofNat, dif_pos hv]
  rfl

theorem byteChar_of_mem {c : Char} {b : UInt8} (hb : b ∈ String.utf8EncodeChar c) :
    byteChar b = c ∨ 0x80 ≤ c.toNat ∧ 0x80 ≤ (byteChar b).toNat := by
  by_cases h : 0x80 ≤ c.toNat
  · exact .inr ⟨h, by rw [toNat_byteChar]; exact le_of_mem_utf8EncodeChar h hb⟩
  · have hlt : c.toNat < 0x80 := Nat.lt_of_not_le h
    rw [utf8EncodeChar_ascii hlt, List.mem_singleton] at hb
    have hb' : b.toNat = c.toNat := by
      rw [hb, UInt8.toNat_ofNat']
      omega
    refine .inl ?_
    rw [byteChar, hb', Char.ofNat_toNat]

/-! ## Characters beyond ASCII -/

theorem isWordChar_beyond {c : Char} (hc : 0x80 ≤ c.toNat) : isWordChar c = true := by
  simp only [isWordChar, hc, decide_true, Bool.or_true]

theorem ne_beyond {c : Char} (hc : 0x80 ≤ c.toNat) {d : Char} (hd : d.toNat < 0x80) : c ≠ d := by
  rintro rfl
  exact absurd hc (Nat.not_le.mpr hd)

/-- Characters beyond ASCII grow together with the characters of words. -/
theorem growTogether_beyond_left {c : Char} (hc : 0x80 ≤ c.toNat) (d : Char) :
    growTogether c d = isWordChar d := by
  have hdigit : c.isDigit = false := by
    have hn : ¬c.val ≤ '9'.val := by
      intro h
      have h' : c.toNat ≤ 57 := h
      omega
    simp only [Char.isDigit, ge_iff_le, hn, decide_false, Bool.and_false]
  simp only [growTogether, isWordChar_beyond hc, hdigit,
    beq_false_of_ne (ne_beyond hc (d := '+') (by decide)),
    beq_false_of_ne (ne_beyond hc (d := '-') (by decide)),
    beq_false_of_ne (ne_beyond hc (d := '/') (by decide)), Bool.true_and, Bool.or_false,
    Bool.and_false, Bool.false_and]

theorem growTogether_beyond_right {c : Char} (hc : 0x80 ≤ c.toNat) (d : Char) :
    growTogether d c = isWordChar d := by
  have heq : (d == c && (d == '+' || d == '-' || d == '/')) = false := by
    by_cases h : d = c
    · rw [h, beq_false_of_ne (ne_beyond hc (d := '+') (by decide)),
        beq_false_of_ne (ne_beyond hc (d := '-') (by decide)),
        beq_false_of_ne (ne_beyond hc (d := '/') (by decide)), Bool.or_false, Bool.or_false,
        Bool.and_false]
    · rw [beq_false_of_ne h, Bool.false_and]
  simp only [growTogether, isWordChar_beyond hc, heq,
    beq_false_of_ne (ne_beyond hc (d := '.') (by decide)), Bool.and_true, Bool.and_false,
    Bool.or_false]

/-- Characters grow together as any of their bytes do. -/
theorem growTogether_byteChar {c d : Char} {b e : UInt8} (hb : b ∈ String.utf8EncodeChar c)
    (he : e ∈ String.utf8EncodeChar d) :
    growTogether (byteChar b) (byteChar e) = growTogether c d := by
  rcases byteChar_of_mem hb with hbc | ⟨hc, hb'⟩
  · rw [hbc]
    rcases byteChar_of_mem he with hed | ⟨hd, he'⟩
    · rw [hed]
    · rw [growTogether_beyond_right he', growTogether_beyond_right hd]
  · rw [growTogether_beyond_left hb', growTogether_beyond_left hc]
    rcases byteChar_of_mem he with hed | ⟨hd, he'⟩
    · rw [hed]
    · rw [isWordChar_beyond he', isWordChar_beyond hd]

/-! ## Texts that meet -/

/-- The UTF-8 form of a text. -/
def textBytes (text : List Char) : List UInt8 :=
  text.flatMap String.utf8EncodeChar

/-- Two texts would grow together where one follows the other: the last byte of one and the first
of the other would. -/
def textsGrowTogether (text next : List Char) : Bool :=
  match (textBytes text).getLast?, (textBytes next).head? with
  | some last, some first => growTogether (byteChar last) (byteChar first)
  | _, _ => false

theorem getLast?_textBytes {text : List Char} {c : Char} (h : text.getLast? = some c) :
    ∃ b ∈ String.utf8EncodeChar c, (textBytes text).getLast? = some b := by
  obtain ⟨init, rfl⟩ := List.getLast?_eq_some_iff.mp h
  have hne : String.utf8EncodeChar c ≠ [] := String.utf8EncodeChar_ne_nil
  refine ⟨(String.utf8EncodeChar c).getLast hne, List.getLast_mem hne, ?_⟩
  rw [textBytes, List.flatMap_append, List.flatMap_cons, List.flatMap_nil, List.append_nil,
    List.getLast?_append, List.getLast?_eq_some_getLast hne, Option.some_or]

theorem head?_textBytes {text : List Char} {c : Char} (h : text.head? = some c) :
    ∃ b ∈ String.utf8EncodeChar c, (textBytes text).head? = some b := by
  obtain ⟨tail, rfl⟩ := List.head?_eq_some_iff.mp h
  have hne : String.utf8EncodeChar c ≠ [] := String.utf8EncodeChar_ne_nil
  refine ⟨(String.utf8EncodeChar c).head hne, List.head_mem hne, ?_⟩
  rw [textBytes, List.flatMap_cons, List.head?_append, List.head?_eq_some_head hne, Option.some_or]

/-- Texts grow together as the characters that meet do. -/
theorem textsGrowTogether_eq {text next : List Char} {last first : Char}
    (hlast : text.getLast? = some last) (hfirst : next.head? = some first) :
    textsGrowTogether text next = growTogether last first := by
  obtain ⟨b, hb, hb'⟩ := getLast?_textBytes hlast
  obtain ⟨e, he, he'⟩ := head?_textBytes hfirst
  simp only [textsGrowTogether, hb', he', growTogether_byteChar hb he]

end LocaleScript.Script
