import LocaleScript.Proofs.Decimal.Chars
import LocaleScript.Proofs.Json.Numbers

/-!
# Reading what was written

The compact form of every value is read, member by member and in order. Only numbers may come back
as others (`reread`); a value comes back as it is if it holds no doubles and its integers are among
those that are read as integers (`IsExact`). Strings may hold any characters, and values may nest to
any depth.

The steps that reading may use are bounded by the length of the text, so that is the bound of the
induction: each part of a value is written with fewer characters than the value.
-/

namespace LocaleScript

namespace Json

/-! ## Strings -/

theorem hexValue?_hexDigit {n : Nat} (h : n < 16) : hexValue? (hexDigit n) = some n := by
  have hall : ∀ m ∈ List.range 16, hexValue? (hexDigit m) = some m := by decide
  exact hall n (List.mem_range.mpr h)

/-- A character inside a string reads back. -/
theorem readString_writeChar (c : Char) (cs : List Char) :
    readString (writeChar c ++ cs) = push c (readString cs) := by
  rcases writeChar_cases c with
    ⟨d, hd, hwrite⟩ | ⟨hcontrol, hwrite⟩ | ⟨hquote, hback, hcontrol, hwrite⟩
  · have hall : ∀ p ∈ escapes, readString ('\\' :: p.1 :: cs) = push p.2 (readString cs) := by
      simp only [escapes, List.forall_mem_cons, List.not_mem_nil, false_implies, implies_true,
        and_true]
      exact ⟨rfl, rfl, rfl, rfl, rfl, rfl, rfl⟩
    rw [hwrite]
    exact hall _ hd
  · have hhigh := hexValue?_hexDigit (show c.toNat / 16 < 16 by omega)
    have hlow := hexValue?_hexDigit (show c.toNat % 16 < 16 by omega)
    have hzero : hexValue? '0' = some 0 := rfl
    have hunit : hexValue4? '0' '0' (hexDigit (c.toNat / 16)) (hexDigit (c.toNat % 16))
        = some c.toNat := by
      unfold hexValue4?
      rw [hzero, hhigh, hlow]
      exact congrArg some (by omega)
    rw [hwrite]
    simp only [List.cons_append, List.nil_append, readString, hunit]
    rw [if_pos (.inl (by omega)), Char.ofNat_toNat]
  · rw [hwrite, List.singleton_append, readString.eq_def]
    split
    · next h => cases h
    · next h => exact absurd (List.cons.inj h).1 hquote
    · next h => exact absurd (List.cons.inj h).1 hback
    · next h => exact absurd (List.cons.inj h).1 hback
    · next h =>
      obtain ⟨rfl, rfl⟩ := List.cons.inj h
      rw [if_neg (not_or.mpr ⟨hcontrol, hback⟩)]

/-- A string reads back. -/
theorem readString_writeChars (cs rest : List Char) :
    readString (cs.flatMap writeChar ++ '"' :: rest) = some (cs, rest) := by
  induction cs with
  | nil => rfl
  | cons c cs ih =>
    rw [List.flatMap_cons, List.append_assoc, readString_writeChar, ih]
    rfl

/-! ## Values -/

mutual

/-- The value that is read where a value was written. -/
def reread : Json → Json
  | .null => .null
  | .bool b => .bool b
  | .int (.ofNat n) => ofWhole false n
  | .int (.negSucc n) => ofWhole true (n + 1)
  | .float x => (parseChars (numberLayout.write x)).getD .null
  | .str s => .str s
  | .arr items => .arr (rereadItems items)
  | .obj members => .obj (rereadMembers members)

def rereadItems : List Json → List Json
  | [] => []
  | item :: items => reread item :: rereadItems items

def rereadMembers : List (String × Json) → List (String × Json)
  | [] => []
  | (key, value) :: members => (key, reread value) :: rereadMembers members

end

theorem rereadMembers_eq_map (members : List (String × Json)) :
    rereadMembers members = members.map fun m => (m.1, reread m.2) := by
  induction members with
  | nil => rfl
  | cons m members ih => rw [rereadMembers, ih, List.map_cons]

mutual

/-- The value holds no doubles, and 64 bits hold each integer, signed or unsigned. -/
def IsExact : Json → Prop
  | .null | .bool _ | .str _ => True
  | .int n => -(signedLimit : Int) ≤ n ∧ n < unsignedLimit
  | .float _ => False
  | .arr items => AreExact items
  | .obj members => HaveExact members

def AreExact : List Json → Prop
  | [] => True
  | item :: items => IsExact item ∧ AreExact items

def HaveExact : List (String × Json) → Prop
  | [] => True
  | (_, value) :: members => IsExact value ∧ HaveExact members

end

mutual

theorem reread_of_isExact : ∀ {j : Json}, IsExact j → reread j = j
  | .null, _ | .bool _, _ | .str _, _ => by rw [reread]
  | .int (.ofNat n), h => by
    unfold IsExact at h
    have hlimit : n < unsignedLimit := Int.ofNat_lt.mp h.2
    rw [reread, ofWhole, if_neg Bool.false_ne_true, if_pos hlimit]
    rfl
  | .int (.negSucc n), h => by
    unfold IsExact at h
    have hlimit : ¬(n + 1 = 0 ∨ signedLimit < n + 1) := by omega
    rw [reread, ofWhole, if_pos rfl, if_neg hlimit]
    rfl
  | .float _, h => by
    unfold IsExact at h
    exact h.elim
  | .arr items, h => by
    unfold IsExact at h
    rw [reread, rereadItems_of_areExact h]
  | .obj members, h => by
    unfold IsExact at h
    rw [reread, rereadMembers_of_haveExact h]

theorem rereadItems_of_areExact : ∀ {items : List Json}, AreExact items → rereadItems items = items
  | [], _ => rfl
  | item :: items, h => by
    rw [rereadItems, reread_of_isExact h.1, rereadItems_of_areExact h.2]

theorem rereadMembers_of_haveExact : ∀ {members : List (String × Json)}, HaveExact members →
    rereadMembers members = members
  | [], _ => rfl
  | (key, value) :: members, h => by
    rw [rereadMembers, reread_of_isExact h.1, rereadMembers_of_haveExact h.2]

end

theorem areExact_map_str (texts : List String) : AreExact (texts.map .str) := by
  induction texts with
  | nil => trivial
  | cons text texts ih => exact ⟨trivial, ih⟩

theorem isExact_ofStrings (texts : List String) : IsExact (.ofStrings texts) :=
  areExact_map_str texts

theorem skipSpaces_cons {c : Char} (h : isSpace c = false) (cs : List Char) :
    skipSpaces (c :: cs) = c :: cs :=
  List.dropWhile_cons_of_neg (by simp [h])

theorem ne_of_isDigit {c d : Char} (hc : c.isDigit = true) (hd : d.isDigit = false) : c ≠ d := by
  rintro rfl
  rw [hc] at hd
  cases hd

theorem isSpace_of_isDigit {c : Char} (h : c.isDigit = true) : isSpace c = false := by
  have hne (d : Char) (hd : d.isDigit = false) := ne_of_isDigit h hd
  simp [isSpace, hne ' ' rfl, hne '\t' rfl, hne '\n' rfl, hne '\r' rfl]

/-- What begins with a digit is read as a number. -/
theorem readValue_digit {c : Char} (h : c.isDigit = true) (steps : Nat) (cs : List Char) :
    readValue (steps + 1) (c :: cs) = readNumber false (c :: cs) := by
  have hne (d : Char) (hd : d.isDigit = false) := ne_of_isDigit h hd
  rw [readValue, skipSpaces_cons (isSpace_of_isDigit h)]
  simp only [hne '"' rfl, hne '[' rfl, hne '{' rfl, hne 'n' rfl, hne 't' rfl, hne 'f' rfl,
    hne '-' rfl, reduceIte]

theorem readValue_minus (steps : Nat) (cs : List Char) :
    readValue (steps + 1) ('-' :: cs) = readNumber true cs := rfl

theorem exists_cons_integer (n : Int) :
    ∃ c cs, Decimal.integer n = c :: cs ∧ (c = '-' ∨ c.isDigit = true) := by
  cases n with
  | ofNat n =>
    obtain ⟨d, ds, hdigits, hd, -⟩ := Decimal.digits_head n
    exact ⟨d, ds, hdigits, .inr hd⟩
  | negSucc n => exact ⟨_, _, rfl, .inl rfl⟩

theorem exists_cons_layout (l : Decimal.Layout) (x : Float) :
    ∃ c cs, l.write x = c :: cs ∧ (c = '-' ∨ c.isDigit = true) := by
  unfold Decimal.Layout.write
  split
  · exact ⟨_, _, rfl, .inl rfl⟩
  · obtain ⟨c, cs, hcs, hc⟩ := (isNumeral_magnitude l x).exists_cons
    exact ⟨c, cs, hcs, .inr hc⟩

theorem readValue_integer (n : Int) (steps : Nat) {rest : List Char} (h : EndsNumber rest) :
    readValue (steps + 1) (Decimal.integer n ++ rest) = some (reread (.int n), rest) := by
  cases n with
  | ofNat n =>
    obtain ⟨d, ds, hdigits, hd, -⟩ := Decimal.digits_head n
    have hread := readNumber_digits false n h
    rw [hdigits, List.cons_append] at hread
    rw [Decimal.integer, hdigits, List.cons_append, readValue_digit hd, hread, reread]
  | negSucc n =>
    rw [Decimal.integer, List.cons_append, readValue_minus, readNumber_digits true (n + 1) h,
      reread]

/-- A double is read as one number, whatever ends the number behind it. -/
theorem readValue_float (x : Float) (steps : Nat) {rest : List Char} (h : EndsNumber rest) :
    readValue (steps + 1) (numberLayout.write x ++ rest) = some (reread (.float x), rest) := by
  obtain ⟨value, hread⟩ : ∃ value, ∀ steps rest, EndsNumber rest →
      readValue (steps + 1) (numberLayout.write x ++ rest) = some (value, rest) := by
    have hnumeral := isNumeral_magnitude numberLayout x
    have ⟨value, hread⟩ := hnumeral
    unfold Decimal.Layout.write
    split
    · refine ⟨value true, fun steps rest hrest => ?_⟩
      rw [List.cons_append, readValue_minus, hread true rest hrest]
    · refine ⟨value false, fun steps rest hrest => ?_⟩
      obtain ⟨c, cs, hcs, hc⟩ := hnumeral.exists_cons
      have hread := hread false rest hrest
      rw [hcs, List.cons_append] at hread ⊢
      rw [readValue_digit hc, hread]
  have hparse : parseChars (numberLayout.write x) = some value := by
    have hall := hread (numberLayout.write x).length [] endsNumber_nil
    rw [List.append_nil] at hall
    rw [parseChars, hall]
    rfl
  rw [hread steps rest h, reread, hparse]
  rfl

/-- No value begins with a blank or a closing bracket. -/
theorem exists_cons_write (j : Json) : ∃ c cs, write j = c :: cs ∧ isSpace c = false ∧ c ≠ ']' := by
  have hnumber {c : Char} (h : c = '-' ∨ c.isDigit = true) : isSpace c = false ∧ c ≠ ']' := by
    rcases h with rfl | h
    · exact ⟨rfl, by decide⟩
    · exact ⟨isSpace_of_isDigit h, ne_of_isDigit h rfl⟩
  cases j with
  | null => exact ⟨_, _, by rw [write], rfl, by decide⟩
  | bool b => cases b <;> exact ⟨_, _, by rw [write], rfl, by decide⟩
  | int n =>
    obtain ⟨c, cs, hcs, hc⟩ := exists_cons_integer n
    exact ⟨c, cs, by rw [write, hcs], hnumber hc⟩
  | float x =>
    obtain ⟨c, cs, hcs, hc⟩ := exists_cons_layout numberLayout x
    exact ⟨c, cs, by rw [write, hcs], hnumber hc⟩
  | str s => exact ⟨_, _, by rw [write, writeString], rfl, by decide⟩
  | arr items => exact ⟨_, _, by rw [write], rfl, by decide⟩
  | obj members => exact ⟨_, _, by rw [write], rfl, by decide⟩

/-- A separator only changes what stands in front. -/
theorem writeItems_comma (item : Json) (items : List Json) :
    writeItems [','] (item :: items) = ',' :: writeItems [] (item :: items) := by
  rw [writeItems, writeItems]
  rfl

theorem writeMembers_comma (key : String) (value : Json) (members : List (String × Json)) :
    writeMembers [','] ((key, value) :: members)
      = ',' :: writeMembers [] ((key, value) :: members) := by
  rw [writeMembers, writeMembers]
  rfl

theorem readValue_items {steps : Nat} {c : Char} (hspace : isSpace c = false) (hc : c ≠ ']')
    (cs : List Char) :
    readValue (steps + 1) ('[' :: c :: cs)
      = (readItems steps (c :: cs)).map fun p => (.arr p.1, p.2) := by
  rw [readValue, skipSpaces_cons rfl]
  simp only [Char.reduceEq, reduceIte, skipSpaces_cons hspace]
  split
  · next h => exact absurd (List.cons.inj h).1 hc
  · rfl

theorem readValue_members (steps : Nat) (cs : List Char) :
    readValue (steps + 1) ('{' :: '"' :: cs)
      = (readMembers steps ('"' :: cs)).map fun p => (.obj p.1, p.2) := rfl

/-- Reads a value, if the value behind it is read. -/
theorem readItems_cons {steps : Nat} {cs rest : List Char} {item : Json} {c : Char}
    (h : readValue steps cs = some (item, c :: rest)) (hc : c = ']' ∨ c = ',') :
    readItems (steps + 1) cs
      = if c = ']' then some ([item], rest)
        else (readItems steps rest).map fun p => (item :: p.1, p.2) := by
  rw [readItems, h]
  rcases hc with rfl | rfl <;> rfl

theorem readMembers_cons {steps : Nat} {cs rest : List Char} {key : String} {value : Json}
    {c : Char}
    (h : readValue steps cs = some (value, c :: rest)) (hc : c = '}' ∨ c = ',') :
    readMembers (steps + 1) (writeString key ++ ':' :: cs)
      = if c = '}' then some ([(key, value)], rest)
        else (readMembers steps rest).map fun p => ((key, value) :: p.1, p.2) := by
  have hcolon : skipSpaces (':' :: cs) = ':' :: cs := rfl
  rw [writeString, List.cons_append, List.append_assoc, List.singleton_append, readMembers,
    skipSpaces_cons rfl]
  simp only [readString_writeChars, hcolon, h, String.ofList_toList]
  rcases hc with rfl | rfl <;> rfl

mutual

/-- A value is read with no more steps than it has characters. -/
theorem readValue_write : ∀ (j : Json) (steps : Nat) (rest : List Char), EndsNumber rest →
    (write j).length ≤ steps → readValue steps (write j ++ rest) = some (reread j, rest)
  | j, 0, _, _, h => by
    obtain ⟨c, cs, hc, -⟩ := exists_cons_write j
    rw [hc] at h
    cases h
  | .null, _ + 1, _, _, _ => by
    rw [write, reread]
    rfl
  | .bool true, _ + 1, _, _, _ => by
    rw [write, reread]
    rfl
  | .bool false, _ + 1, _, _, _ => by
    rw [write, reread]
    rfl
  | .int n, steps + 1, rest, hrest, _ => by
    rw [write]
    exact readValue_integer n steps hrest
  | .float x, steps + 1, rest, hrest, _ => by
    rw [write]
    exact readValue_float x steps hrest
  | .str s, steps + 1, rest, _, _ => by
    rw [write, writeString, List.cons_append, List.append_assoc, List.singleton_append, readValue,
      skipSpaces_cons rfl, reread]
    simp only [reduceIte, readString_writeChars, Option.map_some, String.ofList_toList]
  | .arr [], steps + 1, rest, _, _ => by
    rw [write, writeItems, reread, rereadItems]
    rfl
  | .arr (item :: items), steps + 1, rest, _, h => by
    have hread := readItems_writeItems item items steps rest
      (by simp only [write, List.length_cons, List.length_append, List.length_nil] at h; omega)
    obtain ⟨c, cs, hc, hspace, hne⟩ := exists_cons_write item
    rw [writeItems, List.nil_append, hc] at hread
    rw [write, writeItems, List.nil_append, hc, reread]
    simp only [List.cons_append, List.append_assoc, List.nil_append] at hread ⊢
    rw [readValue_items hspace hne, hread]
    rfl
  | .obj [], steps + 1, rest, _, _ => by
    rw [write, writeMembers, reread, rereadMembers]
    rfl
  | .obj ((key, value) :: members), steps + 1, rest, _, h => by
    have hread := readMembers_writeMembers key value members steps rest
      (by simp only [write, List.length_cons, List.length_append, List.length_nil] at h; omega)
    rw [writeMembers, writeString] at hread
    rw [write, writeMembers, writeString, reread]
    simp only [List.nil_append, List.cons_append, List.append_assoc] at hread ⊢
    rw [readValue_members, hread]
    rfl

theorem readItems_writeItems : ∀ (item : Json) (items : List Json) (steps : Nat) (rest : List Char),
    (writeItems [] (item :: items)).length < steps →
    readItems steps (writeItems [] (item :: items) ++ ']' :: rest)
      = some (rereadItems (item :: items), rest)
  | _, _, 0, _, h => absurd h (Nat.not_lt_zero _)
  | item, [], steps + 1, rest, h => by
    rw [writeItems, writeItems, List.nil_append, List.append_nil] at *
    rw [readItems_cons (readValue_write item steps (']' :: rest) (endsNumber_cons (by decide) _)
      (Nat.le_of_lt_succ h)) (.inl rfl)]
    rfl
  | item, next :: items, steps + 1, rest, h => by
    rw [writeItems, List.nil_append, writeItems_comma] at *
    simp only [List.length_append, List.length_cons, List.append_assoc, List.cons_append] at h ⊢
    rw [readItems_cons (readValue_write item steps _ (endsNumber_cons (by decide) _)
        (by omega)) (.inr rfl),
      readItems_writeItems next items steps rest (by omega)]
    rfl

theorem readMembers_writeMembers : ∀ (key : String) (value : Json) (members : List (String × Json))
    (steps : Nat) (rest : List Char), (writeMembers [] ((key, value) :: members)).length < steps →
    readMembers steps (writeMembers [] ((key, value) :: members) ++ '}' :: rest)
      = some (rereadMembers ((key, value) :: members), rest)
  | _, _, _, 0, _, h => absurd h (Nat.not_lt_zero _)
  | key, value, [], steps + 1, rest, h => by
    rw [writeMembers, writeMembers, List.nil_append, List.append_nil] at *
    simp only [List.length_append, List.length_cons, List.append_assoc, List.cons_append] at h ⊢
    rw [readMembers_cons (readValue_write value steps ('}' :: rest)
      (endsNumber_cons (by decide) _) (by omega)) (.inl rfl)]
    rfl
  | key, value, (nextKey, next) :: members, steps + 1, rest, h => by
    rw [writeMembers, List.nil_append, writeMembers_comma] at *
    simp only [List.length_append, List.length_cons, List.append_assoc, List.cons_append] at h ⊢
    rw [readMembers_cons (readValue_write value steps _ (endsNumber_cons (by decide) _)
        (by omega)) (.inr rfl),
      readMembers_writeMembers nextKey next members steps rest (by omega)]
    rfl

end

/-! ## Texts -/

/-- The compact form of every value is read. -/
theorem parseChars_write (j : Json) : parseChars (write j) = some (reread j) := by
  have hread := readValue_write j ((write j).length + 1) [] endsNumber_nil (Nat.le_succ _)
  rw [List.append_nil] at hread
  rw [parseChars, hread]
  rfl

theorem readValue_space (steps : Nat) (cs : List Char) :
    readValue steps (' ' :: cs) = readValue steps cs := by
  cases steps <;> rfl

/-- Values that stand in brackets with blanks behind their commas are read as an array. -/
theorem parseChars_spaced (first second third : Json) :
    parseChars ('[' :: (write first ++ ',' :: ' ' :: (write second ++ ',' :: ' ' ::
        (write third ++ [']']))))
      = some (.arr [reread first, reread second, reread third]) := by
  obtain ⟨c, cs, hc, hspace, hne⟩ := exists_cons_write first
  have hlength := congrArg List.length hc
  obtain ⟨steps, hsteps⟩ : ∃ steps, steps = cs.length + (write second).length
      + (write third).length + 4 := ⟨_, rfl⟩
  simp only [List.length_cons] at hlength
  have hthird := readValue_write third steps [']'] (endsNumber_cons (by decide) _) (by omega)
  have hsecond := readValue_write second (steps + 1) (',' :: ' ' :: (write third ++ [']']))
    (endsNumber_cons (by decide) _) (by omega)
  have hfirst := readValue_write first (steps + 2)
    (',' :: ' ' :: (write second ++ ',' :: ' ' :: (write third ++ [']'])))
    (endsNumber_cons (by decide) _) (by omega)
  rw [← readValue_space] at hsecond hthird
  have hread := readItems_cons hfirst (.inr rfl)
  rw [readItems_cons hsecond (.inr rfl), readItems_cons hthird (.inl rfl)] at hread
  rw [hc, List.cons_append] at hread ⊢
  have hcount : ('[' :: c :: (cs ++ ',' :: ' ' :: (write second ++ ',' :: ' ' ::
      (write third ++ [']'])))).length = steps + 3 := by
    simp only [List.length_cons, List.length_append, List.length_nil]
    omega
  rw [parseChars, hcount, readValue_items hspace hne, hread]
  rfl

/-- The compact form of a value reads back as the value. -/
theorem parse_compact {j : Json} (h : IsExact j) : parse j.compact = some j := by
  rw [parse, compact, String.toList_ofList, parseChars_write, reread_of_isExact h]

theorem readWanted_cons {wanted : String → Bool} {steps : Nat} {cs rest : List Char} {key : String}
    {value : Json} {c : Char} (hwanted : wanted key = true)
    (h : readValue steps cs = some (value, c :: rest)) (hc : c = '}' ∨ c = ',') :
    readWanted wanted (steps + 1) (writeString key ++ ':' :: cs)
      = if c = '}' then some ([(key, value)], rest)
        else (readWanted wanted steps rest).map fun p => ((key, value) :: p.1, p.2) := by
  have hcolon : skipSpaces (':' :: cs) = ':' :: cs := rfl
  rw [writeString, List.cons_append, List.append_assoc, List.singleton_append, readWanted,
    skipSpaces_cons rfl]
  simp only [readString_writeChars, hcolon, String.ofList_toList, readIfWanted, hwanted, reduceIte,
    h, Option.map_some]
  rcases hc with rfl | rfl <;> rfl

theorem readWanted_writeMembers {wanted : String → Bool} {key : String} {value : Json}
    {members : List (String × Json)} {steps : Nat}
    (hwanted : ∀ m ∈ (key, value) :: members, wanted m.1 = true)
    (h : (writeMembers [] ((key, value) :: members)).length < steps) (rest : List Char) :
    readWanted wanted steps (writeMembers [] ((key, value) :: members) ++ '}' :: rest)
      = some (rereadMembers ((key, value) :: members), rest) := by
  induction members generalizing key value steps with
  | nil =>
    obtain ⟨steps, rfl⟩ := Nat.exists_eq_add_one_of_ne_zero (Nat.ne_zero_of_lt h)
    rw [writeMembers, writeMembers, List.nil_append, List.append_nil] at *
    simp only [List.length_append, List.length_cons, List.append_assoc, List.cons_append] at h ⊢
    rw [readWanted_cons (hwanted _ (.head _)) (readValue_write value steps ('}' :: rest)
      (endsNumber_cons (by decide) _) (by omega)) (.inl rfl)]
    rfl
  | cons next members ih =>
    obtain ⟨nextKey, next⟩ := next
    obtain ⟨steps, rfl⟩ := Nat.exists_eq_add_one_of_ne_zero (Nat.ne_zero_of_lt h)
    rw [writeMembers, List.nil_append, writeMembers_comma] at *
    simp only [List.length_append, List.length_cons, List.append_assoc, List.cons_append] at h ⊢
    rw [readWanted_cons (hwanted _ (.head _)) (readValue_write value steps _
        (endsNumber_cons (by decide) _) (by omega)) (.inr rfl),
      ih (fun m hm => hwanted m (.tail _ hm)) (by omega)]
    rfl

/-- The compact form of an object reads back if all its members are wanted. -/
theorem parseWanted_compact {wanted : String → Bool} {members : List (String × Json)}
    (h : IsExact (.obj members)) (hwanted : ∀ m ∈ members, wanted m.1 = true) :
    parseWanted wanted (compact (.obj members)) = some (.obj members) := by
  unfold parseWanted
  rw [compact, String.toList_ofList, write, skipSpaces_cons rfl]
  unfold IsExact at h
  cases members with
  | nil =>
    rw [writeMembers]
    rfl
  | cons member members =>
    obtain ⟨key, value⟩ := member
    obtain ⟨cs, hcs⟩ : ∃ cs, writeMembers [] ((key, value) :: members) ++ ['}'] = '"' :: cs :=
      ⟨_, by rw [writeMembers, writeString]; rfl⟩
    have hlength := congrArg List.length hcs
    rw [List.length_append, List.length_singleton] at hlength
    have hread : readWanted wanted (('"' :: cs).length + 1) _ = _ :=
      readWanted_writeMembers hwanted (by omega) []
    rw [hcs, rereadMembers_of_haveExact h] at hread
    rw [hcs]
    simp only [skipSpaces_cons (show isSpace '"' = false from rfl), hread]
    rfl

/-! ## Lines -/

theorem newline_not_mem_writeString (s : String) : '\n' ∉ writeString s := by
  have hchar (c : Char) : '\n' ∉ writeChar c := by
    rcases writeChar_cases c with ⟨d, hd, hwrite⟩ | ⟨hcontrol, hwrite⟩ | ⟨-, -, hcontrol, hwrite⟩
    · have hall : ∀ p ∈ escapes, p.1 ≠ '\n' := by
        simp only [escapes, List.forall_mem_cons]
        simp
      rw [hwrite]
      simpa using (hall _ hd).symm
    · have hhigh := (hexDigit_inside (show c.toNat / 16 < 16 by omega)).2.1.symm
      have hlow := (hexDigit_inside (show c.toNat % 16 < 16 by omega)).2.1.symm
      rw [hwrite]
      simp [hhigh, hlow]
    · rw [hwrite, List.mem_singleton]
      rintro rfl
      exact hcontrol (by decide)
  unfold writeString
  simp only [List.mem_cons, List.mem_append, List.mem_flatMap, List.not_mem_nil, or_false, not_or]
  refine ⟨by decide, ?_, by decide⟩
  rintro ⟨c, -, hc⟩
  exact hchar c hc

theorem newline_not_mem_number {cs : List Char}
    (h : ∀ c ∈ cs, Decimal.isDecimalChar c = true) : '\n' ∉ cs :=
  fun hmem => absurd (h _ hmem) (by decide)

mutual

/-- A value is written on one line. -/
theorem newline_not_mem_write : ∀ j : Json, '\n' ∉ write j
  | .null | .bool true | .bool false => by
    rw [write]
    decide
  | .int n => by
    rw [write]
    exact newline_not_mem_number fun _ => Decimal.isDecimalChar_integer
  | .float x => by
    rw [write]
    exact newline_not_mem_number fun _ => Decimal.isDecimalChar_write numberLayout
  | .str s => by
    rw [write]
    exact newline_not_mem_writeString s
  | .arr items => by
    have hitems := newline_not_mem_writeItems items [] List.not_mem_nil
    rw [write]
    simp [hitems]
  | .obj members => by
    have hmembers := newline_not_mem_writeMembers members [] List.not_mem_nil
    rw [write]
    simp [hmembers]

theorem newline_not_mem_writeItems : ∀ (items : List Json) (separator : List Char),
    '\n' ∉ separator → '\n' ∉ writeItems separator items
  | [], _, _ => List.not_mem_nil
  | item :: items, separator, h => by
    have hitem := newline_not_mem_write item
    have hitems := newline_not_mem_writeItems items [','] (by decide)
    rw [writeItems]
    simp [h, hitem, hitems]

theorem newline_not_mem_writeMembers : ∀ (members : List (String × Json)) (separator : List Char),
    '\n' ∉ separator → '\n' ∉ writeMembers separator members
  | [], _, _ => List.not_mem_nil
  | (key, value) :: members, separator, h => by
    have hkey := newline_not_mem_writeString key
    have hvalue := newline_not_mem_write value
    have hmembers := newline_not_mem_writeMembers members [','] (by decide)
    rw [writeMembers]
    simp [h, hkey, hvalue, hmembers]

end

end Json

end LocaleScript
