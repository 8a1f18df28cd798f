import LocaleScript.Json.Value
import LocaleScript.Decimal.Layout

/-!
# Writing JSON

The compact form: no blanks, members in order, characters beyond ASCII as they are.
-/

namespace LocaleScript.Json

/-- Doubles from `1e-5` up to `1e16` have all their places, others an exponent with a sign. -/
def numberLayout : Decimal.Layout := ⟨-4, 16, true⟩

/-- The lower-case hexadecimal digit of a number below 16. -/
def hexDigit (n : Nat) : Char :=
  if n < 10 then Char.ofNat ('0'.toNat + n) else Char.ofNat ('a'.toNat + n - 10)

/-- A hexadecimal digit needs no escape. -/
theorem hexDigit_inside {n : Nat} (h : n < 16) :
    hexDigit n ≠ '\\' ∧ hexDigit n ≠ '\n' ∧ hexDigit n ≠ '"' := by
  have hall : ∀ m ∈ List.range 16, hexDigit m ≠ '\\' ∧ hexDigit m ≠ '\n' ∧ hexDigit m ≠ '"' := by
    decide
  exact hall n (List.mem_range.mpr h)

/-- A character inside a string: quote, backslash and the controls below the space are escaped. -/
def writeChar (c : Char) : List Char :=
  if c = '"' then ['\\', '"']
  else if c = '\\' then ['\\', '\\']
  else if c = '\x08' then ['\\', 'b']
  else if c = '\t' then ['\\', 't']
  else if c = '\n' then ['\\', 'n']
  else if c = '\x0c' then ['\\', 'f']
  else if c = '\r' then ['\\', 'r']
  else if c.toNat < 0x20 then
    ['\\', 'u', '0', '0', hexDigit (c.toNat / 16), hexDigit (c.toNat % 16)]
  else [c]

/-- The characters that are written behind a backslash, after the letter that is written there. -/
def escapes : List (Char × Char) :=
  [('"', '"'), ('\\', '\\'), ('b', '\x08'), ('t', '\t'), ('n', '\n'), ('f', '\x0c'), ('r', '\r')]

/-- A character is written behind a backslash, by its number, or as it is. -/
theorem writeChar_cases (c : Char) :
    (∃ d, (d, c) ∈ escapes ∧ writeChar c = ['\\', d]) ∨
    (c.toNat < 0x20 ∧ writeChar c
      = ['\\', 'u', '0', '0', hexDigit (c.toNat / 16), hexDigit (c.toNat % 16)]) ∨
    (c ≠ '"' ∧ c ≠ '\\' ∧ ¬c.toNat < 0x20 ∧ writeChar c = [c]) := by
  by_cases h : ∃ d, (d, c) ∈ escapes
  · obtain ⟨d, hd⟩ := h
    have hall : ∀ p ∈ escapes, writeChar p.2 = ['\\', p.1] := by decide
    exact .inl ⟨d, hd, hall _ hd⟩
  · refine .inr ?_
    have hne : ∀ p ∈ escapes, c ≠ p.2 := fun p hp hc => h ⟨p.1, hc ▸ hp⟩
    simp only [escapes, List.forall_mem_cons, List.not_mem_nil, false_implies, implies_true,
      and_true] at hne
    obtain ⟨hquote, hback, hb, ht, hn, hf, hr⟩ := hne
    rw [writeChar, if_neg hquote, if_neg hback, if_neg hb, if_neg ht, if_neg hn, if_neg hf,
      if_neg hr]
    by_cases hcontrol : c.toNat < 0x20
    · exact .inl ⟨hcontrol, if_pos hcontrol⟩
    · exact .inr ⟨hquote, hback, hcontrol, if_neg hcontrol⟩

/-- A string in quotes. -/
def writeString (s : String) : List Char :=
  '"' :: (s.toList.flatMap writeChar ++ ['"'])

mutual

/-- The compact form of a value. -/
def write : Json → List Char
  | .null => ['n', 'u', 'l', 'l']
  | .bool true => ['t', 'r', 'u', 'e']
  | .bool false => ['f', 'a', 'l', 's', 'e']
  | .int n => Decimal.integer n
  | .float x => numberLayout.write x
  | .str s => writeString s
  | .arr items => '[' :: (writeItems [] items ++ [']'])
  | .obj members => '{' :: (writeMembers [] members ++ ['}'])

/-- The items of an array, the first behind `separator` and the others behind commas. -/
def writeItems (separator : List Char) : List Json → List Char
  | [] => []
  | item :: items => separator ++ write item ++ writeItems [','] items

/-- The members of an object, the first behind `separator` and the others behind commas. -/
def writeMembers (separator : List Char) : List (String × Json) → List Char
  | [] => []
  | (key, value) :: members =>
    separator ++ writeString key ++ ':' :: write value ++ writeMembers [','] members

end

/-- The compact form as a string. -/
def compact (j : Json) : String :=
  String.ofList (write j)

end LocaleScript.Json
