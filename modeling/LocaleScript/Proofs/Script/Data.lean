import LocaleScript.Proofs.Decimal.Chars
import LocaleScript.Proofs.Script.Nesting
import LocaleScript.Json.Printer

/-!
# Data in scripts

Wherever JSON stands in a script, it is read as its strings, one literal each, and characters of
code that open no literal and no comment (`reads_dataAtoms`). Its brackets balance
(`nest_dataAtoms`). So nothing that data holds ends the place where it stands.
-/

namespace LocaleScript.Script

/-! ## Atoms that are read anywhere -/

/-- The atom is read wherever it stands. -/
def Steady (a : Lexeme) : Prop :=
  ∀ operand cs, Fits operand a cs

theorem steady_codeChar {c : Char} (h : Plain [c]) : Steady (codeChar c) :=
  fun operand cs => fits_of_plain h operand cs

theorem reads_of_steady {as : List Lexeme} (h : ∀ a ∈ as, Steady a) (r : Reading) : Reads r as := by
  induction as generalizing r with
  | nil => exact .nil r
  | cons a as ih => exact .cons (h a (.head _) _ _) (ih (fun b hb => h b (.tail _ hb)) _)

/-! ## Strings -/

/-- Characters that a string takes as they come. -/
theorem cutString_plain {quote : Char} {cs : List Char}
    (h : ∀ c ∈ cs, c ≠ '\\' ∧ c ≠ '\n' ∧ c ≠ quote) (rest : List Char) :
    cutString quote (cs ++ rest)
      = (cutString quote rest).map fun p => (cs ++ p.1, p.2) := by
  induction cs with
  | nil => simp
  | cons c cs ih =>
    obtain ⟨hb, hn, hq⟩ := h c (.head _)
    rw [List.cons_append, cutString_cons hb hn hq, ih fun d hd => h d (.tail _ hd), keep,
      Option.map_map]
    rfl

/-- No character ends the string in which it is written. -/
theorem cutString_writeChar (c : Char) (rest : List Char) :
    cutString '"' (Json.writeChar c ++ rest)
      = (cutString '"' rest).map fun p => (Json.writeChar c ++ p.1, p.2) := by
  have hescape (d : Char) : cutString '"' (['\\', d] ++ rest)
      = (cutString '"' rest).map fun p => (['\\', d] ++ p.1, p.2) := by
    rw [List.cons_append, List.singleton_append, cutString_escape, keep, keep, Option.map_map]
    rfl
  rcases Json.writeChar_cases c with
    ⟨d, -, hwrite⟩ | ⟨hcontrol, hwrite⟩ | ⟨hquote, hback, hcontrol, hwrite⟩
  · rw [hwrite]
    exact hescape d
  · have hhigh := Json.hexDigit_inside (show c.toNat / 16 < 16 by omega)
    have hlow := Json.hexDigit_inside (show c.toNat % 16 < 16 by omega)
    have hdigits : ∀ d ∈ ['0', '0', Json.hexDigit (c.toNat / 16), Json.hexDigit (c.toNat % 16)],
        d ≠ '\\' ∧ d ≠ '\n' ∧ d ≠ '"' := by
      intro d hd
      simp only [List.mem_cons, List.not_mem_nil, or_false] at hd
      rcases hd with rfl | rfl | rfl | rfl
      · decide
      · decide
      · exact hhigh
      · exact hlow
    have hread := cutString_plain hdigits rest
    rw [hwrite]
    simp only [List.cons_append, List.nil_append] at hread ⊢
    rw [cutString_escape, hread, keep, keep, Option.map_map, Option.map_map]
    rfl
  · have hnewline : c ≠ '\n' := by
      rintro rfl
      exact hcontrol (by decide)
    rw [hwrite]
    refine cutString_plain (fun d hd => ?_) rest
    rw [List.mem_singleton.mp hd]
    exact ⟨hback, hnewline, hquote⟩

theorem cutString_writeChars (cs rest : List Char) :
    cutString '"' (cs.flatMap Json.writeChar ++ '"' :: rest)
      = some (cs.flatMap Json.writeChar ++ ['"'], rest) := by
  induction cs with
  | nil => exact cutString_close (by decide) (by decide) rest
  | cons c cs ih =>
    rw [List.flatMap_cons, List.append_assoc, cutString_writeChar, ih, Option.map_some,
      List.append_assoc]

/-- The literal that a text is written as. -/
def stringLiteral (s : String) : Lexeme :=
  ⟨.string, Json.writeString s⟩

theorem steady_stringLiteral (s : String) : Steady (stringLiteral s) := by
  intro operand cs
  refine ⟨'"', _, rfl, rfl, ?_⟩
  have hcut := cutString_writeChars s.toList cs
  rw [stringLiteral, Kind.cutAtom_of_ne (show Kind.string ≠ .code by decide), List.append_assoc,
    List.singleton_append]
  exact hcut

/-! ## Values -/

mutual

/-- The atoms of a JSON value in its compact form. -/
def dataAtoms : Json → List Lexeme
  | .null => (Json.write .null).map codeChar
  | .bool b => (Json.write (.bool b)).map codeChar
  | .int n => (Json.write (.int n)).map codeChar
  | .float x => (Json.write (.float x)).map codeChar
  | .str s => [stringLiteral s]
  | .arr items => codeChar '[' :: (itemAtoms [] items ++ [codeChar ']'])
  | .obj members => codeChar '{' :: (memberAtoms [] members ++ [codeChar '}'])

def itemAtoms (separator : List Lexeme) : List Json → List Lexeme
  | [] => []
  | item :: items => separator ++ dataAtoms item ++ itemAtoms [codeChar ','] items

def memberAtoms (separator : List Lexeme) : List (String × Json) → List Lexeme
  | [] => []
  | (key, value) :: members =>
    separator ++ stringLiteral key :: codeChar ':' :: dataAtoms value
      ++ memberAtoms [codeChar ','] members

end

mutual

theorem script_dataAtoms : ∀ j : Json, script (dataAtoms j) = j.write
  | .null | .bool _ | .int _ | .float _ => by rw [dataAtoms, script_map_codeChar]
  | .str s => by
    rw [dataAtoms, Json.write]
    exact List.append_nil _
  | .arr items => by
    rw [dataAtoms, Json.write, script_cons, script_append, script_itemAtoms items [], script_nil]
    rfl
  | .obj members => by
    rw [dataAtoms, Json.write, script_cons, script_append, script_memberAtoms members [],
      script_nil]
    rfl

theorem script_itemAtoms : ∀ (items : List Json) (separator : List Lexeme),
    script (itemAtoms separator items) = Json.writeItems (script separator) items
  | [], _ => by rw [itemAtoms, Json.writeItems, script_nil]
  | item :: items, separator => by
    rw [itemAtoms, Json.writeItems, script_append, script_append, script_dataAtoms item,
      script_itemAtoms items]
    rfl

theorem script_memberAtoms : ∀ (members : List (String × Json)) (separator : List Lexeme),
    script (memberAtoms separator members) = Json.writeMembers (script separator) members
  | [], _ => by rw [memberAtoms, Json.writeMembers, script_nil]
  | (key, value) :: members, separator => by
    rw [memberAtoms, Json.writeMembers, script_append, script_append, script_cons, script_cons,
      script_dataAtoms value, script_memberAtoms members]
    simp only [List.append_assoc]
    rfl

end

/-- An atom of data: a string, or a character that is read as code wherever it stands. -/
def IsDataAtom (a : Lexeme) : Prop :=
  (∃ s, a = stringLiteral s) ∨ ∃ c, a = codeChar c ∧ Plain [c]

theorem IsDataAtom.steady {a : Lexeme} (h : IsDataAtom a) : Steady a := by
  rcases h with ⟨s, rfl⟩ | ⟨c, rfl, hc⟩
  · exact steady_stringLiteral s
  · exact steady_codeChar hc

/-- Characters of decimals open nothing and are no brackets. -/
theorem plain_of_isDecimalChar {c : Char} (h : Decimal.isDecimalChar c = true) :
    Plain [c] ∧ isBracket c = false := by
  have hne (d : Char) (hd : Decimal.isDecimalChar d = false) : c ≠ d := by
    rintro rfl
    rw [h] at hd
    cases hd
  constructor
  · intro d hd
    rw [List.mem_singleton.mp hd]
    exact ⟨hne _ rfl, hne _ rfl, hne _ rfl, hne _ rfl⟩
  · simp [isBracket, isOpener, openerOf?, hne '(' rfl, hne ')' rfl, hne '[' rfl, hne ']' rfl,
      hne '{' rfl, hne '}' rfl]

/-- Atoms of data that leave the brackets as they are. -/
structure AreInert (as : List Lexeme) : Prop where
  atoms : ∀ a ∈ as, IsDataAtom a
  brackets : ∀ opened, nest opened (codeOf as) = some opened

theorem areInert_nil : AreInert [] :=
  ⟨fun _ h => (List.not_mem_nil h).elim, fun _ => rfl⟩

theorem AreInert.append {as bs : List Lexeme} (ha : AreInert as) (hb : AreInert bs) :
    AreInert (as ++ bs) := by
  constructor
  · intro a h
    exact (List.mem_append.mp h).elim (ha.atoms a) (hb.atoms a)
  · intro opened
    rw [codeOf_append, nest_append, ha.brackets, Option.bind_some, hb.brackets]

theorem areInert_stringLiteral (s : String) : AreInert [stringLiteral s] := by
  constructor
  · intro a h
    exact .inl ⟨s, List.mem_singleton.mp h⟩
  · intro opened
    rw [codeOf_singleton_of_ne (show Kind.string ≠ .code by decide)]
    rfl

/-- Plain characters that are no brackets. -/
theorem areInert_map_codeChar {cs : List Char} (h : ∀ c ∈ cs, Plain [c] ∧ isBracket c = false) :
    AreInert (cs.map codeChar) := by
  constructor
  · intro a ha
    obtain ⟨c, hc, rfl⟩ := List.mem_map.mp ha
    exact .inr ⟨c, rfl, (h c hc).1⟩
  · intro opened
    have hnone : cs.filter isBracket = [] :=
      List.filter_eq_nil_iff.mpr fun c hc => by simp [(h c hc).2]
    rw [codeOf_map_codeChar, ← nest_filter, hnone]
    rfl

theorem areInert_codeChar {c : Char} (h : Plain [c] ∧ isBracket c = false) :
    AreInert [codeChar c] :=
  areInert_map_codeChar fun _ hd => List.mem_singleton.mp hd ▸ h

/-- What stands between brackets of one kind. -/
theorem AreInert.inBrackets {as : List Lexeme} (h : AreInert as) {opener closer : Char}
    (pair : (opener, closer) ∈ bracketPairs) (hopener : Plain [opener]) (hcloser : Plain [closer]) :
    AreInert (codeChar opener :: (as ++ [codeChar closer])) := by
  constructor
  · intro a ha
    rcases List.mem_cons.mp ha with rfl | ha
    · exact .inr ⟨opener, rfl, hopener⟩
    rcases List.mem_append.mp ha with ha | ha
    · exact h.atoms a ha
    · exact .inr ⟨closer, List.mem_singleton.mp ha, hcloser⟩
  · intro opened
    have hcode : codeOf (codeChar opener :: (as ++ [codeChar closer]))
        = opener :: (codeOf as ++ [closer]) := by
      rw [← List.singleton_append, codeOf_append, codeOf_append]
      rfl
    rw [hcode, nest_opener (of_mem_bracketPairs pair).1, nest_append, h.brackets, Option.bind_some,
      nest_closer pair, nest_nil]

mutual

/-- Data leaves the brackets around it as they are, and is read anywhere. -/
theorem areInert_dataAtoms : ∀ j : Json, AreInert (dataAtoms j)
  | .null => areInert_map_codeChar (by simp [Json.write, Plain, isBracket, isOpener, openerOf?])
  | .bool true | .bool false =>
    areInert_map_codeChar (by simp [Json.write, Plain, isBracket, isOpener, openerOf?])
  | .int n => areInert_map_codeChar fun c hc =>
      plain_of_isDecimalChar (Decimal.isDecimalChar_integer (by rwa [Json.write] at hc))
  | .float x => areInert_map_codeChar fun c hc =>
      plain_of_isDecimalChar (Decimal.isDecimalChar_write _ (by rwa [Json.write] at hc))
  | .str s => areInert_stringLiteral s
  | .arr items =>
    (areInert_itemAtoms items [] areInert_nil).inBrackets (by decide) (by decide) (by decide)
  | .obj members =>
    (areInert_memberAtoms members [] areInert_nil).inBrackets (by decide) (by decide) (by decide)

theorem areInert_itemAtoms : ∀ (items : List Json) (separator : List Lexeme), AreInert separator →
    AreInert (itemAtoms separator items)
  | [], _, _ => areInert_nil
  | item :: items, _, h =>
    (h.append (areInert_dataAtoms item)).append
      (areInert_itemAtoms items _ (areInert_codeChar (by decide)))

theorem areInert_memberAtoms : ∀ (members : List (String × Json)) (separator : List Lexeme),
    AreInert separator → AreInert (memberAtoms separator members)
  | [], _, _ => areInert_nil
  | (key, value) :: members, _, h =>
    (h.append ((areInert_stringLiteral key).append
      ((areInert_codeChar (by decide)).append (areInert_dataAtoms value)))).append
      (areInert_memberAtoms members _ (areInert_codeChar (by decide)))

end

end LocaleScript.Script
