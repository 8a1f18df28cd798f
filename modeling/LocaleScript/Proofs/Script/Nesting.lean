import LocaleScript.Proofs.Script.Neighbour
import LocaleScript.Script.Brackets

/-!
# Nested brackets

Going through the code of a script, the brackets that are open make up a stack (`nest`). A character
opens a bracket, closes the last opened one, or is no bracket; the stack runs dry if it closes
another or none (`nest_induction`). Brackets balance if the stack is empty in the end
(`unbalanced?_eq_none_iff`), so a script is accepted if it is read as a row of atoms whose code
leaves the stack empty (`checkBrackets_eq_ok_iff`). The code of a row is that of its parts, and what
is open stays open around code that balances (`nest_append`, `nest_under`).
-/

namespace LocaleScript.Script

/-! ## Brackets -/

/-- The character is a bracket. -/
def isBracket (c : Char) : Bool :=
  isOpener c || (openerOf? c).isSome

/-- The opening brackets with their closing ones. -/
def bracketPairs : List (Char × Char) := [('(', ')'), ('[', ']'), ('{', '}')]

theorem openerOf?_eq_some_iff {opener closer : Char} :
    openerOf? closer = some opener ↔ (opener, closer) ∈ bracketPairs := by
  simp only [bracketPairs, List.mem_cons, Prod.mk.injEq, List.not_mem_nil, or_false]
  constructor
  · intro h
    unfold openerOf? at h
    split at h
    · next hc => exact .inl ⟨(Option.some.inj h).symm, hc⟩
    · split at h
      · next hc => exact .inr (.inl ⟨(Option.some.inj h).symm, hc⟩)
      · split at h
        · next hc => exact .inr (.inr ⟨(Option.some.inj h).symm, hc⟩)
        · cases h
  · rintro (⟨rfl, rfl⟩ | ⟨rfl, rfl⟩ | ⟨rfl, rfl⟩) <;> rfl

theorem of_mem_bracketPairs {opener closer : Char} (h : (opener, closer) ∈ bracketPairs) :
    isOpener opener = true ∧ openerOf? opener = none ∧ isOpener closer = false := by
  have hall : ∀ p ∈ bracketPairs,
      isOpener p.1 = true ∧ openerOf? p.1 = none ∧ isOpener p.2 = false := by decide
  exact hall _ h

theorem exists_pair_of_isOpener {c : Char} (h : isOpener c = true) :
    ∃ closer, (c, closer) ∈ bracketPairs := by
  simp only [isOpener, Bool.or_eq_true, beq_iff_eq] at h
  rcases h with (rfl | rfl) | rfl
  · exact ⟨')', by decide⟩
  · exact ⟨']', by decide⟩
  · exact ⟨'}', by decide⟩

theorem openerOf?_of_isOpener {c : Char} (h : isOpener c = true) : openerOf? c = none := by
  obtain ⟨closer, hpair⟩ := exists_pair_of_isOpener h
  exact (of_mem_bracketPairs hpair).2.1

/-- A bracket opens or closes. -/
theorem isBracket_cases {c : Char} (h : isBracket c = true) :
    isOpener c = true ∨ ∃ opener, (opener, c) ∈ bracketPairs := by
  simp only [isBracket, Bool.or_eq_true] at h
  refine h.imp_right fun hcloser => ?_
  obtain ⟨opener, hopener⟩ := Option.isSome_iff_exists.mp hcloser
  exact ⟨opener, openerOf?_eq_some_iff.mp hopener⟩

/-! ## The brackets that are open -/

/-- The brackets open behind a code, the last opened first, if every closing bracket in it closes
the last opened one. -/
def nest (opened : List Char) : List Char → Option (List Char)
  | [] => some opened
  | c :: cs =>
    match openerOf? c with
    | none => if isOpener c then nest (c :: opened) cs else nest opened cs
    | some opener =>
      match opened with
      | [] => none
      | o :: os => if o = opener then nest os cs else none

@[simp] theorem nest_nil (opened : List Char) : nest opened [] = some opened := rfl

theorem nest_opener {c : Char} (h : isOpener c = true) (opened cs : List Char) :
    nest opened (c :: cs) = nest (c :: opened) cs := by
  rw [nest, openerOf?_of_isOpener h]
  exact if_pos h

theorem nest_other {c : Char} (h : isBracket c = false) (opened cs : List Char) :
    nest opened (c :: cs) = nest opened cs := by
  obtain ⟨hopener, hcloser⟩ := Bool.or_eq_false_iff.mp h
  rw [nest, Option.not_isSome_iff_eq_none.mp (Bool.eq_false_iff.mp hcloser)]
  exact if_neg (Bool.eq_false_iff.mp hopener)

section

variable {opener closer : Char} (pair : (opener, closer) ∈ bracketPairs)
include pair

theorem nest_closer (opened cs : List Char) :
    nest (opener :: opened) (closer :: cs) = nest opened cs := by
  rw [nest, openerOf?_eq_some_iff.mpr pair]
  exact if_pos rfl

theorem nest_closer_nil (cs : List Char) : nest [] (closer :: cs) = none := by
  rw [nest, openerOf?_eq_some_iff.mpr pair]

theorem nest_closer_ne {o : Char} (h : o ≠ opener) (opened cs : List Char) :
    nest (o :: opened) (closer :: cs) = none := by
  rw [nest, openerOf?_eq_some_iff.mpr pair]
  exact if_neg h

end

/-- What a character does to the brackets that are open. -/
theorem nest_induction {motive : List Char → List Char → Prop} (nil : ∀ opened, motive opened [])
    (opener : ∀ opened c cs, isOpener c = true → motive (c :: opened) cs → motive opened (c :: cs))
    (other : ∀ opened c cs, isBracket c = false → motive opened cs → motive opened (c :: cs))
    (closer : ∀ o opened c cs, (o, c) ∈ bracketPairs → motive opened cs →
      motive (o :: opened) (c :: cs))
    (closerNil : ∀ o c cs, (o, c) ∈ bracketPairs → motive [] (c :: cs))
    (closerNe : ∀ o o' opened c cs, (o, c) ∈ bracketPairs → o' ≠ o →
      motive (o' :: opened) (c :: cs))
    (opened cs : List Char) : motive opened cs := by
  induction cs generalizing opened with
  | nil => exact nil opened
  | cons c cs ih =>
    cases hc : isBracket c with
    | false => exact other opened c cs hc (ih opened)
    | true =>
      rcases isBracket_cases hc with hopener | ⟨o, pair⟩
      · exact opener opened c cs hopener (ih (c :: opened))
      · cases opened with
        | nil => exact closerNil o c cs pair
        | cons o' opened =>
          by_cases hne : o' = o
          · subst hne
            exact closer o' opened c cs pair (ih opened)
          · exact closerNe o o' opened c cs pair hne

theorem nest_append (opened cs ds : List Char) :
    nest opened (cs ++ ds) = (nest opened cs).bind (nest · ds) := by
  induction opened, cs using nest_induction with
  | nil opened => rfl
  | opener opened c cs hopener ih =>
    rw [List.cons_append, nest_opener hopener, nest_opener hopener, ih]
  | other opened c cs hother ih =>
    rw [List.cons_append, nest_other hother, nest_other hother, ih]
  | closer o opened c cs pair ih =>
    rw [List.cons_append, nest_closer pair, nest_closer pair, ih]
  | closerNil o c cs pair =>
    rw [List.cons_append, nest_closer_nil pair, nest_closer_nil pair]
    rfl
  | closerNe o o' opened c cs pair hne =>
    rw [List.cons_append, nest_closer_ne pair hne, nest_closer_ne pair hne]
    rfl

/-- What was open before stays open below. -/
theorem nest_under {opened cs left : List Char} (h : nest opened cs = some left)
    (below : List Char) : nest (opened ++ below) cs = some (left ++ below) := by
  induction opened, cs using nest_induction with
  | nil opened =>
    obtain rfl := Option.some.inj h
    rfl
  | opener opened c cs hopener ih =>
    rw [nest_opener hopener] at h ⊢
    exact ih h
  | other opened c cs hother ih =>
    rw [nest_other hother] at h ⊢
    exact ih h
  | closer o opened c cs pair ih =>
    rw [nest_closer pair] at h
    rw [List.cons_append, nest_closer pair]
    exact ih h
  | closerNil o c cs pair =>
    rw [nest_closer_nil pair] at h
    cases h
  | closerNe o o' opened c cs pair hne =>
    rw [nest_closer_ne pair hne] at h
    cases h

theorem isBracket_of_mem_bracketPairs {opener closer : Char}
    (pair : (opener, closer) ∈ bracketPairs) : isBracket closer = true := by
  rw [isBracket, openerOf?_eq_some_iff.mpr pair, Option.isSome_some, Bool.or_true]

/-- Only brackets count. -/
theorem nest_filter (opened cs : List Char) :
    nest opened (cs.filter isBracket) = nest opened cs := by
  induction opened, cs using nest_induction with
  | nil opened => rfl
  | opener opened c cs hopener ih =>
    have hbracket : isBracket c = true := by rw [isBracket, hopener, Bool.true_or]
    rw [List.filter_cons_of_pos hbracket, nest_opener hopener, nest_opener hopener, ih]
  | other opened c cs hother ih =>
    rw [List.filter_cons_of_neg (Bool.eq_false_iff.mp hother), nest_other hother, ih]
  | closer o opened c cs pair ih =>
    rw [List.filter_cons_of_pos (isBracket_of_mem_bracketPairs pair), nest_closer pair,
      nest_closer pair, ih]
  | closerNil o c cs pair =>
    rw [List.filter_cons_of_pos (isBracket_of_mem_bracketPairs pair), nest_closer_nil pair,
      nest_closer_nil pair]
  | closerNe o o' opened c cs pair hne =>
    rw [List.filter_cons_of_pos (isBracket_of_mem_bracketPairs pair), nest_closer_ne pair hne,
      nest_closer_ne pair hne]

/-! ## Brackets with their places -/

theorem map_char_bracketsFrom (start : Nat) (text : List Char) :
    (bracketsFrom start text).map Bracket.char = text.filter isBracket := by
  induction text generalizing start with
  | nil => rfl
  | cons c cs ih =>
    have hc : (isOpener c || (openerOf? c).isSome) = isBracket c := rfl
    rw [bracketsFrom, List.filter_cons, hc]
    split
    · rw [List.map_cons, ih]
    · exact ih _

section

variable {opened : List Bracket} {b o : Bracket}

theorem unbalanced?_opener (h : isOpener b.char = true) (bs : List Bracket) :
    unbalanced? opened (b :: bs) = unbalanced? (b :: opened) bs := by
  rw [unbalanced?, openerOf?_of_isOpener h]

theorem unbalanced?_closer (pair : (o.char, b.char) ∈ bracketPairs) (bs : List Bracket) :
    unbalanced? (o :: opened) (b :: bs) = unbalanced? opened bs := by
  rw [unbalanced?, openerOf?_eq_some_iff.mpr pair]
  exact if_pos rfl

variable {opener : Char} (pair : (opener, b.char) ∈ bracketPairs)
include pair

theorem unbalanced?_closer_nil (bs : List Bracket) :
    unbalanced? [] (b :: bs) = some (.unexpected b) := by
  rw [unbalanced?, openerOf?_eq_some_iff.mpr pair]

theorem unbalanced?_closer_ne (h : o.char ≠ opener) (bs : List Bracket) :
    unbalanced? (o :: opened) (b :: bs) = some (.unexpected b) := by
  rw [unbalanced?, openerOf?_eq_some_iff.mpr pair]
  exact if_neg h

end

/-- Brackets balance if none is open in the end, wherever they stand. -/
theorem unbalanced?_eq_none_iff {opened bs : List Bracket}
    (hbs : ∀ b ∈ bs, isBracket b.char = true) :
    unbalanced? opened bs = none ↔
      nest (opened.map Bracket.char) (bs.map Bracket.char) = some [] := by
  induction bs generalizing opened with
  | nil => cases opened <;> simp [unbalanced?]
  | cons b bs ih =>
    have ih := fun opened => @ih opened fun b hb => hbs b (.tail _ hb)
    rw [List.map_cons]
    rcases isBracket_cases (hbs b (.head _)) with hopener | ⟨opener, pair⟩
    · rw [unbalanced?_opener hopener, nest_opener hopener]
      exact ih (b :: opened)
    · cases opened with
      | nil =>
        rw [unbalanced?_closer_nil pair, List.map_nil, nest_closer_nil pair]
        exact ⟨nofun, nofun⟩
      | cons o os =>
        rw [List.map_cons]
        by_cases ho : o.char = opener
        · subst ho
          rw [unbalanced?_closer pair, nest_closer pair]
          exact ih os
        · rw [unbalanced?_closer_ne pair ho, nest_closer_ne pair ho]
          exact ⟨nofun, nofun⟩

/-! ## The code of a script -/

/-- The code of a row of lexemes. -/
def codeOf (ls : List Lexeme) : List Char :=
  (ls.filter (·.kind == .code)).flatMap (·.text)

@[simp] theorem codeOf_nil : codeOf [] = [] := rfl

@[simp] theorem codeOf_append (as bs : List Lexeme) :
    codeOf (as ++ bs) = codeOf as ++ codeOf bs := by
  rw [codeOf, List.filter_append, List.flatMap_append]
  rfl

@[simp] theorem codeOf_map_codeChar (cs : List Char) : codeOf (cs.map codeChar) = cs := by
  induction cs with
  | nil => rfl
  | cons c cs ih =>
    change c :: codeOf (cs.map codeChar) = c :: cs
    rw [ih]

theorem codeOf_singleton_of_ne {a : Lexeme} (ha : a.kind ≠ .code) : codeOf [a] = [] := by
  rw [codeOf, List.filter_cons_of_neg (by simp [ha])]
  rfl

theorem codeOf_atoms (ls : List Lexeme) : codeOf (atoms ls) = codeOf ls := by
  induction ls with
  | nil => rfl
  | cons l ls ih =>
    rw [atoms_cons, codeOf_append, ih, ← List.singleton_append, codeOf_append]
    congr 1
    obtain ⟨kind, text⟩ := l
    by_cases hk : kind = .code
    · rw [hk, Lexeme.atoms_code, codeOf_map_codeChar]
      exact (List.append_nil text).symm
    · rw [Lexeme.atoms_of_ne hk]

theorem map_char_codeBrackets (start : Nat) (ls : List Lexeme) :
    (codeBrackets (locate start ls)).map Bracket.char = (codeOf ls).filter isBracket := by
  induction ls generalizing start with
  | nil => rfl
  | cons l ls ih =>
    have hl : (codeBrackets [⟨l.kind, start, l.text⟩]).map Bracket.char
        = (codeOf [l]).filter isBracket := by
      obtain ⟨kind, text⟩ := l
      by_cases hk : kind = .code
      · subst hk
        change (bracketsFrom start text ++ []).map Bracket.char = (text ++ []).filter isBracket
        rw [List.append_nil, List.append_nil, map_char_bracketsFrom]
      · rw [codeOf_singleton_of_ne hk, codeBrackets, List.filter_cons_of_neg (by simp [hk])]
        rfl
    have hcons : codeBrackets (locate start (l :: ls)) = codeBrackets [⟨l.kind, start, l.text⟩]
        ++ codeBrackets (locate (start + Text.byteLength l.text) ls) := by
      rw [codeBrackets, codeBrackets, codeBrackets, ← List.flatMap_append, ← List.filter_append]
      rfl
    rw [hcons, List.map_append, hl, ih, ← List.filter_append, ← codeOf_append]
    rfl

/-- The brackets of a script balance if its code leaves none open. -/
theorem unbalanced?_codeBrackets_eq_none_iff (start : Nat) (ls : List Lexeme) :
    unbalanced? [] (codeBrackets (locate start ls)) = none ↔ nest [] (codeOf ls) = some [] := by
  have hchars := map_char_codeBrackets start ls
  have hbrackets : ∀ b ∈ codeBrackets (locate start ls), isBracket b.char = true := by
    intro b hb
    have hmem := List.mem_map_of_mem (f := Bracket.char) hb
    rw [hchars] at hmem
    exact (List.mem_filter.mp hmem).2
  rw [unbalanced?_eq_none_iff hbrackets, hchars, List.map_nil, nest_filter]

/-- A script that is accepted scans. -/
theorem scan_of_checkBrackets {source : List Char} (h : checkBrackets source = .ok ()) :
    ∃ segments, scan source = .ok segments := by
  unfold checkBrackets at h
  cases hscan : scan source with
  | error e =>
    rw [hscan] at h
    cases h
  | ok segments => exact ⟨segments, rfl⟩

/-- A script that scans is accepted if the brackets in its code balance. -/
theorem checkBrackets_iff_of_scan {source : List Char} {segments : List Segment}
    (hscan : scan source = .ok segments) :
    checkBrackets source = .ok () ↔ unbalanced? [] (codeBrackets segments) = none := by
  unfold checkBrackets
  rw [hscan]
  cases hfault : unbalanced? [] (codeBrackets segments) with
  | none => simp only [hfault]
  | some fault => simp only [hfault, reduceCtorEq]

/-- A script is accepted if it is read as a row of atoms whose code leaves no bracket open. -/
theorem checkBrackets_eq_ok_iff {source : List Char} :
    checkBrackets source = .ok () ↔
      ∃ as, Reads .start as ∧ script as = source ∧ nest [] (codeOf as) = some [] := by
  constructor
  · intro h
    obtain ⟨segments, hscan⟩ := scan_of_checkBrackets h
    obtain ⟨ls, rfl, hreads, hscript⟩ := reads_of_scan hscan
    refine ⟨atoms ls, hreads, hscript, ?_⟩
    rw [codeOf_atoms, ← unbalanced?_codeBrackets_eq_none_iff 0]
    exact (checkBrackets_iff_of_scan hscan).mp h
  · rintro ⟨as, hreads, rfl, hnest⟩
    obtain ⟨ls, hscan, hatoms⟩ := scan_script hreads
    rw [← hatoms, codeOf_atoms, ← unbalanced?_codeBrackets_eq_none_iff 0] at hnest
    exact (checkBrackets_iff_of_scan hscan).mpr hnest

end LocaleScript.Script
