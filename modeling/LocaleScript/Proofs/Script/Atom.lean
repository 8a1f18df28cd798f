import LocaleScript.Proofs.Script.Region
import LocaleScript.Script.Scan

/-!
# Reading character by character

Words matter to a scanner only through the slash behind them. A script can therefore be read as a
row of atoms, which are its literals, its comments and the single characters of its code, if the
word that is being read is carried along (`Reading`). `readAtoms` reads so, and `lex_atoms` says
that it finds what `lex` finds.

`Reads` says of a row of atoms that it is read from its own text: each atom begins as its kind does
and ends where it ends (`Fits`). To decide that for a new text, only what stands around each atom
has to be looked at.
-/

namespace LocaleScript.Script

/-! ## Atoms -/

/-- A character of code. -/
def codeChar (c : Char) : Lexeme :=
  ⟨.code, [c]⟩

/-- Code falls apart into characters. -/
def Lexeme.atoms (l : Lexeme) : List Lexeme :=
  if l.kind = .code then l.text.map codeChar else [l]

/-- The atoms of a row of lexemes. -/
def atoms (ls : List Lexeme) : List Lexeme :=
  ls.flatMap Lexeme.atoms

/-- The text of a row of lexemes. -/
def script (ls : List Lexeme) : List Char :=
  ls.flatMap (·.text)

@[simp] theorem codeChar_kind (c : Char) : (codeChar c).kind = .code := rfl

@[simp] theorem codeChar_text (c : Char) : (codeChar c).text = [c] := rfl

@[simp] theorem atoms_nil : atoms [] = [] := rfl

@[simp] theorem atoms_cons (l : Lexeme) (ls : List Lexeme) :
    atoms (l :: ls) = l.atoms ++ atoms ls :=
  rfl

@[simp] theorem script_nil : script [] = [] := rfl

@[simp] theorem script_cons (l : Lexeme) (ls : List Lexeme) :
    script (l :: ls) = l.text ++ script ls :=
  rfl

@[simp] theorem script_append (as bs : List Lexeme) : script (as ++ bs) = script as ++ script bs :=
  List.flatMap_append

@[simp] theorem script_map_codeChar (cs : List Char) : script (cs.map codeChar) = cs := by
  induction cs with
  | nil => rfl
  | cons c cs ih => rw [List.map_cons, script_cons, codeChar_text, ih, List.singleton_append]

theorem Lexeme.atoms_of_ne {l : Lexeme} (h : l.kind ≠ .code) : l.atoms = [l] :=
  if_neg h

theorem Lexeme.atoms_code (text : List Char) : Lexeme.atoms ⟨.code, text⟩ = text.map codeChar :=
  if_pos rfl

/-! ## The state of a reading -/

/-- What the text read so far means for what follows. -/
structure Reading where
  /-- An operand may begin here. -/
  operand : Bool
  /-- The characters of the word that ends here. -/
  word : List Char
deriving DecidableEq, Repr

namespace Reading

/-- The beginning of a script. -/
def start : Reading := ⟨true, []⟩

/-- The state behind one more atom. -/
def after (r : Reading) (a : Lexeme) : Reading :=
  if a.kind = .code ∧ a.text.all isWordChar = true then
    ⟨operandWords.contains (r.word ++ a.text), r.word ++ a.text⟩
  else ⟨a.operandAfter r.operand, []⟩

/-- The state behind a row of atoms. -/
def afterAll (r : Reading) (as : List Lexeme) : Reading :=
  as.foldl after r

@[simp] theorem afterAll_nil (r : Reading) : r.afterAll [] = r := rfl

@[simp] theorem afterAll_cons (r : Reading) (a : Lexeme) (as : List Lexeme) :
    r.afterAll (a :: as) = (r.after a).afterAll as :=
  rfl

@[simp] theorem afterAll_append (r : Reading) (as bs : List Lexeme) :
    r.afterAll (as ++ bs) = (r.afterAll as).afterAll bs :=
  List.foldl_append

theorem after_wordChar (r : Reading) {c : Char} (hc : isWordChar c = true) :
    r.after (codeChar c) = ⟨operandWords.contains (r.word ++ [c]), r.word ++ [c]⟩ :=
  if_pos ⟨rfl, by simp [hc]⟩

theorem after_of_not_wordChar (r : Reading) {c : Char} (hc : isWordChar c = false) :
    r.after (codeChar c) = ⟨(codeChar c).operandAfter r.operand, []⟩ :=
  if_neg fun h => by simp [hc] at h

theorem after_of_ne (r : Reading) {a : Lexeme} (ha : a.kind ≠ .code) :
    r.after a = ⟨a.operandAfter r.operand, []⟩ :=
  if_neg fun h => ha h.1

/-- Behind a word stands what stands behind its characters. -/
theorem afterAll_word (r : Reading) {c : Char} (hc : isWordChar c = true) (w : List Char)
    (hw : ∀ d ∈ w, isWordChar d = true) :
    r.afterAll ((c :: w).map codeChar)
      = ⟨operandWords.contains (r.word ++ c :: w), r.word ++ c :: w⟩ := by
  induction w generalizing r c with
  | nil => rw [List.map_singleton, afterAll_cons, afterAll_nil, after_wordChar r hc]
  | cons d w ih =>
    rw [List.map_cons, afterAll_cons, ih _ (hw d (.head _)) fun e he => hw e (.tail _ he),
      after_wordChar r hc, List.append_assoc, List.singleton_append]

end Reading

/-! ## Reading atoms -/

/-- What an atom takes behind its first character, and what is left. -/
def Kind.cutAtom (first : Char) (cs : List Char) (kind : Kind) : Option (List Char × List Char) :=
  if kind = .code then some ([], cs) else kind.cut first cs

theorem Kind.cutAtom_append {kind : Kind} {c : Char} {cs t r : List Char}
    (h : kind.cutAtom c cs = some (t, r)) : t ++ r = cs := by
  unfold Kind.cutAtom at h
  split at h
  · obtain ⟨rfl, rfl⟩ := Prod.mk.inj (Option.some.inj h)
    rfl
  · exact Kind.cut_append h

/-- Reads a text atom by atom. -/
def readAtoms (r : Reading) (cs : List Char) : Lexed :=
  match cs with
  | [] => ⟨[], none⟩
  | c :: rest =>
    let kind := Kind.opened r.operand c rest
    match _h : kind.cutAtom c rest with
    | none => ⟨[], some kind⟩
    | some (taken, left) =>
      let a : Lexeme := ⟨kind, c :: taken⟩
      let tail := readAtoms (r.after a) left
      ⟨a :: tail.lexemes, tail.unterminated⟩
termination_by cs.length
decreasing_by
  have := congrArg List.length (Kind.cutAtom_append _h)
  simp only [List.length_append] at this
  simp only [List.length_cons]
  omega

theorem readAtoms_nil (r : Reading) : readAtoms r [] = ⟨[], none⟩ := by
  rw [readAtoms]

theorem readAtoms_cons_none {r : Reading} {c : Char} {rest : List Char}
    (h : (Kind.opened r.operand c rest).cutAtom c rest = none) :
    readAtoms r (c :: rest) = ⟨[], some (Kind.opened r.operand c rest)⟩ := by
  rw [readAtoms]
  split
  · rfl
  · next h' =>
      rw [h] at h'
      cases h'

theorem readAtoms_cons_some {r : Reading} {c : Char} {rest t left : List Char}
    (h : (Kind.opened r.operand c rest).cutAtom c rest = some (t, left)) :
    readAtoms r (c :: rest) = .behind [⟨Kind.opened r.operand c rest, c :: t⟩]
      (readAtoms (r.after ⟨Kind.opened r.operand c rest, c :: t⟩) left) := by
  rw [readAtoms]
  split
  · next h' =>
      rw [h] at h'
      cases h'
  · next h' =>
    rw [h] at h'
    obtain ⟨rfl, rfl⟩ := Prod.mk.inj (Option.some.inj h')
    rfl

/-- A text is empty, or it begins with a region that does not end or with an atom. -/
theorem readAtoms_induction {motive : Reading → List Char → Prop} (nil : ∀ r, motive r [])
    (unterminated : ∀ (r : Reading) c rest, (Kind.opened r.operand c rest).cutAtom c rest = none →
      motive r (c :: rest))
    (atom : ∀ (r : Reading) c rest taken left,
      (Kind.opened r.operand c rest).cutAtom c rest = some (taken, left) →
      motive (r.after ⟨Kind.opened r.operand c rest, c :: taken⟩) left → motive r (c :: rest))
    (r : Reading) (cs : List Char) : motive r cs :=
  readAtoms.induct motive nil unterminated atom r cs

/-! ## Lexemes and atoms -/

/-- Word characters open no literal and no comment. -/
theorem opened_of_isWordChar (operand : Bool) {c : Char} (hc : isWordChar c = true)
    (cs : List Char) : Kind.opened operand c cs = .code := by
  have hne : ∀ d : Char, isWordChar d = false → c ≠ d := by
    rintro d hd rfl
    rw [hc] at hd
    cases hd
  exact opened_eq_code ⟨hne '"' (by decide), hne '\'' (by decide), hne '\x60' (by decide),
    hne '/' (by decide)⟩ operand cs

theorem readAtoms_codeChar {r : Reading} {c : Char} {rest : List Char}
    (h : Kind.opened r.operand c rest = .code) :
    readAtoms r (c :: rest) = (readAtoms (r.after (codeChar c)) rest).behind [codeChar c] := by
  have hcut : (Kind.opened r.operand c rest).cutAtom c rest = some ([], rest) := by
    rw [h]
    rfl
  rw [readAtoms_cons_some hcut, h]
  rfl

/-- A run of word characters is read character by character. -/
theorem readAtoms_word (w : List Char) (hw : ∀ c ∈ w, isWordChar c = true) (r : Reading)
    (rest : List Char) :
    readAtoms r (w ++ rest)
      = (readAtoms (r.afterAll (w.map codeChar)) rest).behind (w.map codeChar) := by
  induction w generalizing r with
  | nil => rfl
  | cons c w ih =>
    rw [List.cons_append, readAtoms_codeChar (opened_of_isWordChar _ (hw c (.head _)) _),
      ih fun d hd => hw d (.tail _ hd)]
    rw [← behind_append]
    rfl

/-- What the word was does not matter where it does not go on. -/
theorem readAtoms_forget_word (operand : Bool) (w : List Char) {cs : List Char}
    (h : ∀ c, cs.head? = some c → isWordChar c = false) :
    readAtoms ⟨operand, w⟩ cs = readAtoms ⟨operand, []⟩ cs := by
  cases cs with
  | nil => rw [readAtoms_nil, readAtoms_nil]
  | cons c rest =>
    have hafter : ∀ a : Lexeme, a.text.head? = some c →
        Reading.after ⟨operand, w⟩ a = Reading.after ⟨operand, []⟩ a := by
      intro a ha
      have hall : a.text.all isWordChar = false := by
        obtain ⟨t, ht⟩ := List.head?_eq_some_iff.mp ha
        simp [ht, h c rfl]
      simp only [Reading.after, hall, Bool.false_eq_true, and_false, reduceIte]
    cases hcut : (Kind.opened operand c rest).cutAtom c rest with
    | none => rw [readAtoms_cons_none hcut, readAtoms_cons_none hcut]
    | some p =>
      rw [readAtoms_cons_some (r := ⟨operand, w⟩) hcut,
        readAtoms_cons_some (r := ⟨operand, []⟩) hcut, hafter _ rfl]

theorem Kind.cutAtom_of_ne {kind : Kind} (hk : kind ≠ .code) (c : Char) (cs : List Char) :
    kind.cutAtom c cs = kind.cut c cs :=
  if_neg hk

theorem Kind.cut_code_of_isWordChar {c : Char} (hc : isWordChar c = true) (cs : List Char) :
    Kind.cut c cs .code = some (cs.takeWhile isWordChar, cs.dropWhile isWordChar) :=
  if_pos hc

theorem Kind.cut_code_of_not_isWordChar {c : Char} (hc : isWordChar c = false) (cs : List Char) :
    Kind.cut c cs .code = some ([], cs) :=
  if_neg (by simp [hc])

/-- A word is read as its characters. -/
theorem readAtoms_of_isWordChar (operand : Bool) {c : Char} (hc : isWordChar c = true)
    (rest : List Char) :
    readAtoms ⟨operand, []⟩ (c :: rest)
      = (readAtoms ⟨operandWords.contains (c :: rest.takeWhile isWordChar), []⟩
          (rest.dropWhile isWordChar)).behind ((c :: rest.takeWhile isWordChar).map codeChar) := by
  have hw : ∀ d ∈ rest.takeWhile isWordChar, isWordChar d = true :=
    fun d hd => List.all_eq_true.mp List.all_takeWhile d hd
  have hall : ∀ d ∈ c :: rest.takeWhile isWordChar, isWordChar d = true := by
    intro d hd
    rcases List.mem_cons.mp hd with rfl | hd
    · exact hc
    · exact hw d hd
  have hread := readAtoms_word _ hall ⟨operand, []⟩ (rest.dropWhile isWordChar)
  rw [List.cons_append, List.takeWhile_append_dropWhile] at hread
  rw [hread, Reading.afterAll_word _ hc _ hw, List.nil_append,
    readAtoms_forget_word _ _ fun d hd => eq_false_of_head?_dropWhile hd]

/-- Reading atoms finds the lexemes, their code character by character. -/
theorem lex_atoms (operand : Bool) (cs : List Char) :
    (⟨atoms (lex operand cs).lexemes, (lex operand cs).unterminated⟩ : Lexed)
      = readAtoms ⟨operand, []⟩ cs := by
  induction operand, cs using lex_induction with
  | nil operand =>
    rw [lex_nil, readAtoms_nil]
    rfl
  | unterminated operand c rest hcut =>
    have hk : Kind.opened operand c rest ≠ .code := by
      intro hk
      rw [hk, Kind.cut] at hcut
      split at hcut <;> cases hcut
    rw [lex_cons_none hcut,
      readAtoms_cons_none (r := ⟨operand, []⟩) ((Kind.cutAtom_of_ne hk c rest).trans hcut)]
    rfl
  | lexeme operand c rest taken left hcut ih =>
    rw [lex_cons_some hcut]
    refine Eq.trans
      (congrArg (Lexed.behind (Lexeme.atoms ⟨Kind.opened operand c rest, c :: taken⟩)) ih) ?_
    by_cases hk : Kind.opened operand c rest = .code
    · rw [hk] at hcut
      rw [hk, Lexeme.atoms_code]
      cases hc : isWordChar c with
      | true =>
        rw [Kind.cut_code_of_isWordChar hc] at hcut
        obtain ⟨rfl, rfl⟩ := Prod.mk.inj (Option.some.inj hcut)
        rw [readAtoms_of_isWordChar operand hc]
        simp only [Lexeme.operandAfter, hc, reduceIte]
      | false =>
        rw [Kind.cut_code_of_not_isWordChar hc] at hcut
        obtain ⟨rfl, rfl⟩ := Prod.mk.inj (Option.some.inj hcut)
        rw [readAtoms_codeChar (r := ⟨operand, []⟩) hk, Reading.after_of_not_wordChar _ hc]
        rfl
    · rw [readAtoms_cons_some (r := ⟨operand, []⟩) ((Kind.cutAtom_of_ne hk c rest).trans hcut),
        Reading.after_of_ne _ hk, Lexeme.atoms_of_ne hk]

/-! ## Rows that are read from their own text -/

/-- The atom begins as its kind does and ends where these characters follow. -/
def Fits (operand : Bool) (a : Lexeme) (cs : List Char) : Prop :=
  ∃ c t, a.text = c :: t ∧ Kind.opened operand c (t ++ cs) = a.kind ∧
    a.kind.cutAtom c (t ++ cs) = some (t, cs)

theorem Fits.eq_codeChar {operand : Bool} {a : Lexeme} {cs : List Char} (h : Fits operand a cs)
    (hk : a.kind = .code) : ∃ c, a = codeChar c := by
  obtain ⟨c, t, htext, -, hcut⟩ := h
  rw [hk, Kind.cutAtom, if_pos rfl] at hcut
  obtain ⟨rfl, -⟩ := Prod.mk.inj (Option.some.inj hcut)
  refine ⟨c, ?_⟩
  obtain ⟨kind, text⟩ := a
  obtain rfl : kind = .code := hk
  obtain rfl : text = [c] := htext
  rfl

/-- Where the first character opens nothing, the atom is that character. -/
theorem Fits.eq_codeChar_of_head? {operand : Bool} {a : Lexeme} {cs : List Char}
    (h : Fits operand a cs) {c : Char} (hhead : a.text.head? = some c)
    (hc : c ≠ '"' ∧ c ≠ '\'' ∧ c ≠ '\x60' ∧ c ≠ '/') : a = codeChar c := by
  obtain ⟨d, t, htext, hopened, -⟩ := id h
  rw [htext, List.head?_cons, Option.some.injEq] at hhead
  subst hhead
  rw [opened_eq_code hc] at hopened
  obtain ⟨d', rfl⟩ := h.eq_codeChar hopened.symm
  obtain ⟨rfl, -⟩ := List.cons.inj htext
  rfl

theorem Fits.text_ne_nil {operand : Bool} {a : Lexeme} {cs : List Char} (h : Fits operand a cs) :
    a.text ≠ [] := by
  obtain ⟨c, t, htext, -⟩ := h
  rw [htext]
  exact List.cons_ne_nil c t

theorem Fits.endsBefore {operand : Bool} {a : Lexeme} {cs : List Char} (h : Fits operand a cs) :
    a.kind.endsBefore cs.head? = true := by
  by_cases hk : a.kind = .code
  · rw [hk]
    rfl
  · obtain ⟨c, t, -, -, hcut⟩ := h
    rw [Kind.cutAtom_of_ne hk] at hcut
    exact Kind.endsBefore_of_cut hcut

/-- Literals and block comments do not end in a blank. -/
theorem Fits.getLast? {operand : Bool} {a : Lexeme} {cs : List Char} (h : Fits operand a cs)
    (hcode : a.kind ≠ .code) (hline : a.kind ≠ .lineComment) :
    ∃ c, a.text.getLast? = some c ∧ Text.isBlank c = false := by
  obtain ⟨c, t, htext, hopened, hcut⟩ := h
  rw [Kind.cutAtom_of_ne hcode] at hcut
  have hquote : a.kind = .string → Text.isBlank c = false := by
    intro hs
    rcases beginsWith_of_opened (hopened.trans hs) with rfl | rfl <;> decide
  obtain ⟨d, hlast, hd⟩ := Kind.getLast?_of_cut hcode hline hquote hcut
  rw [htext]
  exact ⟨d, getLast?_cons_of_getLast? hlast, hd⟩

/-- A regular expression ends in its closing slash or in a flag. -/
theorem Fits.regex_getLast? {operand : Bool} {a : Lexeme} {cs : List Char} (h : Fits operand a cs)
    (hk : a.kind = .regex) : ∃ c, a.text.getLast? = some c ∧ (c = '/' ∨ c.isAlpha = true) := by
  obtain ⟨c, t, htext, -, hcut⟩ := h
  rw [hk] at hcut
  obtain ⟨d, hlast, hd⟩ := (isRegexRest_of_cut hcut).1.getLast?
  rw [htext]
  exact ⟨d, getLast?_cons_of_getLast? hlast, hd⟩

/-- The row of atoms is what its own text is read as. -/
inductive Reads : Reading → List Lexeme → Prop where
  | nil (r : Reading) : Reads r []
  | cons {r : Reading} {a : Lexeme} {as : List Lexeme} (fits : Fits r.operand a (script as))
      (rest : Reads (r.after a) as) : Reads r (a :: as)

theorem Reads.eq_nil {r : Reading} {as : List Lexeme} (h : Reads r as) (hs : script as = []) :
    as = [] := by
  cases h with
  | nil => rfl
  | cons fits => exact absurd (List.append_eq_nil_iff.mp hs).1 fits.text_ne_nil

/-- Where a newline is next, it is read as code. -/
theorem Reads.newline {r : Reading} {as : List Lexeme} (h : Reads r as)
    (hn : (script as).head? = some '\n') : ∃ rest, as = codeChar '\n' :: rest := by
  cases h with
  | nil => cases hn
  | @cons _ a as fits rest =>
    have hhead : a.text.head? = some '\n' := by
      obtain ⟨c, t, htext, -⟩ := fits
      rw [script_cons, htext] at hn
      rw [htext]
      exact hn
    rw [fits.eq_codeChar_of_head? hhead (by decide)]
    exact ⟨as, rfl⟩

theorem readAtoms_of_reads {r : Reading} {as : List Lexeme} (h : Reads r as) :
    readAtoms r (script as) = ⟨as, none⟩ := by
  induction h with
  | nil r => exact readAtoms_nil r
  | @cons r a as fits rest ih =>
    obtain ⟨c, t, htext, hopened, hcut⟩ := fits
    have ha : (⟨a.kind, c :: t⟩ : Lexeme) = a := by rw [← htext]
    rw [script_cons, htext, List.cons_append]
    rw [← hopened] at hcut
    rw [readAtoms_cons_some hcut, hopened, ha, ih]
    rfl

theorem reads_of_readAtoms (r : Reading) (cs : List Char) {as : List Lexeme}
    (h : readAtoms r cs = ⟨as, none⟩) : Reads r as ∧ script as = cs := by
  induction r, cs using readAtoms_induction generalizing as with
  | nil r =>
    rw [readAtoms_nil] at h
    obtain ⟨rfl, -⟩ := Lexed.mk.inj h
    exact ⟨.nil r, rfl⟩
  | unterminated r c rest hcut =>
    rw [readAtoms_cons_none hcut] at h
    cases (Lexed.mk.inj h).2
  | atom r c rest taken left hcut ih =>
    rw [readAtoms_cons_some hcut] at h
    obtain ⟨as, rfl, htail⟩ := exists_of_behind_eq h
    obtain ⟨hreads, hscript⟩ := ih htail
    have happ := Kind.cutAtom_append hcut
    refine ⟨.cons ⟨c, taken, rfl, ?_, ?_⟩ hreads, ?_⟩
    · rw [hscript, happ]
    · rw [hscript, happ]
      exact hcut
    · rw [script_cons, hscript, List.cons_append, happ]

/-- A row of atoms is what a text is read as if it makes up the text and is read from it. -/
theorem readAtoms_eq_iff {r : Reading} {cs : List Char} {as : List Lexeme} :
    readAtoms r cs = ⟨as, none⟩ ↔ Reads r as ∧ script as = cs := by
  constructor
  · exact reads_of_readAtoms r cs
  · rintro ⟨hreads, rfl⟩
    exact readAtoms_of_reads hreads

/-! ## Segments and atoms -/

theorem atoms_joinCode (ls : List Lexeme) : atoms (joinCode ls) = atoms ls := by
  induction ls using joinCode_induction with
  | nil => rfl
  | last l ls hjoin ih =>
    rw [hjoin] at ih
    rw [joinCode_last hjoin, atoms_cons, atoms_cons, ih]
  | joined text text' ls ms hjoin ih =>
    rw [hjoin] at ih
    rw [joinCode_joined hjoin, atoms_cons, atoms_cons, ← ih, atoms_cons]
    simp only [Lexeme.atoms_code, List.map_append, List.append_assoc]
  | apart l m ls ms hjoin hkinds ih =>
    rw [hjoin] at ih
    rw [joinCode_apart hjoin hkinds, atoms_cons, ih, atoms_cons]

theorem locate_append (start : Nat) (as bs : List Lexeme) :
    locate start (as ++ bs)
      = locate start as ++ locate (start + Text.byteLength (script as)) bs := by
  induction as generalizing start with
  | nil => rfl
  | cons a as ih =>
    simp only [List.cons_append, locate, ih, script_cons, Text.byteLength_append, Nat.add_assoc]

theorem le_start_of_mem_locate {start : Nat} {ls : List Lexeme} {s : Segment}
    (h : s ∈ locate start ls) : start ≤ s.start := by
  induction ls generalizing start with
  | nil => cases h
  | cons l ls ih =>
    rcases List.mem_cons.mp h with rfl | h
    · exact Nat.le_refl _
    · exact Nat.le_trans (Nat.le_add_right _ _) (ih h)

theorem exists_of_mem_locate {start : Nat} {ls : List Lexeme} {s : Segment}
    (h : s ∈ locate start ls) : ∃ before l behind, ls = before ++ l :: behind ∧
      s = ⟨l.kind, start + Text.byteLength (script before), l.text⟩ := by
  induction ls generalizing start with
  | nil => cases h
  | cons l ls ih =>
    rcases List.mem_cons.mp h with rfl | h
    · exact ⟨[], l, ls, rfl, rfl⟩
    · obtain ⟨before, m, behind, rfl, rfl⟩ := ih h
      exact ⟨l :: before, m, behind, rfl, by
        rw [script_cons, Text.byteLength_append, Nat.add_assoc]⟩

@[simp] theorem script_atoms (ls : List Lexeme) : script (atoms ls) = script ls := by
  induction ls with
  | nil => rfl
  | cons l ls ih =>
    rw [atoms_cons, script_append, ih, script_cons]
    congr 1
    by_cases hl : l.kind = .code
    · rw [Lexeme.atoms, if_pos hl, script_map_codeChar]
    · rw [Lexeme.atoms_of_ne hl, script_cons, script_nil, List.append_nil]

/-- What is collected from code is what is collected from its characters. -/
def CodeAdditive {β : Type} (f : Segment → List β) : Prop :=
  ∀ start text, f ⟨.code, start, text⟩ = (locate start (text.map codeChar)).flatMap f

/-- What is collected from segments is what is collected from their atoms. -/
theorem flatMap_locate_atoms {β : Type} {f : Segment → List β} (hf : CodeAdditive f) (start : Nat)
    (ls : List Lexeme) : (locate start ls).flatMap f = (locate start (atoms ls)).flatMap f := by
  induction ls generalizing start with
  | nil => rfl
  | cons l ls ih =>
    have hl : f ⟨l.kind, start, l.text⟩ = (locate start l.atoms).flatMap f := by
      obtain ⟨kind, text⟩ := l
      by_cases hk : kind = .code
      · rw [hk, Lexeme.atoms_code]
        exact hf start text
      · rw [Lexeme.atoms_of_ne hk]
        exact (List.append_nil _).symm
    have hscript : script l.atoms = l.text := by
      have := script_atoms [l]
      simpa using this
    rw [atoms_cons, locate_append, List.flatMap_append, ← hl, hscript, ← ih]
    rfl

/-- A script that scans is read as the atoms of its segments. -/
theorem reads_of_scan {source : List Char} {segments : List Segment}
    (h : scan source = .ok segments) :
    ∃ ls, segments = locate 0 ls ∧ Reads .start (atoms ls) ∧ script (atoms ls) = source := by
  have hlex := lex_atoms true source
  simp only [scan] at h
  split at h
  · next hnone =>
    rw [hnone] at hlex
    obtain ⟨hreads, hscript⟩ := readAtoms_eq_iff.mp hlex.symm
    refine ⟨_, (Except.ok.inj h).symm, ?_, ?_⟩
    · rw [atoms_joinCode]
      exact hreads
    · rw [atoms_joinCode]
      exact hscript
  · cases h

/-- A row of atoms that is read from its own text is a script that scans. -/
theorem scan_script {as : List Lexeme} (h : Reads .start as) :
    ∃ ls, scan (script as) = .ok (locate 0 ls) ∧ atoms ls = as := by
  have hlex := (lex_atoms true (script as)).trans (readAtoms_of_reads h)
  obtain ⟨hatoms, hnone⟩ := Lexed.mk.inj hlex
  refine ⟨joinCode (lex true (script as)).lexemes, ?_, ?_⟩
  · simp only [scan, hnone]
  · rw [atoms_joinCode, hatoms]

/-! ## Literals and comments -/

/-- The segment as a lexeme. -/
def Segment.lexeme (s : Segment) : Lexeme :=
  ⟨s.kind, s.text⟩

/-- The byte offset behind a segment. -/
def Segment.stop (s : Segment) : Nat :=
  s.start + Text.byteLength s.text

/-- Strings, templates and regular expressions. -/
def Kind.isLiteral : Kind → Bool
  | .string | .template | .regex => true
  | .code | .lineComment | .blockComment => false

/-- The literals of a script, in order. -/
def literals (segments : List Segment) : List Lexeme :=
  (segments.filter (·.kind.isLiteral)).map Segment.lexeme

theorem Kind.isComment_iff {kind : Kind} :
    kind.isComment = true ↔ kind = .lineComment ∨ kind = .blockComment := by
  cases kind <;> simp [Kind.isComment]

/-- What is no code stands where it stood. -/
theorem mem_locate_atoms {start : Nat} {ls : List Lexeme} {s : Segment}
    (h : s ∈ locate start ls) (hs : s.kind ≠ .code) : s ∈ locate start (atoms ls) := by
  induction ls generalizing start with
  | nil => cases h
  | cons l ls ih =>
    rw [atoms_cons, locate_append]
    rcases List.mem_cons.mp h with rfl | h
    · rw [Lexeme.atoms_of_ne hs]
      exact .head _
    · have hscript : script l.atoms = l.text := by simpa using script_atoms [l]
      rw [hscript]
      exact List.mem_append_right _ (ih h)

/-- The segments of some kinds, but not of code, are the atoms of these kinds. -/
theorem map_lexeme_locate {p : Kind → Bool} (hp : p .code = false) (start : Nat)
    (ls : List Lexeme) :
    ((locate start ls).filter (p ·.kind)).map Segment.lexeme = (atoms ls).filter (p ·.kind) := by
  induction ls generalizing start with
  | nil => rfl
  | cons l ls ih =>
    rw [locate, atoms_cons, List.filter_append, ← ih (start + Text.byteLength l.text)]
    obtain ⟨kind, text⟩ := l
    by_cases hk : kind = .code
    · subst hk
      have hnone : ((text.map codeChar).filter (p ·.kind)) = [] :=
        List.filter_eq_nil_iff.mpr fun a ha => by
          obtain ⟨c, -, rfl⟩ := List.mem_map.mp ha
          simp [hp]
      rw [Lexeme.atoms_code, hnone, List.filter_cons_of_neg (by simp [hp])]
      rfl
    · rw [Lexeme.atoms_of_ne hk]
      cases hkind : p kind with
      | true =>
        simp only [List.filter_cons, hkind, reduceIte]
        rfl
      | false =>
        simp only [List.filter_cons, hkind, Bool.false_eq_true, reduceIte]
        rfl

theorem literals_locate (start : Nat) (ls : List Lexeme) :
    literals (locate start ls) = (atoms ls).filter (·.kind.isLiteral) :=
  map_lexeme_locate rfl start ls

end LocaleScript.Script
