import LocaleScript.Proofs.Script.Partition
import LocaleScript.Proofs.Script.Wrapping

/-!
# Comments are transparent

Blanks in place of a comment, as many as the comment has bytes, leave a script the literals that it
has, each at its place (`scan_blanked`). The state of a reading is the same behind the blanks as it
is behind the comment, for neither changes whether an operand may begin and both end a word
(`afterAll_spaces`). The atom in front sees a blank where it saw a slash, and a blank draws nothing
into it (`Fits.before_space`).
-/

namespace LocaleScript.Script

/-! ## Blanks for comments -/

/-- The text of a script with a space for each byte of its comments. -/
def blanked (segments : List Segment) : List Char :=
  segments.flatMap fun s =>
    if s.kind.isComment then List.replicate (Text.byteLength s.text) ' ' else s.text

/-- The atoms of a row of spaces. -/
def spaces (n : Nat) : List Lexeme :=
  (List.replicate n ' ').map codeChar

/-- The atom, or a space for each byte of a comment. -/
def Lexeme.blank (a : Lexeme) : List Lexeme :=
  if a.kind.isComment then spaces (Text.byteLength a.text) else [a]

/-- A row of atoms with spaces for its comments. -/
def blankAll (as : List Lexeme) : List Lexeme :=
  as.flatMap Lexeme.blank

theorem Lexeme.blank_of_isComment {a : Lexeme} (h : a.kind.isComment = true) :
    a.blank = spaces (Text.byteLength a.text) :=
  if_pos h

theorem Lexeme.blank_of_not_isComment {a : Lexeme} (h : a.kind.isComment = false) : a.blank = [a] :=
  if_neg (by simp [h])

@[simp] theorem blankAll_nil : blankAll [] = [] := rfl

@[simp] theorem blankAll_cons (a : Lexeme) (as : List Lexeme) :
    blankAll (a :: as) = a.blank ++ blankAll as :=
  rfl

theorem byteLength_replicate_space (n : Nat) : Text.byteLength (List.replicate n ' ') = n := by
  induction n with
  | zero => rfl
  | succ n ih =>
    rw [List.replicate_succ, Text.byteLength_cons, ih, Nat.add_comm]
    rfl

theorem script_spaces (n : Nat) : script (spaces n) = List.replicate n ' ' :=
  script_map_codeChar _

/-- Spaces take the place of a comment byte by byte. -/
theorem byteLength_script_blank (a : Lexeme) :
    Text.byteLength (script a.blank) = Text.byteLength a.text := by
  cases h : a.kind.isComment with
  | true => rw [Lexeme.blank_of_isComment h, script_spaces, byteLength_replicate_space]
  | false => rw [Lexeme.blank_of_not_isComment h, script_cons, script_nil, List.append_nil]

theorem blankAll_map_codeChar (cs : List Char) : blankAll (cs.map codeChar) = cs.map codeChar := by
  induction cs with
  | nil => rfl
  | cons c cs ih =>
    rw [List.map_cons, blankAll_cons, ih]
    rfl

/-- Blanking the atoms blanks the text. -/
theorem script_blankAll_atoms (start : Nat) (ls : List Lexeme) :
    script (blankAll (atoms ls)) = blanked (locate start ls) := by
  induction ls generalizing start with
  | nil => rfl
  | cons l ls ih =>
    have hl : script (blankAll l.atoms)
        = if l.kind.isComment then List.replicate (Text.byteLength l.text) ' ' else l.text := by
      by_cases hcode : l.kind = .code
      · rw [Lexeme.atoms, if_pos hcode, blankAll_map_codeChar, script_map_codeChar, hcode]
        rfl
      · rw [Lexeme.atoms_of_ne hcode, blankAll_cons, blankAll_nil, List.append_nil]
        cases hcomment : l.kind.isComment with
        | true => rw [Lexeme.blank_of_isComment hcomment, script_spaces, if_pos rfl]
        | false => simp [Lexeme.blank_of_not_isComment hcomment]
    have happend : blankAll (l.atoms ++ atoms ls) = blankAll l.atoms ++ blankAll (atoms ls) :=
      List.flatMap_append
    rw [atoms_cons, happend, script_append, hl, ih (start + Text.byteLength l.text)]
    rfl

/-! ## Reading blanks for comments -/

theorem plain_replicate_space (n : Nat) : Plain (List.replicate n ' ') := by
  intro c hc
  rw [List.eq_of_mem_replicate hc]
  decide

/-- Spaces end a word and change nothing else. -/
theorem afterAll_spaces (r : Reading) {n : Nat} (hn : 0 < n) :
    r.afterAll (spaces n) = ⟨r.operand, []⟩ := by
  have hspace : ∀ r : Reading, r.after (codeChar ' ') = ⟨r.operand, []⟩ :=
    fun r => after_asciiBlank r rfl
  induction n generalizing r with
  | zero => omega
  | succ n ih =>
    show (r.after (codeChar ' ')).afterAll (spaces n) = _
    rw [hspace]
    by_cases h : n = 0
    · rw [h]
      rfl
    · exact ih _ (by omega)

/-- Where an atom is read that is no comment, it is read in front of a space as well. -/
theorem Fits.before_space {operand : Bool} {a : Lexeme} {cs cs' : List Char}
    (h : Fits operand a cs) (hk : a.kind.isComment = false)
    (hnext : cs'.head? = cs.head? ∨ cs'.head? = some ' ') : Fits operand a cs' := by
  rcases hnext with hnext | hnext
  · exact h.congr hnext
  · have hline : a.kind ≠ .lineComment := by
      intro hline
      rw [hline] at hk
      cases hk
    rw [h.iff hline, hnext]
    exact ⟨h.takenAsWas, mayMeet_of_ne a (by decide) (by decide)⟩

/-- Blanked atoms begin as the atoms do, or with a space. -/
theorem head?_script_blankAll {as : List Lexeme} (hne : ∀ a ∈ as, a.text ≠ []) :
    (script (blankAll as)).head? = (script as).head? ∨
      (script (blankAll as)).head? = some ' ' := by
  cases as with
  | nil => exact .inl rfl
  | cons a as =>
    rw [blankAll_cons, script_append]
    cases hcomment : a.kind.isComment with
    | true =>
      obtain ⟨n, hn⟩ := Nat.exists_eq_succ_of_ne_zero (Text.byteLength_pos (hne a (.head _))).ne'
      rw [Lexeme.blank_of_isComment hcomment, script_spaces, hn]
      exact .inr rfl
    | false =>
      rw [Lexeme.blank_of_not_isComment hcomment, script_cons, script_nil, List.append_nil]
      exact .inl (head?_append_eq_of_append_eq (hne a (.head _)) rfl _)

/-- Atoms are read with blanks for the comments among them. -/
theorem reads_blankAll {r : Reading} {as : List Lexeme} (h : Reads r as) :
    Reads r (blankAll as) := by
  induction h with
  | nil r => exact .nil r
  | @cons r a as fits rest ih =>
    rw [blankAll_cons]
    cases hcomment : a.kind.isComment with
    | true =>
      have hafter : r.after a = r.afterAll (spaces (Text.byteLength a.text)) := by
        rw [after_comment r (Kind.isComment_iff.mp hcomment),
          afterAll_spaces r (Text.byteLength_pos fits.text_ne_nil)]
      rw [Lexeme.blank_of_isComment hcomment, spaces, reads_plain_iff (plain_replicate_space _)]
      rw [hafter] at ih
      exact ih
    | false =>
      rw [Lexeme.blank_of_not_isComment hcomment]
      refine .cons (fits.before_space hcomment ?_) ih
      exact head?_script_blankAll fun b hb => rest.text_ne_nil hb

/-! ## The literals -/

/-- The literals of blanked atoms, each where it stood, are all that is no code. -/
theorem regionsOf_blankAll (start : Nat) (as : List Lexeme) :
    regionsOf (locate start (blankAll as)) = (locate start as).filter (·.kind.isLiteral) := by
  induction as generalizing start with
  | nil => rfl
  | cons a as ih =>
    rw [blankAll_cons, locate_append, regionsOf_append, byteLength_script_blank, ih, locate,
      List.filter_cons]
    cases hcomment : a.kind.isComment with
    | true =>
      have hliteral : a.kind.isLiteral = false := by
        rcases Kind.isComment_iff.mp hcomment with hk | hk <;> rw [hk] <;> rfl
      rw [Lexeme.blank_of_isComment hcomment, spaces, regionsOf_locate_map_codeChar]
      simp [hliteral]
    | false =>
      rw [Lexeme.blank_of_not_isComment hcomment, locate, locate, regionsOf, List.filter_cons]
      obtain ⟨kind, text⟩ := a
      cases kind with
      | lineComment | blockComment => cases hcomment
      | _ => rfl

theorem filter_isLiteral_regionsOf (segments : List Segment) :
    (regionsOf segments).filter (·.kind.isLiteral) = segments.filter (·.kind.isLiteral) := by
  rw [regionsOf, List.filter_filter]
  refine List.filter_congr fun s _ => ?_
  obtain ⟨kind, start, text⟩ := s
  cases kind <;> rfl

/-- The literals of a script stand where they stand among its atoms. -/
theorem filter_isLiteral_locate_atoms (start : Nat) (ls : List Lexeme) :
    (locate start ls).filter (·.kind.isLiteral)
      = (locate start (atoms ls)).filter (·.kind.isLiteral) := by
  rw [← filter_isLiteral_regionsOf, regionsOf_locate_atoms, filter_isLiteral_regionsOf]

/-- A script that scans does so with a space for each byte of its comments. Its literals are then
all that is no code, and they are what they were, where they were. -/
theorem scan_blanked {source : List Char} {segments : List Segment}
    (h : scan source = .ok segments) :
    segments.flatMap (·.text) = source ∧
      ∃ segments', scan (blanked segments) = .ok segments' ∧
        regionsOf segments' = segments.filter (·.kind.isLiteral) := by
  obtain ⟨ls, rfl, hreads, rfl⟩ := reads_of_scan h
  obtain ⟨ls', hscan, hatoms⟩ := scan_script (reads_blankAll hreads)
  rw [script_blankAll_atoms 0] at hscan
  refine ⟨?_, _, hscan, ?_⟩
  · rw [script_atoms]
    exact flatMap_text_locate 0 ls
  · rw [regionsOf_locate_atoms, hatoms, regionsOf_blankAll, ← filter_isLiteral_locate_atoms]

/-- A comment hides a division behind a word, another touches a regular expression, and one its
flags. -/
theorem scan_blanked_adjacent :
    scan "a/*é\n*// b;/*x*//c/g//d".toList = .ok [⟨.code, 0, "a".toList⟩,
        ⟨.blockComment, 1, "/*é\n*/".toList⟩, ⟨.code, 8, "/ b;".toList⟩,
        ⟨.blockComment, 12, "/*x*/".toList⟩, ⟨.regex, 17, "/c/g".toList⟩,
        ⟨.lineComment, 21, "//d".toList⟩] ∧
      ∃ segments, scan "a       / b;     /c/g   ".toList = .ok segments ∧
        regionsOf segments = [⟨.regex, 17, "/c/g".toList⟩] := by
  have hscan : scan "a/*é\n*// b;/*x*//c/g//d".toList = .ok [⟨.code, 0, "a".toList⟩,
      ⟨.blockComment, 1, "/*é\n*/".toList⟩, ⟨.code, 8, "/ b;".toList⟩,
      ⟨.blockComment, 12, "/*x*/".toList⟩, ⟨.regex, 17, "/c/g".toList⟩,
      ⟨.lineComment, 21, "//d".toList⟩] := by
    decide +kernel
  obtain ⟨-, segments, hblanked, hregions⟩ := scan_blanked hscan
  refine ⟨hscan, segments, ?_, hregions.trans (by decide)⟩
  rw [← hblanked]
  exact congrArg scan (by decide)

end LocaleScript.Script
