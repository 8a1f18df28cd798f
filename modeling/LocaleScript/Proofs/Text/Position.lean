import Mathlib.Data.List.Induction
import LocaleScript.Proofs.Text.Lines

/-!
# Boundaries and positions

The boundaries of a text are the byte lengths of its beginnings (`isBoundary_iff`). A position is
found in a text by skipping the lines above its own, with their newlines, and then characters of its
own line (`Position.byte?`). Each boundary has one position, and what is found for a position is the
boundary that has it (`byte?_eq_some_iff`). Behind a longer beginning of a text stands a later
position (`precedes_after`).
-/

namespace LocaleScript.Text

/-! ## Boundaries -/

theorem byteLength_pos {cs : List Char} (h : cs ≠ []) : 0 < byteLength cs := by
  obtain ⟨c, cs, rfl⟩ := List.exists_cons_of_ne_nil h
  exact Nat.lt_of_lt_of_le c.utf8Size_pos (Nat.le_add_right _ _)

/-- The bytes of a string are those of its characters. -/
theorem utf8ByteSize_eq_byteLength (s : String) : s.utf8ByteSize = byteLength s.toList := by
  have hlist (cs : List Char) : (String.ofList cs).utf8ByteSize = byteLength cs := by
    induction cs with
    | nil => rfl
    | cons c cs ih =>
      rw [String.ofList_cons, String.utf8ByteSize_append, String.utf8ByteSize_singleton, ih,
        byteLength_cons]
  rw [← hlist, String.ofList_toList]

theorem append_inj_of_byteLength {as as' bs bs' : List Char} (h : as ++ bs = as' ++ bs')
    (hlength : byteLength as = byteLength as') : as = as' ∧ bs = bs' := by
  have has : as = as' := by
    rw [← takeBytes_append as bs, h, hlength, takeBytes_append]
  exact ⟨has, List.append_cancel_left (by rw [← has] at h; exact h)⟩

theorem exists_append_of_byteLength_le {as as' bs bs' : List Char}
    (h : as ++ bs = as' ++ bs') (hle : byteLength as ≤ byteLength as') :
    ∃ gap, as' = as ++ gap := by
  rcases List.append_eq_append_iff.mp h with ⟨gap, hgap, -⟩ | ⟨gap, hgap, -⟩
  · exact ⟨gap, hgap⟩
  · rw [hgap, byteLength_append] at hle
    cases gap with
    | nil => exact ⟨[], by rw [hgap, List.append_nil, List.append_nil]⟩
    | cons c gap =>
      have hpos := c.utf8Size_pos
      rw [byteLength_cons] at hle
      omega

theorem takeBytes_of_byteLength_le {cs : List Char} {n : Nat} (h : byteLength cs ≤ n) :
    takeBytes n cs = cs := by
  induction cs generalizing n with
  | nil => rfl
  | cons c cs ih =>
    rw [byteLength_cons] at h
    rw [takeBytes, if_pos (by omega), ih (by omega)]

theorem exists_takeBytes_append (n : Nat) (cs : List Char) :
    ∃ rest, cs = takeBytes n cs ++ rest := by
  induction cs generalizing n with
  | nil => exact ⟨[], rfl⟩
  | cons c cs ih =>
    rw [takeBytes]
    split
    · obtain ⟨rest, hrest⟩ := ih (n - c.utf8Size)
      exact ⟨rest, by rw [List.cons_append, ← hrest]⟩
    · exact ⟨c :: cs, rfl⟩

theorem isBoundary_append (before behind : List Char) :
    isBoundary (byteLength before) (before ++ behind) = true := by
  rw [isBoundary, takeBytes_append, beq_self_eq_true, Bool.or_true]

/-- The boundaries of a text are the byte lengths of its beginnings. -/
theorem isBoundary_iff {cs : List Char} {offset : Nat} (h : offset ≤ byteLength cs) :
    isBoundary offset cs = true ↔
      ∃ before behind, cs = before ++ behind ∧ byteLength before = offset := by
  constructor
  · intro hboundary
    rw [isBoundary, Bool.or_eq_true, decide_eq_true_eq, beq_iff_eq] at hboundary
    rcases hboundary with hend | htake
    · exact ⟨cs, [], (List.append_nil cs).symm, Nat.le_antisymm hend h⟩
    · obtain ⟨rest, hrest⟩ := exists_takeBytes_append offset cs
      exact ⟨_, rest, hrest, htake⟩
  · rintro ⟨before, behind, rfl, rfl⟩
    exact isBoundary_append before behind

/-! ## Positions -/

/-- The byte offset of a position: the lines above its own are skipped with their newlines, then the
characters of its own line in front of it. There is none if the text has not that many lines, or the
line not that many characters. -/
def Position.byte? (source : List Char) : Position → Option Nat
  | ⟨above + 1, before + 1⟩ =>
    (splitLines source)[above]?.bind fun line =>
      if before ≤ line.length then
        some (byteLength (linesAbove above source) + byteLength (line.take before))
      else none
  | _ => none

/-- A position stands on an earlier line than another one, or further in front on the same line. -/
def Position.Precedes (p q : Position) : Prop :=
  p.line < q.line ∨ p.line = q.line ∧ p.column < q.column

theorem Position.Precedes.ne {p q : Position} (h : p.Precedes q) : p ≠ q := by
  rintro rfl
  rcases h with h | ⟨-, h⟩ <;> exact Nat.lt_irrefl _ h

/-- Every beginning of a text is some lines and the beginning of a line. -/
theorem exists_lineStart (before : List Char) :
    ∃ above start, before = above ++ start ∧ EndsLine above ∧ '\n' ∉ start := by
  induction before using List.reverseRecOn with
  | nil => exact ⟨[], [], rfl, .inl rfl, List.not_mem_nil⟩
  | append_singleton before c ih =>
    obtain ⟨above, start, rfl, habove, hstart⟩ := ih
    by_cases hc : c = '\n'
    · subst hc
      exact ⟨above ++ start ++ ['\n'], [], (List.append_nil _).symm, .inr ⟨_, rfl⟩,
        List.not_mem_nil⟩
    · refine ⟨above, start ++ [c], List.append_assoc .., habove, ?_⟩
      rw [List.mem_append, List.mem_singleton, not_or]
      exact ⟨hstart, Ne.symm hc⟩

theorem takeWhile_reverse {start : List Char} (h : '\n' ∉ start) (above : List Char) :
    (above ++ start).reverse.takeWhile (· != '\n')
      = start.reverse ++ above.reverse.takeWhile (· != '\n') := by
  rw [List.reverse_append, List.takeWhile_append_of_pos]
  intro c hc
  rw [bne_iff_ne]
  rintro rfl
  exact h (List.mem_reverse.mp hc)

theorem after_lineStart {above start : List Char} (habove : EndsLine above)
    (hstart : '\n' ∉ start) :
    Position.after (above ++ start) = ⟨above.count '\n' + 1, start.length + 1⟩ := by
  have hnil : above.reverse.takeWhile (· != '\n') = [] := by
    rcases habove with rfl | ⟨init, rfl⟩
    · rfl
    · rw [List.reverse_append]
      rfl
  rw [Position.after, takeWhile_reverse hstart, hnil, List.append_nil, List.length_reverse,
    List.count_append, List.count_eq_zero.mpr hstart, Nat.add_zero]

/-- Two texts end a line and have as many newlines. If both begin one text, they are the same. -/
theorem eq_of_endsLine {above above' rest rest' : List Char} (h : above ++ rest = above' ++ rest')
    (habove : EndsLine above) (habove' : EndsLine above')
    (hcount : above.count '\n' = above'.count '\n') : above = above' := by
  have hgap {as gap : List Char} (hends : EndsLine (as ++ gap))
      (hcount : (as ++ gap).count '\n' = as.count '\n') : gap = [] := by
    rcases List.eq_nil_or_concat gap with hnil | ⟨init, c, rfl⟩
    · exact hnil
    · rw [List.concat_eq_append, ← List.append_assoc, endsLine_iff, List.getLast?_concat,
        Option.all_some, beq_iff_eq] at hends
      rw [List.concat_eq_append, hends, List.count_append, List.count_append,
        List.count_singleton_self] at hcount
      omega
  rcases List.append_eq_append_iff.mp h with ⟨gap, rfl, -⟩ | ⟨gap, rfl, -⟩
  · rw [hgap habove' hcount.symm, List.append_nil]
  · rw [hgap habove hcount, List.append_nil]

/-- What is found for a position is a boundary that has it. -/
theorem exists_of_byte? {source : List Char} {p : Position} {offset : Nat}
    (h : p.byte? source = some offset) : ∃ before behind, source = before ++ behind ∧
      byteLength before = offset ∧ p = .after before := by
  unfold Position.byte? at h
  split at h
  · next above before =>
    obtain ⟨line, hline, h⟩ := Option.bind_eq_some_iff.mp h
    obtain ⟨below, hsource, hcount, habove, hnewline, -⟩ := exists_line hline
    have hstart : '\n' ∉ line.take before := fun hmem => hnewline (List.mem_of_mem_take hmem)
    split at h
    · next hlength =>
      refine ⟨linesAbove above source ++ line.take before, line.drop before ++ below, ?_, ?_, ?_⟩
      · rw [List.append_assoc, ← List.append_assoc (line.take before), List.take_append_drop,
          ← List.append_assoc]
        exact hsource
      · rw [byteLength_append]
        exact Option.some.inj h
      · rw [after_lineStart habove hstart, hcount, List.length_take_of_le hlength]
    · cases h
  · cases h

/-- The rest of a line stands in front of what is below it. -/
theorem exists_lineRest (behind : List Char) : ∃ rest below, behind = rest ++ below ∧
    '\n' ∉ rest ∧ BeginsLine below := by
  rcases eq_line_or_exists behind with hbehind | ⟨line, below, rfl, hline⟩
  · exact ⟨behind, [], (List.append_nil _).symm, hbehind, .inl rfl⟩
  · exact ⟨line, '\n' :: below, rfl, hline, .inr ⟨below, rfl⟩⟩

/-- A position is found where it stands. -/
theorem byte?_after (before behind : List Char) :
    (Position.after before).byte? (before ++ behind) = some (byteLength before) := by
  obtain ⟨above, start, rfl, habove, hstart⟩ := exists_lineStart before
  obtain ⟨rest, below, rfl, hrest, hbelow⟩ := exists_lineRest behind
  have hnewline : '\n' ∉ start ++ rest := by
    rw [List.mem_append, not_or]
    exact ⟨hstart, hrest⟩
  have hline := getElem?_splitLines habove hnewline hbelow
  have hsource : above ++ start ++ (rest ++ below) = above ++ (start ++ rest) ++ below := by
    simp only [List.append_assoc]
  obtain ⟨below', hcut, hcount, hends, -, -⟩ := exists_line hline
  have habove' : linesAbove (above.count '\n') (above ++ (start ++ rest) ++ below) = above := by
    rw [List.append_assoc (linesAbove _ _)] at hcut
    refine eq_of_endsLine (hcut.symm.trans (List.append_assoc ..)) hends habove hcount
  rw [after_lineStart habove hstart, hsource, Position.byte?, hline, Option.bind_some, habove',
    if_pos (by simp), List.take_left, byteLength_append]

/-- A position is found where it stands, and nothing else is. -/
theorem byte?_eq_some_iff {source : List Char} {p : Position} {offset : Nat} :
    p.byte? source = some offset ↔ ∃ before behind, source = before ++ behind ∧
      byteLength before = offset ∧ p = .after before := by
  constructor
  · exact exists_of_byte?
  · rintro ⟨before, behind, rfl, rfl, rfl⟩
    exact byte?_after before behind

theorem atByte_append (before behind : List Char) :
    Position.atByte (before ++ behind) (byteLength before) = .after before := by
  rw [Position.atByte, takeBytes_append]

/-- Behind a longer beginning of a text stands a later position. -/
theorem precedes_after (before : List Char) {gap : List Char} (h : gap ≠ []) :
    (Position.after before).Precedes (.after (before ++ gap)) := by
  by_cases hnewline : '\n' ∈ gap
  · have hpos := List.count_pos_iff.mpr hnewline
    left
    simp only [Position.after, List.count_append]
    omega
  · have hpos := List.length_pos_iff.mpr h
    right
    simp only [Position.after, takeWhile_reverse hnewline, List.count_append,
      List.count_eq_zero.mpr hnewline, List.length_append, List.length_reverse, Nat.add_zero,
      true_and]
    omega

end LocaleScript.Text
