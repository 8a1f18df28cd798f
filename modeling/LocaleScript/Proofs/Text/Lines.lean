import LocaleScript.Text.Position

/-!
# Lines of a text

A line of a text stands between what is above it, which is nothing or ends in a newline, and what is
below it, which is nothing or begins with one. The number of the line is the number of newlines
above it (`getElem?_splitLines`), and every line of a text is one in this way (`exists_line`).
-/

namespace LocaleScript.Text

/-! ## In front of a character and behind it -/

/-- A text without a character begins another in front of where that character is. -/
theorem exists_append_of_not_mem {c : Char} {as bs xs ys : List Char} (has : c ∉ as)
    (h : as ++ xs = bs ++ c :: ys) : ∃ ds, bs = as ++ ds ∧ xs = ds ++ c :: ys := by
  rcases List.append_eq_append_iff.mp h with ⟨ds, hbs, hxs⟩ | ⟨x, rfl, hx⟩
  · exact ⟨ds, hbs, hxs⟩
  · cases x with
    | nil => exact ⟨[], by rw [List.append_nil, List.append_nil], hx.symm⟩
    | cons d x =>
      obtain ⟨rfl, -⟩ := List.cons.inj hx
      exact absurd (List.mem_append_right bs (.head _)) has

/-- A text without a character ends another behind where that character is. -/
theorem exists_append_of_not_mem_right {c : Char} {as bs xs ys : List Char} (hbs : c ∉ bs)
    (h : xs ++ c :: ys = as ++ bs) : ∃ ds, as = xs ++ c :: ds ∧ ys = ds ++ bs := by
  rcases List.append_eq_append_iff.mp h with ⟨x, rfl, hx⟩ | ⟨x, rfl, rfl⟩
  · cases x with
    | nil =>
      obtain rfl : c :: ys = bs := hx
      exact absurd (.head ys) hbs
    | cons d x =>
      obtain ⟨rfl, hys⟩ := List.cons.inj hx
      exact ⟨x, rfl, hys⟩
  · exact absurd (List.mem_append_right x (.head ys)) hbs

/-! ## The lines -/

/-- Nothing, or a text that ends in a newline. -/
def EndsLine (cs : List Char) : Prop :=
  cs = [] ∨ ∃ init, cs = init ++ ['\n']

/-- Nothing, or a text that begins with a newline. -/
def BeginsLine (cs : List Char) : Prop :=
  cs = [] ∨ ∃ rest, cs = '\n' :: rest

theorem EndsLine.append {as bs : List Char} (ha : EndsLine as) (hb : EndsLine bs) :
    EndsLine (as ++ bs) := by
  rcases hb with rfl | ⟨init, rfl⟩
  · rwa [List.append_nil]
  · exact .inr ⟨as ++ init, by rw [List.append_assoc]⟩

theorem endsLine_iff (cs : List Char) : EndsLine cs ↔ cs.getLast?.all (· == '\n') = true := by
  rcases List.eq_nil_or_concat cs with rfl | ⟨init, c, rfl⟩
  · exact ⟨fun _ => rfl, fun _ => .inl rfl⟩
  rw [List.concat_eq_append, List.getLast?_concat, Option.all_some, beq_iff_eq]
  constructor
  · rintro (h | ⟨init', h⟩)
    · exact absurd (List.append_eq_nil_iff.mp h).2 (List.cons_ne_nil _ _)
    · exact (List.cons.inj (List.append_inj' h rfl).2).1
  · rintro rfl
    exact .inr ⟨init, rfl⟩

/-! ## Splitting -/

theorem splitLines_eq (cs : List Char) : splitLines cs = cs.splitOn '\n' := by
  induction cs with
  | nil => rfl
  | cons c cs ih =>
    rw [splitLines, ih, List.splitOn_cons_eq_if_modifyHead]
    simp only [beq_iff_eq]
    split
    · rfl
    · cases hlines : cs.splitOn '\n' with
      | nil => exact absurd hlines (List.splitOn_ne_nil _ _)
      | cons line lines => rfl

theorem splitLines_append_newline (as bs : List Char) :
    splitLines (as ++ '\n' :: bs) = splitLines as ++ splitLines bs := by
  rw [splitLines_eq, List.splitOn_append_cons_self, ← splitLines_eq, ← splitLines_eq]

theorem splitLines_of_not_mem {cs : List Char} (h : '\n' ∉ cs) : splitLines cs = [cs] := by
  rw [splitLines_eq, List.splitOn_eq_singleton h]

theorem splitLines_cons_newline (cs : List Char) :
    splitLines ('\n' :: cs) = [] :: splitLines cs :=
  splitLines_append_newline [] cs

/-- Behind a line that is ended the next one begins. -/
theorem splitLines_append_of_endsLine {as : List Char} (h : EndsLine as) (bs : List Char) :
    splitLines (as ++ bs) = (splitLines as).dropLast ++ splitLines bs := by
  rcases h with rfl | ⟨init, rfl⟩
  · rfl
  · rw [List.append_assoc, List.singleton_append, splitLines_append_newline,
      splitLines_append_newline]
    congr 1
    exact List.dropLast_concat.symm

/-- A text is a single line, or its first line, a newline and the other lines. -/
theorem eq_line_or_exists (cs : List Char) :
    '\n' ∉ cs ∨ ∃ line rest, cs = line ++ '\n' :: rest ∧ '\n' ∉ line := by
  by_cases h : '\n' ∈ cs
  · obtain ⟨line, rest, rfl, hline⟩ := List.eq_append_cons_of_mem h
    exact .inr ⟨line, rest, rfl, hline⟩
  · exact .inl h

theorem length_splitLines (cs : List Char) : (splitLines cs).length = cs.count '\n' + 1 := by
  induction cs with
  | nil => rfl
  | cons c cs ih =>
    by_cases hc : c = '\n'
    · rw [hc, splitLines_cons_newline, List.length_cons, ih, List.count_cons_self]
    · rw [splitLines, if_neg hc, List.count_cons_of_ne hc, ← ih]
      cases hlines : splitLines cs with
      | nil =>
        rw [hlines] at ih
        cases ih
      | cons line lines => rfl

/-! ## Places of lines -/

/-- The lines of a text above one of them, with their newlines. -/
def linesAbove (l : Nat) (cs : List Char) : List Char :=
  ((splitLines cs).take l).flatMap (· ++ ['\n'])

theorem getElem?_splitLines_newline (as bs : List Char) (l : Nat) :
    (splitLines (as ++ '\n' :: bs))[as.count '\n' + 1 + l]? = (splitLines bs)[l]? := by
  rw [splitLines_append_newline, ← length_splitLines,
    List.getElem?_append_right (Nat.le_add_right _ _), Nat.add_sub_cancel_left]

/-- A line has as many newlines above it as its number says. -/
theorem getElem?_splitLines {above line below : List Char} (habove : EndsLine above)
    (hline : '\n' ∉ line) (hbelow : BeginsLine below) :
    (splitLines (above ++ line ++ below))[above.count '\n']? = some line := by
  have hfirst : (splitLines (line ++ below))[0]? = some line := by
    rcases hbelow with rfl | ⟨rest, rfl⟩
    · rw [List.append_nil, splitLines_of_not_mem hline]
      rfl
    · rw [splitLines_append_newline, splitLines_of_not_mem hline]
      rfl
  rcases habove with rfl | ⟨init, rfl⟩
  · exact hfirst
  · rw [List.count_append, List.count_singleton_self]
    simp only [List.append_assoc, List.singleton_append]
    rw [← hfirst]
    exact getElem?_splitLines_newline init (line ++ below) 0

theorem linesAbove_zero (cs : List Char) : linesAbove 0 cs = [] := rfl

theorem linesAbove_succ {line rest : List Char} (h : '\n' ∉ line) (l : Nat) :
    linesAbove (l + 1) (line ++ '\n' :: rest) = line ++ '\n' :: linesAbove l rest := by
  unfold linesAbove
  rw [splitLines_append_newline, splitLines_of_not_mem h, List.singleton_append,
    List.take_succ_cons, List.flatMap_cons, List.append_assoc, List.singleton_append]

/-- Every line of a text stands behind the lines above it. -/
theorem exists_line {cs line : List Char} {l : Nat} (h : (splitLines cs)[l]? = some line) :
    ∃ below, cs = linesAbove l cs ++ line ++ below ∧ (linesAbove l cs).count '\n' = l ∧
      EndsLine (linesAbove l cs) ∧ '\n' ∉ line ∧ BeginsLine below := by
  induction l generalizing cs with
  | zero =>
    rcases eq_line_or_exists cs with hcs | ⟨first, rest, rfl, hfirst⟩
    · rw [splitLines_of_not_mem hcs] at h
      obtain rfl := Option.some.inj h
      exact ⟨[], by rw [linesAbove_zero, List.append_nil, List.nil_append], rfl, .inl rfl, hcs,
        .inl rfl⟩
    · rw [splitLines_append_newline, splitLines_of_not_mem hfirst] at h
      obtain rfl := Option.some.inj h
      exact ⟨'\n' :: rest, rfl, rfl, .inl rfl, hfirst, .inr ⟨rest, rfl⟩⟩
  | succ l ih =>
    rcases eq_line_or_exists cs with hcs | ⟨first, rest, rfl, hfirst⟩
    · rw [splitLines_of_not_mem hcs] at h
      cases h
    rw [splitLines_append_newline, splitLines_of_not_mem hfirst, List.singleton_append,
      List.getElem?_cons_succ] at h
    obtain ⟨below, hrest, hcount, habove, hline, hbelow⟩ := ih h
    rw [linesAbove_succ hfirst]
    refine ⟨below, ?_, ?_, ?_, hline, hbelow⟩
    · conv => lhs; rw [hrest]
      simp only [List.append_assoc, List.cons_append]
    · rw [List.count_append, List.count_eq_zero.mpr hfirst, List.count_cons_self, hcount,
        Nat.zero_add]
    · rw [← List.singleton_append, ← List.append_assoc]
      exact EndsLine.append (.inr ⟨first, rfl⟩) habove

/-- A text that does not end its last line has one line more than newlines. -/
theorem lineCount_eq (cs : List Char) :
    (EndsLine cs ∧ lineCount cs = cs.count '\n') ∨
      (¬EndsLine cs ∧ lineCount cs = cs.count '\n' + 1) := by
  unfold lineCount
  rw [endsLine_iff]
  split <;> simp_all

end LocaleScript.Text
