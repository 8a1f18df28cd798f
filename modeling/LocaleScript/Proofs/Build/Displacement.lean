import LocaleScript.Proofs.Build.Marks
import LocaleScript.Proofs.Text.Lines

/-!
# Lines when markers are replaced

A text in which no marker lies across a boundary is replaced on both sides of it
(`substitute_append`). So a line that holds no part of a marker stays as it is, but it moves: a
marker above it makes room for two lines and takes away the line breaks it has among its blanks
(`lineAfter_add`). The line is found again where the lines above it end
(`getElem?_splitLines_substitute`).
-/

namespace LocaleScript.Build.ModuleMarker

open Text

/-! ## Boundaries -/

/-- No marker lies across the boundary of two texts. -/
def Apart (as bs : List Char) : Prop :=
  ∀ before x y behind, as = before ++ x → bs = y ++ behind → x ≠ [] → y ≠ [] → ¬IsMarker (x ++ y)

theorem Apart.tail {c : Char} {as bs : List Char} (h : Apart (c :: as) bs) : Apart as bs := by
  intro before x y behind has hbs hx hy
  exact h (c :: before) x y behind (by rw [has]; rfl) hbs hx hy

theorem Apart.of_append {as as' bs : List Char} (h : Apart (as ++ as') bs) : Apart as' bs := by
  intro before x y behind has' hbs hx hy
  exact h (as ++ before) x y behind (by rw [has', List.append_assoc]) hbs hx hy

/-- A marker begins with a slash. -/
theorem apart_of_slash_not_mem_left {as : List Char} (h : '/' ∉ as) (bs : List Char) :
    Apart as bs := by
  rintro before x y behind rfl - hx - hmarker
  obtain ⟨inner, htext, -⟩ := hmarker.inner
  cases x with
  | nil => exact hx rfl
  | cons c x =>
    obtain ⟨rfl, -⟩ := List.cons.inj htext
    exact h (List.mem_append_right _ (.head _))

/-- A marker ends with a slash. -/
theorem apart_of_slash_not_mem_right (as : List Char) {bs : List Char} (h : '/' ∉ bs) :
    Apart as bs := by
  rintro before x y behind - rfl - hy hmarker
  obtain ⟨mid, htext, -⟩ := hmarker.exists_between
  rcases List.eq_nil_or_concat y with rfl | ⟨init, c, rfl⟩
  · exact hy rfl
  rw [List.concat_eq_append, ← List.append_assoc, ← List.cons_append] at htext
  obtain ⟨-, hlast⟩ := List.append_inj' htext rfl
  rw [List.concat_eq_append, hlast] at h
  exact h (by simp)

/-- With no marker across the boundary, one that begins in the first text ends in it. -/
theorem Apart.exists_append {as bs text rest : List Char} (h : Apart as bs) (has : as ≠ [])
    (htext : IsMarker text) (hcs : as ++ bs = text ++ rest) : ∃ as', as = text ++ as' := by
  rcases List.append_eq_append_iff.mp hcs with ⟨y, rfl, hbs⟩ | ⟨as', has', -⟩
  · cases y with
    | nil => exact ⟨[], by rw [List.append_nil, List.append_nil]⟩
    | cons d y => exact absurd htext (h [] as (d :: y) rest rfl hbs has (List.cons_ne_nil _ _))
  · exact ⟨as', has'⟩

theorem marker?_eq_none_of_append {as bs : List Char} (h : marker? (as ++ bs) = none) :
    marker? as = none := by
  rw [Option.eq_none_iff_forall_ne_some]
  intro rest hrest
  obtain ⟨text, htext, rfl⟩ := marker?_eq_some_iff.mp hrest
  have hlonger : marker? (text ++ rest ++ bs) = some (rest ++ bs) :=
    marker?_eq_some_iff.mpr ⟨text, htext, List.append_assoc text rest bs⟩
  rw [h] at hlonger
  cases hlonger

/-- Texts with no marker across their boundary are replaced apart. -/
theorem substitute_append {as bs : List Char} (h : Apart as bs) :
    substitute (as ++ bs) = substitute as ++ substitute bs := by
  induction hn : as.length using Nat.strongRecOn generalizing as with
  | ind n ih =>
    cases as with
    | nil =>
      rw [substitute_nil]
      rfl
    | cons c as =>
      cases hmarker : marker? (c :: (as ++ bs)) with
      | none =>
        have hnone : marker? (c :: as) = none := marker?_eq_none_of_append hmarker
        rw [List.cons_append, substitute_cons hmarker, substitute_cons hnone,
          ih as.length (by rw [← hn]; exact Nat.lt_succ_self _) h.tail rfl, List.cons_append]
      | some rest =>
        obtain ⟨text, htext, hcs⟩ := marker?_eq_some_iff.mp hmarker
        obtain ⟨as', has⟩ := h.exists_append (List.cons_ne_nil c as) htext hcs
        have hshorter : as'.length < n := by
          have hpos := List.length_pos_iff.mpr htext.ne_nil
          rw [← hn, has, List.length_append]
          omega
        rw [has] at h ⊢
        rw [List.append_assoc, substitute_marker htext, substitute_marker htext,
          ih as'.length hshorter h.of_append rfl, List.append_assoc]

/-- A text stays in which there is no marker. -/
theorem substitute_eq_self {cs : List Char}
    (h : ∀ before text behind, cs = before ++ text ++ behind → ¬IsMarker text) :
    substitute cs = cs := by
  rcases marks_cases 0 cs with ⟨-, hsub⟩ | ⟨before, text, behind, hcs, htext, -⟩
  · exact hsub
  · exact absurd htext (h before text behind hcs)

/-! ## Lines -/

/-- A marker, or part of one, stands on this line. -/
def HoldsMarker (cs : List Char) (l : Nat) : Prop :=
  ∃ before text behind, cs = before ++ text ++ behind ∧ IsMarker text ∧
    before.count '\n' ≤ l ∧ l ≤ (before ++ text).count '\n'

/-- The number that a line has once markers are replaced. -/
def lineAfter (cs : List Char) (l : Nat) : Nat :=
  (substitute (linesAbove l cs)).count '\n'

theorem substitute_newline (cs : List Char) : substitute ('\n' :: cs) = '\n' :: substitute cs :=
  substitute_cons rfl

theorem endsLine_substitute {cs : List Char} (h : EndsLine cs) : EndsLine (substitute cs) := by
  rcases h with rfl | ⟨init, rfl⟩
  · rw [substitute_nil]
    exact .inl rfl
  · rw [substitute_append (apart_of_slash_not_mem_right _ (by decide)), substitute_newline,
      substitute_nil]
    exact .inr ⟨_, rfl⟩

/-- The text around a line that holds no marker is replaced apart from it. -/
theorem substitute_around {above line below : List Char}
    (hline : '\n' ∉ line) (hfree : ¬HoldsMarker (above ++ line ++ below) (above.count '\n')) :
    substitute (above ++ line ++ below) = substitute above ++ line ++ substitute below := by
  have hzero := List.count_eq_zero.mpr hline
  have habove : Apart above (line ++ below) := by
    rintro before x y behind rfl hy - - hmarker
    refine hfree ⟨before, x ++ y, behind, ?_, hmarker, ?_, ?_⟩
    · simp only [List.append_assoc, hy]
    · rw [List.count_append]
      exact Nat.le_add_right _ _
    · simp only [List.count_append]
      omega
  have hbelow : Apart line below := by
    rintro before x y behind rfl rfl - - hmarker
    rw [List.count_append] at hzero
    refine hfree ⟨above ++ before, x ++ y, behind, ?_, hmarker, ?_, ?_⟩
    · simp only [List.append_assoc]
    · rw [List.count_append]
      omega
    · simp only [List.append_assoc, List.count_append]
      omega
  have hself : substitute line = line := by
    refine substitute_eq_self fun before text behind hcs hmarker => ?_
    rw [hcs, List.count_append, List.count_append] at hzero
    refine hfree ⟨above ++ before, text, behind ++ below, ?_, hmarker, ?_, ?_⟩
    · simp only [hcs, List.append_assoc]
    · rw [List.count_append]
      omega
    · simp only [List.append_assoc, List.count_append]
      omega
  rw [List.append_assoc, substitute_append habove, substitute_append hbelow, hself,
    List.append_assoc]

/-- A line that holds no marker is found again, also in front of a text that leaves the last line
alone. -/
theorem getElem?_splitLines_substitute {cs : List Char} {l : Nat} (hl : l < lineCount cs)
    (hfree : ¬HoldsMarker cs l) {behind : List Char} (hbehind : BeginsLine behind ∨ EndsLine cs) :
    (splitLines (substitute cs ++ behind))[lineAfter cs l]? = (splitLines cs)[l]? := by
  have hlines : l < (splitLines cs).length := by
    rw [length_splitLines]
    rcases lineCount_eq cs with ⟨-, hcount⟩ | ⟨-, hcount⟩ <;> omega
  have hline := List.getElem?_eq_getElem hlines
  obtain ⟨below, hcs, hcount, habove, hnewline, hbelow⟩ := exists_line hline
  have hend : BeginsLine (substitute below ++ behind) := by
    rcases hbelow with rfl | ⟨rest, rfl⟩
    · rw [substitute_nil, List.nil_append]
      refine hbehind.resolve_right fun hends => ?_
      -- The last line of a text that ends in a newline is not counted.
      rcases lineCount_eq cs with ⟨-, hlast⟩ | ⟨hopen, -⟩
      · rw [hcs, List.append_nil, List.count_append, hcount, List.count_eq_zero.mpr hnewline]
          at hlast
        rw [hcs, List.append_nil] at hl
        omega
      · exact hopen hends
    · rw [substitute_newline]
      exact .inr ⟨_, rfl⟩
  have hsub := substitute_around hnewline
    (by rw [← hcs, hcount]; exact hfree)
  rw [← hcs] at hsub
  rw [hline, hsub, List.append_assoc]
  exact getElem?_splitLines (endsLine_substitute habove) hnewline hend

/-! ## The number of a line -/

/-- A marker that is replaced makes room for two lines where it took up one more than it has line
breaks. -/
theorem count_substitute (start : Nat) (cs : List Char) :
    (substitute cs).count '\n' + ((marks start cs).flatMap (·.text)).count '\n'
      = cs.count '\n' + (marks start cs).length := by
  induction hn : cs.length using Nat.strongRecOn generalizing start cs with
  | ind n ih =>
    rcases marks_cases start cs with ⟨hmarks, hsub⟩ | ⟨before, text, rest, hcs, htext, hmarks, hsub⟩
    · rw [hmarks, hsub]
      rfl
    · have hshorter : rest.length < n := by
        have hpos := List.length_pos_iff.mpr htext.ne_nil
        rw [← hn, hcs, List.length_append, List.length_append]
        omega
      have hrest := ih rest.length hshorter (start + byteLength (before ++ text)) rest rfl
      have hone : replacement.toList.count '\n' = 1 := by
        rw [replacement_toList, firstComment_eq, secondComment_eq]
        rfl
      rw [hmarks, hsub, hcs]
      simp only [List.count_append, List.flatMap_cons, List.length_cons, hone]
      omega

/-- A line moves down by one for each marker above it, and up by one for each line break in one. -/
theorem lineAfter_add {cs line : List Char} {l : Nat} (h : (splitLines cs)[l]? = some line) :
    lineAfter cs l + ((marks 0 (linesAbove l cs)).flatMap (·.text)).count '\n'
      = l + (marks 0 (linesAbove l cs)).length := by
  obtain ⟨-, -, hcount, -⟩ := exists_line h
  rw [lineAfter, count_substitute, hcount]

end LocaleScript.Build.ModuleMarker
