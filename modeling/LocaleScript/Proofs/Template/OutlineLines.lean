import LocaleScript.Proofs.Json.RoundTrip
import LocaleScript.Proofs.Template.Outline
import LocaleScript.Proofs.Text.Lines

/-!
# Lines of outlines

Data is written on one line, so an outline has the lines of its texts, with data in them. Who looks
for lines with a certain beginning finds in the text what the outline has of them, and nothing in
the data (`filterMap_splitLines_outline`): data stands within a line, and the line begins before it.
-/

namespace LocaleScript

namespace Text

theorem splitLines_append_of_not_mem {cs : List Char} (h : '\n' ∉ cs) (bs : List Char) :
    splitLines (cs ++ bs) = (splitLines bs).modifyHead (cs ++ ·) := by
  induction cs with
  | nil =>
    rw [List.nil_append]
    cases splitLines bs <;> rfl
  | cons c cs ih =>
    obtain ⟨hc, hcs⟩ := List.ne_and_not_mem_of_not_mem_cons h
    rw [List.cons_append, splitLines, if_neg hc.symm, ih hcs]
    cases hlines : splitLines bs with
    | nil => exact absurd (splitLines_eq bs ▸ hlines) (List.splitOn_ne_nil _ _)
    | cons line lines => rfl

/-- Lines are looked for on both sides of the end of a line. -/
theorem filterMap_splitLines_append {α : Type} {find : List Char → Option α} (hnil : find [] = none)
    {as : List Char} (h : EndsLine as) (bs : List Char) :
    (splitLines (as ++ bs)).filterMap find
      = (splitLines as).filterMap find ++ (splitLines bs).filterMap find := by
  have hempty : (splitLines []).filterMap find = [] := by
    rw [splitLines, List.filterMap_cons_none hnil, List.filterMap_nil]
  rcases h with rfl | ⟨init, rfl⟩
  · rw [hempty, List.nil_append, List.nil_append]
  · rw [List.append_assoc, List.singleton_append, splitLines_append_newline,
      splitLines_append_newline, List.filterMap_append, List.filterMap_append, hempty,
      List.append_nil]

end Text

namespace Template

open Text

/-! ## Lines of rows -/

/-- The pieces of a row between newlines. -/
def splitRow : List Symbol → List (List Symbol)
  | [] => [[]]
  | symbol :: row =>
    if symbol = .char '\n' then [] :: splitRow row
    else (splitRow row).modifyHead (symbol :: ·)

/-- No text of the line begins with these characters. -/
def avoids : List Char → List Symbol → Bool
  | [], _ => false
  | _ :: _, [] => true
  | c :: cs, .char d :: line => c ≠ d || avoids cs line
  | _ :: _, _ :: _ => false

/-- The lines of a row that may begin with these characters. -/
def openedLines (opening : List Char) (row : List Symbol) : List (List Symbol) :=
  (splitRow row).filter fun line => !avoids opening line

/-- The row includes no template. -/
def isWhole (row : List Symbol) : Bool :=
  !row.contains .part

/-- The row ends its last line. -/
def endsRow (row : List Symbol) : Bool :=
  row.getLast? = some (.char '\n')

section

variable (d : Data)

theorem splitLines_writeRow {row : List Symbol} (h : isWhole row = true) :
    splitLines (writeRow d row) = (splitRow row).map (writeRow d) := by
  have hmodify (symbol : Symbol) (lines : List (List Symbol)) :
      (lines.modifyHead (symbol :: ·)).map (writeRow d)
        = (lines.map (writeRow d)).modifyHead (symbol.write d ++ ·) := by
    cases lines <;> rfl
  have hpart : Symbol.part ∉ row := by simpa [isWhole] using h
  clear h
  induction row with
  | nil => rfl
  | cons symbol row ih =>
    obtain ⟨hsymbol, hrow⟩ := List.ne_and_not_mem_of_not_mem_cons hpart
    rw [writeRow_cons, splitRow]
    by_cases hnewline : symbol = .char '\n'
    · rw [if_pos hnewline, hnewline, List.map_cons, ← ih hrow]
      exact splitLines_cons_newline _
    · have hmem : '\n' ∉ symbol.write d := by
        cases symbol with
        | char c =>
          rw [Symbol.write, List.mem_singleton]
          rintro rfl
          exact hnewline rfl
        | json datum => exact Json.newline_not_mem_write _
        | part => exact absurd rfl hsymbol
      rw [if_neg hnewline, splitLines_append_of_not_mem hmem, ih hrow, hmodify]

theorem not_prefix_of_avoids {opening : List Char} {line : List Symbol}
    (h : avoids opening line = true) : ¬opening <+: writeRow d line := by
  induction opening generalizing line with
  | nil => simp [avoids] at h
  | cons c cs ih =>
    cases line with
    | nil => simp
    | cons symbol line =>
      cases symbol with
      | char e =>
        rw [writeRow_cons, Symbol.write, List.singleton_append, List.cons_prefix_cons]
        rintro ⟨rfl, hprefix⟩
        simp only [avoids, ne_eq, decide_true, Bool.not_true, decide_not, Bool.false_or] at h
        exact ih h hprefix
      | json | part => simp [avoids] at h

theorem endsLine_writeRow {row : List Symbol} (h : endsRow row = true) :
    EndsLine (writeRow d row) := by
  obtain ⟨init, rfl⟩ := List.getLast?_eq_some_iff.mp (of_decide_eq_true h)
  exact .inr ⟨writeRow d init, writeRow_append d init _⟩

variable {α : Type} {find : List Char → Option α} {opening : List Char}
  (hfind : ∀ line a, find line = some a → opening <+: line)

include hfind

/-- What is found in the lines of a text is found in those that may begin in the right way. -/
theorem filterMap_splitLines_row {row : List Symbol} (h : isWhole row = true) :
    (splitLines (writeRow d row)).filterMap find
      = (openedLines opening row).filterMap (find ∘ writeRow d) := by
  rw [splitLines_writeRow d h, openedLines, List.filterMap_map]
  induction splitRow row with
  | nil => rfl
  | cons line lines ih =>
    cases havoids : avoids opening line with
    | false =>
      rw [List.filter_cons_of_pos (by simp [havoids]), List.filterMap_cons, List.filterMap_cons, ih]
    | true =>
      have hnone : (find ∘ writeRow d) line = none :=
        Option.eq_none_iff_forall_ne_some.mpr fun a ha =>
          not_prefix_of_avoids d havoids (hfind _ a ha)
      rw [List.filter_cons_of_neg (by simp [havoids]), List.filterMap_cons_none hnone, ih]

end

/-! ## Lines of outlines -/

/-- The lines of an outline that may begin with these characters, by stretches. -/
def Outline.opened (opening : List Char) (o : Outline) : List (Bool × List (List Symbol)) :=
  o.map fun stretch => (stretch.each, openedLines opening stretch.row)

/-- The outline includes no template, and each of its stretches ends its last line. -/
def Outline.isEnded (o : Outline) : Bool :=
  o.all fun stretch => isWhole stretch.row && endsRow stretch.row

/-- What is found in lines that stand once, or once for each locale. -/
def foundIn {α : Type} (find : List Char → Option α) (d : Data) :
    Bool × List (List Symbol) → List α
  | (true, rows) =>
    d.resources.flatMap fun resource => rows.filterMap (find ∘ writeRow (d.round resource))
  | (false, rows) => rows.filterMap (find ∘ writeRow d)

theorem foundIn_nil {α : Type} (find : List Char → Option α) (d : Data) (each : Bool) :
    foundIn find d (each, []) = [] := by
  cases each with
  | false => rfl
  | true => exact List.flatMap_eq_nil_iff.mpr fun _ _ => rfl

section

variable {d : Data}

theorem Stretch.endsLine_write {stretch : Stretch} (h : endsRow stretch.row = true) :
    EndsLine (stretch.write d) := by
  unfold Stretch.write
  split
  · induction d.resources with
    | nil => exact .inl rfl
    | cons resource resources ih => exact (endsLine_writeRow _ h).append ih
  · exact endsLine_writeRow d h

theorem Outline.endsLine_write {o : Outline} (h : o.isEnded = true) : EndsLine (o.write d) := by
  induction o with
  | nil => exact .inl rfl
  | cons stretch o ih =>
    simp only [Outline.isEnded, List.all_cons, Bool.and_eq_true] at h
    exact (Stretch.endsLine_write h.1.2).append (ih h.2)

variable {α : Type} {find : List Char → Option α} {opening : List Char}
  (hfind : ∀ line a, find line = some a → opening <+: line) (hnil : find [] = none)

include hfind hnil

theorem filterMap_splitLines_stretch {stretch : Stretch} (hwhole : isWhole stretch.row = true)
    (hends : endsRow stretch.row = true) :
    (splitLines (stretch.write d)).filterMap find
      = foundIn find d (stretch.each, openedLines opening stretch.row) := by
  obtain ⟨each, row⟩ := stretch
  cases each with
  | false => exact filterMap_splitLines_row d hfind hwhole
  | true =>
    rw [Stretch.write_each, foundIn]
    induction d.resources with
    | nil => exact List.filterMap_cons_none hnil
    | cons resource resources ih =>
      rw [List.flatMap_cons, List.flatMap_cons,
        filterMap_splitLines_append hnil (endsLine_writeRow _ hends), ih,
        filterMap_splitLines_row _ hfind hwhole]

/-- What is found in the lines of a text is what is found in those of its outline that may begin in
the right way. -/
theorem filterMap_splitLines_outline {o : Outline} (h : o.isEnded = true) :
    (splitLines (o.write d)).filterMap find = (o.opened opening).flatMap (foundIn find d) := by
  induction o with
  | nil => exact List.filterMap_cons_none hnil
  | cons stretch o ih =>
    simp only [Outline.isEnded, List.all_cons, Bool.and_eq_true] at h
    rw [Outline.write_cons, filterMap_splitLines_append hnil (Stretch.endsLine_write h.1.2),
      filterMap_splitLines_stretch hfind hnil h.1.1 h.1.2, ih h.2]
    rfl

end

/-! ## Included templates -/

/-- What stands before an included template, and behind it. -/
def cutPart : List Symbol → Option (List Symbol × List Symbol)
  | [] => none
  | .part :: row => some ([], row)
  | symbol :: row => (cutPart row).map fun (before, behind) => (symbol :: before, behind)

/-- The outline includes a template on lines of its own, and none of its other lines may begin with
one of the openings. -/
def Outline.frames (openings : List (List Char)) : Outline → Bool
  | [⟨false, row⟩] =>
    match cutPart row with
    | some (before, behind) =>
      isWhole before && endsRow before && isWhole behind &&
        openings.all fun opening =>
          openedLines opening before = [] ∧ openedLines opening behind = []
    | none => false
  | _ => false

theorem eq_of_cutPart {row before behind : List Symbol} (h : cutPart row = some (before, behind)) :
    row = before ++ .part :: behind := by
  induction row generalizing before with
  | nil => cases h
  | cons symbol row ih =>
    cases symbol with
    | part =>
      obtain ⟨rfl, rfl⟩ := Prod.mk.inj (Option.some.inj h)
      rfl
    | char | json =>
      obtain ⟨⟨before, behind⟩, hrow, hpair⟩ := Option.map_eq_some_iff.mp h
      obtain ⟨rfl, rfl⟩ := Prod.mk.inj hpair
      rw [List.cons_append, ← ih hrow]

section

variable {d : Data} (hpart : EndsLine d.part) {opening : List Char} {α : Type}
  {find : List Char → Option α} (hfind : ∀ line a, find line = some a → opening <+: line)
  (hnil : find [] = none)

include hpart hfind hnil

/-- What is found in the lines of a text that includes another one on lines of its own is found in
front of the included one, in it, or behind it. -/
theorem filterMap_splitLines_cutPart {row before behind : List Symbol}
    (hcut : cutPart row = some (before, behind)) (hbefore : isWhole before = true)
    (hends : endsRow before = true) (hbehind : isWhole behind = true) :
    (splitLines (Outline.write d [⟨false, row⟩])).filterMap find
      = (openedLines opening before).filterMap (find ∘ writeRow d) ++
        ((splitLines d.part).filterMap find ++
          (openedLines opening behind).filterMap (find ∘ writeRow d)) := by
  rw [Outline.write_cons, Outline.write_nil, List.append_nil, Stretch.write_once,
    eq_of_cutPart hcut, writeRow_append, writeRow_cons,
    filterMap_splitLines_append hnil (endsLine_writeRow d hends), Symbol.write,
    filterMap_splitLines_append hnil hpart, filterMap_splitLines_row d hfind hbefore,
    filterMap_splitLines_row d hfind hbehind]

/-- Where nothing else may begin in the right way, it is found in the included one. -/
theorem filterMap_splitLines_frames {o : Outline} {openings : List (List Char)}
    (h : o.frames openings = true) (hopening : opening ∈ openings) :
    (splitLines (o.write d)).filterMap find = (splitLines d.part).filterMap find := by
  unfold Outline.frames at h
  split at h
  · next row =>
    split at h
    · next before behind hcut =>
      simp only [Bool.and_eq_true, List.all_eq_true, decide_eq_true_eq] at h
      obtain ⟨⟨⟨hbefore, hends⟩, hbehind⟩, hopenings⟩ := h
      obtain ⟨hbefore', hbehind'⟩ := hopenings opening hopening
      rw [filterMap_splitLines_cutPart hpart hfind hnil hcut hbefore hends hbehind, hbefore',
        hbehind', List.filterMap_nil, List.nil_append, List.append_nil]
    · cases h
  · cases h

end

end Template

end LocaleScript
