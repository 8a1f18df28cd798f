import LocaleScript.Build.ModuleMarker
import LocaleScript.Text.Position

/-!
# Where markers stand

`marks` lists the markers that `substitute` replaces, from left to right, each with the byte offset
where it begins. A text is what stands in front of its first marker, the marker, and the text
behind, whose marks are the others (`marks_cases`); so what holds of the text with its markers
replaced is shown marker by marker.

A marker begins and ends with a slash and has none in between (`IsMarker.exists_between`).
-/

namespace LocaleScript.Build.ModuleMarker

/-! ## The form of a marker -/

theorem behind?_eq_some_iff {start cs rest : List Char} :
    behind? start cs = some rest ↔ cs = start ++ rest := by
  refine ⟨eq_append_of_behind?, ?_⟩
  rintro rfl
  induction start with
  | nil => rfl
  | cons p ps ih => rw [List.cons_append, behind?, if_pos rfl, ih]

/-- The two ends of a marker with blanks in between. -/
def IsMarker (text : List Char) : Prop :=
  ∃ blanks, blanks ≠ [] ∧ (∀ b ∈ blanks, Text.isBlank b = true) ∧
    text = opening ++ blanks ++ closing

theorem marker?_eq_some_iff {cs rest : List Char} :
    marker? cs = some rest ↔ ∃ text, IsMarker text ∧ cs = text ++ rest := by
  constructor
  · intro h
    unfold marker? at h
    split at h
    · next blank behind hopening =>
      split at h
      · next hblank =>
        have hdrop := eq_append_of_behind? h
        refine ⟨opening ++ (blank :: behind.takeWhile Text.isBlank) ++ closing,
          ⟨_, List.cons_ne_nil _ _, ?_, rfl⟩, ?_⟩
        · intro b hb
          rcases List.mem_cons.mp hb with rfl | hb
          · exact hblank
          · exact List.all_eq_true.mp List.all_takeWhile b hb
        · rw [eq_append_of_behind? hopening]
          simp only [List.append_assoc, List.cons_append, ← hdrop, List.takeWhile_append_dropWhile]
      · cases h
    · cases h
  · rintro ⟨text, ⟨blanks, hne, hblanks, rfl⟩, rfl⟩
    cases blanks with
    | nil => exact absurd rfl hne
    | cons blank blanks =>
      have hopening : behind? opening (opening ++ blank :: blanks ++ closing ++ rest)
          = some (blank :: (blanks ++ (closing ++ rest))) := by
        rw [behind?_eq_some_iff]
        simp only [List.append_assoc, List.cons_append]
      have hall : ∀ b ∈ blanks, Text.isBlank b = true := fun b hb => hblanks b (.tail _ hb)
      have hstar : (closing ++ rest).dropWhile Text.isBlank = closing ++ rest := rfl
      unfold marker?
      rw [hopening]
      simp only [hblanks blank (.head _), reduceIte]
      rw [List.dropWhile_append_of_pos hall, hstar, behind?_eq_some_iff]

theorem IsMarker.ne_nil {text : List Char} (h : IsMarker text) : text ≠ [] := by
  obtain ⟨blanks, -, -, rfl⟩ := h
  exact List.cons_ne_nil _ _

theorem IsMarker.byteLength_pos {text : List Char} (h : IsMarker text) :
    0 < Text.byteLength text := by
  obtain ⟨c, cs, rfl⟩ := List.exists_cons_of_ne_nil h.ne_nil
  exact Nat.lt_of_lt_of_le c.utf8Size_pos (Nat.le_add_right _ _)

theorem opening_eq :
    opening = ['/', '*', '<', '<', 'm', 'o', 'd', 'u', 'l', 'e', '_', 'd', 'e', 'f', '>', '>'] :=
  String.toList_ofList

theorem closing_eq : closing = ['*', '/'] :=
  String.toList_ofList

/-- The characters between the slashes of a marker that are no blanks. -/
def innerChars : List Char :=
  ['*', '<', 'm', 'o', 'd', 'u', 'l', 'e', '_', 'f', '>']

theorem IsMarker.inner {text : List Char} (h : IsMarker text) :
    ∃ inner, text = '/' :: '*' :: '<' :: inner ++ ['*', '/'] ∧
      ∀ c ∈ inner, c ∈ innerChars ∨ Text.isBlank c = true := by
  obtain ⟨blanks, -, hblanks, rfl⟩ := h
  refine ⟨opening.drop 3 ++ blanks, by rw [opening_eq, closing_eq]; rfl, fun c hc => ?_⟩
  rcases List.mem_append.mp hc with hc | hc
  · have hall : ∀ c ∈ opening.drop 3, c ∈ innerChars := by simp [opening_eq, innerChars]
    exact .inl (hall c hc)
  · exact .inr (hblanks c hc)

/-- A marker begins and ends with a slash, and has none in between. -/
theorem IsMarker.exists_between {text : List Char} (h : IsMarker text) :
    ∃ mid, text = '/' :: (mid ++ ['/']) ∧ '/' ∉ mid := by
  obtain ⟨inner, rfl, hinner⟩ := h.inner
  refine ⟨'*' :: '<' :: inner ++ ['*'], by simp, fun hslash => ?_⟩
  have hmem : '/' ∈ inner := by simpa using hslash
  rcases hinner '/' hmem with hc | hc
  · exact absurd hc (by decide)
  · exact absurd hc (by decide)

/-- Only the ends of a marker are slashes. -/
theorem IsMarker.slash {text before behind : List Char} (h : IsMarker text)
    (htext : text = before ++ '/' :: behind) : before = [] ∨ behind = [] := by
  obtain ⟨mid, rfl, hmid⟩ := h.exists_between
  cases before with
  | nil => exact .inl rfl
  | cons c before =>
    refine .inr ?_
    rcases List.eq_nil_or_concat behind with rfl | ⟨init, last, rfl⟩
    · rfl
    have htail : mid ++ ['/'] = before ++ '/' :: init ++ [last] := by
      simpa using (List.cons.inj htext).2
    rw [List.append_inj_left' htail rfl] at hmid
    exact absurd (List.mem_append_right _ (.head _)) hmid

/-- The first comment of the replacement. -/
def firstComment : List Char := "/*-module-*/".toList

/-- The second comment of the replacement. -/
def secondComment : List Char := "/*_lib/twitter_cldr_*/".toList

theorem firstComment_eq :
    firstComment = ['/', '*', '-', 'm', 'o', 'd', 'u', 'l', 'e', '-', '*', '/'] :=
  String.toList_ofList

theorem secondComment_eq : secondComment = ['/', '*', '_', 'l', 'i', 'b', '/', 't', 'w', 'i', 't',
    't', 'e', 'r', '_', 'c', 'l', 'd', 'r', '_', '*', '/'] :=
  String.toList_ofList

theorem replacement_toList : replacement.toList = firstComment ++ '\n' :: secondComment := by
  rw [firstComment_eq, secondComment_eq]
  exact String.toList_ofList

/-! ## The marks of a text -/

/-- A marker and the byte offset where it begins. -/
structure Mark where
  start : Nat
  text : List Char
deriving DecidableEq, Repr

/-- The byte offset behind a marker. -/
def Mark.stop (m : Mark) : Nat :=
  m.start + Text.byteLength m.text

/-- The markers that are replaced in a text that begins at a byte offset. -/
def marks (start : Nat) : List Char → List Mark
  | [] => []
  | c :: cs =>
    match h : marker? (c :: cs) with
    | some rest =>
      have : rest.length < (c :: cs).length := length_lt_of_marker? h
      let text := (c :: cs).take ((c :: cs).length - rest.length)
      ⟨start, text⟩ :: marks (start + Text.byteLength text) rest
    | none => marks (start + c.utf8Size) cs
termination_by cs => cs.length
decreasing_by
  · exact this
  · exact Nat.lt_succ_self _

theorem marks_nil (start : Nat) : marks start [] = [] := by
  rw [marks]

theorem substitute_nil : substitute [] = [] := by
  rw [substitute]

theorem take_of_eq_append {cs text rest : List Char} (h : cs = text ++ rest) :
    cs.take (cs.length - rest.length) = text := by
  rw [h, List.length_append, Nat.add_sub_cancel, List.take_left]

theorem marks_marker (start : Nat) {text : List Char} (h : IsMarker text) (rest : List Char) :
    marks start (text ++ rest)
      = ⟨start, text⟩ :: marks (start + Text.byteLength text) rest := by
  have hmarker : marker? (text ++ rest) = some rest := marker?_eq_some_iff.mpr ⟨text, h, rfl⟩
  cases text with
  | nil => exact absurd rfl h.ne_nil
  | cons c cs =>
    have htake : (c :: (cs ++ rest)).take ((c :: (cs ++ rest)).length - rest.length) = c :: cs :=
      take_of_eq_append rfl
    rw [List.cons_append] at hmarker ⊢
    rw [marks]
    split
    · next rest' h' =>
      rw [hmarker] at h'
      obtain rfl := Option.some.inj h'
      simp only [htake]
    · next h' =>
        rw [hmarker] at h'
        cases h'

theorem substitute_marker {text : List Char} (h : IsMarker text) (rest : List Char) :
    substitute (text ++ rest) = replacement.toList ++ substitute rest := by
  have hmarker : marker? (text ++ rest) = some rest := marker?_eq_some_iff.mpr ⟨text, h, rfl⟩
  cases text with
  | nil => exact absurd rfl h.ne_nil
  | cons c cs =>
    rw [List.cons_append] at hmarker ⊢
    rw [substitute]
    split
    · next rest' h' =>
      rw [hmarker] at h'
      obtain rfl := Option.some.inj h'
      rfl
    · next h' =>
        rw [hmarker] at h'
        cases h'

theorem marks_cons {c : Char} {cs : List Char} (h : marker? (c :: cs) = none) (start : Nat) :
    marks start (c :: cs) = marks (start + c.utf8Size) cs := by
  rw [marks]
  split
  · next h' =>
      rw [h] at h'
      cases h'
  · rfl

theorem substitute_cons {c : Char} {cs : List Char} (h : marker? (c :: cs) = none) :
    substitute (c :: cs) = c :: substitute cs := by
  rw [substitute]
  split
  · next h' =>
      rw [h] at h'
      cases h'
  · rfl

/-- A text is empty, or it begins with a marker or with a character that none begins with. -/
theorem marks_induction {motive : Nat → List Char → Prop} (nil : ∀ start, motive start [])
    (marker : ∀ start text rest, IsMarker text → motive (start + Text.byteLength text) rest →
      motive start (text ++ rest))
    (char : ∀ start c cs, marker? (c :: cs) = none → motive (start + c.utf8Size) cs →
      motive start (c :: cs))
    (start : Nat) (cs : List Char) : motive start cs := by
  refine marks.induct motive nil (fun start c cs rest h _ ih => ?_) char start cs
  obtain ⟨text, htext, hcs⟩ := marker?_eq_some_iff.mp h
  rw [take_of_eq_append hcs] at ih
  rw [hcs]
  exact marker start text rest htext ih

/-- A text has no marker, or it is what stands in front of its first, that marker and the rest. -/
theorem marks_cases (start : Nat) (cs : List Char) :
    (marks start cs = [] ∧ substitute cs = cs) ∨
      ∃ before text rest, cs = before ++ text ++ rest ∧ IsMarker text ∧
        marks start cs = ⟨start + Text.byteLength before, text⟩
          :: marks (start + Text.byteLength (before ++ text)) rest ∧
        substitute cs = before ++ replacement.toList ++ substitute rest := by
  induction cs generalizing start with
  | nil => exact .inl ⟨marks_nil start, substitute_nil⟩
  | cons c cs ih =>
    cases h : marker? (c :: cs) with
    | some rest =>
      obtain ⟨text, htext, hcs⟩ := marker?_eq_some_iff.mp h
      rw [hcs]
      exact .inr ⟨[], text, rest, rfl, htext, marks_marker start htext rest,
        substitute_marker htext rest⟩
    | none =>
      rw [marks_cons h, substitute_cons h]
      rcases ih (start + c.utf8Size) with
        ⟨hmarks, hsub⟩ | ⟨before, text, rest, hcs, htext, hmarks, hsub⟩
      · exact .inl ⟨hmarks, by rw [hsub]⟩
      · refine .inr ⟨c :: before, text, rest, by rw [hcs]; rfl, htext, ?_, by rw [hsub]; rfl⟩
        rw [hmarks]
        simp only [List.cons_append, Text.byteLength_cons, Nat.add_assoc]

theorem start_le_of_mem_marks {start : Nat} {cs : List Char} {m : Mark}
    (h : m ∈ marks start cs) : start ≤ m.start := by
  induction start, cs using marks_induction with
  | nil start =>
    rw [marks_nil] at h
    cases h
  | marker start text rest htext ih =>
    rw [marks_marker start htext] at h
    rcases List.mem_cons.mp h with rfl | h
    · exact Nat.le_refl start
    · exact Nat.le_trans (Nat.le_add_right _ _) (ih h)
  | char start c cs hmarker ih =>
    rw [marks_cons hmarker] at h
    exact Nat.le_trans (Nat.le_add_right _ _) (ih h)

theorem isMarker_of_mem_marks {start : Nat} {cs : List Char} {m : Mark}
    (h : m ∈ marks start cs) : IsMarker m.text := by
  induction start, cs using marks_induction with
  | nil start =>
    rw [marks_nil] at h
    cases h
  | marker start text rest htext ih =>
    rw [marks_marker start htext] at h
    rcases List.mem_cons.mp h with rfl | h
    · exact htext
    · exact ih h
  | char start c cs hmarker ih =>
    rw [marks_cons hmarker] at h
    exact ih h

/-- A beginning in which no marker begins stays. -/
theorem marks_append {start : Nat} {before rest : List Char}
    (h : ∀ m ∈ marks start (before ++ rest), start + Text.byteLength before ≤ m.start) :
    marks start (before ++ rest) = marks (start + Text.byteLength before) rest ∧
      substitute (before ++ rest) = before ++ substitute rest := by
  induction before generalizing start with
  | nil => exact ⟨rfl, rfl⟩
  | cons c cs ih =>
    cases hmarker : marker? (c :: (cs ++ rest)) with
    | some rest' =>
      obtain ⟨text, htext, hcs⟩ := marker?_eq_some_iff.mp hmarker
      rw [List.cons_append, hcs, marks_marker start htext] at h
      have hle : start + (c.utf8Size + Text.byteLength cs) ≤ start := h _ (.head _)
      have hpos := c.utf8Size_pos
      omega
    | none =>
      rw [List.cons_append, marks_cons hmarker] at h
      rw [List.cons_append, marks_cons hmarker, substitute_cons hmarker]
      simp only [Text.byteLength_cons, ← Nat.add_assoc] at h ⊢
      obtain ⟨hmarks, hsub⟩ := ih h
      exact ⟨hmarks, by rw [hsub]; rfl⟩

end LocaleScript.Build.ModuleMarker
