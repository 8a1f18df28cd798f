import LocaleScript.Proofs.Script.Data

/-!
# Passages of a script

A passage is a part of a script of which is known where it may stand: what the text in front of it
means for it, and which brackets are open. Passages are put together (`Leads.append`) from text that
is known and can be read beforehand (`leads_of_past`), and from data (`leads_data`), behind which
nothing is known but that no literal and no comment is open.
-/

namespace LocaleScript.Script

/-! ## Places in a script -/

/-- A place in a script. -/
structure Stand where
  /-- The state of the reading; unknown behind data. -/
  reading : Option Reading
  /-- The brackets that are open, the last opened first. -/
  opened : List Char
deriving DecidableEq, Repr

/-- The place of a script's beginning, and of its end. -/
def Stand.clear : Stand := ⟨some .start, []⟩

/-- A reading may be in this state here. -/
def Stand.Allows (s : Stand) (r : Reading) : Prop :=
  ∀ known, s.reading = some known → r = known

/-- The block comments of a row of atoms. -/
def commentsOf (as : List Lexeme) : List (List Char) :=
  (as.filter (·.kind == .blockComment)).map (·.text)

@[simp] theorem commentsOf_append (as bs : List Lexeme) :
    commentsOf (as ++ bs) = commentsOf as ++ commentsOf bs := by
  rw [commentsOf, List.filter_append, List.map_append]
  rfl

/-- The atom stays what it is, whatever follows. -/
def Lexeme.isClosed (a : Lexeme) : Bool :=
  a.kind != .lineComment && a.kind != .regex && a != codeChar '/'

theorem isClosed_codeChar_eq (c : Char) : (codeChar c).isClosed = (c != '/') := by
  simp [Lexeme.isClosed, codeChar, bne, Bool.beq_eq_decide_eq]

theorem isClosed_codeChar {c : Char} (h : Plain [c]) : (codeChar c).isClosed = true := by
  rw [isClosed_codeChar_eq, bne_iff_ne]
  rintro rfl
  exact (h '/' (.head _)).2.2.2 rfl

theorem Fits.of_isClosed {operand : Bool} {a : Lexeme} {cs : List Char} (h : Fits operand a cs)
    (hclosed : a.isClosed = true) (cs' : List Char) : Fits operand a cs' := by
  simp only [Lexeme.isClosed, Bool.and_eq_true, bne_iff_ne, ne_eq] at hclosed
  obtain ⟨⟨hline, hregex⟩, hslash⟩ := hclosed
  rw [h.iff hline]
  exact ⟨h.takenAsWas, fun ha => absurd ha hslash, fun hk => absurd hk hregex⟩

/-! ## Passages -/

/-- Wherever the reading is at the first place, the text is read on to the second one. `comments`
are its block comments. -/
def Leads (s s' : Stand) (comments : List (List Char)) (text : List Char) : Prop :=
  ∀ r, s.Allows r → ∃ as, Reads r as ∧ script as = text ∧ as.getLast?.all Lexeme.isClosed = true ∧
    s'.Allows (r.afterAll as) ∧ nest s.opened (codeOf as) = some s'.opened ∧
      commentsOf as = comments

theorem leads_nil (s : Stand) : Leads s s [] [] :=
  fun r hr => ⟨[], .nil r, rfl, rfl, hr, rfl, rfl⟩

theorem Leads.append {s s' s'' : Stand} {comments comments' : List (List Char)}
    {text text' : List Char} (h : Leads s s' comments text) (h' : Leads s' s'' comments' text') :
    Leads s s'' (comments ++ comments') (text ++ text') := by
  intro r hr
  obtain ⟨as, hreads, hscript, hclosed, hallows, hnest, hcomments⟩ := h r hr
  obtain ⟨bs, hreads', hscript', hclosed', hallows', hnest', hcomments'⟩ := h' _ hallows
  refine ⟨as ++ bs, hreads.append hreads' fun a operand ha hfits => ?_, ?_, ?_, ?_, ?_, ?_⟩
  · refine hfits.of_isClosed ?_ _
    rw [ha] at hclosed
    exact hclosed
  · rw [script_append, hscript, hscript']
  · rw [List.getLast?_append]
    cases hlast : bs.getLast? with
    | none => exact hclosed
    | some b =>
      rw [hlast] at hclosed'
      exact hclosed'
  · rw [Reading.afterAll_append]
    exact hallows'
  · rw [codeOf_append, nest_append, hnest]
    exact hnest'
  · rw [commentsOf_append, hcomments, hcomments']

/-- Passages from a place to itself, one after the other. -/
theorem leads_flatMap {α : Type} {s : Stand} {text : α → List Char} (items : List α)
    (h : ∀ item ∈ items, Leads s s [] (text item)) : Leads s s [] (items.flatMap text) := by
  induction items with
  | nil => exact leads_nil s
  | cons item items ih =>
    rw [List.flatMap_cons]
    exact (h item (.head _)).append (ih fun item hitem => h item (.tail _ hitem))

/-- Data leads anywhere on. -/
theorem leads_data (j : Json) (s : Stand) : Leads s ⟨none, s.opened⟩ [] j.write := by
  intro r _
  have hinert := areInert_dataAtoms j
  refine ⟨dataAtoms j, reads_of_steady (fun a ha => (hinert.atoms a ha).steady) r,
    script_dataAtoms j, ?_, ?_, hinert.brackets s.opened, ?_⟩
  · cases hlast : (dataAtoms j).getLast? with
    | none => rfl
    | some a =>
      rcases hinert.atoms a (List.mem_of_getLast? hlast) with ⟨s, rfl⟩ | ⟨c, rfl, hc⟩
      · rfl
      · exact isClosed_codeChar hc
  · intro known hknown
    cases hknown
  · refine List.map_eq_nil_iff.mpr (List.filter_eq_nil_iff.mpr fun a ha => ?_)
    rcases hinert.atoms a ha with ⟨s, rfl⟩ | ⟨c, rfl, -⟩ <;> simp [stringLiteral]

/-- A block comment, wherever an operand may begin. -/
theorem leads_blockComment {t : List Char} (h : cutBlock t = some (t, [])) (opened : List Char) :
    Leads ⟨some .start, opened⟩ ⟨some .start, opened⟩ ['/' :: '*' :: t] ('/' :: '*' :: t) := by
  intro r hr
  obtain rfl := hr _ rfl
  refine ⟨[⟨.blockComment, '/' :: '*' :: t⟩],
    .cons (fits_blockComment (isBlockRest_iff.mpr h) _ _) (.nil _), ?_, rfl, ?_, rfl, rfl⟩
  · simp [script]
  · intro known hknown
    rw [← Option.some.inj hknown]
    exact after_comment .start (a := ⟨.blockComment, _⟩) (.inr rfl)

/-- A line that is a comment, wherever an operand may begin. -/
theorem leads_lineComment {t : List Char} (h : '\n' ∉ t) (opened : List Char) :
    Leads ⟨some .start, opened⟩ ⟨some .start, opened⟩ [] ('/' :: '/' :: t ++ ['\n']) := by
  intro r hr
  obtain rfl := hr _ rfl
  refine ⟨[⟨.lineComment, '/' :: '/' :: t⟩, codeChar '\n'], .cons (fits_lineComment h _ _)
    (.cons (fits_of_plain (by decide) _ _) (.nil _)), ?_, rfl, ?_, rfl, rfl⟩
  · simp [script]
  · intro known hknown
    rw [← Option.some.inj hknown, Reading.afterAll_cons, after_comment .start (.inl rfl)]
    exact after_asciiBlank _ (show Text.isAsciiBlank '\n' = true from rfl)

/-! ## Text that is known -/

/-- Reads a text atom by atom, each in a step: the place behind it and its block comments. `closed`
says that the atom in front of it stays what it is. -/
def pastAtoms : Nat → Reading → List Char → Bool → List Char → Option (Stand × List (List Char))
  | _, r, opened, closed, [] => if closed then some (⟨some r, opened⟩, []) else none
  | 0, _, _, _, _ :: _ => none
  | steps + 1, r, opened, _, c :: rest =>
    match Kind.opened r.operand c rest with
    | .code =>
      match nest opened [c] with
      | none => none
      | some opened => pastAtoms steps (r.after (codeChar c)) opened (c != '/') rest
    | kind =>
      match kind.cut c rest with
      | none => none
      | some (taken, left) =>
        let a : Lexeme := ⟨kind, c :: taken⟩
        (pastAtoms steps (r.after a) opened a.isClosed left).map fun p =>
          (p.1, commentsOf [a] ++ p.2)

/-- The place behind a text that is read from a state on, and its block comments. -/
def pastFrom (r : Reading) (opened cs : List Char) : Option (Stand × List (List Char)) :=
  pastAtoms cs.length r opened true cs

/-- Reads a text behind data: blanks leave the state unknown, and of other characters those that
settle it whatever it was. -/
def pastData (opened : List Char) : List Char → Option (Stand × List (List Char))
  | [] => some (⟨none, opened⟩, [])
  | c :: cs =>
    if Text.isAsciiBlank c then pastData opened cs
    else if isWordChar c || !decide (Plain [c]) then none
    else
      match nest opened [c] with
      | none => none
      | some opened => pastFrom (Reading.start.after (codeChar c)) opened cs

/-- The place behind a text, and its block comments. -/
def Stand.past (s : Stand) (cs : List Char) : Option (Stand × List (List Char)) :=
  match s.reading with
  | some r => pastFrom r s.opened cs
  | none => pastData s.opened cs

/-- The atoms of a text that leave the last one closed, or leave it to the atom in front of them. -/
def EndsClosed (closed : Bool) (as : List Lexeme) : Prop :=
  as.getLast?.elim closed Lexeme.isClosed = true

theorem EndsClosed.cons {a : Lexeme} {as : List Lexeme} (h : EndsClosed a.isClosed as)
    (closed : Bool) : EndsClosed closed (a :: as) := by
  unfold EndsClosed at h ⊢
  rw [List.getLast?_cons]
  cases hlast : as.getLast? with
  | none =>
    rw [hlast] at h
    exact h
  | some b =>
    rw [hlast] at h
    exact h

theorem pastAtoms_nil (steps : Nat) (r : Reading) (opened : List Char) (closed : Bool) :
    pastAtoms steps r opened closed [] = if closed then some (⟨some r, opened⟩, []) else none := by
  rw [pastAtoms]

theorem pastAtoms_code {r : Reading} {c : Char} {rest : List Char}
    (h : Kind.opened r.operand c rest = .code) (steps : Nat) (opened : List Char) (closed : Bool) :
    pastAtoms (steps + 1) r opened closed (c :: rest) = (nest opened [c]).bind fun opened =>
      pastAtoms steps (r.after (codeChar c)) opened (c != '/') rest := by
  rw [pastAtoms, h]
  cases nest opened [c] <;> rfl

theorem pastAtoms_region {r : Reading} {c : Char} {rest : List Char}
    (h : Kind.opened r.operand c rest ≠ .code) (steps : Nat) (opened : List Char) (closed : Bool) :
    pastAtoms (steps + 1) r opened closed (c :: rest)
      = ((Kind.opened r.operand c rest).cut c rest).bind fun (taken, left) =>
        let a : Lexeme := ⟨Kind.opened r.operand c rest, c :: taken⟩
        (pastAtoms steps (r.after a) opened a.isClosed left).map fun p =>
          (p.1, commentsOf [a] ++ p.2) := by
  rw [pastAtoms]
  split
  · next hcode => exact absurd hcode h
  · cases (Kind.opened r.operand c rest).cut c rest <;> rfl

/-- The text is read from a state on to a place, with these block comments in it. -/
def Passes (r : Reading) (opened : List Char) (closed : Bool) (cs : List Char) (s : Stand)
    (comments : List (List Char)) : Prop :=
  ∃ as, Reads r as ∧ script as = cs ∧ EndsClosed closed as ∧ s.reading = some (r.afterAll as) ∧
    nest opened (codeOf as) = some s.opened ∧ commentsOf as = comments

theorem Passes.nil (r : Reading) (opened : List Char) :
    Passes r opened true [] ⟨some r, opened⟩ [] :=
  ⟨[], .nil r, rfl, rfl, rfl, rfl, rfl⟩

section

variable {r : Reading} {opened opened' : List Char} {c : Char} {rest left taken : List Char}
  {s : Stand} {comments : List (List Char)}

theorem Passes.code (hk : Kind.opened r.operand c rest = .code)
    (hnest : nest opened [c] = some opened')
    (h : Passes (r.after (codeChar c)) opened' (c != '/') rest s comments) (closed : Bool) :
    Passes r opened closed (c :: rest) s comments := by
  obtain ⟨as, hreads, hscript, hlast, hreading, hbrackets, rfl⟩ := h
  refine ⟨codeChar c :: as, .cons ⟨c, [], rfl, ?_, rfl⟩ hreads, ?_, ?_, hreading, ?_, rfl⟩
  · rw [hscript]
    exact hk
  · rw [script_cons, hscript]
    rfl
  · rw [← isClosed_codeChar_eq] at hlast
    exact hlast.cons closed
  · rw [← List.singleton_append, codeOf_append, nest_append]
    have hcode : codeOf [codeChar c] = [c] := codeOf_map_codeChar [c]
    rw [hcode, hnest]
    exact hbrackets

theorem Passes.region (hk : Kind.opened r.operand c rest ≠ .code)
    (hcut : (Kind.opened r.operand c rest).cut c rest = some (taken, left))
    (h : Passes (r.after ⟨Kind.opened r.operand c rest, c :: taken⟩) opened
      (Lexeme.isClosed ⟨Kind.opened r.operand c rest, c :: taken⟩) left s comments)
    (closed : Bool) :
    Passes r opened closed (c :: rest) s
      (commentsOf [⟨Kind.opened r.operand c rest, c :: taken⟩] ++ comments) := by
  obtain ⟨as, hreads, hscript, hlast, hreading, hbrackets, rfl⟩ := h
  have happ := Kind.cut_append hcut
  refine ⟨⟨Kind.opened r.operand c rest, c :: taken⟩ :: as,
    .cons ⟨c, taken, rfl, ?_, ?_⟩ hreads, ?_, hlast.cons closed, hreading, ?_, ?_⟩
  · rw [hscript, happ]
  · rw [hscript, happ, Kind.cutAtom_of_ne hk]
    exact hcut
  · rw [script_cons, hscript]
    exact congrArg (c :: ·) happ
  · rw [← List.singleton_append, codeOf_append, nest_append, codeOf_singleton_of_ne hk]
    exact hbrackets
  · rw [← List.singleton_append, commentsOf_append]

end

theorem passes_of_pastAtoms_nil {steps : Nat} {r : Reading} {opened : List Char} {closed : Bool}
    {s : Stand} {comments : List (List Char)}
    (h : pastAtoms steps r opened closed [] = some (s, comments)) :
    Passes r opened closed [] s comments := by
  rw [pastAtoms_nil] at h
  cases closed with
  | false => cases h
  | true =>
    obtain ⟨rfl, rfl⟩ := Prod.mk.inj (Option.some.inj h)
    exact .nil r opened

theorem passes_of_pastAtoms {steps : Nat} {r : Reading} {opened : List Char} {closed : Bool}
    {cs : List Char} {s : Stand} {comments : List (List Char)}
    (h : pastAtoms steps r opened closed cs = some (s, comments)) :
    Passes r opened closed cs s comments := by
  induction steps generalizing r opened closed cs s comments with
  | zero =>
    cases cs with
    | nil => exact passes_of_pastAtoms_nil h
    | cons c rest => cases h
  | succ steps ih =>
    cases cs with
    | nil => exact passes_of_pastAtoms_nil h
    | cons c rest =>
      by_cases hk : Kind.opened r.operand c rest = .code
      · rw [pastAtoms_code hk] at h
        obtain ⟨opened', hnest, hrest⟩ := Option.bind_eq_some_iff.mp h
        exact .code hk hnest (ih hrest) closed
      · rw [pastAtoms_region hk] at h
        obtain ⟨⟨taken, left⟩, hcut, htail⟩ := Option.bind_eq_some_iff.mp h
        obtain ⟨⟨s', others⟩, hrest, hpair⟩ := Option.map_eq_some_iff.mp htail
        obtain ⟨rfl, rfl⟩ := Prod.mk.inj hpair
        exact .region hk hcut (ih hrest) closed

theorem leads_of_pastFrom {r : Reading} {opened cs : List Char} {s : Stand}
    {comments : List (List Char)} (h : pastFrom r opened cs = some (s, comments)) :
    Leads ⟨some r, opened⟩ s comments cs := by
  intro r' hr'
  obtain rfl := hr' r rfl
  obtain ⟨as, hreads, hscript, hlast, hreading, hopened, hcomments⟩ := passes_of_pastAtoms h
  refine ⟨as, hreads, hscript, ?_, ?_, hopened, hcomments⟩
  · unfold EndsClosed at hlast
    cases hbehind : as.getLast? with
    | none => rfl
    | some a =>
      rw [hbehind] at hlast
      exact hlast
  · intro known hknown
    exact Option.some.inj (hreading.symm.trans hknown)

/-- A character of code in front of a passage. -/
theorem Leads.behind_codeChar {c : Char} {opened opened' : List Char} {s' : Stand}
    {comments : List (List Char)} {text : List Char} {reading : Option Reading}
    (hc : Plain [c]) (hnest : nest opened [c] = some opened')
    (hafter : ∀ r known, reading = some known → Reading.after r (codeChar c) = known)
    (h : Leads ⟨reading, opened'⟩ s' comments text) :
    Leads ⟨none, opened⟩ s' comments (c :: text) := by
  intro r _
  obtain ⟨as, hreads, hscript, hclosed, hallows, hnest', hcomments⟩ :=
    h (r.after (codeChar c)) (hafter r)
  refine ⟨codeChar c :: as, .cons (fits_of_plain hc _ _) hreads, ?_, ?_, hallows, ?_, hcomments⟩
  · rw [script_cons, hscript]
    rfl
  · rw [List.getLast?_cons]
    cases hlast : as.getLast? with
    | none => exact isClosed_codeChar hc
    | some a =>
      rw [hlast] at hclosed
      exact hclosed
  · rw [← List.singleton_append, codeOf_append, nest_append]
    have hcode : codeOf [codeChar c] = [c] := codeOf_map_codeChar [c]
    rw [hcode, hnest]
    exact hnest'

theorem nest_of_isAsciiBlank {c : Char} (h : Text.isAsciiBlank c = true) (opened : List Char) :
    nest opened [c] = some opened := by
  simp only [Text.isAsciiBlank, Bool.or_eq_true, beq_iff_eq] at h
  rcases h with (((rfl | rfl) | rfl) | rfl) | rfl <;> rfl

theorem plain_of_isAsciiBlank {c : Char} (h : Text.isAsciiBlank c = true) : Plain [c] := by
  simp only [Text.isAsciiBlank, Bool.or_eq_true, beq_iff_eq] at h
  rcases h with (((rfl | rfl) | rfl) | rfl) | rfl <;> decide

/-- What is no word and no blank settles the state. -/
theorem after_of_settling {c : Char} (hblank : ¬Text.isAsciiBlank c = true)
    (hword : isWordChar c = false) (r : Reading) :
    r.after (codeChar c) = Reading.start.after (codeChar c) := by
  rw [r.after_of_not_wordChar hword, Reading.start.after_of_not_wordChar hword]
  simp only [Lexeme.operandAfter, codeChar_kind, codeChar_text, hword, hblank, reduceIte,
    Bool.false_eq_true]

theorem leads_of_pastData {opened cs : List Char} {s : Stand} {comments : List (List Char)}
    (h : pastData opened cs = some (s, comments)) : Leads ⟨none, opened⟩ s comments cs := by
  induction cs generalizing opened with
  | nil =>
    obtain ⟨rfl, rfl⟩ := Prod.mk.inj (Option.some.inj h)
    exact leads_nil _
  | cons c cs ih =>
    rw [pastData] at h
    split at h
    · next hblank =>
      exact Leads.behind_codeChar (plain_of_isAsciiBlank hblank)
        (nest_of_isAsciiBlank hblank opened)
        (fun _ _ hnone => by cases hnone) (ih h)
    · next hblank =>
      split at h
      · cases h
      · next hc =>
        obtain ⟨hword, hplain⟩ : isWordChar c = false ∧ Plain [c] := by simpa using hc
        split at h
        · cases h
        · next opened' hnest =>
          refine Leads.behind_codeChar hplain hnest (fun r known hknown => ?_) (leads_of_pastFrom h)
          rw [← Option.some.inj hknown]
          exact after_of_settling hblank hword r

/-- A text that can be read beforehand leads on. -/
theorem leads_of_past {s s' : Stand} {cs : List Char} {comments : List (List Char)}
    (h : s.past cs = some (s', comments)) : Leads s s' comments cs := by
  obtain ⟨reading, opened⟩ := s
  cases reading with
  | some r => exact leads_of_pastFrom h
  | none => exact leads_of_pastData h

/-- A passage from the beginning to an end that leaves nothing open is accepted as a script. -/
theorem checkBrackets_of_leads {reading : Option Reading} {comments : List (List Char)}
    {text : List Char} (h : Leads .clear ⟨reading, []⟩ comments text) :
    checkBrackets text = .ok () ∧ ∃ segments, scan text = .ok segments ∧
      (segments.filter (·.kind == .blockComment)).map (·.text) = comments := by
  obtain ⟨as, hreads, rfl, -, -, hnest, rfl⟩ := h .start fun _ hknown => Option.some.inj hknown
  refine ⟨checkBrackets_eq_ok_iff.mpr ⟨as, hreads, rfl, hnest⟩, ?_⟩
  obtain ⟨ls, hscan, rfl⟩ := scan_script hreads
  refine ⟨_, hscan, ?_⟩
  have hlexemes := map_lexeme_locate (p := (· == .blockComment)) rfl 0 ls
  rw [commentsOf, ← hlexemes, List.map_map]
  rfl

end LocaleScript.Script
