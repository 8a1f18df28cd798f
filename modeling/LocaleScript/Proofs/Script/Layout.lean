import LocaleScript.Proofs.Script.Tokens

/-!
# The layout of a condensed script

A condensed script is laid out from the tokens of a script and the blanks between them. Read as
atoms, it may fall apart otherwise; but if the tokens that are read are those that were written,
then so are all atoms (`eq_of_keptAtoms_eq`). The reason is that nothing that is no token takes away
a character that is no blank, but for a line comment, and then too few are left for the tokens
behind.
-/

namespace LocaleScript.Script

/-! ## The layout of a condensed script -/

/-- The atoms written behind a token, with the tokens that follow. -/
def layoutBehind (source : List Char) (t : Segment) : List Segment → List Lexeme
  | [] => [codeChar '\n']
  | u :: us =>
    (separator (between source t u) t.text u.text).map codeChar
      ++ u.lexeme :: layoutBehind source u us

/-- The atoms written for the tokens of a script. -/
def layout (source : List Char) : List Segment → List Lexeme
  | [] => []
  | t :: ts => t.lexeme :: layoutBehind source t ts

theorem script_layoutBehind (source : List Char) (t : Segment) (us : List Segment) :
    script (layoutBehind source t us) = writtenBehind source t us := by
  induction us generalizing t with
  | nil => rfl
  | cons u us ih =>
    rw [layoutBehind, writtenBehind, script_append, script_map_codeChar, script_cons, ih,
      List.append_assoc]
    rfl

theorem script_layout (source : List Char) (ts : List Segment) :
    script (layout source ts) = written source ts := by
  cases ts with
  | nil => rfl
  | cons t ts =>
    rw [layout, written, script_cons, script_layoutBehind]
    rfl

theorem separator_subset (between text next : List Char) :
    ∀ c ∈ separator between text next, c = '\n' ∨ c = ' ' := by
  intro c hc
  unfold separator at hc
  split at hc
  · exact .inl (List.mem_singleton.mp hc)
  · split at hc
    · exact .inr (List.mem_singleton.mp hc)
    · cases hc

/-! ## From token to token -/

/-- In front of the first token stand atoms that leave none. -/
theorem exists_first_token (condenser : Condenser) {r : Reading} {as : List Lexeme}
    (h : Reads r as) {start : Nat} {u : Segment} {us : List Segment}
    (htokens : condenser.tokens (locate start as) = u :: us) :
    ∃ dropped a rest, as = dropped ++ a :: rest ∧
      (∀ d ∈ dropped, condenser.IsGap d ∨ d.kind = .lineComment) ∧ condenser.IsToken a ∧
      u = ⟨a.kind, start + Text.byteLength (script dropped), a.text⟩ ∧
      us = condenser.tokens (locate u.stop rest) := by
  induction h generalizing start with
  | nil => cases htokens
  | @cons r a as fits _ ih =>
    have later (hnone : ∀ start, condenser.segmentTokens ⟨a.kind, start, a.text⟩ = [])
        (ha : condenser.IsGap a ∨ a.kind = .lineComment) :
        ∃ dropped b rest, a :: as = dropped ++ b :: rest ∧
          (∀ d ∈ dropped, condenser.IsGap d ∨ d.kind = .lineComment) ∧ condenser.IsToken b ∧
          u = ⟨b.kind, start + Text.byteLength (script dropped), b.text⟩ ∧
          us = condenser.tokens (locate u.stop rest) := by
      rw [tokens_locate_cons, hnone] at htokens
      obtain ⟨dropped, b, rest, rfl, hdropped, htoken, hu, hus⟩ := ih htokens
      refine ⟨a :: dropped, b, rest, rfl, ?_, htoken, ?_, hus⟩
      · intro d hd
        rcases List.mem_cons.mp hd with rfl | hd
        · exact ha
        · exact hdropped d hd
      · rw [hu, script_cons, Text.byteLength_append, Nat.add_assoc]
    cases condenser.fate fits with
    | written token _ =>
      rw [tokens_locate_cons, token.tokens] at htokens
      obtain ⟨rfl, rfl⟩ := List.cons.inj htokens
      exact ⟨[], a, as, rfl, fun d hd => absurd hd List.not_mem_nil, token, rfl, rfl⟩
    | gap gap => exact later gap.tokens (.inl gap)
    | nothing kind _ => exact later (Condenser.tokens_of_lineComment kind) (.inr kind)

/-- The first token of a script. -/
theorem exists_start_token (condenser : Condenser) {r : Reading} {as : List Lexeme}
    (hreads : Reads r as) {t : Segment} {ts : List Segment}
    (hts : condenser.tokens (locate 0 as) = t :: ts) :
    ∃ dropped rest, as = dropped ++ t.lexeme :: rest ∧
      (∀ d ∈ dropped, condenser.IsGap d ∨ d.kind = .lineComment) ∧ condenser.IsToken t.lexeme ∧
      t.start = Text.byteLength (script dropped) ∧
      script as = script dropped ++ t.text ++ script rest ∧
      condenser.tokens (locate t.stop rest) = ts := by
  obtain ⟨dropped, a, rest, rfl, hdropped, htoken, ht, hts⟩ :=
    exists_first_token condenser hreads hts
  have hlexeme : t.lexeme = a := by rw [ht]; rfl
  refine ⟨dropped, rest, by rw [hlexeme], hdropped, by rwa [hlexeme], ?_, ?_, hts.symm⟩
  · rw [ht, Nat.zero_add]
  · rw [script_append, script_cons, ht, List.append_assoc]

/-- The token behind a token: between the two stand the atoms that were dropped. -/
theorem exists_next_token (condenser : Condenser) {source : List Char} (before : List Char)
    {t : Segment} (hstart : t.start = Text.byteLength before) {r : Reading} {as : List Lexeme}
    (hsource : source = before ++ t.text ++ script as) (hreads : Reads r as) {u : Segment}
    {us : List Segment} (hus : condenser.tokens (locate t.stop as) = u :: us) :
    ∃ dropped rest, as = dropped ++ u.lexeme :: rest ∧
      (∀ d ∈ dropped, condenser.IsGap d ∨ d.kind = .lineComment) ∧ condenser.IsToken u.lexeme ∧
      u.start = Text.byteLength (before ++ t.text ++ script dropped) ∧
      source = before ++ t.text ++ script dropped ++ u.text ++ script rest ∧
      between source t u = script dropped ∧ condenser.tokens (locate u.stop rest) = us := by
  obtain ⟨dropped, a, rest, rfl, hdropped, htoken, hu, hus⟩ :=
    exists_first_token condenser hreads hus
  have hlexeme : u.lexeme = a := by rw [hu]; rfl
  have hustart : u.start = Text.byteLength (before ++ t.text ++ script dropped) := by
    rw [hu, Text.byteLength_append, Text.byteLength_append, ← hstart]
    rfl
  have hsource : source = before ++ t.text ++ script dropped ++ u.text ++ script rest := by
    rw [hsource, script_append, script_cons, hu]
    simp only [List.append_assoc]
  refine ⟨dropped, rest, by rw [hlexeme], hdropped, by rwa [hlexeme], hustart, hsource, ?_,
    hus.symm⟩
  rw [hsource, List.append_assoc _ u.text]
  exact between_eq hstart hustart

/-! ## The tokens of a layout -/

/-- Keeps every comment. -/
def Condenser.keepingAll : Condenser := ⟨[""]⟩

/-- The text is read as these tokens, with nothing but blanks and line comments around them. -/
def ReadsAs (cs : List Char) (tokens : List Lexeme) : Prop :=
  ∃ segments, scan cs = .ok segments ∧
    (Condenser.keepingAll.tokens segments).map Segment.lexeme = tokens

theorem keepingAll_keeps (comment : List Char) : Condenser.keepingAll.keeps comment = true := by
  have hprefix : ("".toList).isPrefixOf (comment.drop 2) = true := List.isPrefixOf_nil_left
  simp only [Condenser.keeps, Condenser.keepingAll, List.any_cons, hprefix, Bool.true_or,
    Bool.or_true]

theorem Condenser.IsToken.keepingAll {condenser : Condenser} {a : Lexeme}
    (h : condenser.IsToken a) : Condenser.keepingAll.IsToken a := by
  obtain ⟨kind, text⟩ := a
  cases kind with
  | blockComment => exact keepingAll_keeps text
  | _ => exact h

/-- The tokens of a row of atoms. -/
def keptAtoms (as : List Lexeme) : List Lexeme :=
  (Condenser.keepingAll.tokens (locate 0 as)).map Segment.lexeme

theorem map_lexeme_codeTokens (start start' : Nat) (cs : List Char) :
    (codeTokens start cs).map Segment.lexeme = (codeTokens start' cs).map Segment.lexeme := by
  induction cs generalizing start start' with
  | nil => rfl
  | cons c cs ih =>
    simp only [codeTokens]
    split
    · exact ih _ _
    · rw [List.map_cons, List.map_cons, ih]
      rfl

theorem map_lexeme_tokens_locate (condenser : Condenser) (start start' : Nat) (as : List Lexeme) :
    (condenser.tokens (locate start as)).map Segment.lexeme
      = (condenser.tokens (locate start' as)).map Segment.lexeme := by
  induction as generalizing start start' with
  | nil => rfl
  | cons a as ih =>
    rw [tokens_locate_cons, tokens_locate_cons, List.map_append, List.map_append, ih _ (start' + _)]
    congr 1
    obtain ⟨kind, text⟩ := a
    cases kind with
    | code => exact map_lexeme_codeTokens start start' text
    | blockComment =>
      simp only [Condenser.segmentTokens]
      split <;> rfl
    | _ => rfl

theorem keptAtoms_cons_of_isToken {a : Lexeme} (h : Condenser.keepingAll.IsToken a)
    (as : List Lexeme) : keptAtoms (a :: as) = a :: keptAtoms as := by
  rw [keptAtoms, tokens_locate_cons, h.tokens, List.map_append,
    map_lexeme_tokens_locate _ _ 0]
  rfl

theorem keptAtoms_cons_of_isGap {a : Lexeme} (h : Condenser.keepingAll.IsGap a)
    (as : List Lexeme) : keptAtoms (a :: as) = keptAtoms as := by
  rw [keptAtoms, tokens_locate_cons, h.tokens, List.nil_append, map_lexeme_tokens_locate _ _ 0]
  rfl

theorem keptAtoms_cons_of_lineComment {a : Lexeme} (h : a.kind = .lineComment)
    (as : List Lexeme) : keptAtoms (a :: as) = keptAtoms as := by
  rw [keptAtoms, tokens_locate_cons, Condenser.tokens_of_lineComment h, List.nil_append,
    map_lexeme_tokens_locate _ _ 0]
  rfl

theorem isGap_codeChar {condenser : Condenser} {c : Char} (hc : Text.isBlank c = true) :
    condenser.IsGap (codeChar c) :=
  ⟨c, rfl, hc⟩

theorem exists_codeChar_of_isGap {a : Lexeme} (h : Condenser.keepingAll.IsGap a) :
    ∃ c, a = codeChar c ∧ Text.isBlank c = true := by
  obtain ⟨kind, text⟩ := a
  cases kind with
  | code =>
    obtain ⟨c, rfl, hc⟩ := h
    exact ⟨c, rfl, hc⟩
  | blockComment =>
    have hkeeps := h.2
    rw [keepingAll_keeps] at hkeeps
    cases hkeeps
  | _ => exact h.elim

/-- Where an atom is read that is no gap, it does not begin with a blank. -/
theorem Fits.head?_not_blank {operand : Bool} {a : Lexeme} {cs : List Char}
    (h : Fits operand a cs) (hgap : ¬Condenser.keepingAll.IsGap a) :
    ∃ c, a.text.head? = some c ∧ Text.isBlank c = false := by
  obtain ⟨c, t, htext, -⟩ := id h
  have hhead : a.text.head? = some c := congrArg List.head? htext
  refine ⟨c, hhead, ?_⟩
  cases hc : Text.isBlank c with
  | false => rfl
  | true =>
    refine absurd ?_ hgap
    have hne : ∀ d, Text.isBlank d = false → c ≠ d := by
      rintro d hd rfl
      rw [hc] at hd
      cases hd
    rw [h.eq_codeChar_of_head? hhead ⟨hne _ (by decide), hne _ (by decide), hne _ (by decide),
      hne _ (by decide)⟩]
    exact ⟨c, rfl, hc⟩

theorem Condenser.IsToken.not_isGap {condenser : Condenser} {a : Lexeme}
    (h : condenser.IsToken a) : ¬condenser.IsGap a := by
  obtain ⟨kind, text⟩ := a
  intro hgap
  cases kind with
  | code =>
    obtain ⟨c, rfl, hc⟩ := h
    obtain ⟨d, hd, hd'⟩ := hgap
    rw [← (List.cons.inj hd).1, hc] at hd'
    cases hd'
  | blockComment => exact absurd (h.symm.trans hgap.2) (by decide)
  | _ => exact hgap

/-- A token is a token wherever its text is read. -/
theorem of_mem_tokens (condenser : Condenser) {r : Reading} {as : List Lexeme} (h : Reads r as)
    {start : Nat} {t : Segment} (ht : t ∈ condenser.tokens (locate start as)) :
    condenser.IsToken t.lexeme ∧ ∃ operand cs, Fits operand t.lexeme cs := by
  induction h generalizing start with
  | nil => cases ht
  | @cons r a as fits _ ih =>
    rw [tokens_locate_cons] at ht
    rcases List.mem_append.mp ht with ht | ht
    · cases condenser.fate fits with
      | written token _ =>
        rw [token.tokens] at ht
        rw [List.mem_singleton.mp ht]
        exact ⟨token, _, _, fits⟩
      | gap gap =>
        rw [gap.tokens] at ht
        cases ht
      | nothing kind _ =>
        rw [Condenser.tokens_of_lineComment kind] at ht
        cases ht
    · exact ih ht

/-- An atom of a layout: a token that begins with no blank, or a blank. -/
def IsLaidOut (a : Lexeme) : Prop :=
  (Condenser.keepingAll.IsToken a ∧ ∃ c, a.text.head? = some c ∧ Text.isBlank c = false) ∨
    ∃ c, a = codeChar c ∧ Text.isBlank c = true

theorem IsLaidOut.text_ne_nil {a : Lexeme} (h : IsLaidOut a) : a.text ≠ [] := by
  rcases h with ⟨-, c, hc, -⟩ | ⟨c, rfl, -⟩
  · intro he
    rw [he] at hc
    cases hc
  · exact List.cons_ne_nil c []

theorem IsLaidOut.eq_codeChar {a : Lexeme} (h : IsLaidOut a) {c : Char}
    (hhead : a.text.head? = some c) (hc : Text.isBlank c = true) : a = codeChar c := by
  rcases h with ⟨-, d, hd, hd'⟩ | ⟨d, rfl, -⟩
  · obtain rfl := Option.some.inj (hhead.symm.trans hd)
    rw [hc] at hd'
    cases hd'
  · obtain rfl := Option.some.inj hhead
    rfl

theorem IsLaidOut.isToken {a : Lexeme} (h : IsLaidOut a) {c : Char}
    (hhead : a.text.head? = some c) (hc : Text.isBlank c = false) :
    Condenser.keepingAll.IsToken a := by
  rcases h with ⟨htoken, -⟩ | ⟨d, rfl, hd⟩
  · exact htoken
  · obtain rfl := Option.some.inj hhead
    rw [hc] at hd
    cases hd

theorem isLaidOut_layoutBehind (source : List Char) (t : Segment) {us : List Segment}
    (h : ∀ u ∈ us, IsLaidOut u.lexeme) : ∀ a ∈ layoutBehind source t us, IsLaidOut a := by
  induction us generalizing t with
  | nil =>
    intro a ha
    rw [List.mem_singleton.mp ha]
    exact .inr ⟨'\n', rfl, by decide⟩
  | cons u us ih =>
    intro a ha
    rcases List.mem_append.mp ha with ha | ha
    · obtain ⟨c, hc, rfl⟩ := List.mem_map.mp ha
      rcases separator_subset _ _ _ c hc with rfl | rfl <;> exact .inr ⟨_, rfl, by decide⟩
    · rcases List.mem_cons.mp ha with rfl | ha
      · exact h u (.head _)
      · exact ih u (fun v hv => h v (.tail _ hv)) a ha

theorem isLaidOut_layout (source : List Char) {ts : List Segment}
    (h : ∀ t ∈ ts, IsLaidOut t.lexeme) : ∀ a ∈ layout source ts, IsLaidOut a := by
  cases ts with
  | nil =>
    intro a ha
    cases ha
  | cons t ts =>
    intro a ha
    rcases List.mem_cons.mp ha with rfl | ha
    · exact h t (.head _)
    · exact isLaidOut_layoutBehind source t (fun u hu => h u (.tail _ hu)) a ha

theorem keptAtoms_blanks {cs : List Char} (hcs : ∀ c ∈ cs, c = '\n' ∨ c = ' ')
    (as : List Lexeme) : keptAtoms (cs.map codeChar ++ as) = keptAtoms as := by
  induction cs with
  | nil => rfl
  | cons c cs ih =>
    have hgap : Condenser.keepingAll.IsGap (codeChar c) := by
      rcases hcs c (.head _) with rfl | rfl <;> exact isGap_codeChar (by decide)
    rw [List.map_cons, List.cons_append, keptAtoms_cons_of_isGap hgap,
      ih fun d hd => hcs d (.tail _ hd)]

theorem keptAtoms_layoutBehind (source : List Char) (t : Segment) {us : List Segment}
    (h : ∀ u ∈ us, Condenser.keepingAll.IsToken u.lexeme) :
    keptAtoms (layoutBehind source t us) = us.map Segment.lexeme := by
  induction us generalizing t with
  | nil => rfl
  | cons u us ih =>
    rw [layoutBehind, keptAtoms_blanks (separator_subset _ _ _),
      keptAtoms_cons_of_isToken (h u (.head _)), ih u fun v hv => h v (.tail _ hv), List.map_cons]

theorem keptAtoms_layout (source : List Char) {ts : List Segment}
    (h : ∀ t ∈ ts, Condenser.keepingAll.IsToken t.lexeme) :
    keptAtoms (layout source ts) = ts.map Segment.lexeme := by
  cases ts with
  | nil => rfl
  | cons t ts =>
    rw [layout, keptAtoms_cons_of_isToken (h t (.head _)),
      keptAtoms_layoutBehind source t fun u hu => h u (.tail _ hu), List.map_cons]

/-! ## The layout is all that is read as its tokens -/

/-- Characters that are no blanks. -/
def inkCount (cs : List Char) : Nat :=
  cs.countP fun c => !Text.isBlank c

theorem inkCount_append (cs ds : List Char) : inkCount (cs ++ ds) = inkCount cs + inkCount ds :=
  List.countP_append

theorem inkCount_keptAtoms_le {r : Reading} {as : List Lexeme} (h : Reads r as) :
    inkCount (script (keptAtoms as)) ≤ inkCount (script as) := by
  induction h with
  | nil => exact Nat.le_refl _
  | cons fits _ ih =>
    rw [script_cons, inkCount_append]
    cases Condenser.keepingAll.fate fits with
    | written token _ =>
      rw [keptAtoms_cons_of_isToken token, script_cons, inkCount_append]
      exact Nat.add_le_add_left ih _
    | gap gap =>
      rw [keptAtoms_cons_of_isGap gap]
      exact Nat.le_trans ih (Nat.le_add_left _ _)
    | nothing kind _ =>
      rw [keptAtoms_cons_of_lineComment kind]
      exact Nat.le_trans ih (Nat.le_add_left _ _)

theorem inkCount_keptAtoms {bs : List Lexeme} (h : ∀ b ∈ bs, IsLaidOut b) :
    inkCount (script (keptAtoms bs)) = inkCount (script bs) := by
  induction bs with
  | nil => rfl
  | cons b bs ih =>
    have ih := ih fun b' hb' => h b' (.tail _ hb')
    rcases h b (.head _) with ⟨htoken, -⟩ | ⟨c, rfl, hc⟩
    · rw [keptAtoms_cons_of_isToken htoken, script_cons, script_cons, inkCount_append,
        inkCount_append, ih]
    · have hink : inkCount [c] = 0 := by simp [inkCount, hc]
      rw [keptAtoms_cons_of_isGap (isGap_codeChar hc), script_cons, inkCount_append, codeChar_text,
        hink, Nat.zero_add, ih]

/-- A text that is laid out from tokens and blanks is read as these tokens only if it is read as it
was laid out: a line comment in between would take characters that the tokens need. -/
theorem eq_of_keptAtoms_eq {r : Reading} {as bs : List Lexeme} (h : Reads r as)
    (hbs : ∀ b ∈ bs, IsLaidOut b) (hscript : script as = script bs)
    (hkept : keptAtoms as = keptAtoms bs) : as = bs := by
  induction h generalizing bs with
  | nil =>
    cases bs with
    | nil => rfl
    | cons b bs =>
      have hb := (List.append_eq_nil_iff.mp hscript.symm).1
      exact absurd hb (hbs b (.head _)).text_ne_nil
  | @cons r a as fits rest ih =>
    cases bs with
    | nil => exact absurd (List.append_eq_nil_iff.mp hscript).1 fits.text_ne_nil
    | cons b bs =>
      have hbs' : ∀ b ∈ bs, IsLaidOut b := fun b' hb' => hbs b' (.tail _ hb')
      have hhead : a.text.head? = b.text.head? := by
        rw [← head?_append_eq_of_append_eq fits.text_ne_nil (List.append_nil _) (script as),
          ← head?_append_eq_of_append_eq (hbs b (.head _)).text_ne_nil (List.append_nil _)
            (script bs)]
        exact congrArg List.head? hscript
      by_cases hgap : Condenser.keepingAll.IsGap a
      · obtain ⟨c, rfl, hc⟩ := exists_codeChar_of_isGap hgap
        obtain rfl := (hbs b (.head _)).eq_codeChar hhead.symm hc
        rw [keptAtoms_cons_of_isGap hgap, keptAtoms_cons_of_isGap hgap] at hkept
        rw [ih hbs' (List.append_cancel_left hscript) hkept]
      obtain ⟨c, hc, hc'⟩ := fits.head?_not_blank hgap
      have hb := (hbs b (.head _)).isToken (hhead.symm.trans hc) hc'
      cases Condenser.keepingAll.fate fits with
      | written token _ =>
        rw [keptAtoms_cons_of_isToken token, keptAtoms_cons_of_isToken hb] at hkept
        obtain ⟨rfl, hrest⟩ := List.cons.inj hkept
        rw [ih hbs' (List.append_cancel_left hscript) hrest]
      | gap gap => exact absurd gap hgap
      | nothing kind _ =>
        -- The tokens behind the line comment would have more characters than stand there.
        have hle := inkCount_keptAtoms_le rest
        have heq := inkCount_keptAtoms hbs
        have hink : 0 < inkCount a.text := by
          refine List.countP_pos_iff.mpr ⟨c, List.mem_of_head? hc, ?_⟩
          rw [hc']
          rfl
        rw [← keptAtoms_cons_of_lineComment kind as, hkept, heq, ← hscript, script_cons,
          inkCount_append] at hle
        omega

end LocaleScript.Script
