import LocaleScript.Proofs.Script.Atom

/-!
# Atoms in other surroundings

Whether an atom is read back hangs on the state it is met in and on the next character alone: a
slash has to be taken as it was (`TakenAsWas`), and what comes next must not be drawn into the atom
(`MayMeet`). So an atom that is read somewhere can be put elsewhere (`Fits.iff`).
-/

namespace LocaleScript.Script

/-! ## Atoms in other surroundings -/

/-- A slash is taken as it was where an operand may begin or may not. -/
structure TakenAsWas (operand : Bool) (a : Lexeme) : Prop where
  regex : a.kind = .regex → operand = true
  slash : a = codeChar '/' → operand = false

instance (operand : Bool) (a : Lexeme) : Decidable (TakenAsWas operand a) :=
  decidable_of_iff (_ ∧ _) ⟨fun h => ⟨h.1, h.2⟩, fun h => ⟨h.regex, h.slash⟩⟩

/-- What may come next without changing what the atom is read as. -/
structure MayMeet (a : Lexeme) (next : Option Char) : Prop where
  slash : a = codeChar '/' → next ≠ some '/' ∧ next ≠ some '*'
  regex : a.kind = .regex → ∀ c, next = some c → c.isAlpha = false

theorem fits_codeChar_iff {operand : Bool} {c : Char} {cs : List Char} :
    Fits operand (codeChar c) cs ↔ Kind.opened operand c cs = .code := by
  constructor
  · rintro ⟨d, t, htext, hopened, hcut⟩
    obtain ⟨rfl, rfl⟩ := List.cons.inj htext
    exact hopened
  · intro h
    exact ⟨c, [], rfl, h, rfl⟩

theorem Fits.mayMeet {operand : Bool} {a : Lexeme} {cs : List Char} (h : Fits operand a cs) :
    MayMeet a cs.head? := by
  constructor
  · rintro rfl
    obtain ⟨hs, hb, -⟩ := beginsWith_of_opened (fits_codeChar_iff.mp h) rfl
    exact ⟨hs, hb⟩
  · intro hk c hc
    have hends := h.endsBefore
    rw [hk, hc] at hends
    simpa [Kind.endsBefore] using hends

theorem Fits.takenAsWas {operand : Bool} {a : Lexeme} {cs : List Char} (h : Fits operand a cs) :
    TakenAsWas operand a := by
  constructor
  · intro hk
    obtain ⟨c, t, -, hopened, -⟩ := h
    exact (beginsWith_of_opened (hopened.trans hk)).2
  · rintro rfl
    exact (beginsWith_of_opened (fits_codeChar_iff.mp h) rfl).2.2

theorem opened_slash_congr {operand operand' : Bool} {cs cs' : List Char}
    (hhead : cs'.head? = cs.head?) (hcode : Kind.opened operand '/' cs ≠ .code)
    (hregex : Kind.opened operand '/' cs = .regex → operand' = true) :
    Kind.opened operand' '/' cs' = Kind.opened operand '/' cs := by
  rw [opened_slash] at hcode hregex ⊢
  rw [opened_slash, hhead]
  by_cases hs : cs.head? = some '/'
  · rw [if_pos hs, if_pos hs]
  by_cases hb : cs.head? = some '*'
  · rw [if_neg hs, if_neg hs, if_pos hb, if_pos hb]
  cases operand with
  | false => exact absurd (by rw [if_neg hs, if_neg hb]; rfl) hcode
  | true => rw [hregex (by rw [if_neg hs, if_neg hb]; rfl)]

/-- An atom that is read somewhere is read elsewhere if its slash is taken as it was and what comes
next lets it be. -/
theorem Fits.iff {operand operand' : Bool} {a : Lexeme} {cs cs' : List Char}
    (h : Fits operand a cs) (hline : a.kind ≠ .lineComment) :
    Fits operand' a cs' ↔ TakenAsWas operand' a ∧ MayMeet a cs'.head? := by
  constructor
  · intro h'
    exact ⟨h'.takenAsWas, h'.mayMeet⟩
  rintro ⟨htaken, hmeet⟩
  by_cases hcode : a.kind = .code
  · obtain ⟨c, rfl⟩ := h.eq_codeChar hcode
    rw [fits_codeChar_iff] at h ⊢
    by_cases hc : c = '/'
    · subst hc
      obtain ⟨hs, hb⟩ := hmeet.slash rfl
      rw [opened_slash, if_neg hs, if_neg hb, htaken.slash rfl]
      rfl
    · rw [opened_of_ne_slash hc _ operand _ cs, h]
  · obtain ⟨c, t, htext, hopened, hcut⟩ := h
    rw [Kind.cutAtom_of_ne hcode] at hcut
    have hends : a.kind.endsBefore cs'.head? = true := by
      cases hnext : cs'.head? with
      | none => cases a.kind <;> rfl
      | some d =>
        cases hk : a.kind with
        | regex => simp [Kind.endsBefore, hmeet.regex hk d hnext]
        | lineComment => exact absurd hk hline
        | _ => rfl
    refine ⟨c, t, htext, ?_, (Kind.cutAtom_of_ne hcode _ _).trans (Kind.cut_tail hcode hcut hends)⟩
    by_cases hc : c = '/'
    · subst hc
      obtain ⟨d, hlast, -⟩ := Kind.getLast?_of_cut hcode hline (fun _ => by decide) hcut
      have hhead : (t ++ cs').head? = (t ++ cs).head? :=
        head?_append_eq_of_append_eq (ne_nil_of_getLast? hlast) rfl cs'
      rw [opened_slash_congr hhead (fun hk => hcode (hopened.symm.trans hk))
        fun hk => htaken.regex (hopened.symm.trans hk), hopened]
    · rw [opened_of_ne_slash hc _ operand _ (t ++ cs), hopened]

theorem mayMeet_of_ne (a : Lexeme) {c : Char} (hs : c ≠ '/' ∧ c ≠ '*')
    (ha : c.isAlpha = false) : MayMeet a (some c) := by
  refine ⟨fun _ => ⟨fun h => hs.1 (Option.some.inj h), fun h => hs.2 (Option.some.inj h)⟩, ?_⟩
  intro _ d hd
  rw [← Option.some.inj hd, ha]

theorem opened_congr {cs cs' : List Char} (hhead : cs'.head? = cs.head?) (operand : Bool)
    (c : Char) : Kind.opened operand c cs' = Kind.opened operand c cs := by
  unfold Kind.opened
  rw [hhead]

theorem head?_append_congr (t : List Char) {cs cs' : List Char} (hhead : cs'.head? = cs.head?) :
    (t ++ cs').head? = (t ++ cs).head? := by
  rw [List.head?_append, List.head?_append, hhead]

/-- An atom sees only the first character behind it. -/
theorem Fits.congr {operand : Bool} {a : Lexeme} {cs cs' : List Char} (h : Fits operand a cs)
    (hhead : cs'.head? = cs.head?) : Fits operand a cs' := by
  have hends := h.endsBefore
  obtain ⟨c, t, htext, hopened, hcut⟩ := h
  refine ⟨c, t, htext, (opened_congr (head?_append_congr t hhead) _ c).trans hopened, ?_⟩
  by_cases hcode : a.kind = .code
  · rw [Kind.cutAtom, if_pos hcode] at hcut ⊢
    obtain rfl := (Prod.mk.inj (Option.some.inj hcut)).1
    rfl
  · rw [Kind.cutAtom_of_ne hcode] at hcut ⊢
    exact Kind.cut_tail hcode hcut (by rw [hhead]; exact hends)

theorem Fits.lineComment_text {operand : Bool} {a : Lexeme} {cs : List Char}
    (h : Fits operand a cs) (hk : a.kind = .lineComment) : ∃ t, a.text = '/' :: '/' :: t := by
  have hends := h.endsBefore
  obtain ⟨c, t, htext, hopened, -⟩ := h
  obtain ⟨rfl, hhead⟩ := beginsWith_of_opened (hopened.trans hk)
  cases t with
  | nil =>
    rw [hk, show cs.head? = some '/' from hhead] at hends
    cases hends
  | cons d t =>
    obtain rfl := Option.some.inj hhead
    exact ⟨t, htext⟩

theorem Fits.blockComment_text {operand : Bool} {a : Lexeme} {cs : List Char}
    (h : Fits operand a cs) (hk : a.kind = .blockComment) : ∃ t, a.text = '/' :: '*' :: t := by
  obtain ⟨c, t, htext, hopened, hcut⟩ := h
  obtain ⟨rfl, hhead⟩ := beginsWith_of_opened (hopened.trans hk)
  rw [hk, Kind.cutAtom_of_ne (by decide)] at hcut
  cases t with
  | nil =>
    cases cs with
    | nil => cases hhead
    | cons star ds =>
      obtain ⟨t', ht', -⟩ := keep_eq_some hcut
      cases ht'
  | cons star t =>
    obtain rfl := Option.some.inj hhead
    exact ⟨t, htext⟩

/-- A comment that ends with its text is read wherever it stands. -/
theorem fits_blockComment {t : List Char} (h : IsBlockRest t) (operand : Bool)
    (cs : List Char) : Fits operand ⟨.blockComment, '/' :: '*' :: t⟩ cs := by
  refine ⟨'/', '*' :: t, rfl, ?_, ?_⟩
  · rw [opened_slash]
    rfl
  · change keep '*' (cutBlock (t ++ cs)) = _
    rw [h.cut cs, keep_some]

/-- A text without newline is read as a comment up to the end of its line. -/
theorem fits_lineComment {t : List Char} (h : '\n' ∉ t) (operand : Bool) (cs : List Char) :
    Fits operand ⟨.lineComment, '/' :: '/' :: t⟩ ('\n' :: cs) := by
  have hall : ∀ c ∈ '/' :: t, (c != '\n') = true := by
    intro c hc
    rw [bne_iff_ne]
    rintro rfl
    rcases List.mem_cons.mp hc with hslash | hc
    · cases hslash
    · exact h hc
  refine ⟨'/', '/' :: t, rfl, ?_, ?_⟩
  · rw [opened_slash]
    rfl
  · change some (('/' :: t ++ '\n' :: cs).takeWhile (· != '\n'),
      ('/' :: t ++ '\n' :: cs).dropWhile (· != '\n')) = some ('/' :: t, '\n' :: cs)
    rw [List.takeWhile_append_of_pos hall, List.dropWhile_append_of_pos hall]
    simp

/-- A line comment stays on its line. -/
theorem Fits.newline_not_mem {operand : Bool} {a : Lexeme} {cs : List Char}
    (h : Fits operand a cs) (hk : a.kind = .lineComment) : '\n' ∉ a.text := by
  obtain ⟨c, t, htext, hopened, hcut⟩ := h
  obtain ⟨rfl, -⟩ := beginsWith_of_opened (hopened.trans hk)
  rw [hk, Kind.cutAtom_of_ne (by decide)] at hcut
  have ht : t = (t ++ cs).takeWhile (· != '\n') := (Prod.mk.inj (Option.some.inj hcut)).1.symm
  rw [htext, List.mem_cons, not_or]
  refine ⟨by decide, fun hn => ?_⟩
  rw [ht] at hn
  exact absurd (List.all_eq_true.mp List.all_takeWhile _ hn) (by decide)

/-- Where a line or the text ends, an atom stays what it is. -/
theorem Fits.before_lineEnd {operand : Bool} {a : Lexeme} {cs cs' : List Char}
    (h : Fits operand a cs) (hend : ∀ c, cs'.head? = some c → c = '\n') : Fits operand a cs' := by
  by_cases hline : a.kind = .lineComment
  · have hends : a.kind.endsBefore cs'.head? = true := by
      cases hnext : cs'.head? with
      | none =>
        rw [hline]
        rfl
      | some c =>
        rw [hline, hend c hnext]
        rfl
    obtain ⟨t, htext⟩ := h.lineComment_text hline
    obtain ⟨c, t', htext', -, hcut⟩ := h
    obtain ⟨rfl, rfl⟩ := List.cons.inj (htext'.symm.trans htext)
    have hcode : a.kind ≠ .code := by
      rw [hline]
      decide
    rw [Kind.cutAtom_of_ne hcode] at hcut
    refine ⟨'/', '/' :: t, htext, ?_, ?_⟩
    · rw [hline, opened_slash, if_pos (by rfl)]
    · rw [Kind.cutAtom_of_ne hcode]
      exact Kind.cut_tail hcode hcut hends
  · refine (h.iff hline).mpr ⟨h.takenAsWas, ?_⟩
    cases hnext : cs'.head? with
    | none => exact ⟨fun _ => ⟨by simp, by simp⟩, fun _ d hd => by cases hd⟩
    | some c =>
      rw [hend c hnext]
      exact mayMeet_of_ne a (by decide) (by decide)

/-- At the end of its line an atom stays what it is. -/
theorem Fits.before_newline {operand : Bool} {a : Lexeme} {cs cs' : List Char}
    (h : Fits operand a cs) (hnext : cs'.head? = some '\n') : Fits operand a cs' :=
  h.before_lineEnd fun _ hc => Option.some.inj (hc.symm.trans hnext)

/-- An atom stays what it is where nothing follows. -/
theorem Fits.at_end {operand : Bool} {a : Lexeme} {cs : List Char} (h : Fits operand a cs) :
    Fits operand a [] :=
  h.before_lineEnd fun _ hc => by cases hc

/-- An atom stays what it is if the text behind it is cut short. -/
theorem Fits.cut_short {operand : Bool} {a : Lexeme} {cs left : List Char}
    (h : Fits operand a (cs ++ left)) : Fits operand a cs := by
  cases cs with
  | nil => exact h.at_end
  | cons c cs => exact h.congr rfl

/-! ## Atoms that change no state -/

theorem after_asciiBlank (r : Reading) {c : Char} (hc : Text.isAsciiBlank c = true) :
    r.after (codeChar c) = ⟨r.operand, []⟩ := by
  have hword : isWordChar c = false := by
    simp only [Text.isAsciiBlank, Bool.or_eq_true, beq_iff_eq] at hc
    rcases hc with (((rfl | rfl) | rfl) | rfl) | rfl <;> decide
  rw [r.after_of_not_wordChar hword]
  simp only [Lexeme.operandAfter, codeChar_kind, codeChar_text, hword, hc, reduceIte,
    Bool.false_eq_true]

theorem after_comment (r : Reading) {a : Lexeme}
    (ha : a.kind = .lineComment ∨ a.kind = .blockComment) : r.after a = ⟨r.operand, []⟩ := by
  obtain ⟨kind, text⟩ := a
  rcases ha with rfl | rfl <;> exact r.after_of_ne fun hk => nomatch hk

/-! ## Rows of atoms -/

theorem reads_cons_iff {r : Reading} {a : Lexeme} {as : List Lexeme} :
    Reads r (a :: as) ↔ Fits r.operand a (script as) ∧ Reads (r.after a) as := by
  constructor
  · intro h
    cases h with
    | cons fits rest => exact ⟨fits, rest⟩
  · rintro ⟨fits, rest⟩
    exact .cons fits rest

/-- Each atom of a row is read where it stands. -/
theorem Reads.exists_fits {r : Reading} {as : List Lexeme} (h : Reads r as) {a : Lexeme}
    (ha : a ∈ as) : ∃ operand cs, Fits operand a cs := by
  induction h with
  | nil => cases ha
  | cons fits _ ih =>
    rcases List.mem_cons.mp ha with rfl | ha
    · exact ⟨_, _, fits⟩
    · exact ih ha

theorem Reads.text_ne_nil {r : Reading} {as : List Lexeme} (h : Reads r as) {a : Lexeme}
    (ha : a ∈ as) : a.text ≠ [] := by
  obtain ⟨_, _, fits⟩ := h.exists_fits ha
  exact fits.text_ne_nil

theorem Reads.append_right {r : Reading} {as bs : List Lexeme} (h : Reads r (as ++ bs)) :
    Reads (r.afterAll as) bs := by
  induction as generalizing r with
  | nil => exact h
  | cons a as ih =>
    cases h with
    | cons _ rest => exact ih rest

theorem Reads.eq_nil_of_append {r : Reading} {as bs : List Lexeme} (h : Reads r (as ++ bs))
    (hs : script as = []) : as = [] := by
  cases as with
  | nil => rfl
  | cons a as =>
    cases h with
    | cons fits _ => exact absurd (List.append_eq_nil_iff.mp hs).1 fits.text_ne_nil

/-- Characters that open no literal and no comment. -/
def Plain (cs : List Char) : Prop :=
  ∀ c ∈ cs, c ≠ '"' ∧ c ≠ '\'' ∧ c ≠ '\x60' ∧ c ≠ '/'

instance (cs : List Char) : Decidable (Plain cs) :=
  List.decidableBAll (fun c => c ≠ '"' ∧ c ≠ '\'' ∧ c ≠ '\x60' ∧ c ≠ '/') cs

theorem fits_of_plain {c : Char} (hc : Plain [c]) (operand : Bool) (cs : List Char) :
    Fits operand (codeChar c) cs :=
  fits_codeChar_iff.mpr (opened_eq_code (hc c (.head _)) operand cs)

/-- Plain characters are read as code wherever they stand. -/
theorem reads_plain_iff {r : Reading} {cs : List Char} (hcs : Plain cs) {as : List Lexeme} :
    Reads r (cs.map codeChar ++ as) ↔ Reads (r.afterAll (cs.map codeChar)) as := by
  induction cs generalizing r with
  | nil => exact Iff.rfl
  | cons c cs ih =>
    have hc : Plain [c] := fun d hd => hcs d (List.mem_singleton.mp hd ▸ .head _)
    rw [List.map_cons, List.cons_append, reads_cons_iff, ih fun d hd => hcs d (.tail _ hd)]
    exact ⟨fun h => h.2, fun h => ⟨fits_of_plain hc _ _, h⟩⟩

/-- Rows join where the last atom stays what it is. -/
theorem Reads.append {r : Reading} {as bs : List Lexeme} (ha : Reads r as)
    (hb : Reads (r.afterAll as) bs)
    (hlast : ∀ a operand, as.getLast? = some a → Fits operand a [] → Fits operand a (script bs)) :
    Reads r (as ++ bs) := by
  induction ha with
  | nil r => exact hb
  | @cons r a as fits rest ih =>
    cases as with
    | nil => exact .cons (hlast a _ rfl fits) hb
    | cons a' as =>
      have hhead : (script (a' :: as ++ bs)).head? = (script (a' :: as)).head? := by
        rw [script_append, script_cons]
        exact head?_append_eq_of_append_eq (fun h => rest.text_ne_nil (.head _)
          (List.append_eq_nil_iff.mp h).1) (List.append_nil _) _
      refine .cons (fits.congr hhead) (ih hb fun b operand hb => hlast b operand ?_)
      rw [List.getLast?_cons_cons]
      exact hb

end LocaleScript.Script
