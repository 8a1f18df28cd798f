import LocaleScript.Proofs.Script.Layout
import LocaleScript.Proofs.Script.Neighbour

/-!
# What makes a condensed script legible

The tokens that were written for a script are read again exactly if they are `Legible`: no slash
comes to stand before a star, no letter behind the closing slash of a regular expression, and every
slash is met in a state in which it is taken as it was (`readsAs_written_iff`). The layout is
followed token by token, for the tokens in front of one settle the state that it is met in.

The state is no concern where all blanks are of ASCII (`legible_iff_of_asciiBlanks`).
-/

namespace LocaleScript.Script

/-! ## What a condensed script needs to be read again -/

/-- The tokens do not run into each other: a slash does not open a comment with a star behind it,
and a regular expression takes no letters as flags. A line break keeps them apart. -/
structure Apart (source : List Char) (t u : Segment) : Prop where
  star : t.lexeme = codeChar '/' → u.lexeme = codeChar '*' → '\n' ∈ between source t u
  flags : t.kind = .regex → t.text.getLast? = some '/' →
    u.text.head?.any Char.isAlpha = true → '\n' ∈ between source t u

instance (source : List Char) (t u : Segment) : Decidable (Apart source t u) :=
  decidable_of_iff (_ ∧ _) ⟨fun h => ⟨h.1, h.2⟩, fun h => ⟨h.star, h.flags⟩⟩

/-- The tokens behind a token are read again, from the state behind that token on. -/
def LegibleBehind (source : List Char) (r : Reading) (t : Segment) : List Segment → Prop
  | [] => True
  | u :: us =>
    let met := r.afterAll ((separator (between source t u) t.text u.text).map codeChar)
    Apart source t u ∧ TakenAsWas met.operand u.lexeme ∧
      LegibleBehind source (met.after u.lexeme) u us

/-- The tokens are read again where they are written. -/
def Legible (source : List Char) : List Segment → Prop
  | [] => True
  | t :: ts =>
    TakenAsWas true t.lexeme ∧ LegibleBehind source (Reading.start.after t.lexeme) t ts

instance decidableLegibleBehind (source : List Char) :
    ∀ r t us, Decidable (LegibleBehind source r t us)
  | _, _, [] => .isTrue trivial
  | r, t, u :: us =>
    have := decidableLegibleBehind source ((r.afterAll
      ((separator (between source t u) t.text u.text).map codeChar)).after u.lexeme) u us
    inferInstanceAs (Decidable (_ ∧ _ ∧ _))

instance (source : List Char) : ∀ ts, Decidable (Legible source ts)
  | [] => .isTrue trivial
  | _ :: _ => inferInstanceAs (Decidable (_ ∧ _))

/-! ## Separators -/

theorem isWordChar_of_isAlpha {c : Char} (h : c.isAlpha = true) : isWordChar c = true := by
  simp only [isWordChar, Char.isAlphanum, h, Bool.true_or]

theorem growTogether_slash_of_isAlpha {c : Char} (h : c.isAlpha = true) :
    growTogether '/' c = false := by
  have hne : ('/' == c) = false := by
    refine beq_false_of_ne ?_
    rintro rfl
    exact absurd h (by decide)
  have hword : isWordChar '/' = false := by decide
  have hdigit : Char.isDigit '/' = false := by decide
  simp only [growTogether, hne, hword, hdigit, Bool.false_and, Bool.or_self]

/-- Tokens that meet without harm are apart. -/
theorem MayMeet.apart {source : List Char} {t u : Segment}
    (h : MayMeet t.lexeme u.text.head?) : Apart source t u := by
  constructor
  · intro ht hu
    have htext : u.text = ['*'] := congrArg Lexeme.text hu
    exact absurd (congrArg List.head? htext) (h.slash ht).2
  · intro ht _ hu
    obtain ⟨c, hhead, hc⟩ := (Option.any_eq_true _ _).mp hu
    have halpha := h.regex ht c hhead
    rw [hc] at halpha
    cases halpha

/-- Tokens that grow together are apart. -/
theorem apart_of_growTogether {source : List Char} {t u : Segment}
    (h : textsGrowTogether t.text u.text = true) : Apart source t u := by
  constructor
  · intro ht hu
    have htext : t.text = ['/'] := congrArg Lexeme.text ht
    have hutext : u.text = ['*'] := congrArg Lexeme.text hu
    rw [htext, hutext] at h
    exact absurd h (by decide)
  · intro _ hlast hu
    obtain ⟨c, hhead, hc⟩ := (Option.any_eq_true _ _).mp hu
    rw [textsGrowTogether_eq hlast hhead, growTogether_slash_of_isAlpha hc] at h
    cases h

/-- Tokens that are apart and do not grow together meet without harm on one line. -/
theorem Apart.mayMeet {source : List Char} {t u : Segment} (h : Apart source t u)
    {operand operand' : Bool} {cs cs' : List Char} (ht : Fits operand t.lexeme cs)
    (hu : Fits operand' u.lexeme cs') (hgrow : textsGrowTogether t.text u.text = false)
    (hline : '\n' ∉ between source t u) : MayMeet t.lexeme u.text.head? := by
  constructor
  · intro hslash
    have htext : t.text.getLast? = some '/' := congrArg (fun l => l.text.getLast?) hslash
    constructor
    · intro hhead
      rw [textsGrowTogether_eq htext hhead] at hgrow
      exact absurd hgrow (by decide)
    · intro hhead
      exact hline (h.star hslash (hu.eq_codeChar_of_head? hhead (by decide)))
  · intro hregex c hhead
    cases hc : c.isAlpha with
    | false => rfl
    | true =>
      obtain ⟨d, hlast, hd⟩ := ht.regex_getLast? hregex
      rcases hd with rfl | hd
      · exact absurd (h.flags hregex hlast (by rw [hhead]; exact hc)) hline
      · have hlast' : t.text.getLast? = some d := hlast
        rw [textsGrowTogether_eq hlast' hhead, growTogether, isWordChar_of_isAlpha hd,
          isWordChar_of_isAlpha hc] at hgrow
        cases hgrow

/-- A token may meet what is written behind it exactly if it is apart from the next token. -/
theorem mayMeet_separator_iff {source : List Char} {t u : Segment} {operand operand' : Bool}
    {cs cs' : List Char} (ht : Fits operand t.lexeme cs) (hu : Fits operand' u.lexeme cs')
    (hnil : between source t u = [] → MayMeet t.lexeme u.text.head?) (rest : List Char) :
    MayMeet t.lexeme (separator (between source t u) t.text u.text ++ (u.text ++ rest)).head?
      ↔ Apart source t u := by
  by_cases hline : '\n' ∈ between source t u
  · rw [separator, if_pos hline]
    exact ⟨fun _ => ⟨fun _ _ => hline, fun _ _ _ => hline⟩,
      fun _ => mayMeet_of_ne _ (by decide) (by decide)⟩
  by_cases hspace : between source t u ≠ [] ∧ textsGrowTogether t.text u.text = true
  · rw [separator, if_neg hline, if_pos hspace]
    exact ⟨fun _ => apart_of_growTogether hspace.2,
      fun _ => mayMeet_of_ne _ (by decide) (by decide)⟩
  have hhead : (u.text ++ rest).head? = u.text.head? :=
    head?_append_eq_of_append_eq hu.text_ne_nil (List.append_nil _) rest
  rw [separator, if_neg hline, if_neg hspace, List.nil_append, hhead]
  constructor
  · exact MayMeet.apart
  · intro hapart
    by_cases hbetween : between source t u = []
    · exact hnil hbetween
    · have hgrow : textsGrowTogether t.text u.text = false := by
        cases hg : textsGrowTogether t.text u.text with
        | false => rfl
        | true => exact absurd ⟨hbetween, hg⟩ hspace
      exact hapart.mayMeet ht hu hgrow hline

/-! ## Reading a layout -/

theorem plain_separator (between text next : List Char) : Plain (separator between text next) := by
  intro c hc
  rcases separator_subset _ _ _ c hc with rfl | rfl <;> decide

/-- A token and what is written behind it are read back exactly if they are legible. -/
theorem reads_layoutBehind_iff (condenser : Condenser) {source : List Char} (before : List Char)
    {t : Segment} (hstart : t.start = Text.byteLength before) {operand : Bool} {rs : Reading}
    {as : List Lexeme} (hsource : source = before ++ t.text ++ script as)
    (hfits : Fits operand t.lexeme (script as)) (hline : t.kind ≠ .lineComment)
    (hreads : Reads rs as) (r : Reading) {us : List Segment}
    (hus : condenser.tokens (locate t.stop as) = us) :
    Reads r (t.lexeme :: layoutBehind source t us)
      ↔ TakenAsWas r.operand t.lexeme ∧ LegibleBehind source (r.after t.lexeme) t us := by
  induction us generalizing before t operand rs as r with
  | nil =>
    have hend : Reads (r.after t.lexeme) [codeChar '\n'] :=
      .cons (fits_of_plain (by decide) _ _) (.nil _)
    have hmeet : MayMeet t.lexeme (script [codeChar '\n']).head? :=
      mayMeet_of_ne _ (by decide) (by decide)
    rw [layoutBehind, reads_cons_iff, hfits.iff hline]
    exact ⟨fun h => ⟨h.1.1, trivial⟩, fun h => ⟨⟨h.1, hmeet⟩, hend⟩⟩
  | cons u us ih =>
    obtain ⟨dropped, rest, rfl, -, htoken, hustart, hsource', hbetween, hus⟩ :=
      exists_next_token condenser before hstart hsource hreads hus
    obtain ⟨hufits, hrest⟩ := reads_cons_iff.mp hreads.append_right
    -- Tokens that stand side by side in the script do so there without harm.
    have hnil : between source t u = [] → MayMeet t.lexeme u.text.head? := by
      intro hempty
      have hmeet := hfits.mayMeet
      rw [hreads.eq_nil_of_append (hbetween.symm.trans hempty), List.nil_append, script_cons,
        head?_append_eq_of_append_eq hufits.text_ne_nil (List.append_nil _)] at hmeet
      exact hmeet
    have hscript : script (layoutBehind source t (u :: us))
        = separator (between source t u) t.text u.text
          ++ (u.text ++ script (layoutBehind source u us)) := by
      rw [layoutBehind, script_append, script_map_codeChar, script_cons]
      rfl
    have htail := ih (before ++ t.text ++ script dropped) hustart hsource' hufits
      htoken.ne_lineComment hrest
      ((r.after t.lexeme).afterAll ((separator (between source t u) t.text u.text).map codeChar))
      hus
    rw [reads_cons_iff, hfits.iff hline, hscript, mayMeet_separator_iff hfits hufits hnil,
      layoutBehind, reads_plain_iff (plain_separator _ _ _), htail, LegibleBehind, and_assoc]

theorem reads_layout_iff (condenser : Condenser) {as : List Lexeme} (h : Reads .start as) :
    Reads .start (layout (script as) (condenser.tokens (locate 0 as)))
      ↔ Legible (script as) (condenser.tokens (locate 0 as)) := by
  cases hts : condenser.tokens (locate 0 as) with
  | nil => exact ⟨fun _ => trivial, fun _ => .nil _⟩
  | cons t ts =>
    obtain ⟨dropped, rest, rfl, -, htoken, hstart, hsource, hts⟩ :=
      exists_start_token condenser h hts
    obtain ⟨hfits, hrest⟩ := reads_cons_iff.mp h.append_right
    exact reads_layoutBehind_iff condenser (script dropped) hstart hsource hfits
      htoken.ne_lineComment hrest .start hts

/-! ## Reading a condensed script -/

theorem isLaidOut_of_mem_tokens {condenser : Condenser} {r : Reading} {as : List Lexeme}
    (h : Reads r as) {start : Nat} {t : Segment} (ht : t ∈ condenser.tokens (locate start as)) :
    IsLaidOut t.lexeme := by
  obtain ⟨htoken, operand, cs, hfits⟩ := of_mem_tokens condenser h ht
  exact .inl ⟨htoken.keepingAll, hfits.head?_not_blank htoken.keepingAll.not_isGap⟩

theorem readsAs_of_reads {as : List Lexeme} (h : Reads .start as) :
    ReadsAs (script as) (keptAtoms as) := by
  obtain ⟨ls, hscan, hatoms⟩ := scan_script h
  have htokens := flatMap_locate_atoms (codeAdditive_segmentTokens .keepingAll) 0 ls
  rw [hatoms] at htokens
  exact ⟨locate 0 ls, hscan, congrArg (List.map Segment.lexeme) htokens⟩

theorem exists_reads_of_readsAs {cs : List Char} {tokens : List Lexeme} (h : ReadsAs cs tokens) :
    ∃ as, Reads .start as ∧ script as = cs ∧ keptAtoms as = tokens := by
  obtain ⟨segments, hscan, hmap⟩ := h
  obtain ⟨ls, rfl, hreads, hscript⟩ := reads_of_scan hscan
  have htokens := flatMap_locate_atoms (codeAdditive_segmentTokens .keepingAll) 0 ls
  exact ⟨atoms ls, hreads, hscript, (congrArg (List.map Segment.lexeme) htokens).symm.trans hmap⟩

/-- What is written for the tokens of a script is read as these tokens exactly if they are
legible. -/
theorem readsAs_written_iff (condenser : Condenser) {as : List Lexeme} (h : Reads .start as) :
    ReadsAs (written (script as) (condenser.tokens (locate 0 as)))
        ((condenser.tokens (locate 0 as)).map Segment.lexeme)
      ↔ Legible (script as) (condenser.tokens (locate 0 as)) := by
  have htokens : ∀ t ∈ condenser.tokens (locate 0 as), Condenser.keepingAll.IsToken t.lexeme :=
    fun t ht => (of_mem_tokens condenser h ht).1.keepingAll
  rw [← reads_layout_iff condenser h, ← script_layout, ← keptAtoms_layout _ htokens]
  constructor
  · intro hreads
    obtain ⟨bs, hbs, hscript, hkept⟩ := exists_reads_of_readsAs hreads
    have hlaid : ∀ t ∈ condenser.tokens (locate 0 as), IsLaidOut t.lexeme :=
      fun t ht => isLaidOut_of_mem_tokens h ht
    rw [← eq_of_keptAtoms_eq hbs (isLaidOut_layout (script as) hlaid) hscript hkept]
    exact hbs
  · exact readsAs_of_reads

/-! ## Scripts whose blanks are all of ASCII

The scanner takes a blank beyond those of ASCII for a word or an operator, and so for a change of
state; where there is none, dropping blanks changes no state in which a token is met.
-/

/-- Each token is apart from the one behind it. -/
def ApartBehind (source : List Char) (t : Segment) : List Segment → Prop
  | [] => True
  | u :: us => Apart source t u ∧ ApartBehind source u us

/-- Each token of a script is apart from the one behind it. -/
def AllApart (source : List Char) : List Segment → Prop
  | [] => True
  | t :: ts => ApartBehind source t ts

theorem after_dropped {condenser : Condenser} {d : Lexeme}
    (hd : condenser.IsGap d ∨ d.kind = .lineComment)
    (hascii : ∀ c, d = codeChar c → Text.isBlank c = true → Text.isAsciiBlank c = true)
    (r : Reading) : r.after d = ⟨r.operand, []⟩ := by
  rcases hd with hgap | hline
  · obtain ⟨kind, text⟩ := d
    cases kind with
    | code =>
      obtain ⟨c, rfl, hc⟩ := hgap
      exact after_asciiBlank r (hascii c rfl hc)
    | blockComment => exact after_comment r (.inr rfl)
    | _ => exact hgap.elim
  · exact after_comment r (.inl hline)

/-- Dropped atoms end the word and change nothing else. -/
theorem afterAll_dropped {condenser : Condenser} {dropped : List Lexeme} (hne : dropped ≠ [])
    (hdropped : ∀ d ∈ dropped, condenser.IsGap d ∨ d.kind = .lineComment)
    (hascii : ∀ c, codeChar c ∈ dropped → Text.isBlank c = true → Text.isAsciiBlank c = true)
    (r : Reading) : r.afterAll dropped = ⟨r.operand, []⟩ := by
  induction dropped generalizing r with
  | nil => exact absurd rfl hne
  | cons d dropped ih =>
    rw [Reading.afterAll_cons, after_dropped (hdropped d (.head _))
      fun c hc => hascii c (hc ▸ .head _)]
    by_cases hnil : dropped = []
    · rw [hnil]
      rfl
    · exact ih hnil (fun d hd => hdropped d (.tail _ hd)) (fun c hc => hascii c (.tail _ hc)) _

theorem afterAll_separator {between text next : List Char}
    (hne : separator between text next ≠ []) (r : Reading) :
    r.afterAll ((separator between text next).map codeChar) = ⟨r.operand, []⟩ := by
  unfold separator at hne ⊢
  split
  · exact after_asciiBlank r (by decide : Text.isAsciiBlank '\n' = true)
  · split
    · exact after_asciiBlank r (by decide : Text.isAsciiBlank ' ' = true)
    · next hline hspace => exact absurd (by rw [if_neg hline, if_neg hspace]) hne

/-- No word goes on behind a token that does not end in one. -/
theorem word_after {operand : Bool} {a : Lexeme} {cs : List Char} (h : Fits operand a cs)
    {last : Char} (hlast : a.text.getLast? = some last) (hword : isWordChar last = false)
    (r : Reading) : (r.after a).word = [] := by
  by_cases hk : a.kind = .code
  · obtain ⟨c, rfl⟩ := h.eq_codeChar hk
    obtain rfl : c = last := Option.some.inj hlast
    rw [r.after_of_not_wordChar hword]
  · rw [r.after_of_ne hk]

/-- The word before an atom does not matter to one that begins with no word character. -/
theorem after_congr {r r' : Reading} (hoperand : r.operand = r'.operand) {a : Lexeme} {c : Char}
    (hhead : a.text.head? = some c) (hword : isWordChar c = false) : r.after a = r'.after a := by
  have hall : a.text.all isWordChar = false := by
    obtain ⟨t, ht⟩ := List.head?_eq_some_iff.mp hhead
    simp [ht, hword]
  simp only [Reading.after, hall, Bool.false_eq_true, and_false, reduceIte, hoperand]

/-- Texts with something between them and no separator do not grow together. -/
theorem not_growTogether_of_separator {between text next : List Char} (hbetween : between ≠ [])
    (h : separator between text next = []) : textsGrowTogether text next = false := by
  unfold separator at h
  cases hgrow : textsGrowTogether text next with
  | false => rfl
  | true =>
    split at h
    · cases h
    · rw [if_pos ⟨hbetween, hgrow⟩] at h
      cases h

/-- A token is met in the state of the script, but for a word that it does not go on with. -/
theorem state_of_separator {condenser : Condenser} {operand operand' : Bool} {t u : Lexeme}
    {cs cs' : List Char} (ht : Fits operand t cs) (hu : Fits operand' u cs') {dropped : List Lexeme}
    (hdropped : ∀ d ∈ dropped, condenser.IsGap d ∨ d.kind = .lineComment)
    (hascii : ∀ c, codeChar c ∈ dropped → Text.isBlank c = true → Text.isAsciiBlank c = true)
    {between : List Char} (hnil : between = [] ↔ dropped = []) (r : Reading) :
    ((r.after t).afterAll ((separator between t.text u.text).map codeChar)).operand
        = ((r.after t).afterAll dropped).operand ∧
      ((r.after t).afterAll ((separator between t.text u.text).map codeChar)).after u
        = ((r.after t).afterAll dropped).after u := by
  by_cases hd : dropped = []
  · rw [hd, hnil.mpr hd, separator, if_neg List.not_mem_nil, if_neg fun h => h.1 rfl]
    exact ⟨rfl, rfl⟩
  rw [afterAll_dropped hd hdropped hascii]
  by_cases hsep : separator between t.text u.text = []
  · rw [hsep, List.map_nil, Reading.afterAll_nil]
    refine ⟨rfl, ?_⟩
    have hgrow := not_growTogether_of_separator (fun h => hd (hnil.mp h)) hsep
    have hlast := List.getLast?_eq_some_getLast ht.text_ne_nil
    have hfirst := List.head?_eq_some_head hu.text_ne_nil
    rw [textsGrowTogether_eq hlast hfirst, growTogether] at hgrow
    have hoperand : (r.after t).operand = (⟨(r.after t).operand, []⟩ : Reading).operand := rfl
    cases hword : isWordChar (u.text.head hu.text_ne_nil) with
    | false => exact after_congr hoperand hfirst hword
    | true =>
      have hlastword : isWordChar (t.text.getLast ht.text_ne_nil) = false := by
        cases hl : isWordChar (t.text.getLast ht.text_ne_nil) with
        | false => rfl
        | true =>
          rw [hl, hword] at hgrow
          cases hgrow
      have heta : r.after t = ⟨(r.after t).operand, []⟩ := by
        rw [← word_after ht hlast hlastword r]
      rw [← heta]
  · rw [afterAll_separator hsep]
    exact ⟨rfl, rfl⟩

theorem legibleBehind_iff (condenser : Condenser) {source : List Char} (before : List Char)
    {t : Segment} (hstart : t.start = Text.byteLength before) {operand : Bool}
    {as : List Lexeme} (hsource : source = before ++ t.text ++ script as)
    (hfits : Fits operand t.lexeme (script as)) (r : Reading) (hreads : Reads (r.after t.lexeme) as)
    (hascii : ∀ c, codeChar c ∈ as → Text.isBlank c = true → Text.isAsciiBlank c = true)
    {us : List Segment} (hus : condenser.tokens (locate t.stop as) = us) :
    LegibleBehind source (r.after t.lexeme) t us ↔ ApartBehind source t us := by
  induction us generalizing before t operand as r with
  | nil => exact Iff.rfl
  | cons u us ih =>
    obtain ⟨dropped, rest, rfl, hdropped, htoken, hustart, hsource', hbetween, hus⟩ :=
      exists_next_token condenser before hstart hsource hreads hus
    obtain ⟨hufits, hrest⟩ := reads_cons_iff.mp hreads.append_right
    have hascii' : ∀ c, codeChar c ∈ dropped → Text.isBlank c = true → Text.isAsciiBlank c = true :=
      fun c hc => hascii c (List.mem_append_left _ hc)
    have hnil : between source t u = [] ↔ dropped = [] := by
      rw [hbetween]
      exact ⟨hreads.eq_nil_of_append, fun h => by rw [h]; rfl⟩
    obtain ⟨hoperand, hafter⟩ := state_of_separator hfits hufits hdropped hascii' hnil r
    have htail := ih (before ++ t.text ++ script dropped) hustart hsource' hufits _ hrest
      (fun c hc => hascii c (List.mem_append_right _ (.tail _ hc))) hus
    rw [← hafter] at htail
    constructor
    · rintro ⟨hapart, -, hbehind⟩
      exact ⟨hapart, htail.mp hbehind⟩
    · rintro ⟨hapart, hbehind⟩
      refine ⟨hapart, ?_, htail.mpr hbehind⟩
      have htaken := hufits.takenAsWas
      rw [← hoperand] at htaken
      exact htaken

/-- Where all blanks in the code are of ASCII, tokens are legible as soon as they are apart. -/
theorem legible_iff_of_asciiBlanks (condenser : Condenser) {as : List Lexeme}
    (h : Reads .start as)
    (hascii : ∀ c, codeChar c ∈ as → Text.isBlank c = true → Text.isAsciiBlank c = true) :
    Legible (script as) (condenser.tokens (locate 0 as))
      ↔ AllApart (script as) (condenser.tokens (locate 0 as)) := by
  cases hts : condenser.tokens (locate 0 as) with
  | nil => exact Iff.rfl
  | cons t ts =>
    obtain ⟨dropped, rest, rfl, hdropped, -, hstart, hsource, hts⟩ :=
      exists_start_token condenser h hts
    have hbegin : Reading.start.afterAll dropped = .start := by
      by_cases hd : dropped = []
      · rw [hd]
        rfl
      · exact afterAll_dropped hd hdropped (fun c hc => hascii c (List.mem_append_left _ hc)) _
    obtain ⟨hfits, hrest⟩ := reads_cons_iff.mp h.append_right
    rw [hbegin] at hfits hrest
    have hbehind := legibleBehind_iff condenser (script dropped) hstart hsource hfits .start hrest
      (fun c hc => hascii c (List.mem_append_right _ (.tail _ hc))) hts
    exact ⟨fun hl => hbehind.mp hl.2, fun ha => ⟨hfits.takenAsWas, hbehind.mpr ha⟩⟩

end LocaleScript.Script
