import LocaleScript.Script.Lexeme
import Mathlib.Data.List.Basic

/-!
# Where regions begin and end

The first character of a region tells its kind, but for a slash, where the next character counts too
and the question whether an operand may begin (`opened_slash`).

Cutting a region off looks no further than one character past its end: what was cut off is cut off
again from any other text in which the region may end there (`Kind.cut_tail`). Strings, templates
and block comments look at nothing behind their end; a regular expression sees that no further flag
follows, and a line comment that its line ends.

A text up to the end of a region is made up character by character, in the ways in which a cut goes
on (`IsStringRest`, `IsTemplateRest`, `IsRegexRest`, `IsBlockRest`): what is cut off is such a text,
and such a text is cut off from whatever it stands in front of. All else about it is an induction on
how it is made up.
-/

namespace LocaleScript.Script

/-! ## How regions begin -/

theorem opened_slash (operand : Bool) (cs : List Char) :
    Kind.opened operand '/' cs =
      if cs.head? = some '/' then .lineComment
      else if cs.head? = some '*' then .blockComment
      else if operand then .regex else .code := by
  unfold Kind.opened
  rw [if_neg (by decide), if_neg (by decide), if_pos rfl]
  split
  · next h => rw [if_pos h]
  · next h => rw [if_neg (by rw [h]; decide), if_pos h]
  · next hs hb => rw [if_neg fun h => hs h, if_neg fun h => hb h]

/-- Only a slash looks at what stands around it. -/
theorem opened_of_ne_slash {c : Char} (hc : c ≠ '/') (operand operand' : Bool)
    (cs cs' : List Char) : Kind.opened operand c cs = Kind.opened operand' c cs' := by
  unfold Kind.opened
  simp only [hc, reduceIte]

/-- A character of code but no slash. -/
theorem opened_eq_code {c : Char} (hc : c ≠ '"' ∧ c ≠ '\'' ∧ c ≠ '\x60' ∧ c ≠ '/') (operand : Bool)
    (cs : List Char) : Kind.opened operand c cs = .code := by
  obtain ⟨h₁, h₂, h₃, h₄⟩ := hc
  unfold Kind.opened
  simp only [h₁, h₂, h₃, h₄, or_self, reduceIte]

/-- What a region of a kind begins with; of code it is said here what a slash in it is not. -/
def Kind.BeginsWith (operand : Bool) (c : Char) (cs : List Char) : Kind → Prop
  | .string => c = '"' ∨ c = '\''
  | .template => c = '\x60'
  | .regex => c = '/' ∧ operand = true
  | .lineComment => c = '/' ∧ cs.head? = some '/'
  | .blockComment => c = '/' ∧ cs.head? = some '*'
  | .code => c = '/' → cs.head? ≠ some '/' ∧ cs.head? ≠ some '*' ∧ operand = false

theorem beginsWith_of_opened {operand : Bool} {c : Char} {cs : List Char} {kind : Kind}
    (h : Kind.opened operand c cs = kind) : kind.BeginsWith operand c cs := by
  rw [← h]
  by_cases hslash : c = '/'
  · rw [hslash, opened_slash]
    by_cases hline : cs.head? = some '/'
    · rw [if_pos hline]
      exact ⟨rfl, hline⟩
    · by_cases hblock : cs.head? = some '*'
      · rw [if_neg hline, if_pos hblock]
        exact ⟨rfl, hblock⟩
      · rw [if_neg hline, if_neg hblock]
        cases operand with
        | true => exact ⟨rfl, rfl⟩
        | false => exact fun _ => ⟨hline, hblock, rfl⟩
  · by_cases hquote : c = '"' ∨ c = '\''
    · rw [Kind.opened, if_pos hquote]
      exact hquote
    · by_cases htemplate : c = '\x60'
      · rw [Kind.opened, if_neg hquote, if_pos htemplate]
        exact htemplate
      · rw [Kind.opened, if_neg hquote, if_neg htemplate, if_neg hslash]
        exact fun h => absurd h hslash

/-! ## Texts up to the end of a region -/

/-- What follows the opening quote of a string, up to the closing one. -/
inductive IsStringRest (quote : Char) : List Char → Prop where
  | close (hb : quote ≠ '\\') (hn : quote ≠ '\n') : IsStringRest quote [quote]
  | escape (d : Char) {t : List Char} (rest : IsStringRest quote t) :
      IsStringRest quote ('\\' :: d :: t)
  | char {c : Char} {t : List Char} (hb : c ≠ '\\') (hn : c ≠ '\n') (hq : c ≠ quote)
      (rest : IsStringRest quote t) : IsStringRest quote (c :: t)

/-- What follows in a template literal, up to its closing backquote, where braces are open. -/
inductive IsTemplateRest : Nat → List Char → Prop where
  | close : IsTemplateRest 0 ['\x60']
  | escape {depth : Nat} (d : Char) {t : List Char} (rest : IsTemplateRest depth t) :
      IsTemplateRest depth ('\\' :: d :: t)
  | opening {t : List Char} (rest : IsTemplateRest 1 t) : IsTemplateRest 0 ('$' :: '{' :: t)
  | outside {c : Char} {t : List Char} (hb : c ≠ '\\') (hq : c ≠ '\x60')
      (ho : ¬(c = '$' ∧ t.head? = some '{')) (rest : IsTemplateRest 0 t) : IsTemplateRest 0 (c :: t)
  | inside {depth : Nat} (hd : depth ≠ 0) {c : Char} (hb : c ≠ '\\') {t : List Char}
      (rest : IsTemplateRest
        (if c = '{' then depth + 1 else if c = '}' then depth - 1 else depth) t) :
      IsTemplateRest depth (c :: t)

/-- What follows in a regular expression, up to its last flag, in a character class or not. -/
inductive IsRegexRest : Bool → List Char → Prop where
  | close {flags : List Char} (hflags : ∀ c ∈ flags, c.isAlpha = true) :
      IsRegexRest false ('/' :: flags)
  | escape {inClass : Bool} {d : Char} (hd : d ≠ '\n') {t : List Char}
      (rest : IsRegexRest inClass t) : IsRegexRest inClass ('\\' :: d :: t)
  | char {inClass : Bool} {c : Char} {t : List Char} (hb : c ≠ '\\') (hn : c ≠ '\n')
      (hs : ¬(c = '/' ∧ inClass = false))
      (rest : IsRegexRest (if c = '[' then true else if c = ']' then false else inClass) t) :
      IsRegexRest inClass (c :: t)

/-- What follows the opening star of a block comment, up to the closing slash. -/
inductive IsBlockRest : List Char → Prop where
  | close : IsBlockRest ['*', '/']
  | char {c : Char} {t : List Char} (hs : ¬(c = '*' ∧ t.head? = some '/')) (rest : IsBlockRest t) :
      IsBlockRest (c :: t)

theorem IsTemplateRest.ne_nil {depth : Nat} {t : List Char} (h : IsTemplateRest depth t) :
    t ≠ [] := by
  rintro rfl
  cases h

theorem IsBlockRest.ne_nil {t : List Char} (h : IsBlockRest t) : t ≠ [] := by
  rintro rfl
  cases h

/-! ## What is cut off -/

/-- Text put behind a beginning that is not empty does not change the first character. -/
theorem head?_append_eq_of_append_eq {t r cs : List Char} (ht : t ≠ []) (h : t ++ r = cs)
    (r' : List Char) : (t ++ r').head? = cs.head? := by
  cases t with
  | nil => exact absurd rfl ht
  | cons c t => rw [← h, List.cons_append, List.cons_append, List.head?_cons, List.head?_cons]

theorem eq_false_of_head?_dropWhile {p : Char → Bool} {cs : List Char} {c : Char}
    (h : (cs.dropWhile p).head? = some c) : p c = false := by
  have hnot := List.head?_dropWhile_not p cs
  rwa [h] at hnot

theorem isStringRest_of_cut {quote : Char} {cs t r : List Char}
    (h : cutString quote cs = some (t, r)) : IsStringRest quote t := by
  induction cs using cutString_induction quote generalizing t with
  | nil => cases h
  | lone => cases h
  | escape d ds ih =>
    rw [cutString_escape] at h
    obtain ⟨t', rfl, h'⟩ := keep_keep_eq_some h
    exact .escape d (ih h')
  | newline cs =>
    rw [cutString_newline] at h
    cases h
  | close cs hb hn =>
    rw [cutString_close hb hn] at h
    obtain ⟨rfl, rfl⟩ := Prod.mk.inj (Option.some.inj h)
    exact .close hb hn
  | char c cs hb hn hq ih =>
    rw [cutString_cons hb hn hq] at h
    obtain ⟨t₁, rfl, h₁⟩ := keep_eq_some h
    exact .char hb hn hq (ih h₁)

theorem isTemplateRest_of_cut {depth : Nat} {cs t r : List Char}
    (h : cutTemplate depth cs = some (t, r)) : IsTemplateRest depth t := by
  induction depth, cs using cutTemplate_induction generalizing t with
  | nil depth => cases h
  | lone depth => cases h
  | escape depth d ds ih =>
    rw [cutTemplate_escape] at h
    obtain ⟨t', rfl, h'⟩ := keep_keep_eq_some h
    exact .escape d (ih h')
  | close cs =>
    rw [cutTemplate_close] at h
    obtain ⟨rfl, rfl⟩ := Prod.mk.inj (Option.some.inj h)
    exact .close
  | opening ds ih =>
    rw [cutTemplate_open] at h
    obtain ⟨t', rfl, h'⟩ := keep_keep_eq_some h
    exact .opening (ih h')
  | outside c cs hb hq ho ih =>
    rw [cutTemplate_outside hb hq ho] at h
    obtain ⟨t₁, rfl, h₁⟩ := keep_eq_some h
    have hrest := ih h₁
    -- What was taken behind the character begins as the text behind it does.
    have hhead : t₁.head? = cs.head? := by
      rw [← cutTemplate_append h₁, List.head?_append_of_ne_nil _ hrest.ne_nil]
    exact .outside hb hq (by rwa [hhead]) hrest
  | inside depth c cs hd hb ih =>
    rw [cutTemplate_inside hd hb] at h
    obtain ⟨t₁, rfl, h₁⟩ := keep_eq_some h
    exact .inside hd hb (ih h₁)

/-- Flags are letters, and no letter follows them. -/
theorem isRegexRest_of_cut {inClass : Bool} {cs t r : List Char}
    (h : cutRegex inClass cs = some (t, r)) :
    IsRegexRest inClass t ∧ ∀ d, r.head? = some d → d.isAlpha = false := by
  induction inClass, cs using cutRegex_induction generalizing t with
  | nil inClass => cases h
  | lone inClass => cases h
  | escape inClass d ds hd ih =>
    rw [cutRegex_escape hd] at h
    obtain ⟨t', rfl, h'⟩ := keep_keep_eq_some h
    exact (ih h').imp_left (.escape hd)
  | escapeNewline inClass ds =>
    rw [cutRegex_escape_newline] at h
    cases h
  | newline inClass cs =>
    rw [cutRegex_newline] at h
    cases h
  | close cs =>
    rw [cutRegex_close] at h
    obtain ⟨rfl, rfl⟩ := Prod.mk.inj (Option.some.inj h)
    exact ⟨.close fun c hc => List.all_eq_true.mp List.all_takeWhile c hc,
      fun d hd => eq_false_of_head?_dropWhile hd⟩
  | char inClass c cs hb hn hs ih =>
    rw [cutRegex_cons hb hn hs] at h
    obtain ⟨t₁, rfl, h₁⟩ := keep_eq_some h
    exact (ih h₁).imp_left (.char hb hn hs)

theorem isBlockRest_of_cut {cs t r : List Char} (h : cutBlock cs = some (t, r)) :
    IsBlockRest t := by
  induction cs using cutBlock_induction generalizing t with
  | nil => cases h
  | close ds =>
    obtain ⟨rfl, rfl⟩ := Prod.mk.inj (Option.some.inj h)
    exact .close
  | char c cs hs ih =>
    rw [cutBlock_cons hs] at h
    obtain ⟨t₁, rfl, h₁⟩ := keep_eq_some h
    have hrest := ih h₁
    have hhead : t₁.head? = cs.head? := by
      rw [← cutBlock_append h₁, List.head?_append_of_ne_nil _ hrest.ne_nil]
    exact .char (by rwa [hhead]) hrest

/-! ## Such a text is cut off wherever it stands -/

theorem IsStringRest.cut {quote : Char} {t : List Char} (h : IsStringRest quote t) (r : List Char) :
    cutString quote (t ++ r) = some (t, r) := by
  induction h with
  | close hb hn => exact cutString_close hb hn r
  | escape d _ ih =>
    rw [List.cons_append, List.cons_append, cutString_escape, ih, keep_some, keep_some]
  | char hb hn hq _ ih => rw [List.cons_append, cutString_cons hb hn hq, ih, keep_some]

theorem IsTemplateRest.cut {depth : Nat} {t : List Char} (h : IsTemplateRest depth t)
    (r : List Char) : cutTemplate depth (t ++ r) = some (t, r) := by
  induction h with
  | close => exact cutTemplate_close r
  | escape d _ ih =>
    rw [List.cons_append, List.cons_append, cutTemplate_escape, ih, keep_some, keep_some]
  | opening _ ih =>
    rw [List.cons_append, List.cons_append, cutTemplate_open, ih, keep_some, keep_some]
  | @outside c t hb hq ho rest ih =>
    have ho' : ¬(c = '$' ∧ (t ++ r).head? = some '{') := by
      rwa [List.head?_append_of_ne_nil _ rest.ne_nil]
    rw [List.cons_append, cutTemplate_outside hb hq ho', ih, keep_some]
  | inside hd hb _ ih => rw [List.cons_append, cutTemplate_inside hd hb, ih, keep_some]

/-- Flags are letters, so a regular expression ends where no letter follows. -/
theorem IsRegexRest.cut {inClass : Bool} {t : List Char} (h : IsRegexRest inClass t) {r : List Char}
    (hr : ∀ d, r.head? = some d → d.isAlpha = false) :
    cutRegex inClass (t ++ r) = some (t, r) := by
  induction h with
  | close hflags =>
    rw [List.cons_append, cutRegex_close, List.takeWhile_append_of_pos hflags,
      List.dropWhile_append_of_pos hflags]
    cases r with
    | nil => simp
    | cons d ds => simp [hr d rfl]
  | escape hd _ ih =>
    rw [List.cons_append, List.cons_append, cutRegex_escape hd, ih, keep_some, keep_some]
  | char hb hn hs _ ih => rw [List.cons_append, cutRegex_cons hb hn hs, ih, keep_some]

theorem IsBlockRest.cut {t : List Char} (h : IsBlockRest t) (r : List Char) :
    cutBlock (t ++ r) = some (t, r) := by
  induction h with
  | close => exact cutBlock_close r
  | @char c t hs rest ih =>
    have hs' : ¬(c = '*' ∧ (t ++ r).head? = some '/') := by
      rwa [List.head?_append_of_ne_nil _ rest.ne_nil]
    rw [List.cons_append, cutBlock_cons hs', ih, keep_some]

/-- What follows the opening star is a text up to the closing slash if that is where it is cut. -/
theorem isBlockRest_iff {t : List Char} : IsBlockRest t ↔ cutBlock t = some (t, []) := by
  constructor
  · intro h
    have hcut := h.cut []
    rwa [List.append_nil] at hcut
  · exact isBlockRest_of_cut

instance (t : List Char) : Decidable (IsBlockRest t) :=
  decidable_of_iff _ isBlockRest_iff.symm

/-- Characters in front of a comment's end that do not end it, nor do so with what follows. -/
theorem cutBlock_append_unended {cs rest : List Char} (h : ¬['*', '/'] <:+: cs)
    (hseam : cs.getLast? = some '*' → rest.head? ≠ some '/') :
    cutBlock (cs ++ rest) = (cutBlock rest).map fun p => (cs ++ p.1, p.2) := by
  induction cs with
  | nil => simp
  | cons c cs ih =>
    have hcut : ¬(c = '*' ∧ (cs ++ rest).head? = some '/') := by
      rintro ⟨rfl, hhead⟩
      cases cs with
      | nil => exact hseam rfl hhead
      | cons d cs =>
        obtain rfl := Option.some.inj hhead
        exact h ⟨[], cs, rfl⟩
    have hrest := ih (fun hends => h (hends.trans (List.suffix_cons c cs).isInfix)) fun hlast =>
      hseam (by rw [List.getLast?_cons, hlast, Option.getD_some])
    rw [List.cons_append, cutBlock_cons hcut, hrest, keep, Option.map_map]
    rfl

/-! ## The last character of a region -/

theorem getLast?_cons_of_getLast? {c d : Char} {t : List Char} (h : t.getLast? = some d) :
    (c :: t).getLast? = some d := by
  rw [List.getLast?_cons, h, Option.getD_some]

theorem ne_nil_of_getLast? {c : Char} {t : List Char} (h : t.getLast? = some c) : t ≠ [] := by
  rintro rfl
  cases h

theorem IsStringRest.getLast? {quote : Char} {t : List Char} (h : IsStringRest quote t) :
    t.getLast? = some quote := by
  induction h with
  | close => rfl
  | escape d _ ih => exact getLast?_cons_of_getLast? (getLast?_cons_of_getLast? ih)
  | char _ _ _ _ ih => exact getLast?_cons_of_getLast? ih

theorem IsTemplateRest.getLast? {depth : Nat} {t : List Char} (h : IsTemplateRest depth t) :
    t.getLast? = some '\x60' := by
  induction h with
  | close => rfl
  | escape d _ ih => exact getLast?_cons_of_getLast? (getLast?_cons_of_getLast? ih)
  | opening _ ih => exact getLast?_cons_of_getLast? (getLast?_cons_of_getLast? ih)
  | outside _ _ _ _ ih => exact getLast?_cons_of_getLast? ih
  | inside _ _ _ ih => exact getLast?_cons_of_getLast? ih

/-- A regular expression ends in its closing slash or in a flag. -/
theorem IsRegexRest.getLast? {inClass : Bool} {t : List Char} (h : IsRegexRest inClass t) :
    ∃ c, t.getLast? = some c ∧ (c = '/' ∨ c.isAlpha = true) := by
  induction h with
  | @close flags hflags =>
    rw [List.getLast?_cons]
    cases hlast : flags.getLast? with
    | none => exact ⟨_, rfl, .inl rfl⟩
    | some c => exact ⟨c, rfl, .inr (hflags c (List.mem_of_getLast? hlast))⟩
  | escape _ _ ih =>
    obtain ⟨c, hlast, hc⟩ := ih
    exact ⟨c, getLast?_cons_of_getLast? (getLast?_cons_of_getLast? hlast), hc⟩
  | char _ _ _ _ ih =>
    obtain ⟨c, hlast, hc⟩ := ih
    exact ⟨c, getLast?_cons_of_getLast? hlast, hc⟩

theorem IsBlockRest.getLast? {t : List Char} (h : IsBlockRest t) : t.getLast? = some '/' := by
  induction h with
  | close => rfl
  | char _ _ ih => exact getLast?_cons_of_getLast? ih

/-! ## Regions of any kind -/

/-- A region of this kind may end where this character is next. -/
def Kind.endsBefore : Kind → Option Char → Bool
  | .regex, some c => !c.isAlpha
  | .lineComment, some c => c == '\n'
  | _, _ => true

theorem Kind.endsBefore_of_cut {kind : Kind} {c : Char} {cs t r : List Char}
    (h : kind.cut c cs = some (t, r)) : kind.endsBefore r.head? = true := by
  cases hr : r.head? with
  | none => cases kind <;> rfl
  | some d =>
    cases kind with
    | regex => simp [Kind.endsBefore, (isRegexRest_of_cut h).2 d hr]
    | lineComment =>
      obtain ⟨rfl, rfl⟩ := Prod.mk.inj (Option.some.inj h)
      simpa [Kind.endsBefore] using eq_false_of_head?_dropWhile hr
    | _ => rfl

/-- What was cut off is cut off again from any text in which the region may end there. -/
theorem Kind.cut_tail {kind : Kind} (hk : kind ≠ .code) {c : Char} {cs t r : List Char}
    (h : kind.cut c cs = some (t, r)) {r' : List Char} (hr : kind.endsBefore r'.head? = true) :
    kind.cut c (t ++ r') = some (t, r') := by
  cases kind with
  | code => exact absurd rfl hk
  | string => exact (isStringRest_of_cut h).cut r'
  | template => exact (isTemplateRest_of_cut h).cut r'
  | regex =>
    refine (isRegexRest_of_cut h).1.cut fun d hd => ?_
    rw [hd] at hr
    simpa [Kind.endsBefore] using hr
  | lineComment =>
    obtain ⟨rfl, rfl⟩ := Prod.mk.inj (Option.some.inj h)
    have hall : ∀ c ∈ cs.takeWhile (· != '\n'), (c != '\n') = true :=
      fun c hc => List.all_eq_true.mp List.all_takeWhile c hc
    simp only [Kind.cut]
    rw [List.takeWhile_append_of_pos hall, List.dropWhile_append_of_pos hall]
    cases r' with
    | nil => simp
    | cons d ds =>
      have hd : d = '\n' := by simpa [Kind.endsBefore] using hr
      simp [hd]
  | blockComment =>
    cases cs with
    | nil => cases h
    | cons star ds =>
      obtain ⟨t₁, rfl, h₁⟩ := keep_eq_some h
      rw [List.cons_append, Kind.cut, (isBlockRest_of_cut h₁).cut r', keep_some]

/-- What is cut off for a literal or a block comment does not end in a blank. -/
theorem Kind.getLast?_of_cut {kind : Kind} {c : Char} {cs t r : List Char}
    (hcode : kind ≠ .code) (hline : kind ≠ .lineComment)
    (hquote : kind = .string → Text.isBlank c = false) (h : kind.cut c cs = some (t, r)) :
    ∃ d, t.getLast? = some d ∧ Text.isBlank d = false := by
  cases kind with
  | code => exact absurd rfl hcode
  | lineComment => exact absurd rfl hline
  | string => exact ⟨c, (isStringRest_of_cut h).getLast?, hquote rfl⟩
  | template => exact ⟨'\x60', (isTemplateRest_of_cut h).getLast?, by decide⟩
  | regex =>
    obtain ⟨d, hlast, hd⟩ := (isRegexRest_of_cut h).1.getLast?
    refine ⟨d, hlast, ?_⟩
    rcases hd with rfl | hd
    · decide
    · exact Text.isBlank_of_isAlpha hd
  | blockComment =>
    cases cs with
    | nil => cases h
    | cons star ds =>
      obtain ⟨t₁, rfl, h₁⟩ := keep_eq_some h
      exact ⟨'/', getLast?_cons_of_getLast? (isBlockRest_of_cut h₁).getLast?, by decide⟩

end LocaleScript.Script
