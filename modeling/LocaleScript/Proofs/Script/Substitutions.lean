import LocaleScript.Proofs.Script.Balance
import LocaleScript.Proofs.Script.SelfDelimiting

/-!
# Template literals with substitutions

A substitution holds an expression, in which there may be strings and template literals, and these
may have substitutions of their own (`IsTemplateText`, `IsExpression`). The scanner does not look
for literals in a substitution. It counts braces, in quotes or not, and so it finds the closing
brace if the braces of all that is quoted are balanced (`IsTemplateText.cut`): a quoted text then
leaves the depth as it was, and inside of a substitution quotes mean nothing (`cutTemplate_quoted`).

Where they are not balanced, the literal ends at the first backquote with no brace open in front of
it. Reading character by character says which one that is (`cutTemplate_eq_cut`,
`TemplateState.cut_eq_some_iff`).
-/

namespace LocaleScript.Script

/-! ## The grammar -/

/-- What stands between the quotes of a string. -/
inductive IsStringText (quote : Char) : List Char → Prop where
  | nil : IsStringText quote []
  | char {c : Char} {cs : List Char} (hc : c ≠ quote ∧ c ≠ '\\' ∧ c ≠ '\n')
      (rest : IsStringText quote cs) : IsStringText quote (c :: cs)
  | escape (c : Char) {cs : List Char} (rest : IsStringText quote cs) :
      IsStringText quote ('\\' :: c :: cs)

/-- The characters an expression has outside of strings, template literals and braces. -/
def isPlain (c : Char) : Bool :=
  !(['"', '\'', '\x60', '{', '}', '\\', '/'].contains c)

mutual

/-- What stands between the backquotes of a template literal, if all that is quoted in its
substitutions is as `quoted` says. -/
inductive IsTemplateText (quoted : List Char → Prop) : List Char → Prop where
  | nil : IsTemplateText quoted []
  | char {c : Char} {cs : List Char} (hc : c ≠ '\x60' ∧ c ≠ '\\')
      (hopens : ¬(c = '$' ∧ cs.head? = some '{')) (rest : IsTemplateText quoted cs) :
      IsTemplateText quoted (c :: cs)
  | escape (c : Char) {cs : List Char} (rest : IsTemplateText quoted cs) :
      IsTemplateText quoted ('\\' :: c :: cs)
  | substitution {e cs : List Char} (inner : IsExpression quoted e)
      (rest : IsTemplateText quoted cs) : IsTemplateText quoted ('$' :: '{' :: (e ++ '}' :: cs))

/-- What stands between the braces of a substitution. -/
inductive IsExpression (quoted : List Char → Prop) : List Char → Prop where
  | nil : IsExpression quoted []
  | char {c : Char} {cs : List Char} (hc : isPlain c = true) (rest : IsExpression quoted cs) :
      IsExpression quoted (c :: cs)
  | group {e cs : List Char} (inner : IsExpression quoted e) (rest : IsExpression quoted cs) :
      IsExpression quoted ('{' :: (e ++ '}' :: cs))
  | string {quote : Char} {s cs : List Char} (hquote : quote = '"' ∨ quote = '\'')
      (inner : IsStringText quote s) (hs : quoted s) (rest : IsExpression quoted cs) :
      IsExpression quoted (quote :: (s ++ quote :: cs))
  | template {t cs : List Char} (inner : IsTemplateText quoted t) (ht : quoted t)
      (rest : IsExpression quoted cs) : IsExpression quoted ('\x60' :: (t ++ '\x60' :: cs))

end

/-- The text does not end in the middle of an escape. -/
inductive EndsUnescaped : List Char → Prop where
  | nil : EndsUnescaped []
  | char {c : Char} {cs : List Char} (hc : c ≠ '\\') (rest : EndsUnescaped cs) :
      EndsUnescaped (c :: cs)
  | escape (c : Char) {cs : List Char} (rest : EndsUnescaped cs) : EndsUnescaped ('\\' :: c :: cs)

theorem EndsUnescaped.append {as bs : List Char} (ha : EndsUnescaped as) (hb : EndsUnescaped bs) :
    EndsUnescaped (as ++ bs) := by
  induction ha with
  | nil => exact hb
  | char hc _ ih => exact .char hc ih
  | escape c _ ih => exact .escape c ih

/-- A text between two characters that protect nothing. -/
theorem EndsUnescaped.between {opener closer : Char} (hopener : opener ≠ '\\')
    (hcloser : closer ≠ '\\')
    {as bs : List Char} (ha : EndsUnescaped as) (hb : EndsUnescaped bs) :
    EndsUnescaped (opener :: (as ++ closer :: bs)) :=
  .char hopener (ha.append (.char hcloser hb))

theorem IsStringText.endsUnescaped {quote : Char} {s : List Char} (h : IsStringText quote s) :
    EndsUnescaped s := by
  induction h with
  | nil => exact .nil
  | char hc _ ih => exact .char hc.2.1 ih
  | escape c _ ih => exact .escape c ih

theorem ne_of_isPlain {c : Char} (h : isPlain c = true) : c ≠ '\\' ∧ c ≠ '{' ∧ c ≠ '}' := by
  refine ⟨?_, ?_, ?_⟩ <;> (rintro rfl; cases h)

theorem ne_of_isQuote {quote : Char} (h : quote = '"' ∨ quote = '\'') :
    quote ≠ '\\' ∧ quote ≠ '{' ∧ quote ≠ '}' := by
  rcases h with rfl | rfl <;> decide

mutual

theorem IsTemplateText.endsUnescaped {quoted : List Char → Prop} {t : List Char} :
    IsTemplateText quoted t → EndsUnescaped t
  | .nil => .nil
  | .char hc _ rest => .char hc.2 rest.endsUnescaped
  | .escape c rest => .escape c rest.endsUnescaped
  | .substitution inner rest =>
    .char (by decide) (.between (by decide) (by decide) inner.endsUnescaped rest.endsUnescaped)

theorem IsExpression.endsUnescaped {quoted : List Char → Prop} {e : List Char} :
    IsExpression quoted e → EndsUnescaped e
  | .nil => .nil
  | .char hc rest => .char (ne_of_isPlain hc).1 rest.endsUnescaped
  | .group inner rest => .between (by decide) (by decide) inner.endsUnescaped rest.endsUnescaped
  | .string hquote inner _ rest =>
    have hne := (ne_of_isQuote hquote).1
    .between hne hne inner.endsUnescaped rest.endsUnescaped
  | .template inner _ rest =>
    .between (by decide) (by decide) inner.endsUnescaped rest.endsUnescaped

end

/-! ## Braces inside of a substitution -/

/-- The braces of a text that no backslash protects. -/
def braces : List Char → List Char
  | [] => []
  | c :: cs =>
    if c = '\\' then
      match cs with
      | [] => []
      | _ :: ds => braces ds
    else if c = '{' ∨ c = '}' then c :: braces cs
    else braces cs

theorem braces_escape (c : Char) (cs : List Char) : braces ('\\' :: c :: cs) = braces cs := by
  rw [braces.eq_def]
  rfl

theorem braces_cons {c : Char} (hc : c ≠ '\\') (cs : List Char) :
    braces (c :: cs) = if c = '{' ∨ c = '}' then c :: braces cs else braces cs := by
  rw [braces.eq_def]
  simp only [hc, reduceIte]

theorem mem_bracketPairs_brace : ('{', '}') ∈ bracketPairs := by decide

/-- Inside of a substitution a text changes the depth by its braces, as long as they do not close
the substitution. -/
theorem cutTemplate_of_nest {l : List Char} (hl : EndsUnescaped l) {n m : Nat}
    (h : nest (List.replicate n '{') (braces l) = some (List.replicate m '{')) (depth : Nat)
    (rest : List Char) :
    cutTemplate (depth + 1 + n) (l ++ rest)
      = keepAll l (cutTemplate (depth + 1 + m) rest) := by
  -- The braces that the text itself has opened are the stack; `depth + 1` more lie below them.
  induction hl generalizing n with
  | nil =>
    have hnm : n = m := by
      have hlength := congrArg List.length (Option.some.inj h)
      simpa only [List.length_replicate] using hlength
    rw [hnm, keepAll_nil]
    rfl
  | @char c cs hc _ ih =>
    rw [braces_cons hc] at h
    rw [List.cons_append, cutTemplate_inside (by omega) hc, keepAll_cons]
    by_cases hopen : c = '{'
    · subst hopen
      rw [if_pos (.inl rfl), nest_opener rfl, ← List.replicate_succ] at h
      rw [if_pos rfl, Nat.add_assoc, ih h]
    · by_cases hclose : c = '}'
      · subst hclose
        rw [if_pos (.inr rfl)] at h
        cases n with
        | zero =>
          rw [List.replicate_zero, nest_closer_nil mem_bracketPairs_brace] at h
          cases h
        | succ n =>
          rw [List.replicate_succ, nest_closer mem_bracketPairs_brace] at h
          rw [if_neg hopen, if_pos rfl, ← Nat.add_assoc, Nat.add_sub_cancel, ih h]
      · rw [if_neg (by simp only [hopen, hclose, or_self, not_false_eq_true])] at h
        rw [if_neg hopen, if_neg hclose, ih h]
  | escape c _ ih =>
    rw [braces_escape] at h
    rw [List.cons_append, List.cons_append, cutTemplate_escape, ih h, keepAll_cons, keepAll_cons]

/-- The braces of the text are balanced, but for those behind a backslash. -/
def HasBalancedBraces (text : List Char) : Prop :=
  Balanced (braces text)

/-- A character that is no brace and protects nothing leaves the depth of a substitution. -/
theorem cutTemplate_noBrace {c : Char} (hb : c ≠ '\\') (hbrace : c ≠ '{' ∧ c ≠ '}') (depth : Nat)
    (cs : List Char) : cutTemplate (depth + 1) (c :: cs) = keep c (cutTemplate (depth + 1) cs) := by
  rw [cutTemplate_inside (by omega) hb, if_neg hbrace.1, if_neg hbrace.2]

/-- In a substitution a quoted text with balanced braces leaves the depth, whatever quotes it
has. -/
theorem cutTemplate_quoted {quote : Char} (hb : quote ≠ '\\') (hbrace : quote ≠ '{' ∧ quote ≠ '}')
    {text : List Char} (htext : EndsUnescaped text) (hbalanced : HasBalancedBraces text)
    {depth : Nat} {cs rest : List Char}
    (hcs : cutTemplate (depth + 1) (cs ++ rest) = keepAll cs (cutTemplate (depth + 1) rest)) :
    cutTemplate (depth + 1) (quote :: (text ++ quote :: cs) ++ rest)
      = keepAll (quote :: (text ++ quote :: cs)) (cutTemplate (depth + 1) rest) := by
  have hdepth := hbalanced.nest (List.replicate 0 '{')
  rw [keepAll_cons, keepAll_append, keepAll_cons, ← hcs, ← cutTemplate_noBrace hb hbrace]
  rw [List.cons_append, List.append_assoc, List.cons_append, cutTemplate_noBrace hb hbrace]
  exact congrArg (keep quote) (cutTemplate_of_nest htext hdepth depth (quote :: (cs ++ rest)))

/-! ## Reading a literal to its end -/

/-- An expression leaves the depth of its substitution. -/
theorem IsExpression.cut (depth : Nat) (rest : List Char) {e : List Char} :
    IsExpression HasBalancedBraces e →
      cutTemplate (depth + 1) (e ++ rest) = keepAll e (cutTemplate (depth + 1) rest)
  | .nil => rfl
  | .char hc htail => by
    obtain ⟨hb, hbrace⟩ := ne_of_isPlain hc
    rw [List.cons_append, cutTemplate_noBrace hb hbrace, IsExpression.cut depth rest htail,
      keepAll_cons]
  | .group inner htail => by
    rw [List.cons_append, List.append_assoc, List.cons_append, keepAll_cons, keepAll_append,
      keepAll_cons]
    rw [cutTemplate_inside (by omega) (by decide), if_pos rfl, IsExpression.cut (depth + 1) _ inner]
    rw [cutTemplate_inside (by omega) (by decide), if_neg (by decide), if_pos rfl,
      Nat.add_sub_cancel, IsExpression.cut depth rest htail]
  | .string hquote inner hs htail => by
    obtain ⟨hb, hbrace⟩ := ne_of_isQuote hquote
    exact cutTemplate_quoted hb hbrace inner.endsUnescaped hs (IsExpression.cut depth rest htail)
  | .template inner ht htail =>
    cutTemplate_quoted (by decide) (by decide) inner.endsUnescaped ht
      (IsExpression.cut depth rest htail)

/-- A template literal is cut behind its last backquote. -/
theorem IsTemplateText.cut (rest : List Char) {t : List Char} :
    IsTemplateText HasBalancedBraces t →
      cutTemplate 0 (t ++ '\x60' :: rest) = some (t ++ ['\x60'], rest)
  | .nil => cutTemplate_close rest
  | @IsTemplateText.char _ c cs hc hopens htail => by
    have hopens' : ¬(c = '$' ∧ (cs ++ '\x60' :: rest).head? = some '{') := by
      cases cs with
      | nil => simp
      | cons d cs => exact hopens
    rw [List.cons_append, cutTemplate_outside hc.2 hc.1 hopens', IsTemplateText.cut rest htail]
    rfl
  | .escape c htail => by
    rw [List.cons_append, List.cons_append, cutTemplate_escape, IsTemplateText.cut rest htail]
    rfl
  | .substitution inner htail => by
    rw [List.cons_append, List.cons_append, List.append_assoc, List.cons_append, cutTemplate_open,
      IsExpression.cut 0 _ inner, cutTemplate_inside (by decide) (by decide), if_neg (by decide),
      if_pos rfl, IsTemplateText.cut rest htail, keep_some, keepAll_some]
    simp only [keep_some, List.cons_append, List.append_assoc]

/-! ## The backquote that ends a literal -/

/-- What the text of a template literal means for the next character. -/
structure TemplateState where
  /-- The braces that are open. -/
  depth : Nat
  /-- A backslash protects the next character. -/
  escaped : Bool
  /-- Outside of braces a dollar sign stands before the next character. -/
  dollar : Bool

namespace TemplateState

/-- The beginning of a template literal. -/
def start : TemplateState := ⟨0, false, false⟩

/-- The state behind one more character. -/
def after (s : TemplateState) (c : Char) : TemplateState :=
  if s.escaped then ⟨s.depth, false, false⟩
  else if c = '\\' then ⟨s.depth, true, false⟩
  else if c = '{' then ⟨if s.depth = 0 ∧ s.dollar = false then 0 else s.depth + 1, false, false⟩
  else if c = '}' then ⟨s.depth - 1, false, false⟩
  else ⟨s.depth, false, s.depth == 0 && c == '$'⟩

/-- The state behind a text. -/
def afterAll (s : TemplateState) (text : List Char) : TemplateState :=
  text.foldl after s

/-- A backquote here ends the literal. -/
def isOutside (s : TemplateState) : Bool :=
  s.depth == 0 && !s.escaped

/-- Cuts behind the first backquote that ends the literal. -/
def cut (s : TemplateState) : List Char → Option (List Char × List Char)
  | [] => none
  | c :: cs =>
    if c = '\x60' ∧ s.isOutside = true then some ([c], cs) else keep c ((s.after c).cut cs)

theorem cut_cons {s : TemplateState} {c : Char} (h : ¬(c = '\x60' ∧ s.isOutside = true))
    (cs : List Char) : s.cut (c :: cs) = keep c ((s.after c).cut cs) := by
  rw [cut, if_neg h]

theorem cut_ne_nil (s : TemplateState) (cs rest : List Char) : s.cut cs ≠ some ([], rest) := by
  intro h
  cases cs with
  | nil => cases h
  | cons c cs =>
    rw [cut] at h
    split at h
    · cases h
    · obtain ⟨t, ht, -⟩ := keep_eq_some h
      cases ht

theorem after_outside {c : Char} (hb : c ≠ '\\') :
    after ⟨0, false, false⟩ c = ⟨0, false, c == '$'⟩ := by
  by_cases hopen : c = '{'
  · rw [hopen]
    rfl
  · by_cases hclose : c = '}'
    · rw [hclose]
      rfl
    · simp [after, hb, hopen, hclose]

theorem after_inside {depth : Nat} (hd : depth ≠ 0) {c : Char} (hb : c ≠ '\\') :
    after ⟨depth, false, false⟩ c
      = ⟨if c = '{' then depth + 1 else if c = '}' then depth - 1 else depth, false, false⟩ := by
  by_cases hopen : c = '{'
  · simp [after, hopen, hd]
  · by_cases hclose : c = '}' <;> simp [after, hb, hopen, hclose, hd]

/-- A dollar sign counts in front of a brace only. -/
theorem cut_dollar {cs : List Char} (ho : cs.head? ≠ some '{') (dollar : Bool) :
    cut ⟨0, false, dollar⟩ cs = cut ⟨0, false, false⟩ cs := by
  cases cs with
  | nil => rfl
  | cons d ds =>
    have hd : d ≠ '{' := fun h => ho (congrArg some h)
    have hafter : after ⟨0, false, dollar⟩ d = after ⟨0, false, false⟩ d := by
      simp only [after, hd, reduceIte]
    rw [cut, cut, hafter]
    rfl

end TemplateState

/-- Reading one character at a time comes to the same, where the scanner takes two at a backslash or
a dollar sign. -/
theorem cutTemplate_eq_cut (depth : Nat) (cs : List Char) :
    cutTemplate depth cs = TemplateState.cut ⟨depth, false, false⟩ cs := by
  induction depth, cs using cutTemplate_induction with
  | nil depth => rfl
  | lone depth => rfl
  | escape depth d ds ih =>
    -- Behind the backslash comes a state that lasts for one character, a backquote included.
    have hprotected : ¬(d = '\x60' ∧ TemplateState.isOutside ⟨depth, true, false⟩ = true) := by
      simp [TemplateState.isOutside]
    have hcut : TemplateState.cut ⟨depth, true, false⟩ (d :: ds)
        = keep d (TemplateState.cut ⟨depth, false, false⟩ ds) :=
      TemplateState.cut_cons hprotected ds
    rw [cutTemplate_escape, ih, ← hcut]
    rfl
  | close cs =>
    rw [cutTemplate_close]
    rfl
  | opening ds ih =>
    rw [cutTemplate_open, ih]
    rfl
  | outside c cs hb hq ho ih =>
    rw [cutTemplate_outside hb hq ho, TemplateState.cut_cons fun h => hq h.1,
      TemplateState.after_outside hb, ih]
    -- A dollar sign is in the state, but here no brace follows it.
    by_cases hdollar : c = '$'
    · rw [TemplateState.cut_dollar (fun hhead => ho ⟨hdollar, hhead⟩) (c == '$')]
    · rw [beq_eq_false_iff_ne.mpr hdollar]
  | inside depth c cs hd hb ih =>
    have hinside : ¬(c = '\x60' ∧ TemplateState.isOutside ⟨depth, false, false⟩ = true) := by
      simp [TemplateState.isOutside, hd]
    rw [cutTemplate_inside hd hb, TemplateState.cut_cons hinside,
      TemplateState.after_inside hd hb, ih]

/-- A backquote behind the text ends the literal, and none in it does. -/
def ClosesBehind (s : TemplateState) (text : List Char) : Prop :=
  (s.afterAll text).isOutside = true ∧
    ∀ before, before ++ ['\x60'] <+: text → (s.afterAll before).isOutside = false

theorem closesBehind_nil (s : TemplateState) : ClosesBehind s [] ↔ s.isOutside = true := by
  constructor
  · intro h
    exact h.1
  · intro h
    refine ⟨h, fun before hbefore => ?_⟩
    have hlength := hbefore.length_le
    simp at hlength

theorem closesBehind_cons (s : TemplateState) (c : Char) (cs : List Char) :
    ClosesBehind s (c :: cs) ↔
      ¬(c = '\x60' ∧ s.isOutside = true) ∧ ClosesBehind (s.after c) cs := by
  constructor
  · rintro ⟨hend, hbefore⟩
    refine ⟨?_, hend, fun before h => hbefore (c :: before) (List.cons_prefix_cons.mpr ⟨rfl, h⟩)⟩
    rintro ⟨rfl, hs⟩
    have hfirst : s.isOutside = false := hbefore [] ⟨cs, rfl⟩
    rw [hs] at hfirst
    cases hfirst
  · rintro ⟨hc, hend, hbefore⟩
    refine ⟨hend, fun before h => ?_⟩
    cases before with
    | nil =>
      obtain ⟨rfl, -⟩ := List.cons_prefix_cons.mp h
      exact Bool.eq_false_iff.mpr fun hs => hc ⟨rfl, hs⟩
    | cons d before =>
      obtain ⟨rfl, hrest⟩ := List.cons_prefix_cons.mp h
      exact hbefore before hrest

/-- The first backquote that ends the literal is where it is cut. -/
theorem TemplateState.cut_eq_some_iff (s : TemplateState) (text rest : List Char) :
    s.cut (text ++ '\x60' :: rest) = some (text ++ ['\x60'], rest) ↔ ClosesBehind s text := by
  induction text generalizing s with
  | nil =>
    rw [closesBehind_nil, List.nil_append, List.nil_append, cut]
    by_cases hs : s.isOutside = true
    · rw [if_pos ⟨rfl, hs⟩]
      exact iff_of_true rfl hs
    · rw [if_neg fun h => hs h.2]
      refine iff_of_false (fun h => ?_) hs
      obtain ⟨t, ht, hcut⟩ := keep_eq_some h
      rw [← (List.cons.inj ht).2] at hcut
      exact cut_ne_nil _ _ _ hcut
  | cons c cs ih =>
    rw [closesBehind_cons, List.cons_append, List.cons_append, cut]
    by_cases hends : c = '\x60' ∧ s.isOutside = true
    · rw [if_pos hends]
      refine iff_of_false (fun h => ?_) fun h => h.1 hends
      simp at h
    · rw [if_neg hends, ← ih, and_iff_right hends]
      constructor
      · intro h
        obtain ⟨t, ht, hcut⟩ := keep_eq_some h
        rw [(List.cons.inj ht).2]
        exact hcut
      · intro h
        rw [h]
        rfl

/-! ## Literals as scripts of their own -/

/-- The text between backquotes. -/
def templateLiteral (text : List Char) : List Char :=
  '\x60' :: (text ++ ['\x60'])

theorem scan_templateLiteral_iff (text : List Char) :
    scan (templateLiteral text) = .ok [⟨.template, 0, templateLiteral text⟩]
      ↔ cutTemplate 0 (text ++ ['\x60']) = some (text ++ ['\x60'], []) := by
  constructor
  · intro h
    obtain ⟨_, _, hfits⟩ := exists_fits_of_mem h (.head _) nofun
    obtain ⟨c, t, htext, -, hcut⟩ := hfits.at_end
    obtain ⟨-, rfl⟩ := List.cons.inj htext
    rw [List.append_nil] at hcut
    exact hcut
  · intro h
    have hfits : Fits true ⟨.template, templateLiteral text⟩ [] := by
      refine ⟨'\x60', text ++ ['\x60'], rfl, rfl, ?_⟩
      rw [List.append_nil]
      exact h
    exact scan_of_fits hfits nofun

theorem IsExpression.plain {quoted : List Char → Prop} (word : List Char) {e : List Char}
    (hword : ∀ c ∈ word, isPlain c = true) (he : IsExpression quoted e) :
    IsExpression quoted (word ++ e) := by
  induction word with
  | nil => exact he
  | cons c cs ih => exact .char (hword c (.head _)) (ih fun c hc => hword c (.tail _ hc))

/-- A template literal is one segment if all that is quoted in its substitutions has balanced
braces. Whatever is between the backquotes, it is one segment exactly if none but the last of them
stands where the braces counted so far are closed. -/
theorem scan_templateLiteral (text : List Char) :
    (IsTemplateText HasBalancedBraces text →
        scan (templateLiteral text) = .ok [⟨.template, 0, templateLiteral text⟩]) ∧
      (scan (templateLiteral text) = .ok [⟨.template, 0, templateLiteral text⟩]
        ↔ ClosesBehind .start text) := by
  rw [scan_templateLiteral_iff]
  refine ⟨fun h => h.cut [], ?_⟩
  rw [cutTemplate_eq_cut]
  exact TemplateState.cut_eq_some_iff _ text []

/-- A brace in a string counts. Here it closes the substitution, so the backquote that opens the
literal inside ends the one outside. -/
theorem scan_templateLiteral_brace :
    IsTemplateText (fun _ => True) "$\x7b \"\x7d\" + \x60a  b\x60 \x7d".toList ∧
      scan "\x60$\x7b \"\x7d\" + \x60a  b\x60 \x7d\x60".toList = .ok
        [⟨.template, 0, "\x60$\x7b \"\x7d\" + \x60".toList⟩, ⟨.code, 11, "a  b".toList⟩,
          ⟨.template, 15, "\x60 \x7d\x60".toList⟩] := by
  have htext : IsTemplateText (fun _ => True) "a  b".toList :=
    .char (by decide) (by decide) (.char (by decide) (by decide)
      (.char (by decide) (by decide) (.char (by decide) (by decide) .nil)))
  have hbehind : IsExpression (fun _ => True) " + \x60a  b\x60 ".toList :=
    .plain " + ".toList (by simp [isPlain]) (.template htext trivial (.char rfl .nil))
  have hstring : IsStringText '"' "\x7d".toList := .char (by decide) .nil
  have hinner : IsExpression (fun _ => True) " \"\x7d\" + \x60a  b\x60 ".toList :=
    .char rfl (.string (.inl rfl) hstring trivial hbehind)
  exact ⟨.substitution hinner .nil, by decide +kernel⟩

/-- In the substitution a string has a backquote between its braces, and a literal has a
substitution. -/
theorem scan_templateLiteral_nested :
    IsTemplateText HasBalancedBraces "$\x7b\"\x7b\x60\x7d\" + \x60x$\x7by\x7d\x60\x7d".toList ∧
      scan "\x60$\x7b\"\x7b\x60\x7d\" + \x60x$\x7by\x7d\x60\x7d\x60".toList = .ok
        [⟨.template, 0, "\x60$\x7b\"\x7b\x60\x7d\" + \x60x$\x7by\x7d\x60\x7d\x60".toList⟩] := by
  have hy : IsExpression HasBalancedBraces ['y'] := .char rfl .nil
  have hx : IsTemplateText HasBalancedBraces "x$\x7by\x7d".toList :=
    .char (by decide) (by decide) (.substitution hy .nil)
  have hbraces : ∀ text, braces text = ['{', '}'] → HasBalancedBraces text := by
    intro text htext
    rw [HasBalancedBraces, htext]
    exact .enclose mem_bracketPairs_brace .nil .nil
  have hbehind : IsExpression HasBalancedBraces " + \x60x$\x7by\x7d\x60".toList :=
    .plain " + ".toList (by simp [isPlain]) (.template hx (hbraces _ (by decide)) .nil)
  have hstring : IsStringText '"' "\x7b\x60\x7d".toList :=
    .char (by decide) (.char (by decide) (.char (by decide) .nil))
  have hinner : IsExpression HasBalancedBraces "\"\x7b\x60\x7d\" + \x60x$\x7by\x7d\x60".toList :=
    .string (.inl rfl) hstring (hbraces _ (by decide)) hbehind
  have htext : IsTemplateText HasBalancedBraces
      "$\x7b\"\x7b\x60\x7d\" + \x60x$\x7by\x7d\x60\x7d".toList :=
    .substitution hinner .nil
  exact ⟨htext, (scan_templateLiteral _).1 htext⟩

end LocaleScript.Script
