import LocaleScript.Script.Segment

/-!
# Where regions end

Each kind of region has a function that cuts it off behind its opening character; it returns what
was taken and what is left, or nothing if the region does not end. Cutting loses nothing
(`Kind.cut_append`).

The literals and block comments are cut by recursion. Such a cut has an equation for each way in
which it goes on, and an induction whose cases are these ways by name (`cutString_induction` and its
like), so that a proof about it rewrites by the equation of each case and nothing opens the
function.
-/

namespace LocaleScript.Script

/-- A character of words and numbers: ASCII letters and digits, `_`, `$` and all beyond ASCII. -/
def isWordChar (c : Char) : Bool :=
  c.isAlphanum || c == '_' || c == '$' || 0x80 ≤ c.toNat

/-! ## Where literals and comments end -/

/-- Puts a character back in front of what was taken. -/
def keep (c : Char) (cut : Option (List Char × List Char)) : Option (List Char × List Char) :=
  cut.map fun p => (c :: p.1, p.2)

/-- Cuts behind the closing quote. A backslash protects the next character, a newline included;
a bare newline ends the line before the literal ends. -/
def cutString (quote : Char) : List Char → Option (List Char × List Char)
  | [] => none
  | c :: cs =>
    if c = '\\' then
      match cs with
      | [] => none
      | d :: ds => keep c (keep d (cutString quote ds))
    else if c = '\n' then none
    else if c = quote then some ([c], cs)
    else keep c (cutString quote cs)

/-- Cuts behind the closing backquote. `depth` counts the braces open since a `$` with a brace; the
literal closes only outside of them. -/
def cutTemplate (depth : Nat) : List Char → Option (List Char × List Char)
  | [] => none
  | c :: cs =>
    if c = '\\' then
      match cs with
      | [] => none
      | d :: ds => keep c (keep d (cutTemplate depth ds))
    else if depth = 0 then
      if c = '\x60' then some ([c], cs)
      else
        match cs with
        | [] => none
        | d :: ds =>
          if c = '$' ∧ d = '{' then keep c (keep d (cutTemplate 1 ds))
          else keep c (cutTemplate 0 (d :: ds))
    else if c = '{' then keep c (cutTemplate (depth + 1) cs)
    else if c = '}' then keep c (cutTemplate (depth - 1) cs)
    else keep c (cutTemplate depth cs)

/-- Cuts behind the flags of a regular expression. A slash inside a character class does not close
it, and a newline, also behind a backslash, ends the line before the literal ends. -/
def cutRegex (inClass : Bool) : List Char → Option (List Char × List Char)
  | [] => none
  | c :: cs =>
    if c = '\\' then
      match cs with
      | [] => none
      | d :: ds => if d = '\n' then none else keep c (keep d (cutRegex inClass ds))
    else if c = '\n' then none
    else if c = '/' ∧ inClass = false then
      some (c :: cs.takeWhile Char.isAlpha, cs.dropWhile Char.isAlpha)
    else if c = '[' then keep c (cutRegex true cs)
    else if c = ']' then keep c (cutRegex false cs)
    else keep c (cutRegex inClass cs)

/-- Cuts behind the first star and slash. -/
def cutBlock : List Char → Option (List Char × List Char)
  | [] => none
  | [_] => none
  | c :: d :: ds =>
    if c = '*' ∧ d = '/' then some ([c, d], ds) else keep c (cutBlock (d :: ds))

/-- What follows the first character of a region, up to its end, and what is left. -/
def Kind.cut (first : Char) (cs : List Char) : Kind → Option (List Char × List Char)
  | .code =>
    if isWordChar first then some (cs.takeWhile isWordChar, cs.dropWhile isWordChar)
    else some ([], cs)
  | .string => cutString first cs
  | .template => cutTemplate 0 cs
  | .regex => cutRegex false cs
  | .lineComment => some (cs.takeWhile (· != '\n'), cs.dropWhile (· != '\n'))
  | .blockComment =>
    match cs with
    | [] => none
    | star :: ds => keep star (cutBlock ds)

/-! ## What was kept -/

@[simp] theorem keep_some (c : Char) (t r : List Char) : keep c (some (t, r)) = some (c :: t, r) :=
  rfl

@[simp] theorem keep_none (c : Char) : keep c none = none := rfl

theorem keep_eq_some {c : Char} {cut : Option (List Char × List Char)} {t r : List Char}
    (h : keep c cut = some (t, r)) : ∃ t', t = c :: t' ∧ cut = some (t', r) := by
  obtain ⟨⟨t', r'⟩, hc, he⟩ := Option.map_eq_some_iff.mp h
  obtain ⟨rfl, rfl⟩ := Prod.mk.inj he
  exact ⟨t', rfl, hc⟩

theorem keep_keep_eq_some {c d : Char} {cut : Option (List Char × List Char)} {t r : List Char}
    (h : keep c (keep d cut) = some (t, r)) : ∃ t', t = c :: d :: t' ∧ cut = some (t', r) := by
  obtain ⟨t₁, rfl, h₁⟩ := keep_eq_some h
  obtain ⟨t₂, rfl, h₂⟩ := keep_eq_some h₁
  exact ⟨t₂, rfl, h₂⟩

/-- If a cut loses nothing, it loses nothing with a character in front either. -/
theorem append_of_keep {c : Char} {cut : Option (List Char × List Char)} {cs t r : List Char}
    (hcut : ∀ {t}, cut = some (t, r) → t ++ r = cs) (h : keep c cut = some (t, r)) :
    t ++ r = c :: cs := by
  obtain ⟨t', rfl, h'⟩ := keep_eq_some h
  rw [List.cons_append, hcut h']

/-! ## Strings -/

theorem cutString_escape (quote d : Char) (ds : List Char) :
    cutString quote ('\\' :: d :: ds) = keep '\\' (keep d (cutString quote ds)) := by
  rw [cutString.eq_def]
  rfl

theorem cutString_newline (quote : Char) (cs : List Char) :
    cutString quote ('\n' :: cs) = none := by
  rw [cutString.eq_def]
  rfl

theorem cutString_close {quote : Char} (hb : quote ≠ '\\') (hn : quote ≠ '\n') (cs : List Char) :
    cutString quote (quote :: cs) = some ([quote], cs) := by
  rw [cutString.eq_def]
  simp only [hb, hn, reduceIte]

theorem cutString_cons {quote c : Char} (hb : c ≠ '\\') (hn : c ≠ '\n') (hq : c ≠ quote)
    (cs : List Char) : cutString quote (c :: cs) = keep c (cutString quote cs) := by
  rw [cutString.eq_def]
  simp only [hb, hn, hq, reduceIte]

/-- The ways in which a string is cut. -/
theorem cutString_induction (quote : Char) {motive : List Char → Prop} (nil : motive [])
    (lone : motive ['\\']) (escape : ∀ d ds, motive ds → motive ('\\' :: d :: ds))
    (newline : ∀ cs, motive ('\n' :: cs))
    (close : ∀ cs, quote ≠ '\\' → quote ≠ '\n' → motive (quote :: cs))
    (char : ∀ c cs, c ≠ '\\' → c ≠ '\n' → c ≠ quote → motive cs → motive (c :: cs))
    (cs : List Char) : motive cs :=
  cutString.induct quote motive nil lone escape (fun cs _ => newline cs) close char cs

theorem cutString_append {quote : Char} {cs t r : List Char}
    (h : cutString quote cs = some (t, r)) : t ++ r = cs := by
  induction cs using cutString_induction quote generalizing t with
  | nil => cases h
  | lone => cases h
  | escape d ds ih =>
    rw [cutString_escape] at h
    exact append_of_keep (append_of_keep ih) h
  | newline cs =>
    rw [cutString_newline] at h
    cases h
  | close cs hb hn =>
    rw [cutString_close hb hn] at h
    obtain ⟨rfl, rfl⟩ := Prod.mk.inj (Option.some.inj h)
    rfl
  | char c cs hb hn hq ih =>
    rw [cutString_cons hb hn hq] at h
    exact append_of_keep ih h

/-! ## Template literals -/

theorem cutTemplate_escape (depth : Nat) (d : Char) (ds : List Char) :
    cutTemplate depth ('\\' :: d :: ds) = keep '\\' (keep d (cutTemplate depth ds)) := by
  rw [cutTemplate.eq_def]
  rfl

theorem cutTemplate_close (cs : List Char) :
    cutTemplate 0 ('\x60' :: cs) = some (['\x60'], cs) := by
  rw [cutTemplate.eq_def]
  rfl

theorem cutTemplate_open (ds : List Char) :
    cutTemplate 0 ('$' :: '{' :: ds) = keep '$' (keep '{' (cutTemplate 1 ds)) := by
  rw [cutTemplate.eq_def]
  rfl

/-- Outside of braces a character is taken alone unless it and the next open a brace. -/
theorem cutTemplate_outside {c : Char} (hb : c ≠ '\\') (hq : c ≠ '\x60') {cs : List Char}
    (ho : ¬(c = '$' ∧ cs.head? = some '{')) :
    cutTemplate 0 (c :: cs) = keep c (cutTemplate 0 cs) := by
  rw [cutTemplate.eq_def]
  simp only [hb, hq, reduceIte]
  cases cs with
  | nil => simp [cutTemplate]
  | cons d ds =>
    simp only [List.head?_cons, Option.some.injEq] at ho
    simp only [ho, reduceIte]

theorem cutTemplate_inside {depth : Nat} (hd : depth ≠ 0) {c : Char} (hb : c ≠ '\\')
    (cs : List Char) :
    cutTemplate depth (c :: cs) = keep c (cutTemplate
      (if c = '{' then depth + 1 else if c = '}' then depth - 1 else depth) cs) := by
  rw [cutTemplate.eq_def]
  simp only [hb, hd, reduceIte]
  split
  · rfl
  · split <;> rfl

/-- The ways in which a template literal is cut. -/
theorem cutTemplate_induction {motive : Nat → List Char → Prop} (nil : ∀ depth, motive depth [])
    (lone : ∀ depth, motive depth ['\\'])
    (escape : ∀ depth d ds, motive depth ds → motive depth ('\\' :: d :: ds))
    (close : ∀ cs, motive 0 ('\x60' :: cs))
    (opening : ∀ ds, motive 1 ds → motive 0 ('$' :: '{' :: ds))
    (outside : ∀ c cs, c ≠ '\\' → c ≠ '\x60' → ¬(c = '$' ∧ cs.head? = some '{') → motive 0 cs →
      motive 0 (c :: cs))
    (inside : ∀ depth c cs, depth ≠ 0 → c ≠ '\\' →
      motive (if c = '{' then depth + 1 else if c = '}' then depth - 1 else depth) cs →
      motive depth (c :: cs))
    (depth : Nat) (cs : List Char) : motive depth cs := by
  refine cutTemplate.induct motive nil lone escape (fun cs _ => close cs) (fun c hb hq => ?_)
    (fun c _ _ d ds ho ih => ?_) (fun c hb hq d ds ho ih => ?_) (fun depth cs hd hb ih => ?_)
    (fun depth cs hd hb ho ih => ?_) (fun depth c cs hb hd ho hc ih => ?_) depth cs
  · exact outside c [] hb hq (fun ho => Option.some_ne_none _ ho.2.symm) (nil 0)
  · obtain ⟨rfl, rfl⟩ := ho
    exact opening ds ih
  · exact outside c (d :: ds) hb hq (fun h => ho ⟨h.1, Option.some.inj h.2⟩) ih
  · exact inside depth '{' cs hd hb (by rwa [if_pos rfl])
  · exact inside depth '}' cs hd hb (by rwa [if_neg ho, if_pos rfl])
  · exact inside depth c cs hd hb (by rwa [if_neg ho, if_neg hc])

theorem cutTemplate_append {depth : Nat} {cs t r : List Char}
    (h : cutTemplate depth cs = some (t, r)) : t ++ r = cs := by
  induction depth, cs using cutTemplate_induction generalizing t with
  | nil depth => cases h
  | lone depth => cases h
  | escape depth d ds ih =>
    rw [cutTemplate_escape] at h
    exact append_of_keep (append_of_keep ih) h
  | close cs =>
    rw [cutTemplate_close] at h
    obtain ⟨rfl, rfl⟩ := Prod.mk.inj (Option.some.inj h)
    rfl
  | opening ds ih =>
    rw [cutTemplate_open] at h
    exact append_of_keep (append_of_keep ih) h
  | outside c cs hb hq ho ih =>
    rw [cutTemplate_outside hb hq ho] at h
    exact append_of_keep ih h
  | inside depth c cs hd hb ih =>
    rw [cutTemplate_inside hd hb] at h
    exact append_of_keep ih h

/-! ## Regular expressions -/

theorem cutRegex_escape {inClass : Bool} {d : Char} (hd : d ≠ '\n') (ds : List Char) :
    cutRegex inClass ('\\' :: d :: ds) = keep '\\' (keep d (cutRegex inClass ds)) := by
  rw [cutRegex.eq_def]
  simp only [hd, reduceIte]

theorem cutRegex_escape_newline (inClass : Bool) (ds : List Char) :
    cutRegex inClass ('\\' :: '\n' :: ds) = none := by
  rw [cutRegex.eq_def]
  rfl

theorem cutRegex_newline (inClass : Bool) (cs : List Char) :
    cutRegex inClass ('\n' :: cs) = none := by
  rw [cutRegex.eq_def]
  rfl

theorem cutRegex_close (cs : List Char) : cutRegex false ('/' :: cs)
    = some ('/' :: cs.takeWhile Char.isAlpha, cs.dropWhile Char.isAlpha) := by
  rw [cutRegex.eq_def]
  rfl

theorem cutRegex_cons {inClass : Bool} {c : Char} (hb : c ≠ '\\') (hn : c ≠ '\n')
    (hs : ¬(c = '/' ∧ inClass = false)) (cs : List Char) :
    cutRegex inClass (c :: cs) = keep c (cutRegex
      (if c = '[' then true else if c = ']' then false else inClass) cs) := by
  rw [cutRegex.eq_def]
  simp only [hb, hn, hs, reduceIte]
  split
  · rfl
  · split <;> rfl

/-- The ways in which a regular expression is cut. -/
theorem cutRegex_induction {motive : Bool → List Char → Prop}
    (nil : ∀ inClass, motive inClass []) (lone : ∀ inClass, motive inClass ['\\'])
    (escape : ∀ inClass d ds, d ≠ '\n' → motive inClass ds → motive inClass ('\\' :: d :: ds))
    (escapeNewline : ∀ inClass ds, motive inClass ('\\' :: '\n' :: ds))
    (newline : ∀ inClass cs, motive inClass ('\n' :: cs)) (close : ∀ cs, motive false ('/' :: cs))
    (char : ∀ inClass c cs, c ≠ '\\' → c ≠ '\n' → ¬(c = '/' ∧ inClass = false) →
      motive (if c = '[' then true else if c = ']' then false else inClass) cs →
      motive inClass (c :: cs))
    (inClass : Bool) (cs : List Char) : motive inClass cs := by
  refine cutRegex.induct motive nil lone escapeNewline escape
    (fun inClass cs _ => newline inClass cs)
    (fun inClass c cs _ _ hs => ?_) (fun inClass cs hb hn hs ih => ?_)
    (fun inClass cs hb hn hs ho ih => ?_) (fun inClass c cs hb hn hs ho hc ih => ?_) inClass cs
  · obtain ⟨rfl, rfl⟩ := hs
    exact close cs
  · exact char inClass '[' cs hb hn hs (by rwa [if_pos rfl])
  · exact char inClass ']' cs hb hn hs (by rwa [if_neg ho, if_pos rfl])
  · exact char inClass c cs hb hn hs (by rwa [if_neg ho, if_neg hc])

theorem cutRegex_append {inClass : Bool} {cs t r : List Char}
    (h : cutRegex inClass cs = some (t, r)) : t ++ r = cs := by
  induction inClass, cs using cutRegex_induction generalizing t with
  | nil inClass => cases h
  | lone inClass => cases h
  | escape inClass d ds hd ih =>
    rw [cutRegex_escape hd] at h
    exact append_of_keep (append_of_keep ih) h
  | escapeNewline inClass ds =>
    rw [cutRegex_escape_newline] at h
    cases h
  | newline inClass cs =>
    rw [cutRegex_newline] at h
    cases h
  | close cs =>
    rw [cutRegex_close] at h
    obtain ⟨rfl, rfl⟩ := Prod.mk.inj (Option.some.inj h)
    rw [List.cons_append, List.takeWhile_append_dropWhile]
  | char inClass c cs hb hn hs ih =>
    rw [cutRegex_cons hb hn hs] at h
    exact append_of_keep ih h

/-! ## Block comments -/

theorem cutBlock_close (ds : List Char) : cutBlock ('*' :: '/' :: ds) = some (['*', '/'], ds) := rfl

theorem cutBlock_cons {c : Char} {cs : List Char} (h : ¬(c = '*' ∧ cs.head? = some '/')) :
    cutBlock (c :: cs) = keep c (cutBlock cs) := by
  cases cs with
  | nil => rfl
  | cons d ds =>
    simp only [List.head?_cons, Option.some.injEq] at h
    rw [cutBlock, if_neg h]

/-- The ways in which a block comment is cut. -/
theorem cutBlock_induction {motive : List Char → Prop} (nil : motive [])
    (close : ∀ ds, motive ('*' :: '/' :: ds))
    (char : ∀ c cs, ¬(c = '*' ∧ cs.head? = some '/') → motive cs → motive (c :: cs))
    (cs : List Char) : motive cs := by
  refine cutBlock.induct motive nil (fun c => ?_) (fun c d ds hs => ?_)
    (fun c d ds hs ih => ?_) cs
  · exact char c [] (fun h => Option.some_ne_none _ h.2.symm) nil
  · obtain ⟨rfl, rfl⟩ := hs
    exact close ds
  · exact char c (d :: ds) (fun h => hs ⟨h.1, Option.some.inj h.2⟩) ih

theorem cutBlock_append {cs t r : List Char} (h : cutBlock cs = some (t, r)) : t ++ r = cs := by
  induction cs using cutBlock_induction generalizing t with
  | nil => cases h
  | close ds =>
    obtain ⟨rfl, rfl⟩ := Prod.mk.inj (Option.some.inj h)
    rfl
  | char c cs hs ih =>
    rw [cutBlock_cons hs] at h
    exact append_of_keep ih h

/-! ## Regions of any kind -/

/-- What was taken and what is left make up the text again. -/
theorem Kind.cut_append {kind : Kind} {c : Char} {cs t r : List Char}
    (h : kind.cut c cs = some (t, r)) : t ++ r = cs := by
  cases kind with
  | code =>
    rw [Kind.cut] at h
    split at h
    · obtain ⟨rfl, rfl⟩ := Prod.mk.inj (Option.some.inj h)
      exact List.takeWhile_append_dropWhile
    · obtain ⟨rfl, rfl⟩ := Prod.mk.inj (Option.some.inj h)
      rfl
  | string => exact cutString_append h
  | template => exact cutTemplate_append h
  | regex => exact cutRegex_append h
  | lineComment =>
    obtain ⟨rfl, rfl⟩ := Prod.mk.inj (Option.some.inj h)
    exact List.takeWhile_append_dropWhile
  | blockComment =>
    cases cs with
    | nil => cases h
    | cons star ds => exact append_of_keep cutBlock_append h

end LocaleScript.Script
