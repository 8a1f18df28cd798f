import LocaleScript.Proofs.Script.Balance
import LocaleScript.Proofs.Script.Enclosure
import LocaleScript.Proofs.Script.Tokens

/-!
# Faults in brackets

The brackets in the code of a script are a row with increasing offsets
(`isBracketRow_codeBrackets`). A script that scans is accepted if the row is balanced. If not, the
fault is the first closing bracket behind which no balanced row goes on (`IsFirstStray`), or, where
there is none, the last opening bracket that is not closed (`IsLastOpen`); it is reported by the
line and column where it stands (`wrap_balanced_or_fault`).

The fault that `unbalanced?` returns splits the row in two. The stack of the part in front of a
closing bracket tells that it is stray, and that nothing before it is; behind an opening bracket
that stays open, the row leaves the stack as it was, so this part of the row is balanced.
-/

namespace LocaleScript.Script

/-! ## Faults in a row of brackets -/

/-- The characters of a row of brackets. -/
def wordOf (brackets : List Bracket) : List Char :=
  brackets.map (·.char)

/-- A closing bracket behind a row, behind which no balanced row goes on. -/
def IsStray (before : List Bracket) (b : Bracket) : Prop :=
  (∃ opener, (opener, b.char) ∈ bracketPairs) ∧ ¬Continues (wordOf (before ++ [b]))

/-- The bracket is the first stray one of the row. -/
def IsFirstStray (brackets : List Bracket) (b : Bracket) : Prop :=
  ∃ before behind, brackets = before ++ b :: behind ∧ IsStray before b ∧
    ∀ before' c behind', before = before' ++ c :: behind' → ¬IsStray before' c

/-- No bracket of the row is stray. -/
def HasNoStray (brackets : List Bracket) : Prop :=
  ∀ before b behind, brackets = before ++ b :: behind → ¬IsStray before b

/-- The bracket is closed in the row behind it: its closing bracket follows a balanced word. -/
def IsClosed (b : Bracket) (behind : List Bracket) : Prop :=
  ∃ inner closer rest, behind = inner ++ closer :: rest ∧
    (b.char, closer.char) ∈ bracketPairs ∧ Balanced (wordOf inner)

/-- The bracket is the last opening one of the row that is not closed. -/
def IsLastOpen (brackets : List Bracket) (b : Bracket) : Prop :=
  ∃ before behind, brackets = before ++ b :: behind ∧ (∃ closer, (b.char, closer) ∈ bracketPairs) ∧
    ¬IsClosed b behind ∧
    ∀ between c rest, behind = between ++ c :: rest → (∃ closer, (c.char, closer) ∈ bracketPairs) →
      IsClosed c rest

@[simp] theorem wordOf_nil : wordOf [] = [] := rfl

@[simp] theorem wordOf_cons (b : Bracket) (bs : List Bracket) :
    wordOf (b :: bs) = b.char :: wordOf bs := rfl

@[simp] theorem wordOf_append (as bs : List Bracket) :
    wordOf (as ++ bs) = wordOf as ++ wordOf bs := List.map_append

/-- A beginning of what goes on goes on. -/
theorem Continues.of_append {u v : List Char} (h : Continues (u ++ v)) : Continues u := by
  obtain ⟨rest, hrest⟩ := h
  exact ⟨v ++ rest, by rwa [← List.append_assoc]⟩

theorem hasNoStray_of_continues {brackets : List Bracket} (h : Continues (wordOf brackets)) :
    HasNoStray brackets := by
  rintro before b behind rfl ⟨-, hstray⟩
  refine hstray ?_
  rw [← List.singleton_append, ← List.append_assoc, wordOf_append] at h
  exact h.of_append

/-- In a balanced row every opening bracket is closed. -/
theorem isClosed_of_balanced {between rest : List Bracket} {c : Bracket}
    (h : Balanced (wordOf (between ++ c :: rest)))
    (hc : ∃ closer, (c.char, closer) ∈ bracketPairs) :
    IsClosed c rest := by
  obtain ⟨closer, pair⟩ := hc
  rw [wordOf_append, wordOf_cons] at h
  obtain ⟨inner, closer', rest', hrest, hpair, hinner⟩ :=
    h.exists_closer rfl (of_mem_bracketPairs pair).1
  obtain ⟨inner', tail, rfl, rfl, htail⟩ := List.map_eq_append_iff.mp hrest
  obtain ⟨closing, tail, rfl, rfl, -⟩ := List.map_eq_cons_iff.mp htail
  exact ⟨inner', closing, tail, rfl, hpair, hinner⟩

/-- In front of a balanced row a bracket stays open. -/
theorem not_isClosed_of_balanced {b : Bracket} {behind : List Bracket}
    (h : Balanced (wordOf behind)) : ¬IsClosed b behind := by
  rintro ⟨inner, closer, rest, rfl, pair, hinner⟩
  have hnest := h.nest []
  rw [wordOf_append, wordOf_cons, nest_append, hinner.nest, Option.bind_some,
    nest_closer_nil pair] at hnest
  cases hnest

/-- A bracket opens, or it closes the last one that is open, or it is refused at once. -/
theorem bracket_cases (opened bs : List Bracket) {b : Bracket} (hb : isBracket b.char = true) :
    isOpener b.char = true ∨
    (∃ o os, opened = o :: os ∧ (o.char, b.char) ∈ bracketPairs) ∨
    ((∃ opener, (opener, b.char) ∈ bracketPairs) ∧
      unbalanced? opened (b :: bs) = some (.unexpected b) ∧
      nest (wordOf opened) [b.char] = none) := by
  rcases isBracket_cases hb with hopener | ⟨opener, pair⟩
  · exact .inl hopener
  · cases opened with
    | nil =>
      exact .inr (.inr ⟨⟨opener, pair⟩, unbalanced?_closer_nil pair bs, nest_closer_nil pair []⟩)
    | cons o os =>
      by_cases ho : o.char = opener
      · exact .inr (.inl ⟨o, os, rfl, ho ▸ pair⟩)
      · exact .inr (.inr ⟨⟨opener, pair⟩, unbalanced?_closer_ne pair ho bs,
          nest_closer_ne pair ho (wordOf os) []⟩)

/-! ## The fault of a row -/

section

variable {opened bs : List Bracket} {b : Bracket} (hbs : ∀ b ∈ bs, isBracket b.char = true)
include hbs

/-- What is in front of an unexpected bracket leaves a stack on which the bracket does not fit. -/
theorem split_of_unexpected (h : unbalanced? opened bs = some (.unexpected b)) :
    ∃ before behind stack, bs = before ++ b :: behind ∧
      (∃ opener, (opener, b.char) ∈ bracketPairs) ∧
      nest (wordOf opened) (wordOf before) = some stack ∧ nest stack [b.char] = none := by
  induction bs generalizing opened with
  | nil => cases opened <;> simp [unbalanced?] at h
  | cons c bs ih =>
    have ih := fun opened => @ih opened fun b hb => hbs b (.tail _ hb)
    obtain hopener | ⟨o, os, rfl, pair⟩ | ⟨hpair, hfault, hnest⟩ :=
      bracket_cases opened bs (hbs c (.head _))
    · rw [unbalanced?_opener hopener] at h
      obtain ⟨before, behind, stack, rfl, hcloser, hbefore, hlast⟩ := ih _ h
      refine ⟨c :: before, behind, stack, rfl, hcloser, ?_, hlast⟩
      rw [wordOf_cons, nest_opener hopener]
      exact hbefore
    · rw [unbalanced?_closer pair] at h
      obtain ⟨before, behind, stack, rfl, hcloser, hbefore, hlast⟩ := ih _ h
      refine ⟨c :: before, behind, stack, rfl, hcloser, ?_, hlast⟩
      rw [wordOf_cons, wordOf_cons, nest_closer pair]
      exact hbefore
    · rw [hfault] at h
      obtain rfl := Unbalanced.unexpected.inj (Option.some.inj h)
      exact ⟨[], bs, wordOf opened, rfl, hpair, rfl, hnest⟩

/-- A bracket that stays open stands in the row, or it was open before. Behind it the row closes
what it opens, and what was opened on top of it. -/
theorem split_of_unclosed (h : unbalanced? opened bs = some (.unclosed b)) :
    (∃ before behind, bs = before ++ b :: behind ∧ isOpener b.char = true ∧
      nest [] (wordOf behind) = some []) ∨
    ∃ top below, opened = top ++ b :: below ∧ nest (wordOf top) (wordOf bs) = some [] := by
  induction bs generalizing opened with
  | nil =>
    cases opened with
    | nil => cases h
    | cons o os =>
      obtain rfl := Unbalanced.unclosed.inj (Option.some.inj h)
      exact .inr ⟨[], os, rfl, rfl⟩
  | cons c bs ih =>
    have ih := fun opened => @ih opened fun b hb => hbs b (.tail _ hb)
    obtain hopener | ⟨o, os, rfl, pair⟩ | ⟨-, hfault, -⟩ :=
      bracket_cases opened bs (hbs c (.head _))
    · rw [unbalanced?_opener hopener] at h
      rcases ih _ h with ⟨before, behind, rfl, hb, hbehind⟩ | ⟨top, below, hopened, hnest⟩
      · exact .inl ⟨c :: before, behind, rfl, hb, hbehind⟩
      · cases top with
        | nil =>
          obtain ⟨rfl, -⟩ := List.cons.inj hopened
          exact .inl ⟨[], bs, rfl, hopener, hnest⟩
        | cons d top =>
          obtain ⟨rfl, rfl⟩ := List.cons.inj hopened
          refine .inr ⟨top, below, rfl, ?_⟩
          rw [wordOf_cons, nest_opener hopener]
          exact hnest
    · rw [unbalanced?_closer pair] at h
      rcases ih _ h with ⟨before, behind, rfl, hb, hbehind⟩ | ⟨top, below, rfl, hnest⟩
      · exact .inl ⟨c :: before, behind, rfl, hb, hbehind⟩
      · refine .inr ⟨o :: top, below, rfl, ?_⟩
        rw [wordOf_cons, wordOf_cons, nest_closer pair]
        exact hnest
    · rw [hfault] at h
      cases h

/-- Where a bracket stays open, none is refused. -/
theorem isSome_nest_of_unclosed (h : unbalanced? opened bs = some (.unclosed b)) :
    (nest (wordOf opened) (wordOf bs)).isSome = true := by
  induction bs generalizing opened with
  | nil => rfl
  | cons c bs ih =>
    have ih := fun opened => @ih opened fun b hb => hbs b (.tail _ hb)
    obtain hopener | ⟨o, os, rfl, pair⟩ | ⟨-, hfault, -⟩ :=
      bracket_cases opened bs (hbs c (.head _))
    · rw [unbalanced?_opener hopener] at h
      rw [wordOf_cons, nest_opener hopener]
      exact ih _ h
    · rw [unbalanced?_closer pair] at h
      rw [wordOf_cons, wordOf_cons, nest_closer pair]
      exact ih _ h
    · rw [hfault] at h
      cases h

theorem isBracket_of_mem_wordOf : ∀ c ∈ wordOf bs, isBracket c = true := by
  intro c hc
  obtain ⟨b, hb, rfl⟩ := List.mem_map.mp hc
  exact hbs b hb

theorem isFirstStray_of_unexpected (h : unbalanced? [] bs = some (.unexpected b)) :
    IsFirstStray bs b := by
  obtain ⟨before, behind, stack, rfl, hcloser, hbefore, hlast⟩ := split_of_unexpected hbs h
  have hprefix : ∀ c ∈ wordOf (before ++ [b]), isBracket c = true := by
    refine isBracket_of_mem_wordOf fun c hc => hbs c ?_
    rcases List.mem_append.mp hc with hc | hc
    · exact List.mem_append_left _ hc
    · rw [List.mem_singleton.mp hc]
      exact List.mem_append_right _ (.head _)
  have hstray : ¬Continues (wordOf (before ++ [b])) := by
    rw [← isSome_nest_iff hprefix, wordOf_append, nest_append]
    simp only [wordOf_nil] at hbefore
    rw [hbefore, Option.bind_some, wordOf_cons, wordOf_nil, hlast]
    exact Bool.false_ne_true
  have hcontinues : Continues (wordOf before) := by
    rw [← isSome_nest_iff (isBracket_of_mem_wordOf fun c hc => hbs c (List.mem_append_left _ hc))]
    simp only [wordOf_nil] at hbefore
    rw [hbefore]
    rfl
  exact ⟨before, behind, rfl, ⟨hcloser, hstray⟩, hasNoStray_of_continues hcontinues⟩

theorem isLastOpen_of_unclosed (h : unbalanced? [] bs = some (.unclosed b)) :
    HasNoStray bs ∧ IsLastOpen bs b := by
  constructor
  · exact hasNoStray_of_continues ((isSome_nest_iff (isBracket_of_mem_wordOf hbs)).mp
      (isSome_nest_of_unclosed hbs h))
  · rcases split_of_unclosed hbs h with ⟨before, behind, rfl, hb, hbehind⟩ | ⟨top, below, htop, -⟩
    · have hbalanced : Balanced (wordOf behind) := by
        refine (nest_eq_some_nil_iff (isBracket_of_mem_wordOf fun c hc => hbs c ?_)).mp hbehind
        exact List.mem_append_right _ (.tail _ hc)
      refine ⟨before, behind, rfl, exists_pair_of_isOpener hb,
        not_isClosed_of_balanced hbalanced, ?_⟩
      rintro between c rest rfl hc
      exact isClosed_of_balanced hbalanced hc
    · exact absurd htop.symm (List.append_ne_nil_of_right_ne_nil _ (List.cons_ne_nil _ _))

theorem unbalanced?_nil_eq_none_iff : unbalanced? [] bs = none ↔ Balanced (wordOf bs) := by
  rw [← nest_eq_some_nil_iff (isBracket_of_mem_wordOf hbs)]
  exact unbalanced?_eq_none_iff hbs

end

/-! ## The brackets of a script -/

/-- The brackets in the code of a script, in the order in which they stand. -/
structure IsBracketRow (segments : List Segment) (brackets : List Bracket) : Prop where
  mem_iff : ∀ b, b ∈ brackets ↔ isBracket b.char = true ∧ ∃ s ∈ segments, s.kind = .code ∧
    ∃ before behind, s.text = before ++ b.char :: behind ∧
      b.offset = s.start + Text.byteLength before
  ordered : brackets.Pairwise (·.offset < ·.offset)

theorem bracketsFrom_cons (start : Nat) (c : Char) (cs : List Char) :
    bracketsFrom start (c :: cs)
      = if isBracket c then ⟨c, start⟩ :: bracketsFrom (start + c.utf8Size) cs
        else bracketsFrom (start + c.utf8Size) cs := rfl

theorem mem_bracketsFrom_cons {start : Nat} {c : Char} {cs : List Char} {b : Bracket} :
    b ∈ bracketsFrom start (c :: cs) ↔
      (isBracket c = true ∧ b = ⟨c, start⟩) ∨ b ∈ bracketsFrom (start + c.utf8Size) cs := by
  rw [bracketsFrom_cons]
  by_cases hc : isBracket c = true
  · rw [if_pos hc, List.mem_cons]
    simp only [hc, true_and]
  · rw [if_neg hc]
    simp only [hc, false_and, false_or, Bool.false_eq_true]

theorem mem_bracketsFrom_iff {start : Nat} {text : List Char} {b : Bracket} :
    b ∈ bracketsFrom start text ↔ isBracket b.char = true ∧
      ∃ before behind, text = before ++ b.char :: behind ∧
        b.offset = start + Text.byteLength before := by
  induction text generalizing start with
  | nil =>
    constructor
    · intro h
      cases h
    · rintro ⟨-, before, behind, h, -⟩
      exact absurd h.symm (List.append_ne_nil_of_right_ne_nil _ (List.cons_ne_nil _ _))
  | cons c cs ih =>
    rw [mem_bracketsFrom_cons, ih]
    constructor
    · rintro (⟨hc, rfl⟩ | ⟨hb, before, behind, rfl, hoffset⟩)
      · exact ⟨hc, [], cs, rfl, rfl⟩
      · refine ⟨hb, c :: before, behind, rfl, ?_⟩
        rw [hoffset, Text.byteLength_cons, Nat.add_assoc]
    · rintro ⟨hb, before, behind, htext, hoffset⟩
      cases before with
      | nil =>
        obtain ⟨rfl, rfl⟩ := List.cons.inj htext
        obtain ⟨char, offset⟩ := b
        obtain rfl : offset = start := hoffset
        exact .inl ⟨hb, rfl⟩
      | cons d before =>
        obtain ⟨rfl, rfl⟩ := List.cons.inj htext
        refine .inr ⟨hb, before, behind, rfl, ?_⟩
        rw [hoffset, Text.byteLength_cons, Nat.add_assoc]

/-- The brackets of a text stand inside of it. -/
theorem offset_of_mem_bracketsFrom {start : Nat} {text : List Char} {b : Bracket}
    (h : b ∈ bracketsFrom start text) :
    start ≤ b.offset ∧ b.offset < start + Text.byteLength text := by
  obtain ⟨-, before, behind, rfl, hoffset⟩ := mem_bracketsFrom_iff.mp h
  have hpos := b.char.utf8Size_pos
  rw [hoffset, Text.byteLength_append, Text.byteLength_cons]
  omega

theorem pairwise_bracketsFrom (start : Nat) (text : List Char) :
    (bracketsFrom start text).Pairwise (·.offset < ·.offset) := by
  induction text generalizing start with
  | nil => exact .nil
  | cons c cs ih =>
    rw [bracketsFrom_cons]
    split
    · refine .cons (fun b hb => ?_) (ih _)
      have hle := (offset_of_mem_bracketsFrom hb).1
      have hpos := c.utf8Size_pos
      show start < b.offset
      omega
    · exact ih _

theorem mem_codeBrackets_iff {segments : List Segment} {b : Bracket} :
    b ∈ codeBrackets segments ↔
      ∃ s ∈ segments, s.kind = .code ∧ b ∈ bracketsFrom s.start s.text := by
  rw [codeBrackets, List.mem_flatMap]
  simp only [List.mem_filter, beq_iff_eq, and_assoc]

section

variable {source : List Char} {segments : List Segment} (hscan : scan source = .ok segments)
include hscan

theorem isBracketRow_codeBrackets : IsBracketRow segments (codeBrackets segments) where
  mem_iff b := by
    rw [mem_codeBrackets_iff]
    constructor
    · rintro ⟨s, hs, hcode, hb⟩
      obtain ⟨hbracket, hplace⟩ := mem_bracketsFrom_iff.mp hb
      exact ⟨hbracket, s, hs, hcode, hplace⟩
    · rintro ⟨hbracket, s, hs, hcode, hplace⟩
      exact ⟨s, hs, hcode, mem_bracketsFrom_iff.mpr ⟨hbracket, hplace⟩⟩
  ordered := by
    obtain ⟨ls, rfl, -⟩ := reads_of_scan hscan
    rw [codeBrackets, List.pairwise_flatMap]
    refine ⟨fun s _ => pairwise_bracketsFrom s.start s.text, ?_⟩
    refine ((pairwise_locate 0 ls).sublist List.filter_sublist).imp fun {s t} hstop b hb c hc => ?_
    have hb' := (offset_of_mem_bracketsFrom hb).2
    have hc' := (offset_of_mem_bracketsFrom hc).1
    exact Nat.lt_of_lt_of_le hb' (Nat.le_trans hstop hc')

/-- A bracket of a script stands at its offset. -/
theorem exists_split_of_mem_codeBrackets {b : Bracket} (h : b ∈ codeBrackets segments) :
    ∃ before behind, source = before ++ b.char :: behind ∧ b.offset = Text.byteLength before := by
  obtain ⟨ls, rfl, -, rfl⟩ := reads_of_scan hscan
  obtain ⟨s, hs, -, hb⟩ := mem_codeBrackets_iff.mp h
  obtain ⟨before, l, behind, rfl, rfl⟩ := exists_of_mem_locate hs
  obtain ⟨-, inner, rest, htext, hoffset⟩ := mem_bracketsFrom_iff.mp hb
  replace htext : l.text = inner ++ b.char :: rest := htext
  refine ⟨script before ++ inner, rest ++ script behind, ?_, ?_⟩
  · rw [script_atoms, script_append, script_cons, htext]
    simp only [List.append_assoc, List.cons_append]
  · rw [hoffset, Text.byteLength_append, Nat.zero_add]

end

/-! ## Whether a script is accepted -/

theorem mem_of_isFirstStray {brackets : List Bracket} {b : Bracket} (h : IsFirstStray brackets b) :
    b ∈ brackets := by
  obtain ⟨before, behind, rfl, -⟩ := h
  exact List.mem_append_right _ (.head _)

theorem mem_of_isLastOpen {brackets : List Bracket} {b : Bracket} (h : IsLastOpen brackets b) :
    b ∈ brackets := by
  obtain ⟨before, behind, rfl, -⟩ := h
  exact List.mem_append_right _ (.head _)

section

variable {source : String} {segments : List Segment} (hscan : scan source.toList = .ok segments)
include hscan

theorem exists_wrap_iff (request : Request) :
    (∃ compiled, wrap source request = .ok compiled) ↔
      unbalanced? [] (codeBrackets segments) = none := by
  rw [← checkBrackets_iff_of_scan hscan]
  constructor
  · rintro ⟨compiled, h⟩
    exact (of_wrap h).1
  · intro h
    obtain ⟨compiled, hwrap, -⟩ := wrap_of_checkBrackets h request
    exact ⟨compiled, hwrap⟩

/-- A fault is reported by the line and column of its bracket. -/
theorem exists_wrap_of_fault {fault : Unbalanced}
    (hfault : unbalanced? [] (codeBrackets segments) = some fault) {b : Bracket}
    (hb : b ∈ codeBrackets segments) (hoffset : fault.offset = b.offset) (request : Request) :
    ∃ before behind, source.toList = before ++ b.char :: behind ∧
      b.offset = Text.byteLength before ∧
      wrap source request = .error ⟨.after before, fault.reason⟩ := by
  obtain ⟨before, behind, hsource, hplace⟩ := exists_split_of_mem_codeBrackets hscan hb
  refine ⟨before, behind, hsource, hplace, ?_⟩
  unfold wrap checkBrackets
  rw [hscan]
  simp only [hfault, SourceError.atByte, Text.Position.atByte]
  rw [hoffset, hplace, hsource, Text.takeBytes_append]

end

/-- A script that scans is compiled if and only if the brackets in its code are balanced. Otherwise
the first stray closing bracket is unexpected or, if there is none, the last opening bracket that is
not closed is unclosed, and it is reported where it stands. -/
theorem wrap_balanced_or_fault {source : String} {segments : List Segment}
    (hscan : scan source.toList = .ok segments) (request : Request) :
    let brackets := codeBrackets segments
    IsBracketRow segments brackets ∧
    ((∃ compiled, wrap source request = .ok compiled) ↔ Balanced (wordOf brackets)) ∧
    (¬Balanced (wordOf brackets) → ∃ b before behind,
      source.toList = before ++ b.char :: behind ∧ b.offset = Text.byteLength before ∧
      ((IsFirstStray brackets b ∧ wrap source request
          = .error ⟨.after before, "unexpected `" ++ String.singleton b.char ++ "`"⟩) ∨
        (HasNoStray brackets ∧ IsLastOpen brackets b ∧ wrap source request
          = .error ⟨.after before, "unclosed `" ++ String.singleton b.char ++ "`"⟩))) := by
  intro brackets
  have hrow : IsBracketRow segments brackets := isBracketRow_codeBrackets hscan
  have hbs : ∀ b ∈ brackets, isBracket b.char = true := fun b hb => ((hrow.mem_iff b).mp hb).1
  refine ⟨hrow, ?_, fun hnot => ?_⟩
  · rw [exists_wrap_iff hscan, unbalanced?_nil_eq_none_iff hbs]
  · rw [← unbalanced?_nil_eq_none_iff hbs] at hnot
    obtain ⟨fault, hfault⟩ := Option.ne_none_iff_exists'.mp hnot
    cases fault with
    | unexpected b =>
      have hstray := isFirstStray_of_unexpected hbs hfault
      obtain ⟨before, behind, hsource, hplace, herror⟩ :=
        exists_wrap_of_fault hscan hfault (mem_of_isFirstStray hstray) rfl request
      exact ⟨b, before, behind, hsource, hplace, .inl ⟨hstray, herror⟩⟩
    | unclosed b =>
      obtain ⟨hnone, hopen⟩ := isLastOpen_of_unclosed hbs hfault
      obtain ⟨before, behind, hsource, hplace, herror⟩ :=
        exists_wrap_of_fault hscan hfault (mem_of_isLastOpen hopen) rfl request
      exact ⟨b, before, behind, hsource, hplace, .inr ⟨hnone, hopen, herror⟩⟩

/-- Brackets in literals do not count, and columns count characters. -/
theorem wrap_balanced_or_fault_literals :
    ∃ segments b, scan "f(\"(\", /[)]/);\n  é = [1\x7d;\n".toList = .ok segments ∧
      ¬Balanced (wordOf (codeBrackets segments)) ∧ IsFirstStray (codeBrackets segments) b ∧
      wrap "f(\"(\", /[)]/);\n  é = [1\x7d;\n" ⟨false, true, "x"⟩
        = .error ⟨⟨2, 9⟩, "unexpected `\x7d`"⟩ := by
  have hscan : scan "f(\"(\", /[)]/);\n  é = [1\x7d;\n".toList
      = .ok [⟨.code, 0, "f(".toList⟩, ⟨.string, 2, "\"(\"".toList⟩, ⟨.code, 5, ", ".toList⟩,
        ⟨.regex, 7, "/[)]/".toList⟩, ⟨.code, 12, ");\n  é = [1\x7d;\n".toList⟩] := by
    decide +kernel
  have herror : wrap "f(\"(\", /[)]/);\n  é = [1\x7d;\n" ⟨false, true, "x"⟩
      = .error ⟨⟨2, 9⟩, "unexpected `\x7d`"⟩ := by
    decide +kernel
  obtain ⟨-, hiff, hfault⟩ := wrap_balanced_or_fault hscan ⟨false, true, "x"⟩
  have hnot := mt hiff.mpr (by rw [herror]; rintro ⟨compiled, h⟩; cases h)
  obtain ⟨b, before, behind, -, -, ⟨hstray, -⟩ | ⟨-, -, hunclosed⟩⟩ := hfault hnot
  · exact ⟨_, b, hscan, hnot, hstray, herror⟩
  · rw [herror] at hunclosed
    have hreason := congrArg (·.reason.toList.take 3) (Except.error.inj hunclosed)
    simp at hreason

end LocaleScript.Script
