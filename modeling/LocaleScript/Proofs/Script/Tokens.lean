import LocaleScript.Proofs.Script.Atom
import LocaleScript.Proofs.Script.Bytes
import Mathlib.Control.Monad.Basic

/-!
# What a condensed script consists of

The tokens of a script are the characters of its code that are not blank, its literals and the
comments that are kept, each where it stands (`Condenser.tokens`). A condensed script is exactly its
tokens with at most one separator between two of them, which hangs on the text between the two in
the script (`separator`), and a newline at the end (`minify_eq_written`).

The proof follows the atoms of the script (`emit_behind`). Its invariant is that the gap gathered
since the last token is the one that the text since then stands for (`GapStands`). Line comments are
the exception, for they are dropped without a gap; but the newline that ends them follows.
-/

namespace LocaleScript

/-- The part of a text from one byte offset to another. -/
def Text.slice (cs : List Char) (start stop : Nat) : List Char :=
  (takeBytes stop cs).drop (takeBytes start cs).length

theorem Text.slice_append (before part behind : List Char) :
    slice (before ++ part ++ behind) (byteLength before) (byteLength before + byteLength part)
      = part := by
  unfold slice
  rw [← byteLength_append, takeBytes_append, List.append_assoc, takeBytes_append,
    List.drop_left]

namespace Script

/-! ## Tokens -/

/-- The characters of code from a byte offset on that are not blank, each where it stands. -/
def codeTokens (start : Nat) : List Char → List Segment
  | [] => []
  | c :: cs =>
    let rest := codeTokens (start + c.utf8Size) cs
    if Text.isBlank c then rest else ⟨.code, start, [c]⟩ :: rest

/-- The tokens of a segment. -/
def Condenser.segmentTokens (condenser : Condenser) (segment : Segment) : List Segment :=
  match segment.kind with
  | .code => codeTokens segment.start segment.text
  | .string | .template | .regex => [segment]
  | .blockComment => if condenser.keeps segment.text then [segment] else []
  | .lineComment => []

/-- The tokens of a script, in order. -/
def Condenser.tokens (condenser : Condenser) (segments : List Segment) : List Segment :=
  segments.flatMap condenser.segmentTokens

/-! ## What is written -/

/-- What is written between two tokens where the script has `between`: a newline if it has one
there, and a space if it has anything and the tokens would grow together. -/
def separator (between text next : List Char) : List Char :=
  if '\n' ∈ between then ['\n']
  else if between ≠ [] ∧ textsGrowTogether text next = true then [' ']
  else []

/-- The text of a script between two of its tokens. -/
def between (source : List Char) (t u : Segment) : List Char :=
  Text.slice source t.stop u.start

theorem between_eq {t u : Segment} {before mid behind : List Char}
    (ht : t.start = Text.byteLength before)
    (hu : u.start = Text.byteLength (before ++ t.text ++ mid)) :
    between (before ++ t.text ++ mid ++ behind) t u = mid := by
  rw [between, Segment.stop, ht, hu, ← Text.byteLength_append, Text.byteLength_append (before ++ _)]
  exact Text.slice_append _ _ _

/-- What is written behind a token, with the tokens that follow. -/
def writtenBehind (source : List Char) (t : Segment) : List Segment → List Char
  | [] => ['\n']
  | u :: us =>
    separator (between source t u) t.text u.text ++ u.text ++ writtenBehind source u us

/-- What is written for the tokens of a script. -/
def written (source : List Char) : List Segment → List Char
  | [] => []
  | t :: ts => t.text ++ writtenBehind source t ts

/-! ## Atoms as tokens -/

theorem codeAdditive_segmentTokens (condenser : Condenser) :
    CodeAdditive condenser.segmentTokens := by
  intro start text
  change codeTokens start text = _
  induction text generalizing start with
  | nil => rfl
  | cons c cs ih =>
    rw [List.map_cons, locate, List.flatMap_cons, codeChar_text, Text.byteLength_cons,
      Text.byteLength_nil, Nat.add_zero, ← ih]
    change codeTokens start (c :: cs) = codeTokens start [c] ++ _
    simp only [codeTokens]
    split <;> rfl

theorem codeAdditive_segmentPieces (condenser : Condenser) :
    CodeAdditive condenser.segmentPieces := by
  intro start text
  change text.map Condenser.codePiece = _
  induction text generalizing start with
  | nil => rfl
  | cons c cs ih =>
    rw [List.map_cons, List.map_cons, locate, List.flatMap_cons, ← ih]
    rfl

theorem pieces_locate_cons (condenser : Condenser) (start : Nat) (a : Lexeme) (as : List Lexeme) :
    condenser.pieces (locate start (a :: as)) = condenser.segmentPieces ⟨a.kind, start, a.text⟩
      ++ condenser.pieces (locate (start + Text.byteLength a.text) as) :=
  rfl

theorem pieces_locate_append (condenser : Condenser) (start : Nat) (as bs : List Lexeme) :
    condenser.pieces (locate start (as ++ bs)) = condenser.pieces (locate start as)
      ++ condenser.pieces (locate (start + Text.byteLength (script as)) bs) := by
  rw [locate_append]
  exact List.flatMap_append

theorem tokens_locate_cons (condenser : Condenser) (start : Nat) (a : Lexeme) (as : List Lexeme) :
    condenser.tokens (locate start (a :: as)) = condenser.segmentTokens ⟨a.kind, start, a.text⟩
      ++ condenser.tokens (locate (start + Text.byteLength a.text) as) :=
  rfl

/-- The gap that a dropped text stands for. -/
def gapOf (text : List Char) : Gap :=
  if '\n' ∈ text then .newline else if text = [] then .none else .space

namespace Condenser

variable (condenser : Condenser)

/-- The atom is a token. -/
def IsToken (a : Lexeme) : Prop :=
  match a.kind with
  | .code => ∃ c, a.text = [c] ∧ Text.isBlank c = false
  | .string | .template | .regex => True
  | .blockComment => condenser.keeps a.text = true
  | .lineComment => False

/-- The atom leaves a gap. -/
def IsGap (a : Lexeme) : Prop :=
  match a.kind with
  | .code => ∃ c, a.text = [c] ∧ Text.isBlank c = true
  | .blockComment => a.text ≠ [] ∧ condenser.keeps a.text = false
  | .string | .template | .regex | .lineComment => False

variable {condenser} {a : Lexeme}

theorem IsToken.ne_lineComment (h : condenser.IsToken a) : a.kind ≠ .lineComment := by
  intro hk
  unfold Condenser.IsToken at h
  rw [hk] at h
  exact h

theorem IsToken.pieces (h : condenser.IsToken a) (start : Nat) :
    condenser.segmentPieces ⟨a.kind, start, a.text⟩ = [.token a.text] := by
  obtain ⟨kind, text⟩ := a
  cases kind with
  | code =>
    obtain ⟨c, rfl, hc⟩ := h
    change [codePiece c] = _
    rw [codePiece, if_neg (Text.ne_newline_of_not_isBlank hc), if_neg (by simp [hc])]
  | blockComment => exact if_pos h
  | lineComment => exact h.elim
  | _ => rfl

theorem IsToken.tokens (h : condenser.IsToken a) (start : Nat) :
    condenser.segmentTokens ⟨a.kind, start, a.text⟩ = [⟨a.kind, start, a.text⟩] := by
  obtain ⟨kind, text⟩ := a
  cases kind with
  | code =>
    obtain ⟨c, rfl, hc⟩ := h
    change codeTokens start [c] = _
    simp only [codeTokens, hc, Bool.false_eq_true, reduceIte]
  | blockComment => exact if_pos h
  | lineComment => exact h.elim
  | _ => rfl

theorem IsGap.pieces (h : condenser.IsGap a) (start : Nat) :
    condenser.segmentPieces ⟨a.kind, start, a.text⟩ = [.gap (gapOf a.text)] := by
  obtain ⟨kind, text⟩ := a
  cases kind with
  | code =>
    obtain ⟨c, rfl, hc⟩ := h
    change [codePiece c] = _
    simp only [codePiece, gapOf, hc, List.mem_singleton, reduceIte, eq_comm]
    split <;> rfl
  | blockComment =>
    obtain ⟨htext, hkeeps⟩ := h
    refine (if_neg (by simp [hkeeps])).trans ?_
    simp only [gapOf, htext, reduceIte, List.contains_iff_mem]
  | _ => exact h.elim

theorem IsGap.tokens (h : condenser.IsGap a) (start : Nat) :
    condenser.segmentTokens ⟨a.kind, start, a.text⟩ = [] := by
  obtain ⟨kind, text⟩ := a
  cases kind with
  | code =>
    obtain ⟨c, rfl, hc⟩ := h
    change codeTokens start [c] = _
    simp only [codeTokens, hc, reduceIte]
  | blockComment => exact if_neg (by simp [h.2])
  | _ => exact h.elim

theorem pieces_of_lineComment (ha : a.kind = .lineComment) (start : Nat) :
    condenser.segmentPieces ⟨a.kind, start, a.text⟩ = [] := by
  rw [ha]
  rfl

theorem tokens_of_lineComment (ha : a.kind = .lineComment) (start : Nat) :
    condenser.segmentTokens ⟨a.kind, start, a.text⟩ = [] := by
  rw [ha]
  rfl

variable (condenser a)

/-- What becomes of an atom when a script is condensed. -/
inductive Fate (cs : List Char) : Prop where
  /-- It is written; it does not end in a newline. -/
  | written (token : condenser.IsToken a) (last : ∃ c, a.text.getLast? = some c ∧ c ≠ '\n')
  | gap (gap : condenser.IsGap a)
  /-- It leaves nothing, but its line ends behind it. -/
  | nothing (kind : a.kind = .lineComment) (next : ∀ c, cs.head? = some c → c = '\n')

theorem fate_codeChar (c : Char) (cs : List Char) : condenser.Fate (codeChar c) cs := by
  cases hc : Text.isBlank c with
  | true => exact .gap ⟨c, rfl, hc⟩
  | false =>
    exact .written ⟨c, rfl, hc⟩ ⟨c, rfl, Text.ne_newline_of_not_isBlank hc⟩

variable {condenser a}

/-- A token does not end in a blank. -/
theorem IsToken.getLast? (token : condenser.IsToken a) {operand : Bool} {cs : List Char}
    (h : Fits operand a cs) : ∃ c, a.text.getLast? = some c ∧ Text.isBlank c = false := by
  by_cases hcode : a.kind = .code
  · obtain ⟨c, rfl⟩ := h.eq_codeChar hcode
    obtain ⟨d, htext, hd⟩ := token
    exact ⟨d, congrArg List.getLast? htext, hd⟩
  · exact h.getLast? hcode token.ne_lineComment

variable (condenser)

theorem fate {operand : Bool} {cs : List Char} (h : Fits operand a cs) : condenser.Fate a cs := by
  have hlast (token : condenser.IsToken a) : ∃ c, a.text.getLast? = some c ∧ c ≠ '\n' := by
    obtain ⟨c, hlast, hc⟩ := token.getLast? h
    exact ⟨c, hlast, Text.ne_newline_of_not_isBlank hc⟩
  obtain ⟨kind, text⟩ := a
  cases kind with
  | code =>
    obtain ⟨c, hc⟩ := h.eq_codeChar rfl
    rw [hc]
    exact condenser.fate_codeChar c cs
  | lineComment =>
    refine .nothing rfl fun c hc => ?_
    have hends := h.endsBefore
    rw [hc] at hends
    simpa [Kind.endsBefore] using hends
  | blockComment =>
    cases hkeeps : condenser.keeps text with
    | true => exact .written hkeeps (hlast hkeeps)
    | false => exact .gap ⟨h.text_ne_nil, hkeeps⟩
  | string | template | regex =>
    exact .written trivial (hlast trivial)

end Condenser

/-! ## The places of tokens -/

theorem slice_of_mem_locate (before : List Char) {ls : List Lexeme} {s : Segment}
    (h : s ∈ locate (Text.byteLength before) ls) :
    Text.slice (before ++ script ls) s.start s.stop = s.text := by
  induction ls generalizing before with
  | nil => cases h
  | cons l ls ih =>
    rw [script_cons, ← List.append_assoc]
    rcases List.mem_cons.mp h with rfl | h
    · exact Text.slice_append before l.text (script ls)
    · rw [← Text.byteLength_append] at h
      exact ih _ h

theorem pairwise_locate (start : Nat) (ls : List Lexeme) :
    (locate start ls).Pairwise fun s s' => s.stop ≤ s'.start := by
  induction ls generalizing start with
  | nil => exact .nil
  | cons l ls ih => exact .cons (fun s hs => le_start_of_mem_locate hs) (ih _)

theorem tokens_sublist (condenser : Condenser) {r : Reading} {as : List Lexeme} (h : Reads r as)
    (start : Nat) : (condenser.tokens (locate start as)).Sublist (locate start as) := by
  induction h generalizing start with
  | nil => exact .slnil
  | cons fits rest ih =>
    rw [tokens_locate_cons, locate]
    cases condenser.fate fits with
    | written token _ =>
      rw [token.tokens]
      exact (ih _).cons_cons _
    | gap gap =>
      rw [gap.tokens]
      exact (ih _).cons _
    | nothing kind _ =>
      rw [Condenser.tokens_of_lineComment kind]
      exact (ih _).cons _

/-! ## Writing pieces -/

theorem gapOf_append (text text' : List Char) :
    (gapOf text).max (gapOf text') = gapOf (text ++ text') := by
  simp only [gapOf, List.mem_append, List.append_eq_nil_iff]
  by_cases hn : '\n' ∈ text
  · simp only [hn, true_or, reduceIte, Gap.max]
  · by_cases hn' : '\n' ∈ text'
    · simp only [hn, hn', or_true, reduceIte]
      split <;> rfl
    · simp only [hn, hn', or_self, reduceIte]
      by_cases he : text = [] <;> by_cases he' : text' = [] <;> simp [he, he', Gap.max]

theorem gap_max_newline (gap : Gap) : gap.max .newline = .newline := by
  cases gap <;> rfl

/-- The gap writes the separator for the text that it stands for. -/
theorem emit_token {text next between : List Char} {last : Char} (hlast : text.getLast? = some last)
    (hn : last ≠ '\n') (hnext : next ≠ []) (rest : List Piece) :
    emit (some last) (gapOf between) (.token next :: rest)
      = separator between text next ++ next ++ emit next.getLast? .none rest := by
  obtain ⟨first, tail, rfl⟩ := List.exists_cons_of_ne_nil hnext
  have hor : (first :: tail).getLast?.or (some last) = (first :: tail).getLast? := by
    rw [List.getLast?_cons, Option.some_or]
  have hgrow : textsGrowTogether text (first :: tail) = growTogether last first :=
    textsGrowTogether_eq hlast rfl
  simp only [emit, hor, List.head?_cons, separator, hgrow, gapOf]
  split
  · rw [Gap.separator, if_neg hn]
  · split
    · next hb =>
      rw [if_neg fun h => h.1 hb]
      rfl
    · next hb => simp only [Gap.separator, ne_eq, hb, not_false_eq_true, true_and]

theorem emit_end {last : Char} (hn : last ≠ '\n') (gap : Gap) :
    emit (some last) gap [] = ['\n'] := by
  unfold emit
  split
  · next h => cases h
  · next h => exact absurd (Option.some.inj h) hn
  · rfl

theorem emit_first_token (text : List Char) (gap : Gap) (rest : List Piece) :
    emit none gap (.token text :: rest) = text ++ emit text.getLast? .none rest := by
  simp only [emit, Option.or_none, List.nil_append]

/-- A gap at the end of a script is not written. -/
theorem emit_append_gap (last : Option Char) (gap : Gap) (ps : List Piece) (g : Gap) :
    emit last gap (ps ++ [.gap g]) = emit last gap ps := by
  induction ps generalizing last gap with
  | nil => rfl
  | cons p ps ih =>
    cases p with
    | gap g' => exact ih _ _
    | token text => simp only [List.cons_append, emit, ih]

/-- The gap since the last token is the one for the text since then. Behind a line comment it need
not be; but there the script ends or a newline follows. -/
inductive GapStands (gap : Gap) (mid : List Char) : List Lexeme → Prop where
  | whole {as : List Lexeme} (h : gap = gapOf mid) : GapStands gap mid as
  | lineEnd {rest : List Lexeme} : GapStands gap mid (codeChar '\n' :: rest)
  | scriptEnd : GapStands gap mid []

/-- The gap stands for the text where a token follows. -/
theorem GapStands.eq_of_getLast? {gap : Gap} {mid : List Char} {a : Lexeme} {as : List Lexeme}
    (h : GapStands gap mid (a :: as)) {c : Char} (hlast : a.text.getLast? = some c)
    (hn : c ≠ '\n') :
    gap = gapOf mid := by
  cases h with
  | whole h => exact h
  | lineEnd => exact absurd (Option.some.inj hlast).symm hn

/-- A blank or a dropped comment joins the text that the gap stands for. -/
theorem GapStands.max_gapOf {gap : Gap} {mid : List Char} {a : Lexeme} {as : List Lexeme}
    (h : GapStands gap mid (a :: as)) : gap.max (gapOf a.text) = gapOf (mid ++ a.text) := by
  cases h with
  | whole h => rw [h, gapOf_append]
  | lineEnd =>
    rw [← gapOf_append]
    exact (gap_max_newline gap).trans (gap_max_newline (gapOf mid)).symm

theorem gapStands_of_head? {r : Reading} {as : List Lexeme} (h : Reads r as)
    (hnext : ∀ c, (script as).head? = some c → c = '\n') (gap : Gap) (mid : List Char) :
    GapStands gap mid as := by
  cases hhead : (script as).head? with
  | none =>
    obtain rfl := h.eq_nil (List.head?_eq_none_iff.mp hhead)
    exact .scriptEnd
  | some c =>
    obtain rfl := hnext c hhead
    obtain ⟨rest, rfl⟩ := h.newline hhead
    exact .lineEnd

/-- Writing the pieces behind a token, with the gap since then, writes what stands behind it. -/
theorem emit_behind (condenser : Condenser) {source : List Char} {r : Reading}
    {as : List Lexeme} (hreads : Reads r as) (before mid : List Char) (t : Segment) {last : Char}
    (hstart : t.start = Text.byteLength before) (hlast : t.text.getLast? = some last)
    (hn : last ≠ '\n') (hsource : source = before ++ t.text ++ mid ++ script as) {gap : Gap}
    (hgap : GapStands gap mid as) :
    emit (some last) gap
        (condenser.pieces (locate (Text.byteLength (before ++ t.text ++ mid)) as))
      = writtenBehind source t
        (condenser.tokens (locate (Text.byteLength (before ++ t.text ++ mid)) as)) := by
  induction hreads generalizing before mid t last gap with
  | nil r => exact emit_end hn gap
  | @cons r a as fits rest ih =>
    -- What is not written goes on in the text since the last token.
    have hmid : before ++ t.text ++ mid ++ script (a :: as)
        = before ++ t.text ++ (mid ++ a.text) ++ script as := by
      simp only [script_cons, List.append_assoc]
    have hstop : Text.byteLength (before ++ t.text ++ mid) + Text.byteLength a.text
        = Text.byteLength (before ++ t.text ++ (mid ++ a.text)) := by
      simp only [Text.byteLength_append, Nat.add_assoc]
    rw [hmid] at hsource
    rw [pieces_locate_cons, tokens_locate_cons]
    cases condenser.fate fits with
    | written token hlast' =>
      obtain ⟨last', hlast', hn'⟩ := hlast'
      have hbetween : between source t
          ⟨a.kind, Text.byteLength (before ++ t.text ++ mid), a.text⟩ = mid := by
        rw [hsource, ← hmid]
        exact between_eq hstart rfl
      have hnone : Gap.none = gapOf [] := rfl
      have hbehind := ih (before ++ t.text ++ mid) []
        ⟨a.kind, Text.byteLength (before ++ t.text ++ mid), a.text⟩ rfl hlast' hn'
        (hsource.trans (by simp only [List.append_assoc, List.append_nil])) (.whole hnone)
      rw [token.pieces, token.tokens, List.singleton_append, List.singleton_append,
        hgap.eq_of_getLast? hlast' hn',
        emit_token hlast hn (ne_nil_of_getLast? hlast'), writtenBehind, hbetween, hlast', hstop]
      simp only [List.append_nil, List.append_assoc] at hbehind ⊢
      rw [hbehind]
    | gap isGap =>
      rw [isGap.pieces, isGap.tokens, List.singleton_append, List.nil_append, emit, hstop]
      exact ih before (mid ++ a.text) t hstart hlast hn hsource (.whole hgap.max_gapOf)
    | nothing kind hnext =>
      rw [Condenser.pieces_of_lineComment kind, Condenser.tokens_of_lineComment kind,
        List.nil_append, List.nil_append, hstop]
      exact ih before (mid ++ a.text) t hstart hlast hn hsource (gapStands_of_head? rest hnext _ _)

/-- Writing the pieces of a script from its beginning, whatever gap is there, writes its tokens. -/
theorem emit_eq_written (condenser : Condenser) {source : List Char} {r : Reading}
    {as : List Lexeme} (hreads : Reads r as) (before : List Char)
    (hsource : source = before ++ script as) (gap : Gap) :
    emit none gap (condenser.pieces (locate (Text.byteLength before) as))
      = written source (condenser.tokens (locate (Text.byteLength before) as)) := by
  induction hreads generalizing before gap with
  | nil r => rfl
  | @cons r a as fits rest ih =>
    rw [script_cons, ← List.append_assoc] at hsource
    rw [pieces_locate_cons, tokens_locate_cons, ← Text.byteLength_append]
    cases condenser.fate fits with
    | written token hlast =>
      obtain ⟨last, hlast, hn⟩ := hlast
      have hnone : Gap.none = gapOf [] := rfl
      have hbehind := emit_behind condenser rest before [] ⟨a.kind, Text.byteLength before, a.text⟩
        rfl hlast hn (hsource.trans (by simp only [List.append_nil])) (.whole hnone)
      rw [List.append_nil] at hbehind
      rw [token.pieces, token.tokens, List.singleton_append, List.singleton_append,
        emit_first_token, hlast, written, ← hbehind]
    | gap isGap =>
      rw [isGap.pieces, isGap.tokens, List.singleton_append, List.nil_append, emit]
      exact ih _ hsource _
    | nothing kind _ =>
      rw [Condenser.pieces_of_lineComment kind, Condenser.tokens_of_lineComment kind,
        List.nil_append, List.nil_append]
      exact ih _ hsource gap

/-- A script that is read as a row of atoms is condensed to what is written for these. -/
theorem condense_of_reads (condenser : Condenser) {as : List Lexeme} (h : Reads .start as) :
    condenser.condense (script as) = .ok (emit none .none (condenser.pieces (locate 0 as))) := by
  obtain ⟨ls, hscan, hatoms⟩ := scan_script h
  have hpieces : condenser.pieces (locate 0 ls) = condenser.pieces (locate 0 (atoms ls)) :=
    flatMap_locate_atoms (codeAdditive_segmentPieces condenser) 0 ls
  rw [Condenser.condense, hscan, ← hatoms, ← hpieces]

theorem condense_eq_written (condenser : Condenser) {source : List Char} {segments : List Segment}
    (h : scan source = .ok segments) :
    condenser.condense source = .ok (written source (condenser.tokens segments)) := by
  obtain ⟨ls, rfl, hreads, hscript⟩ := reads_of_scan h
  have htokens : condenser.tokens (locate 0 ls) = condenser.tokens (locate 0 (atoms ls)) :=
    flatMap_locate_atoms (codeAdditive_segmentTokens condenser) 0 ls
  have hemit := emit_eq_written condenser hreads [] hscript.symm .none
  rw [Text.byteLength_nil] at hemit
  rw [htokens, ← hemit, ← hscript]
  exact condense_of_reads condenser hreads

/-- A script that is condensed scans. -/
theorem exists_scan_of_minify {condenser : Condenser} {source out : String}
    (h : condenser.minify source = .ok out) : ∃ segments, scan source.toList = .ok segments := by
  unfold Condenser.minify Condenser.condense at h
  cases hscan : scan source.toList with
  | error e =>
    rw [hscan] at h
    cases h
  | ok segments => exact ⟨segments, rfl⟩

theorem minify_of_scan (condenser : Condenser) (source : String) {segments : List Segment}
    (h : scan source.toList = .ok segments) :
    condenser.minify source
      = .ok (String.ofList (written source.toList (condenser.tokens segments))) := by
  rw [Condenser.minify, condense_eq_written condenser h]
  rfl

/-- A condensed script is the tokens of the script, which stand where they say and in order, with a
separator between two of them and a newline at the end. -/
theorem minify_eq_written (condenser : Condenser) (source : String) {segments : List Segment}
    (h : scan source.toList = .ok segments) :
    condenser.minify source
        = .ok (String.ofList (written source.toList (condenser.tokens segments))) ∧
      (∀ t ∈ condenser.tokens segments, Text.slice source.toList t.start t.stop = t.text) ∧
      (condenser.tokens segments).Pairwise fun t u => t.stop ≤ u.start := by
  refine ⟨minify_of_scan condenser source h, ?_⟩
  obtain ⟨ls, rfl, hreads, hscript⟩ := reads_of_scan h
  have htokens : condenser.tokens (locate 0 ls) = condenser.tokens (locate 0 (atoms ls)) :=
    flatMap_locate_atoms (codeAdditive_segmentTokens condenser) 0 ls
  have hsub := tokens_sublist condenser hreads 0
  rw [htokens, ← hscript]
  exact ⟨fun t ht => slice_of_mem_locate [] (hsub.subset ht), (pairwise_locate 0 _).sublist hsub⟩

/-- A kept comment, two signs that stay apart, a dropped line and a dropped comment with a line
break. -/
theorem minify_eq_written_marked :
    ∃ segments, scan "/*-a-*/ b + +c; // d\n\n/* e\n */ f(/g/);".toList = .ok segments ∧
      Condenser.minify ⟨["-a-"]⟩ "/*-a-*/ b + +c; // d\n\n/* e\n */ f(/g/);"
        = .ok "/*-a-*/b+ +c;\nf(/g/);\n" := by
  have hscan : scan "/*-a-*/ b + +c; // d\n\n/* e\n */ f(/g/);".toList
      = .ok [⟨.blockComment, 0, "/*-a-*/".toList⟩, ⟨.code, 7, " b + +c; ".toList⟩,
        ⟨.lineComment, 16, "// d".toList⟩, ⟨.code, 20, "\n\n".toList⟩,
        ⟨.blockComment, 22, "/* e\n */".toList⟩, ⟨.code, 30, " f(".toList⟩,
        ⟨.regex, 33, "/g/".toList⟩, ⟨.code, 36, ");".toList⟩] := by
    decide +kernel
  refine ⟨_, hscan, (minify_eq_written ⟨["-a-"]⟩ _ hscan).1.trans (congrArg Except.ok ?_)⟩
  decide +kernel

end Script

end LocaleScript
