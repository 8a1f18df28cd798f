import LocaleScript.Proofs.Script.Layout
import Mathlib.Data.List.Forall2

/-!
# Line breaks of a condensed script

Semicolons that a script leaves out depend on the line breaks between its tokens. A condensed script
has a newline between two tokens exactly if the script has one there, be it in code, behind a line
comment or in a block comment that is dropped (`newline_mem_separator_iff`). So gap by gap the line
breaks are the same, as long as a gap that has one of the other line terminators has a newline as
well (`minify_newline_iff`). A carriage return on its own, and the line and paragraph separators,
are condensed like spaces.

The gaps of a condensed script are found where its tokens are written (`placed`).
-/

namespace LocaleScript.Script

/-! ## Line terminators -/

/-- The characters that end a line of a script: newline, carriage return, line separator and
paragraph separator. -/
def isLineTerminator (c : Char) : Bool :=
  c == '\n' || c == '\r' || c == '\u2028' || c == '\u2029'

/-- A line ends within the text. -/
def BreaksLine (text : List Char) : Prop :=
  ∃ c ∈ text, isLineTerminator c = true

theorem breaksLine_of_newline_mem {text : List Char} (h : '\n' ∈ text) : BreaksLine text :=
  ⟨'\n', h, rfl⟩

theorem newline_mem_separator_iff (between text next : List Char) :
    '\n' ∈ separator between text next ↔ '\n' ∈ between := by
  unfold separator
  split
  · next h => exact iff_of_true (.head _) h
  · next h =>
    refine iff_of_false ?_ h
    split
    · decide
    · exact List.not_mem_nil

/-! ## Gaps -/

/-- What a text has between each two of its tokens that follow one another. -/
def gaps (source : List Char) : List Segment → List (List Char)
  | t :: u :: us => between source t u :: gaps source (u :: us)
  | _ => []

/-- The tokens behind a token, each where it is written if the token ends at a byte offset. -/
def placedBehind (source : List Char) (stop : Nat) (t : Segment) : List Segment → List Segment
  | [] => []
  | u :: us =>
    let start := stop + Text.byteLength (separator (between source t u) t.text u.text)
    ⟨u.kind, start, u.text⟩ :: placedBehind source (start + Text.byteLength u.text) u us

/-- The tokens of a script, each where it is written. -/
def placed (source : List Char) : List Segment → List Segment
  | [] => []
  | t :: ts => ⟨t.kind, 0, t.text⟩ :: placedBehind source (Text.byteLength t.text) t ts

theorem map_lexeme_placedBehind (source : List Char) (stop : Nat) (t : Segment)
    (us : List Segment) : (placedBehind source stop t us).map Segment.lexeme
      = us.map Segment.lexeme := by
  induction us generalizing stop t with
  | nil => rfl
  | cons u us ih =>
    rw [placedBehind, List.map_cons, List.map_cons, ih]
    rfl

theorem map_lexeme_placed (source : List Char) (ts : List Segment) :
    (placed source ts).map Segment.lexeme = ts.map Segment.lexeme := by
  cases ts with
  | nil => rfl
  | cons t ts =>
    rw [placed, List.map_cons, List.map_cons, map_lexeme_placedBehind]
    rfl

/-- The tokens are placed where the layout has them. -/
theorem placedBehind_sublist (source : List Char) (stop : Nat) (t : Segment) (us : List Segment) :
    (placedBehind source stop t us).Sublist (locate stop (layoutBehind source t us)) := by
  induction us generalizing stop t with
  | nil => exact List.nil_sublist _
  | cons u us ih =>
    rw [placedBehind, layoutBehind, locate_append, script_map_codeChar]
    exact ((ih _ u).cons_cons _).trans (List.sublist_append_right _ _)

theorem placed_sublist (source : List Char) (ts : List Segment) :
    (placed source ts).Sublist (locate 0 (layout source ts)) := by
  cases ts with
  | nil => exact .slnil
  | cons t ts =>
    rw [placed, layout, locate, Nat.zero_add]
    exact (placedBehind_sublist source _ t ts).cons_cons _

/-- Behind a token that was written, each gap has the newline that it has in the script. -/
theorem gaps_placedBehind (source before : List Char) (t : Segment) (us : List Segment) :
    List.Forall₂ (fun gap written => '\n' ∈ written ↔ '\n' ∈ gap) (gaps source (t :: us))
      (gaps (before ++ t.text ++ writtenBehind source t us)
        (⟨t.kind, Text.byteLength before, t.text⟩
          :: placedBehind source (Text.byteLength (before ++ t.text)) t us)) := by
  induction us generalizing before t with
  | nil => exact .nil
  | cons u us ih =>
    have hbehind := ih (before ++ t.text ++ separator (between source t u) t.text u.text) u
    have hwritten : before ++ t.text ++ writtenBehind source t (u :: us)
        = before ++ t.text ++ separator (between source t u) t.text u.text
          ++ (u.text ++ writtenBehind source u us) := by
      simp only [writtenBehind, List.append_assoc]
    have hgap : between (before ++ t.text ++ writtenBehind source t (u :: us))
        ⟨t.kind, Text.byteLength before, t.text⟩
        ⟨u.kind, Text.byteLength (before ++ t.text ++ separator (between source t u) t.text u.text),
          u.text⟩ = separator (between source t u) t.text u.text := by
      rw [hwritten]
      exact between_eq rfl rfl
    rw [List.append_assoc _ u.text, ← hwritten, Text.byteLength_append _ u.text] at hbehind
    simp only [placedBehind, gaps, ← Text.byteLength_append (before ++ t.text)]
    rw [hgap]
    exact .cons (newline_mem_separator_iff _ _ _) hbehind

theorem gaps_placed (source : List Char) (ts : List Segment) :
    List.Forall₂ (fun gap written => '\n' ∈ written ↔ '\n' ∈ gap) (gaps source ts)
      (gaps (written source ts) (placed source ts)) := by
  cases ts with
  | nil => exact .nil
  | cons t ts => exact gaps_placedBehind source [] t ts

/-! ## Condensed scripts -/

theorem scan_of_minify {condenser : Condenser} {source out : String}
    (h : condenser.minify source = .ok out) : ∃ segments, scan source.toList = .ok segments ∧
      out.toList = written source.toList (condenser.tokens segments) := by
  obtain ⟨segments, hscan⟩ := exists_scan_of_minify h
  rw [minify_of_scan condenser source hscan] at h
  exact ⟨segments, hscan, by rw [← Except.ok.inj h, String.toList_ofList]⟩

/-- The tokens of a condensed script are those of the script, each where it is placed, in order.
Between two of them it has a newline exactly if the script has one there; so a gap of the script
ends a line exactly if the gap that is written does, unless it does so by other line terminators
alone. -/
theorem minify_newline_iff {condenser : Condenser} {source out : String}
    (h : condenser.minify source = .ok out) :
    ∃ segments, scan source.toList = .ok segments ∧
      let tokens := condenser.tokens segments
      let tokens' := placed source.toList tokens
      tokens'.map Segment.lexeme = tokens.map Segment.lexeme ∧
      (∀ t ∈ tokens', Text.slice out.toList t.start t.stop = t.text) ∧
      (tokens'.Pairwise fun t u => t.stop ≤ u.start) ∧
      List.Forall₂ (fun gap written => ('\n' ∈ written ↔ '\n' ∈ gap) ∧
          (('\n' ∈ written ↔ BreaksLine gap) ↔ (BreaksLine gap → '\n' ∈ gap)))
        (gaps source.toList tokens) (gaps out.toList tokens') := by
  obtain ⟨segments, hscan, hout⟩ := scan_of_minify h
  have hsub := placed_sublist source.toList (condenser.tokens segments)
  refine ⟨segments, hscan, map_lexeme_placed _ _, ?_, (pairwise_locate 0 _).sublist hsub, ?_⟩
  · intro t ht
    have hslice := slice_of_mem_locate [] (hsub.subset ht)
    rwa [List.nil_append, script_layout, ← hout] at hslice
  · have hgaps := gaps_placed source.toList (condenser.tokens segments)
    rw [← hout] at hgaps
    refine hgaps.imp fun gap written hnewline => ⟨hnewline, ?_⟩
    rw [hnewline]
    exact ⟨fun hiff => hiff.mpr, fun hbreaks => ⟨breaksLine_of_newline_mem, hbreaks⟩⟩

/-- Newlines in code, behind a line comment and in a comment that is dropped, each with a carriage
return in front. -/
theorem minify_newline_iff_crlf :
    Condenser.minify ⟨[]⟩ "a;\r\nb // c\r\n/* d\r\n */ + e /* f */ g" = .ok "a;\nb\n+e g\n" ∧
      ∃ segments, scan "a;\r\nb // c\r\n/* d\r\n */ + e /* f */ g".toList = .ok segments ∧
        List.Forall₂ (fun gap written => '\n' ∈ written ↔ '\n' ∈ gap)
          (gaps "a;\r\nb // c\r\n/* d\r\n */ + e /* f */ g".toList
            (Condenser.tokens ⟨[]⟩ segments))
          (gaps "a;\nb\n+e g\n".toList (placed "a;\r\nb // c\r\n/* d\r\n */ + e /* f */ g".toList
            (Condenser.tokens ⟨[]⟩ segments))) := by
  have hmin : Condenser.minify ⟨[]⟩ "a;\r\nb // c\r\n/* d\r\n */ + e /* f */ g"
      = .ok "a;\nb\n+e g\n" := by decide +kernel
  obtain ⟨segments, hscan, -, -, -, hgaps⟩ := minify_newline_iff hmin
  exact ⟨hmin, segments, hscan, hgaps.imp fun _ _ hgap => hgap.1⟩

/-- A carriage return on its own is condensed like a space. -/
theorem minify_carriageReturn :
    ∃ segments, scan "a\rb".toList = .ok segments ∧
      Condenser.minify ⟨[]⟩ "a\rb" = .ok "a b\n" ∧
      gaps "a\rb".toList (Condenser.tokens ⟨[]⟩ segments) = [['\r']] ∧ BreaksLine ['\r'] ∧
      gaps "a b\n".toList (placed "a\rb".toList (Condenser.tokens ⟨[]⟩ segments)) = [[' ']] := by
  refine ⟨[⟨.code, 0, ['a', '\r', 'b']⟩], by decide +kernel, by decide +kernel, by decide +kernel,
    ⟨'\r', .head _, rfl⟩, by decide +kernel⟩

end LocaleScript.Script
