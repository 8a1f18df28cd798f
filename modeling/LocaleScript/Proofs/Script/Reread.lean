import LocaleScript.Proofs.Script.Legible

/-!
# Condensing a condensed script

A condensed script is read as the tokens of the script exactly if these are legible. Then its
literals and comments are those of the script, and condensing it again changes nothing
(`minify_readsAs_iff`).

They are not always legible. A space between a regular expression and a word is dropped, for the two
characters would not grow together, and the word is then read as flags (`regions_minify_ne`).
-/

namespace LocaleScript.Script

/-! ## Condensing again -/

/-- The separator is written again where it stands. -/
theorem emit_separator (condenser : Condenser) {between text next : List Char} {last : Char}
    (hlast : text.getLast? = some last) (hn : last ≠ '\n') (hnext : next ≠ []) (start : Nat)
    (rest : List Piece) :
    emit (some last) .none
        (condenser.pieces (locate start ((separator between text next).map codeChar))
          ++ .token next :: rest)
      = separator between text next ++ next ++ emit next.getLast? .none rest := by
  have hagain :
      separator (separator between text next) text next = separator between text next := by
    unfold separator
    split
    · rfl
    · split
      · next hspace => simp [hspace.2]
      · rfl
  have hgap : ∀ pieces, emit (some last) .none
        (condenser.pieces (locate start ((separator between text next).map codeChar)) ++ pieces)
      = emit (some last) (gapOf (separator between text next)) pieces := by
    intro pieces
    unfold separator
    split
    · rfl
    · split <;> rfl
  rw [hgap, emit_token hlast hn hnext, hagain]

theorem emit_layoutBehind (condenser : Condenser) (source : List Char) {t : Segment} {last : Char}
    (hlast : t.text.getLast? = some last) (hn : last ≠ '\n') {us : List Segment}
    (hus : ∀ u ∈ us, condenser.IsToken u.lexeme ∧ ∃ c, u.text.getLast? = some c ∧ c ≠ '\n')
    (start : Nat) :
    emit (some last) .none (condenser.pieces (locate start (layoutBehind source t us)))
      = writtenBehind source t us := by
  induction us generalizing t last start with
  | nil => exact emit_end hn .newline
  | cons u us ih =>
    obtain ⟨htoken, last', hlast', hn'⟩ := hus u (.head _)
    have hnext : u.text ≠ [] := ne_nil_of_getLast? hlast'
    have htail := ih hlast' hn' fun v hv => hus v (.tail _ hv)
    rw [layoutBehind, pieces_locate_append, pieces_locate_cons, htoken.pieces,
      List.singleton_append]
    change emit _ _ (_ ++ .token u.text :: _) = _
    rw [emit_separator condenser hlast hn hnext, hlast', htail, writtenBehind]

theorem emit_layout (condenser : Condenser) (source : List Char) {ts : List Segment}
    (hts : ∀ t ∈ ts, condenser.IsToken t.lexeme ∧ ∃ c, t.text.getLast? = some c ∧ c ≠ '\n')
    (start : Nat) :
    emit none .none (condenser.pieces (locate start (layout source ts))) = written source ts := by
  cases ts with
  | nil => rfl
  | cons t ts =>
    obtain ⟨htoken, last, hlast, hn⟩ := hts t (.head _)
    rw [layout, pieces_locate_cons, htoken.pieces, List.singleton_append, emit_first_token]
    change t.text ++ emit t.text.getLast? _ _ = _
    rw [hlast, emit_layoutBehind condenser source hlast hn fun u hu => hts u (.tail _ hu), written]

/-- Condensing what is legible changes nothing. -/
theorem condense_written (condenser : Condenser) {as : List Lexeme} (h : Reads .start as)
    (hlegible : Legible (script as) (condenser.tokens (locate 0 as))) :
    condenser.condense (written (script as) (condenser.tokens (locate 0 as)))
      = .ok (written (script as) (condenser.tokens (locate 0 as))) := by
  have hcondense := condense_of_reads condenser ((reads_layout_iff condenser h).mpr hlegible)
  rw [script_layout] at hcondense
  rw [hcondense, emit_layout condenser]
  intro t ht
  obtain ⟨htoken, operand, cs, hfits⟩ := of_mem_tokens condenser h ht
  refine ⟨htoken, ?_⟩
  cases condenser.fate hfits with
  | written _ hlast => exact hlast
  | gap gap => exact absurd gap htoken.not_isGap
  | nothing kind _ => exact absurd kind htoken.ne_lineComment

/-! ## Literals and comments -/

/-- The segment is a literal or a block comment that is kept. -/
def Condenser.keepsRegion (condenser : Condenser) (segment : Segment) : Bool :=
  match segment.kind with
  | .code | .lineComment => false
  | .string | .template | .regex => true
  | .blockComment => condenser.keeps segment.text

/-- The literals of a script and its block comments that are kept, in order. -/
def Condenser.regions (condenser : Condenser) (segments : List Segment) : List Lexeme :=
  (segments.filter condenser.keepsRegion).map Segment.lexeme

theorem filter_lexeme_codeTokens (start : Nat) (text : List Char) :
    ((codeTokens start text).map Segment.lexeme).filter (·.kind != .code) = [] := by
  induction text generalizing start with
  | nil => rfl
  | cons c cs ih =>
    simp only [codeTokens]
    split
    · exact ih _
    · have hcode : ((⟨.code, start, [c]⟩ : Segment).lexeme.kind != .code) = false := rfl
      rw [List.map_cons, List.filter_cons_of_neg (by simp [hcode]), ih]

/-- The literals and comments are the tokens that are no code. -/
theorem regions_eq (condenser : Condenser) (segments : List Segment) :
    condenser.regions segments
      = ((condenser.tokens segments).map Segment.lexeme).filter (·.kind != .code) := by
  induction segments with
  | nil => rfl
  | cons s segments ih =>
    have hs : (if condenser.keepsRegion s then [s.lexeme] else [])
        = ((condenser.segmentTokens s).map Segment.lexeme).filter (·.kind != .code) := by
      obtain ⟨kind, start, text⟩ := s
      cases kind with
      | code => exact (filter_lexeme_codeTokens start text).symm
      | blockComment =>
        by_cases hkeeps : condenser.keeps text = true
        · simp only [Condenser.keepsRegion, Condenser.segmentTokens, hkeeps, reduceIte]
          rfl
        · simp only [Condenser.keepsRegion, Condenser.segmentTokens, hkeeps]
          rfl
      | _ => rfl
    have hcons : condenser.regions (s :: segments)
        = (if condenser.keepsRegion s then [s.lexeme] else []) ++ condenser.regions segments := by
      unfold Condenser.regions
      rw [List.filter_cons]
      split <;> rfl
    rw [hcons, hs, ih, Condenser.tokens, Condenser.tokens, List.flatMap_cons, List.map_append,
      List.filter_append]

/-- A condensed script is read as the tokens of the script exactly if these are legible. Then its
literals and comments are those of the script, and condensing it again changes nothing. -/
theorem minify_readsAs_iff (condenser : Condenser) (source : String) {segments : List Segment}
    (h : scan source.toList = .ok segments) :
    ∃ out, condenser.minify source = .ok out ∧
      (ReadsAs out.toList ((condenser.tokens segments).map Segment.lexeme)
        ↔ Legible source.toList (condenser.tokens segments)) ∧
      (Legible source.toList (condenser.tokens segments) →
        ∃ segments', scan out.toList = .ok segments' ∧
          Condenser.keepingAll.regions segments' = condenser.regions segments ∧
          condenser.minify out = .ok out) := by
  obtain ⟨ls, rfl, hreads, hscript⟩ := reads_of_scan h
  have htokens : condenser.tokens (locate 0 ls) = condenser.tokens (locate 0 (atoms ls)) :=
    flatMap_locate_atoms (codeAdditive_segmentTokens condenser) 0 ls
  have hiff := readsAs_written_iff condenser hreads
  rw [← htokens, hscript] at hiff
  refine ⟨_, minify_of_scan condenser source h, ?_, ?_⟩
  · rw [String.toList_ofList]
    exact hiff
  · intro hlegible
    obtain ⟨segments', hscan, hmap⟩ := hiff.mpr hlegible
    refine ⟨segments', by rw [String.toList_ofList]; exact hscan, ?_, ?_⟩
    · rw [regions_eq, regions_eq, hmap]
    · have hagain := condense_written condenser hreads
      rw [← htokens, hscript] at hagain
      rw [Condenser.minify, String.toList_ofList, hagain hlegible]
      rfl

/-- A regular expression with flags and a division are read again. -/
theorem minify_readsAs_iff_division :
    scan "a = /b/g / c".toList
        = .ok [⟨.code, 0, "a = ".toList⟩, ⟨.regex, 4, "/b/g".toList⟩, ⟨.code, 8, " / c".toList⟩] ∧
      ∃ out, Condenser.minify ⟨[]⟩ "a = /b/g / c" = .ok out ∧
        Condenser.minify ⟨[]⟩ out = .ok out := by
  have hscan : scan "a = /b/g / c".toList = .ok [⟨.code, 0, "a = ".toList⟩,
      ⟨.regex, 4, "/b/g".toList⟩, ⟨.code, 8, " / c".toList⟩] := by
    decide +kernel
  obtain ⟨out, hout, -, hlegible⟩ := minify_readsAs_iff ⟨[]⟩ "a = /b/g / c" hscan
  obtain ⟨-, -, -, hagain⟩ := hlegible (by decide +kernel)
  exact ⟨hscan, out, hout, hagain⟩

/-- A word behind a regular expression is read as its flags. -/
theorem regions_minify_ne :
    ∃ segments segments', scan "/a/ in b".toList = .ok segments ∧
      Condenser.minify ⟨[]⟩ "/a/ in b" = .ok "/a/in b\n" ∧
      scan "/a/in b\n".toList = .ok segments' ∧
      Condenser.keepingAll.regions segments' ≠ Condenser.regions ⟨[]⟩ segments := by
  refine ⟨[⟨.regex, 0, "/a/".toList⟩, ⟨.code, 3, " in b".toList⟩],
    [⟨.regex, 0, "/a/in".toList⟩, ⟨.code, 5, " b\n".toList⟩], by decide +kernel, by decide +kernel,
    by decide +kernel, by decide⟩

end LocaleScript.Script
