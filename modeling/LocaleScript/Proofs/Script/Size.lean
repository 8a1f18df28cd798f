import LocaleScript.Proofs.Script.Neighbour
import LocaleScript.Proofs.Script.Tokens
import LocaleScript.Proofs.Text.Position

/-!
# The size of a condensed script

Condensing adds two things to the tokens of a script: separators, and a newline at the end. Each is
paid for by bytes that are dropped. A separator stands for a gap, and a gap for a text between two
tokens; so what is written for some atoms, and the gap in front of them, takes no more bytes than
the atoms do, with one for that gap and one for the newline at the end (`byteLength_emit_le`).

No token ends in a blank. So where a script ends in one, its last atom is dropped and pays for the
newline (`byteLength_emit_le_of_isBlank`).
-/

namespace LocaleScript.Script

/-! ## Gaps -/

/-- What may be written for a gap, in bytes. -/
def Gap.allowance : Gap → Nat
  | .none => 0
  | .space | .newline => 1

theorem Gap.allowance_max_le (g h : Gap) : (g.max h).allowance ≤ g.allowance + h.allowance := by
  cases g <;> cases h <;> decide

theorem Gap.byteLength_separator_le (gap : Gap) (last first : Char) :
    Text.byteLength (gap.separator last first) ≤ gap.allowance := by
  unfold Gap.separator
  cases gap with
  | none => exact Nat.le_refl 0
  | space => dsimp only; split <;> decide
  | newline => dsimp only; split <;> decide

/-- A text that is dropped pays for the gap that it leaves. -/
theorem allowance_gapOf_le (text : List Char) : (gapOf text).allowance ≤ Text.byteLength text := by
  unfold gapOf
  split
  · next hnewline => exact Text.byteLength_pos (List.ne_nil_of_mem hnewline)
  split
  · exact Nat.zero_le _
  · next hne => exact Text.byteLength_pos hne

/-! ## Writing pieces -/

section

variable (last : Option Char) (gap : Gap)

theorem byteLength_emit_nil_le : Text.byteLength (emit last gap []) ≤ 1 := by
  unfold emit
  split <;> decide

/-- In front of a token stands what its gap allows. -/
theorem byteLength_emit_token_le (text : List Char) (rest : List Piece) :
    Text.byteLength (emit last gap (.token text :: rest)) ≤ gap.allowance + Text.byteLength text
      + Text.byteLength (emit (text.getLast?.or last) .none rest) := by
  simp only [emit, Text.byteLength_append]
  split
  · next l f _ =>
    have hseparator := gap.byteLength_separator_le l f
    omega
  · simp only [Text.byteLength_nil]
    omega

end

/-! ## Writing atoms -/

/-- What is written behind a gap takes no more bytes than the atoms do, with what the gap allows and
a newline at the end. -/
theorem byteLength_emit_le (condenser : Condenser) {as : List Lexeme}
    (h : ∀ a ∈ as, ∃ operand cs, Fits operand a cs) (start : Nat) (last : Option Char) (gap : Gap) :
    Text.byteLength (emit last gap (condenser.pieces (locate start as)))
      ≤ gap.allowance + Text.byteLength (script as) + 1 := by
  induction as generalizing start last gap with
  | nil =>
    have hnil := byteLength_emit_nil_le last gap
    exact Nat.le_trans hnil (Nat.le_add_left 1 _)
  | cons a as ih =>
    obtain ⟨⟨operand, cs, hfits⟩, has⟩ := List.forall_mem_cons.mp h
    have hrest := ih has (start + Text.byteLength a.text)
    rw [pieces_locate_cons, script_cons, Text.byteLength_append]
    cases condenser.fate hfits with
    | written token _ =>
      have htoken := byteLength_emit_token_le last gap a.text
        (condenser.pieces (locate (start + Text.byteLength a.text) as))
      have hbehind := hrest (a.text.getLast?.or last) .none
      rw [token.pieces, List.singleton_append]
      simp only [Gap.allowance] at hbehind
      omega
    | gap isGap =>
      have hmax := gap.allowance_max_le (gapOf a.text)
      have hpaid := allowance_gapOf_le a.text
      have hbehind := hrest last (gap.max (gapOf a.text))
      rw [isGap.pieces, List.singleton_append, emit]
      omega
    | nothing kind _ =>
      have hbehind := hrest last gap
      rw [Condenser.pieces_of_lineComment kind, List.nil_append]
      omega

/-- Atoms that end in a blank pay for the newline at the end. -/
theorem byteLength_emit_le_of_isBlank (condenser : Condenser) {as : List Lexeme}
    (h : ∀ a ∈ as, ∃ operand cs, Fits operand a cs) {c : Char}
    (hlast : (script as).getLast? = some c) (hc : Text.isBlank c = true) (start : Nat)
    (last : Option Char) (gap : Gap) :
    Text.byteLength (emit last gap (condenser.pieces (locate start as)))
      ≤ gap.allowance + Text.byteLength (script as) := by
  rcases List.eq_nil_or_concat as with rfl | ⟨init, a, rfl⟩
  · cases hlast
  rw [List.concat_eq_append] at h hlast ⊢
  obtain ⟨hinit, ha⟩ := List.forall_mem_append.mp h
  obtain ⟨operand, cs, hfits⟩ := ha a (.head _)
  have hwritten := byteLength_emit_le condenser hinit start last gap
  have hscript : script (init ++ [a]) = script init ++ a.text := by
    rw [script_append, script_cons, script_nil, List.append_nil]
  have hpos : 0 < Text.byteLength a.text := Text.byteLength_pos hfits.text_ne_nil
  rw [hscript] at hlast ⊢
  rw [pieces_locate_append, pieces_locate_cons, Text.byteLength_append]
  cases condenser.fate hfits with
  | written token _ =>
    obtain ⟨d, hd, hblank⟩ := token.getLast? hfits
    rw [List.getLast?_append, hd, Option.some_or, Option.some.injEq] at hlast
    rw [hlast, hc] at hblank
    cases hblank
  | gap isGap =>
    rw [isGap.pieces]
    change Text.byteLength (emit last gap (_ ++ [.gap _])) ≤ _
    rw [emit_append_gap]
    omega
  | nothing kind _ =>
    rw [Condenser.pieces_of_lineComment kind]
    change Text.byteLength (emit last gap (_ ++ [])) ≤ _
    rw [List.append_nil]
    omega

/-! ## Condensed scripts -/

/-- A condensed script is what is written for the atoms that the script is read as. -/
theorem exists_reads_of_minify {condenser : Condenser} {source out : String}
    (h : condenser.minify source = .ok out) : ∃ as, Reads .start as ∧ script as = source.toList ∧
      out.toList = emit none .none (condenser.pieces (locate 0 as)) := by
  obtain ⟨segments, hscan⟩ := exists_scan_of_minify h
  obtain ⟨ls, -, hreads, hscript⟩ := reads_of_scan hscan
  rw [Condenser.minify, ← hscript, condense_of_reads condenser hreads] at h
  exact ⟨atoms ls, hreads, hscript, by rw [← Except.ok.inj h, String.toList_ofList]⟩

/-- Condensing never makes a script longer by more than the newline at the end, and not at all if
the script is empty or ends in a blank. -/
theorem minify_utf8ByteSize_le {condenser : Condenser} {source out : String}
    (h : condenser.minify source = .ok out) :
    out.utf8ByteSize ≤ source.utf8ByteSize + 1 ∧
    ((source = "" ∨ ∃ c, source.toList.getLast? = some c ∧ Text.isBlank c = true) →
      out.utf8ByteSize ≤ source.utf8ByteSize) := by
  obtain ⟨as, hreads, hscript, hout⟩ := exists_reads_of_minify h
  have hfits : ∀ a ∈ as, ∃ operand cs, Fits operand a cs := fun _ ha => hreads.exists_fits ha
  rw [Text.utf8ByteSize_eq_byteLength, Text.utf8ByteSize_eq_byteLength, hout]
  constructor
  · have hle := byteLength_emit_le condenser hfits 0 none .none
    rw [hscript] at hle
    simp only [Gap.allowance] at hle
    omega
  · rintro (rfl | ⟨c, hlast, hc⟩)
    · obtain rfl := hreads.eq_nil hscript
      exact Nat.le_refl 0
    · rw [← hscript] at hlast
      have hle := byteLength_emit_le_of_isBlank condenser hfits hlast hc 0 none .none
      rw [hscript] at hle
      simp only [Gap.allowance] at hle
      omega

/-- A comment that is kept, a gap that only a comment leaves, and a blank at the end of a line
comment. -/
theorem minify_utf8ByteSize_le_comments :
    Condenser.minify ⟨["-a-"]⟩ "/*-a-*/x/**/y// " = .ok "/*-a-*/x y\n" ∧
      (∃ c, "/*-a-*/x/**/y// ".toList.getLast? = some c ∧ Text.isBlank c = true) ∧
      "/*-a-*/x y\n".utf8ByteSize ≤ "/*-a-*/x/**/y// ".utf8ByteSize + 1 ∧
      "/*-a-*/x y\n".utf8ByteSize ≤ "/*-a-*/x/**/y// ".utf8ByteSize := by
  have hmin : Condenser.minify ⟨["-a-"]⟩ "/*-a-*/x/**/y// " = .ok "/*-a-*/x y\n" := by
    decide +kernel
  have hblank : ∃ c, "/*-a-*/x/**/y// ".toList.getLast? = some c ∧ Text.isBlank c = true :=
    ⟨' ', by decide +kernel, by decide⟩
  obtain ⟨hnewline, hle⟩ := minify_utf8ByteSize_le hmin
  exact ⟨hmin, hblank, hnewline, hle (.inr hblank)⟩

/-- Where nothing is dropped, the newline is one byte more. -/
example : Condenser.minify ⟨[]⟩ "x y" = .ok "x y\n" := by decide +kernel

end LocaleScript.Script
