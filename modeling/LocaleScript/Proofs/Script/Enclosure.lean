import LocaleScript.Proofs.Script.Nesting
import LocaleScript.Script.Wrapper

/-!
# Compiled scripts scan

A script that is compiled is one that scans, and so is the compiled script: the scope around it
consists of plain code, behind whose first line an operand may begin, as at the beginning of a
script, and the script inside is closed by a newline (`exists_reads_of_wrap`).
-/

namespace LocaleScript.Script

/-- A text that ends in a newline ends in one of code. -/
theorem getLast?_eq_newline {r : Reading} {as : List Lexeme} (h : Reads r as)
    (hlast : (script as).getLast? = some '\n') : as.getLast? = some (codeChar '\n') := by
  cases has : as.getLast? with
  | none =>
    rw [List.getLast?_eq_none_iff.mp has] at hlast
    cases hlast
  | some a =>
    obtain ⟨init, rfl⟩ := List.getLast?_eq_some_iff.mp has
    obtain ⟨hfits, -⟩ := reads_cons_iff.mp h.append_right
    rw [script_append, script_cons, script_nil, List.append_nil, List.getLast?_append,
      List.getLast?_eq_some_getLast hfits.text_ne_nil, Option.some_or] at hlast
    by_cases hcode : a.kind = .code
    · obtain ⟨c, rfl⟩ := hfits.eq_codeChar hcode
      rw [show c = '\n' from Option.some.inj hlast]
    by_cases hline : a.kind = .lineComment
    · refine absurd ?_ (hfits.newline_not_mem hline)
      rw [← Option.some.inj hlast]
      exact List.getLast_mem hfits.text_ne_nil
    · obtain ⟨c, hc, hblank⟩ := hfits.getLast? hcode hline
      rw [List.getLast?_eq_some_getLast hfits.text_ne_nil, hlast] at hc
      exact absurd (Option.some.inj hc).symm (Text.ne_newline_of_not_isBlank hblank)

/-- The atoms of a script with a newline behind its last line. -/
def closed (as : List Lexeme) : List Lexeme :=
  if (script as).getLast?.all (· == '\n') then as else as ++ [codeChar '\n']

theorem closed_cases {r : Reading} {as : List Lexeme} (h : Reads r as) :
    as = [] ∧ closed as = [] ∨ ∃ init, closed as = init ++ [codeChar '\n'] ∧
      (as = init ∨ as = init ++ [codeChar '\n']) := by
  unfold closed
  split
  · next hclosed =>
    cases hlast : (script as).getLast? with
    | none =>
      have hnil := h.eq_nil (List.getLast?_eq_none_iff.mp hlast)
      exact .inl ⟨hnil, hnil⟩
    | some c =>
      rw [hlast] at hclosed
      obtain rfl : c = '\n' := by simpa using hclosed
      obtain ⟨init, hinit⟩ := List.getLast?_eq_some_iff.mp (getLast?_eq_newline h hlast)
      exact .inr ⟨init, hinit, .inr hinit⟩
  · exact .inr ⟨as, rfl, .inl rfl⟩

/-- The last atom of a script whose last line ends is read wherever it stands. -/
theorem fits_of_getLast?_closed {r : Reading} {as : List Lexeme} (h : Reads r as) {a : Lexeme}
    (ha : (closed as).getLast? = some a) (operand : Bool) (cs : List Char) : Fits operand a cs := by
  rcases closed_cases h with ⟨-, hnil⟩ | ⟨init, hclosed, -⟩
  · rw [hnil] at ha
    cases ha
  · rw [hclosed, List.getLast?_concat] at ha
    rw [← Option.some.inj ha]
    exact fits_of_plain (by decide) operand cs

theorem reads_closed {r : Reading} {as : List Lexeme} (h : Reads r as) : Reads r (closed as) := by
  unfold closed
  split
  · exact h
  · refine h.append (.cons (fits_of_plain (by decide) _ _) (.nil _)) fun a operand _ hfits => ?_
    exact hfits.before_newline rfl

theorem script_closed {as : List Lexeme} {source : String} (hs : script as = source.toList) :
    script (closed as) = (closeLastLine source).toList := by
  unfold closed closeLastLine
  rw [hs]
  split
  · exact hs
  · rw [script_append, hs, String.toList_append]
    rfl

theorem scopeHead_eq :
    scopeHead.toList = ['(', 'f', 'u', 'n', 'c', 't', 'i', 'o', 'n', '(', ')', ' ', '{', '\n'] :=
  String.toList_ofList

theorem scopeTail_eq : scopeTail.toList =
    ['}', ')', '.', 'c', 'a', 'l', 'l', '(', 't', 'h', 'i', 's', ')', ';', '\n'] :=
  String.toList_ofList

theorem plain_scopeHead : Plain scopeHead.toList := by
  rw [scopeHead_eq]
  decide

theorem plain_scopeTail : Plain scopeTail.toList := by
  rw [scopeTail_eq]
  decide

/-- Behind the line that opens the scope a script is read as at its beginning. -/
theorem afterAll_scopeHead : Reading.start.afterAll (scopeHead.toList.map codeChar) = .start := by
  rw [scopeHead_eq]
  rfl

/-- The atoms of a script in a function scope, unless it is to stay bare. -/
def enclosed (bare : Bool) (as : List Lexeme) : List Lexeme :=
  if bare then closed as
  else scopeHead.toList.map codeChar ++ (closed as ++ scopeTail.toList.map codeChar)

/-- A script in its scope is read as it was, between the lines of the scope. -/
theorem reads_enclosed (bare : Bool) {as : List Lexeme} (h : Reads .start as) :
    Reads .start (enclosed bare as) := by
  unfold enclosed
  cases bare with
  | true => exact reads_closed h
  | false =>
    have htail : ∀ r, Reads r (scopeTail.toList.map codeChar ++ []) :=
      fun r => (reads_plain_iff plain_scopeTail).mpr (.nil _)
    simp only [Bool.false_eq_true, reduceIte, List.append_nil] at htail ⊢
    rw [reads_plain_iff plain_scopeHead, afterAll_scopeHead]
    refine (reads_closed h).append (htail _) fun a operand ha _ => ?_
    exact fits_of_getLast?_closed h ha _ _

theorem script_enclosed (bare : Bool) {as : List Lexeme} {source : String}
    (hs : script as = source.toList) :
    script (enclosed bare as) = (enclose bare source).toList := by
  unfold enclosed enclose
  cases bare with
  | true => exact script_closed hs
  | false =>
    simp only [script_append, script_map_codeChar, script_closed hs, String.toList_append,
      List.append_assoc, Bool.false_eq_true, reduceIte]

/-- A script that was compiled passed its check; it stands in its scope, and it has a map if one was
asked for. -/
theorem of_wrap {source : String} {request : Request} {compiled : Compiled}
    (h : wrap source request = .ok compiled) :
    checkBrackets source.toList = .ok () ∧ compiled.code = enclose request.bare source ∧
      compiled.map = if request.sourceMap then
          some (SourceMap.lineForLine request.name source (if request.bare then 0 else 1)).render
        else none := by
  unfold wrap at h
  split at h
  · cases h
  · next hcheck =>
    rw [← Except.ok.inj h]
    exact ⟨hcheck, rfl, rfl⟩

theorem wrap_of_checkBrackets {source : String} (h : checkBrackets source.toList = .ok ())
    (request : Request) :
    ∃ compiled, wrap source request = .ok compiled ∧
      compiled.code = enclose request.bare source := by
  unfold wrap
  rw [h]
  exact ⟨_, rfl, rfl⟩

theorem wrap_bare {source : String} (h : checkBrackets source.toList = .ok ()) (name : String) :
    wrap source ⟨true, false, name⟩ = .ok ⟨closeLastLine source, none⟩ := by
  unfold wrap
  rw [h]
  rfl

/-- A script that was compiled is read as a row of atoms. -/
theorem exists_reads_of_wrap {source : String} {request : Request} {compiled : Compiled}
    (h : wrap source request = .ok compiled) :
    ∃ as, Reads .start as ∧ script as = compiled.code.toList := by
  obtain ⟨hcheck, hcode, -⟩ := of_wrap h
  obtain ⟨segments, hscan⟩ := scan_of_checkBrackets hcheck
  obtain ⟨ls, -, hreads, hscript⟩ := reads_of_scan hscan
  rw [hcode]
  exact ⟨_, reads_enclosed request.bare hreads, script_enclosed request.bare hscript⟩

end LocaleScript.Script
