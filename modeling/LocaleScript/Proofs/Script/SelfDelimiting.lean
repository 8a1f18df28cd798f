import LocaleScript.Proofs.Script.ByteReading
import LocaleScript.Proofs.Script.Neighbour
import Mathlib.Control.Monad.Basic

/-!
# Literals delimit themselves

Where a literal or a comment ends is decided by its own text. Taken out of its script it is read as
one region again (`scan_of_fits`). Cut short it is not, if it has a closing mark: what is cut off
from a beginning of the text is cut off from the text as well, so nothing but the whole text ends
(`Kind.cut_beginning`).
-/

namespace LocaleScript.Script

/-! ## A region on its own -/

/-- Where an operand may begin, a literal or comment is read as it was. -/
theorem Fits.of_operand {operand : Bool} {a : Lexeme} {cs : List Char} (h : Fits operand a cs)
    (hk : a.kind ≠ .code) : Fits true a cs := by
  obtain ⟨c, t, htext, hopened, hcut⟩ := h
  refine ⟨c, t, htext, ?_, hcut⟩
  by_cases hc : c = '/'
  · subst hc
    have hcode : Kind.opened operand '/' (t ++ cs) ≠ .code := by
      rw [hopened]
      exact hk
    rw [opened_slash_congr rfl hcode fun _ => rfl, hopened]
  · rw [opened_of_ne_slash hc true operand _ (t ++ cs), hopened]

/-- A region that ends with the text is all that is read. -/
theorem scan_of_fits {a : Lexeme} (h : Fits true a []) (hk : a.kind ≠ .code) :
    scan a.text = .ok [⟨a.kind, 0, a.text⟩] := by
  obtain ⟨c, t, htext, hopened, hcut⟩ := h
  rw [List.append_nil] at hopened hcut
  rw [Kind.cutAtom_of_ne hk, ← hopened] at hcut
  have hlex : lex true (c :: t) = ⟨[⟨a.kind, c :: t⟩], none⟩ := by
    rw [lex_cons_some hcut, hopened, lex_nil]
    rfl
  rw [htext, scan, hlex]
  rfl

/-- A region that does not end leaves nothing to be read before it. -/
theorem scan_of_cut_eq_none {c : Char} {rest : List Char}
    (h : (Kind.opened true c rest).cut c rest = none) :
    scan (c :: rest) = .error ⟨0, Kind.opened true c rest⟩ := by
  rw [scan, lex_cons_none h]
  rfl

/-! ## A region cut short -/

/-- Regions of this kind end with a closing mark: a quote, or a star and a slash. -/
def Kind.hasCloser : Kind → Bool
  | .string | .template | .blockComment => true
  | .code | .regex | .lineComment => false

theorem Kind.ne_code_of_hasCloser {kind : Kind} (h : kind.hasCloser = true) : kind ≠ .code := by
  rintro rfl
  cases h

theorem Kind.endsBefore_of_hasCloser {kind : Kind} (h : kind.hasCloser = true)
    (next : Option Char) :
    kind.endsBefore next = true := by
  cases kind with
  | string | template | blockComment => rfl
  | code | regex | lineComment => cases h

/-- A text that ends with its closing mark does not end before. -/
theorem Kind.cut_beginning {kind : Kind} (hk : kind.hasCloser = true) {c : Char} {t q : List Char}
    (h : kind.cut c t = some (t, [])) (hq : q <+: t) (hne : q ≠ t) : kind.cut c q = none := by
  cases hcut : kind.cut c q with
  | none => rfl
  | some p =>
    obtain ⟨taken, left⟩ := p
    obtain ⟨rest, rfl⟩ := hq
    -- What was cut off from the beginning is cut off from the text as well, and that leaves
    -- nothing.
    have hagain := Kind.cut_tail (Kind.ne_code_of_hasCloser hk) hcut
      (Kind.endsBefore_of_hasCloser hk (left ++ rest).head?)
    rw [← List.append_assoc, Kind.cut_append hcut, h] at hagain
    have hleft : left ++ rest = [] := (Prod.mk.inj (Option.some.inj hagain)).2.symm
    rw [(List.append_eq_nil_iff.mp hleft).2, List.append_nil] at hne
    exact absurd rfl hne

/-- A beginning of a literal or block comment does not end. It is of the same kind, but for the
slash of a comment, which would open a regular expression. -/
theorem scan_beginning {a : Lexeme} (h : Fits true a []) (hk : a.kind.hasCloser = true)
    {p : List Char} (hp : p <+: a.text) (hne : p ≠ []) (hproper : p ≠ a.text) :
    scan p = .error ⟨0, if p = ['/'] then .regex else a.kind⟩ := by
  obtain ⟨c, t, htext, hopened, hcut⟩ := h
  rw [List.append_nil] at hopened hcut
  rw [Kind.cutAtom_of_ne (Kind.ne_code_of_hasCloser hk)] at hcut
  rw [htext] at hp hproper
  cases p with
  | nil => exact absurd rfl hne
  | cons d q =>
    obtain ⟨rfl, hq⟩ := List.cons_prefix_cons.mp hp
    have hnone : a.kind.cut d q = none :=
      Kind.cut_beginning hk hcut hq fun h => hproper (by rw [h])
    -- The slash of a comment without its star opens a regular expression.
    by_cases hslash : d :: q = ['/']
    · obtain ⟨rfl, rfl⟩ := List.cons.inj hslash
      exact scan_of_cut_eq_none rfl
    · have hkind : Kind.opened true d q = a.kind := by
        rw [← hopened]
        by_cases hd : d = '/'
        · have hq' : q ≠ [] := by
            rintro rfl
            exact hslash (by rw [hd])
          obtain ⟨rest, hrest⟩ := hq
          have hhead := head?_append_eq_of_append_eq hq' hrest []
          rw [List.append_nil] at hhead
          exact opened_congr hhead true d
        · exact opened_of_ne_slash hd true true q t
      rw [if_neg hslash, ← hkind]
      exact scan_of_cut_eq_none (by rw [hkind]; exact hnone)

/-! ## The regions of a script -/

/-- A literal or comment of a script is read there as it is. -/
theorem exists_fits_of_mem {source : List Char} {segments : List Segment}
    (h : scan source = .ok segments) {s : Segment} (hs : s ∈ segments) (hk : s.kind ≠ .code) :
    ∃ operand cs, Fits operand s.lexeme cs := by
  obtain ⟨ls, rfl, hreads, -⟩ := reads_of_scan h
  obtain ⟨before, l, behind, hatoms, rfl⟩ := exists_of_mem_locate (mem_locate_atoms hs hk)
  have hl : l ∈ atoms ls := by rw [hatoms]; exact List.mem_append_right _ (.head _)
  exact hreads.exists_fits hl

/-- A literal or comment of a script, scanned on its own, is one segment of its kind. If it has a
closing mark, then no part from its beginning on scans but all of it. -/
theorem scan_region_alone {source : List Char} {segments : List Segment}
    (h : scan source = .ok segments) {s : Segment} (hs : s ∈ segments) (hk : s.kind ≠ .code) :
    scan s.text = .ok [⟨s.kind, 0, s.text⟩] ∧
      (s.kind.hasCloser = true → ∀ p, p <+: s.text → p ≠ [] → p ≠ s.text →
        scan p = .error ⟨0, if p = ['/'] then .regex else s.kind⟩) := by
  obtain ⟨operand, cs, hfits⟩ := exists_fits_of_mem h hs hk
  have halone : Fits true s.lexeme [] := hfits.at_end.of_operand hk
  refine ⟨scan_of_fits halone hk, ?_⟩
  intro hcloser p hp hne hproper
  exact scan_beginning halone hcloser hp hne hproper

/-- A quote behind a backslash ends nothing, behind an operand as at the beginning. -/
theorem scan_region_alone_escaped :
    scan "a + '\\'/*' // b".toList = .ok [⟨.code, 0, "a + ".toList⟩, ⟨.string, 4, "'\\'/*'".toList⟩,
        ⟨.code, 10, " ".toList⟩, ⟨.lineComment, 11, "// b".toList⟩] ∧
      scan "'\\'/*'".toList = .ok [⟨.string, 0, "'\\'/*'".toList⟩] ∧
      scan "'\\'".toList = .error ⟨0, .string⟩ := by
  have hscan : scan "a + '\\'/*' // b".toList = .ok [⟨.code, 0, "a + ".toList⟩,
      ⟨.string, 4, "'\\'/*'".toList⟩, ⟨.code, 10, " ".toList⟩,
      ⟨.lineComment, 11, "// b".toList⟩] := by
    decide +kernel
  obtain ⟨halone, hcut⟩ := scan_region_alone hscan (.tail _ (.head _)) (by decide)
  exact ⟨hscan, halone, hcut rfl _ ⟨"/*'".toList, by decide⟩ (by decide) (by decide)⟩

end LocaleScript.Script
