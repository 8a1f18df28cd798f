import LocaleScript.Proofs.Script.Enclosure
import LocaleScript.Proofs.Script.Partition

/-!
# Literals that do not end

A reading that stops inside a literal or comment has read all in front of it, and it has read that
as if the text ended there (`reads_of_unterminated`): an atom looks no further than one character
past its end, and what it is does not hang on that character being there (`Fits.cut_short`). So the
fault lies where the literal or comment opens, and both stages that scan a script report it there
(`scan_fails_where_opened`).
-/

namespace LocaleScript.Script

/-! ## The text in front of the fault -/

/-- A reading that ends inside a literal or comment reads the text in front of it from that text
alone. What follows opens a region that does not end. -/
theorem reads_of_unterminated (r : Reading) (cs : List Char) {as : List Lexeme} {kind : Kind}
    (h : readAtoms r cs = ⟨as, some kind⟩) :
    Reads r as ∧ ∃ c rest, cs = script as ++ c :: rest ∧
      Kind.opened (r.afterAll as).operand c rest = kind ∧ kind.cutAtom c rest = none := by
  induction r, cs using readAtoms_induction generalizing as with
  | nil r =>
    rw [readAtoms_nil] at h
    cases (Lexed.mk.inj h).2
  | unterminated r c rest hcut =>
    rw [readAtoms_cons_none hcut] at h
    obtain ⟨rfl, hkind⟩ := Lexed.mk.inj h
    obtain rfl := Option.some.inj hkind
    exact ⟨.nil r, c, rest, rfl, rfl, hcut⟩
  | atom r c rest taken left hcut ih =>
    rw [readAtoms_cons_some hcut] at h
    obtain ⟨as, rfl, htail⟩ := exists_of_behind_eq h
    obtain ⟨hreads, d, behind, hleft, hopened, hnone⟩ := ih htail
    have happ := Kind.cutAtom_append hcut
    have hfits : Fits r.operand ⟨Kind.opened r.operand c rest, c :: taken⟩
        (script as ++ d :: behind) := by
      rw [← hleft]
      refine ⟨c, taken, rfl, ?_, ?_⟩
      · rw [happ]
      · rw [happ]
        exact hcut
    -- The atom was read with the fault behind it. It is read as well where the text ends there.
    refine ⟨.cons hfits.cut_short hreads, d, behind, ?_, hopened, hnone⟩
    rw [script_cons, List.append_assoc, ← hleft, ← happ, List.cons_append]

/-! ## How a literal or comment opens -/

/-- What the literals and comments that may be left open begin with. -/
def Kind.openers : Kind → List (List Char)
  | .string => [['"'], ['\'']]
  | .template => [['\x60']]
  | .regex => [['/']]
  | .blockComment => [['/', '*']]
  | .code | .lineComment => []

theorem Kind.openers_ascii (kind : Kind) :
    ∀ opener ∈ kind.openers, ∀ c ∈ opener, c.toNat < 0x80 := by
  cases kind <;> simp [Kind.openers]

/-- What does not end has opened. -/
theorem exists_opener {operand : Bool} {c : Char} {rest : List Char} {kind : Kind}
    (hopened : Kind.opened operand c rest = kind) (hcut : kind.cutAtom c rest = none) :
    ∃ opener ∈ kind.openers, opener <+: c :: rest := by
  cases kind with
  | code => cases hcut
  | lineComment => cases hcut
  | string =>
    rcases beginsWith_of_opened hopened with rfl | rfl
    · exact ⟨_, .head _, rest, rfl⟩
    · exact ⟨_, .tail _ (.head _), rest, rfl⟩
  | template =>
    obtain rfl := beginsWith_of_opened hopened
    exact ⟨_, .head _, rest, rfl⟩
  | regex =>
    obtain ⟨rfl, -⟩ := beginsWith_of_opened hopened
    exact ⟨_, .head _, rest, rfl⟩
  | blockComment =>
    obtain ⟨rfl, hhead⟩ := beginsWith_of_opened hopened
    obtain ⟨rest, rfl⟩ := List.head?_eq_some_iff.mp hhead
    exact ⟨_, .head _, rest, rfl⟩

/-- ASCII characters that follow a text are the bytes at its length. -/
theorem prefix_drop_byteText {opener : List Char} (hascii : ∀ c ∈ opener, c.toNat < 0x80)
    {before behind : List Char} (h : opener <+: behind) :
    opener <+: (byteText (before ++ behind)).drop (Text.byteLength before) := by
  obtain ⟨rest, rfl⟩ := h
  have hbytes : byteText opener = opener := (byteText_eq_iff hascii opener).mpr rfl
  rw [byteText_append, byteText_append, hbytes, ← length_byteText, List.drop_left]
  exact ⟨_, rfl⟩

/-! ## Where the fault lies -/

/-- The fault lies behind this beginning of the source, where a literal or comment opens. -/
structure IsOpenedBehind (source before : List Char) (e : ScanError) : Prop where
  before_prefix : before <+: source
  offset_eq : e.offset = Text.byteLength before
  /-- The place is one inside the source, between two characters. -/
  offset_lt : e.offset < Text.byteLength source
  boundary : Text.isBoundary e.offset source = true
  /-- The bytes that stand there open a literal or comment of this kind. -/
  opens : ∃ opener ∈ e.kind.openers, opener <+: (byteText source).drop e.offset
  /-- All in front of it scans. -/
  scans : ∃ segments, scan before = .ok segments

theorem exists_of_scan_error {source : List Char} {e : ScanError} (h : scan source = .error e) :
    ∃ before c rest, source = before ++ c :: rest ∧ e.offset = Text.byteLength before ∧
      (∃ opener ∈ e.kind.openers, opener <+: c :: rest) ∧
      ∃ segments, scan before = .ok segments := by
  have hlex := lex_atoms true source
  simp only [scan] at h
  split at h
  · cases h
  · next kind hkind =>
    obtain rfl := (Except.error.inj h).symm
    rw [hkind] at hlex
    obtain ⟨hreads, c, rest, hsource, hopened, hcut⟩ := reads_of_unterminated _ _ hlex.symm
    obtain ⟨ls, hscan, -⟩ := scan_script hreads
    rw [script_atoms] at hsource hscan
    exact ⟨_, c, rest, hsource, rfl, exists_opener hopened hcut, _, hscan⟩

theorem exists_isOpenedBehind {source : List Char} {e : ScanError} (h : scan source = .error e) :
    ∃ before, IsOpenedBehind source before e := by
  obtain ⟨before, c, rest, rfl, hoffset, ⟨opener, hopener, hprefix⟩, hscan⟩ :=
    exists_of_scan_error h
  refine ⟨before, ⟨_, rfl⟩, hoffset, ?_, ?_, ⟨opener, hopener, ?_⟩, hscan⟩
  · have hpos := c.utf8Size_pos
    rw [hoffset, Text.byteLength_append, Text.byteLength_cons]
    omega
  · rw [hoffset]
    exact Text.isBoundary_append before _
  · rw [hoffset]
    exact prefix_drop_byteText (e.kind.openers_ascii opener hopener) hprefix

/-! ## Both stages report it -/

theorem checkBrackets_of_scan_error {source before : List Char} {e : ScanError}
    (h : scan source = .error e) (hbehind : IsOpenedBehind source before e) :
    checkBrackets source = .error ⟨.after before, e.message⟩ := by
  obtain ⟨rest, hsource⟩ := hbehind.before_prefix
  simp only [checkBrackets, h, SourceError.atByte, Text.Position.atByte, hbehind.offset_eq]
  rw [← hsource, Text.takeBytes_append]

/-- A script that does not scan is left open by a literal or comment, behind text that scans.
Compiling it fails at the line and column of the character that opens it, condensing it at the byte,
both with the same reason. A script that scans can always be condensed. -/
theorem scan_fails_where_opened (source : String) :
    (∀ e, scan source.toList = .error e → ∃ before, IsOpenedBehind source.toList before e ∧
      (∀ request, wrap source request
        = .error ⟨.after before, "unterminated " ++ e.kind.name⟩) ∧
      ∀ condenser : Condenser, condenser.minify source
        = .error ⟨e.offset, "unterminated " ++ e.kind.name⟩) ∧
    ∀ segments, scan source.toList = .ok segments →
      ∀ condenser : Condenser, ∃ out, condenser.minify source = .ok out := by
  constructor
  · intro e h
    obtain ⟨before, hbehind⟩ := exists_isOpenedBehind h
    refine ⟨before, hbehind, fun request => ?_, fun condenser => ?_⟩
    · unfold wrap
      rw [checkBrackets_of_scan_error h hbehind]
      rfl
    · unfold Condenser.minify Condenser.condense
      rw [h]
      rfl
  · intro segments h condenser
    exact ⟨_, minify_of_scan condenser source h⟩

/-- In front of an open string stands a division, and a character of two bytes that is one
column. -/
theorem scan_fails_where_opened_division :
    scan "é =\n a / 'b".toList = .error ⟨10, .string⟩ ∧
      (∃ segments, scan "é =\n a / ".toList = .ok segments) ∧
      wrap "é =\n a / 'b" ⟨false, true, "x"⟩ = .error ⟨⟨2, 6⟩, "unterminated string literal"⟩ ∧
      Condenser.minify ⟨["!"]⟩ "é =\n a / 'b" = .error ⟨10, "unterminated string literal"⟩ := by
  have hscan : scan "é =\n a / 'b".toList = .error ⟨10, .string⟩ := by
    decide +kernel
  obtain ⟨before, hbehind, hwrap, hminify⟩ := (scan_fails_where_opened _).1 _ hscan
  obtain ⟨rest, hsource⟩ := hbehind.before_prefix
  have hbefore : before = "é =\n a / ".toList := by
    have htake := Text.takeBytes_append before rest
    rw [hsource, ← hbehind.offset_eq] at htake
    exact htake.symm.trans (by decide)
  rw [hbefore] at hwrap hbehind
  exact ⟨hscan, hbehind.scans, hwrap _, hminify _⟩

end LocaleScript.Script
