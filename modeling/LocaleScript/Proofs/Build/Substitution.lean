import LocaleScript.Build.Transform
import LocaleScript.Proofs.Build.Marks
import LocaleScript.Proofs.Script.Enclosure
import LocaleScript.Proofs.Text.Position
import Mathlib.Control.Monad.Basic

/-!
# Putting in the module definition

Markers are replaced wherever they stand. If each of them ends a comment, the script that results
scans, its literals are those of the script, and it can be condensed
(`exists_reads_substitute`): the comment that a marker ends now ends with the first comment of
the replacement, and a line break and another comment follow.
-/

namespace LocaleScript.Build

open Script ModuleMarker

/-! ## Comments that take the place of others -/

theorem isBlockRest_of_fits {operand : Bool} {t cs : List Char}
    (h : Fits operand ⟨.blockComment, '/' :: '*' :: t⟩ cs) : IsBlockRest t := by
  obtain ⟨c, t', htext, -, hcut⟩ := h
  obtain ⟨rfl, rfl⟩ := List.cons.inj htext
  obtain ⟨t₁, ht, hcut⟩ := keep_eq_some hcut
  obtain ⟨-, rfl⟩ := List.cons.inj ht
  exact isBlockRest_of_cut hcut

/-- A comment may end otherwise if what ends it begins alike. -/
theorem isBlockRest_replace_end {b x x' : List Char} (h : IsBlockRest (b ++ x))
    (hx : 2 ≤ x.length) (hhead : x'.head? = x.head?) (hx' : IsBlockRest x') :
    IsBlockRest (b ++ x') := by
  induction b with
  | nil => exact hx'
  | cons c b ih =>
    rw [List.cons_append] at h ⊢
    generalize hcs : b ++ x = cs at h
    cases h with
    | close =>
      have hlength := congrArg List.length hcs
      simp only [List.length_cons, List.length_nil, List.length_append] at hlength
      omega
    | char hs rest =>
      subst hcs
      rw [← head?_append_congr b hhead] at hs
      exact .char hs (ih rest)

/-! ## The comment that a marker ends -/

/-- The atoms that a comment becomes whose end is a marker behind `before`. -/
def substituted (a : Lexeme) (before : List Char) : List Lexeme :=
  [⟨a.kind, before ++ firstComment⟩, codeChar '\n', ⟨.blockComment, secondComment⟩]

theorem script_substituted (a : Lexeme) (before : List Char) :
    script (substituted a before) = before ++ replacement.toList := by
  rw [replacement_toList]
  simp only [substituted, script_cons, script_nil, codeChar_text, List.append_nil,
    List.append_assoc, List.singleton_append]

theorem exists_firstComment_eq : ∃ t, firstComment = '/' :: '*' :: t ∧ IsBlockRest t :=
  ⟨_, firstComment_eq, by decide⟩

theorem exists_secondComment_eq : ∃ t, secondComment = '/' :: '*' :: t ∧ IsBlockRest t :=
  ⟨_, secondComment_eq, by decide⟩

/-- A block comment that a marker ends is one with the first comment of the replacement, too. -/
theorem fits_firstComment_of_block {operand : Bool} {before text cs : List Char}
    (h : Fits operand ⟨.blockComment, before ++ text⟩ cs) (htext : IsMarker text)
    (cs' : List Char) : Fits operand ⟨.blockComment, before ++ firstComment⟩ cs' := by
  obtain ⟨inner, rfl, -⟩ := htext.inner
  obtain ⟨tail, htail, hrest⟩ := exists_firstComment_eq
  obtain ⟨t, ht⟩ := h.blockComment_text rfl
  replace ht : before ++ ('/' :: '*' :: '<' :: inner ++ ['*', '/']) = '/' :: '*' :: t := ht
  rw [ht] at h
  match before with
  | [] =>
    rw [List.nil_append, htail]
    exact fits_blockComment hrest operand cs'
  | [c] => cases (List.cons.inj (List.cons.inj ht).2).1
  | c :: d :: b =>
    -- The marker stands behind the star that opens the comment, so only its end is cut anew.
    obtain ⟨rfl, ht'⟩ := List.cons.inj ht
    obtain ⟨rfl, rfl⟩ := List.cons.inj ht'
    have hfirst : IsBlockRest firstComment := by
      rw [firstComment_eq]
      decide
    exact fits_blockComment (isBlockRest_replace_end (isBlockRest_of_fits h) (by simp)
      (by rw [htail]; rfl) hfirst) operand cs'

/-- A line comment that a marker ends is one with the first comment of the replacement, if a newline
follows. -/
theorem fits_firstComment_of_line {operand : Bool} {before text cs cs' : List Char}
    (h : Fits operand ⟨.lineComment, before ++ text⟩ cs) (htext : IsMarker text)
    (hnext : cs'.head? = some '\n') :
    Fits operand ⟨.lineComment, before ++ firstComment⟩ cs' := by
  obtain ⟨inner, rfl, -⟩ := htext.inner
  obtain ⟨tail, htail, -⟩ := exists_firstComment_eq
  obtain ⟨t, ht⟩ := h.lineComment_text rfl
  have hn := h.newline_not_mem rfl
  replace ht : before ++ ('/' :: '*' :: '<' :: inner ++ ['*', '/']) = '/' :: '/' :: t := ht
  match before with
  | [] => cases (List.cons.inj (List.cons.inj ht).2).1
  | c :: b =>
    obtain ⟨rfl, hb⟩ := List.cons.inj ht
    -- The second slash may be that of the marker; the replacement begins with one, too.
    have hhead : (b ++ firstComment).head? = some '/' :=
      (head?_append_congr b (by rw [htail]; rfl)).trans (congrArg List.head? hb)
    obtain ⟨t', ht'⟩ := List.head?_eq_some_iff.mp hhead
    obtain ⟨ds, rfl⟩ := List.head?_eq_some_iff.mp hnext
    have hfirst : '\n' ∉ firstComment := by
      rw [firstComment_eq]
      decide
    rw [List.cons_append, ht']
    refine fits_lineComment (fun hmem => ?_) operand ds
    have hmem' : '\n' ∈ b ++ firstComment := ht' ▸ List.mem_cons_of_mem _ hmem
    rcases List.mem_append.mp hmem' with hb' | hf
    · exact hn (List.mem_append_left _ (.tail _ hb'))
    · exact hfirst hf

/-- A comment that ends with the first comment of the replacement is a comment before a newline. -/
theorem fits_firstComment {operand : Bool} {a : Lexeme} {cs cs' : List Char} (h : Fits operand a cs)
    (hcomment : a.kind.isComment = true) {before text : List Char} (htext : IsMarker text)
    (ha : a.text = before ++ text) (hnext : cs'.head? = some '\n') :
    Fits operand ⟨a.kind, before ++ firstComment⟩ cs' := by
  obtain ⟨kind, atext⟩ := a
  obtain rfl : atext = before ++ text := ha
  rcases Kind.isComment_iff.mp hcomment with hk | hk
  · obtain rfl : kind = .lineComment := hk
    exact fits_firstComment_of_line h htext hnext
  · obtain rfl : kind = .blockComment := hk
    exact fits_firstComment_of_block h htext cs'

/-- Comments and newlines leave the state behind a comment. -/
theorem afterAll_substituted {a : Lexeme} (h : a.kind.isComment = true) (before : List Char)
    (r : Reading) : r.afterAll (substituted a before) = r.after a := by
  have hkind := Kind.isComment_iff.mp h
  have hfirst : r.after ⟨a.kind, before ++ firstComment⟩ = ⟨r.operand, []⟩ := after_comment r hkind
  simp only [substituted, Reading.afterAll_cons, Reading.afterAll_nil]
  rw [hfirst, after_asciiBlank _ (by decide), after_comment _ (.inr rfl), after_comment r hkind]

theorem reads_substituted {r : Reading} {a : Lexeme} {as cs : List Lexeme}
    (h : Fits r.operand a (script cs)) (hcomment : a.kind.isComment = true)
    {before text : List Char} (htext : IsMarker text) (ha : a.text = before ++ text)
    (hrest : Reads (r.afterAll (substituted a before)) as) :
    Reads r (substituted a before ++ as) := by
  obtain ⟨t, ht, hsecond⟩ := exists_secondComment_eq
  refine .cons (fits_firstComment h hcomment htext ha rfl)
    (.cons (fits_of_plain (by decide) _ _) (.cons ?_ hrest))
  rw [ht]
  exact fits_blockComment hsecond _ _

theorem isLiteral_of_isComment {kind : Kind} (h : kind.isComment = true) :
    kind.isLiteral = false := by
  rcases Kind.isComment_iff.mp h with rfl | rfl <;> rfl

theorem filter_substituted {a : Lexeme} (h : a.kind.isComment = true) (before : List Char) :
    (substituted a before).filter (·.kind.isLiteral) = [] := by
  refine List.filter_eq_nil_iff.mpr fun b hb => ?_
  rcases List.mem_cons.mp hb with rfl | hb
  · rw [isLiteral_of_isComment h]
    exact Bool.false_ne_true
  · rcases List.mem_cons.mp hb with rfl | hb
    · exact Bool.false_ne_true
    · rw [List.mem_singleton.mp hb]
      exact Bool.false_ne_true

/-! ## The atoms of the script that results -/

/-- Where the first marker that begins in an atom ends a comment, that comment is the atom. -/
theorem comment_of_mark {r : Reading} {a : Lexeme} {as : List Lexeme} (h : Reads r (a :: as))
    {before text rest : List Char} (htext : IsMarker text)
    (hscript : a.text ++ script as = before ++ text ++ rest)
    (hbegins : Text.byteLength before < Text.byteLength a.text) {offset : Nat} {s : Segment}
    (hs : s ∈ locate offset (a :: as)) (hcomment : s.kind.isComment = true)
    (hstop : s.stop = offset + Text.byteLength (before ++ text)) :
    a.kind.isComment = true ∧ a.text = before ++ text ∧ script as = rest := by
  rcases List.mem_cons.mp hs with rfl | hs
  · have hlength : Text.byteLength a.text = Text.byteLength (before ++ text) :=
      Nat.add_left_cancel hstop
    exact ⟨hcomment, Text.append_inj_of_byteLength hscript hlength⟩
  -- A comment further behind would begin with a slash inside the marker.
  exfalso
  obtain ⟨pre, b, post, rfl, rfl⟩ := exists_of_mem_locate hs
  obtain ⟨-, hrest⟩ := reads_cons_iff.mp h
  obtain ⟨hb, -⟩ := reads_cons_iff.mp hrest.append_right
  obtain ⟨d, e, hbtext⟩ : ∃ d e, b.text = '/' :: d :: e := by
    rcases Kind.isComment_iff.mp hcomment with hk | hk
    · obtain ⟨t, ht⟩ := hb.lineComment_text hk
      exact ⟨_, _, ht⟩
    · obtain ⟨t, ht⟩ := hb.blockComment_text hk
      exact ⟨_, _, ht⟩
  have hparts : (before ++ text) ++ rest = (a.text ++ (script pre ++ b.text)) ++ script post := by
    rw [← hscript, script_append, script_cons]
    simp only [List.append_assoc]
  have hlength : Text.byteLength (before ++ text)
      = Text.byteLength (a.text ++ (script pre ++ b.text)) := by
    simp only [Segment.stop, Text.byteLength_append] at hstop ⊢
    omega
  have hprefix := (Text.append_inj_of_byteLength hparts hlength).1
  rcases List.append_eq_append_iff.mp hprefix with ⟨x, hx, htail⟩ | ⟨y, hy, -⟩
  · have hslash : text = (x ++ script pre) ++ '/' :: d :: e := by
      rw [htail, hbtext, List.append_assoc]
    rcases htext.slash hslash with hnil | hnil
    · rw [(List.append_eq_nil_iff.mp hnil).1, List.append_nil] at hx
      rw [hx] at hbegins
      exact absurd hbegins (Nat.lt_irrefl _)
    · cases hnil
  · rw [hy, Text.byteLength_append] at hbegins
    omega

/-- A row of atoms is what a script is read as once its markers are replaced: it has the same
literals and, for the atom in front, the same first character. -/
structure ReadsSubstituted (r : Reading) (as as' : List Lexeme) : Prop where
  reads : Reads r as'
  text : script as' = substitute (script as)
  literals : as'.filter (·.kind.isLiteral) = as.filter (·.kind.isLiteral)
  head : (script as').head? = (script as).head?

/-- Every marker of the atoms ends a comment among them. -/
def MarkersEndAtoms (offset : Nat) (as : List Lexeme) : Prop :=
  ∀ m ∈ marks offset (script as),
    ∃ s ∈ locate offset as, s.kind.isComment = true ∧ s.stop = m.stop

/-- A marker that begins behind the first atom ends a comment behind it. -/
theorem MarkersEndAtoms.tail {offset : Nat} {a : Lexeme} {as : List Lexeme}
    (h : MarkersEndAtoms offset (a :: as))
    (hmarks : ∀ m ∈ marks (offset + Text.byteLength a.text) (script as),
      m ∈ marks offset (a.text ++ script as)) :
    MarkersEndAtoms (offset + Text.byteLength a.text) as := by
  intro m hm
  obtain ⟨s, hs, hcomment, hstop⟩ := h m (hmarks m hm)
  rcases List.mem_cons.mp hs with rfl | hs
  · have hle := start_le_of_mem_marks hm
    have hpos := (isMarker_of_mem_marks hm).byteLength_pos
    simp only [Segment.stop, Mark.stop] at hstop
    omega
  · exact ⟨s, hs, hcomment, hstop⟩

/-- An atom in front of which no marker begins stays. -/
theorem ReadsSubstituted.pass {r : Reading} {a : Lexeme} {as as' : List Lexeme}
    (fits : Fits r.operand a (script as)) (h : ReadsSubstituted (r.after a) as as')
    (hsub : substitute (a.text ++ script as) = a.text ++ substitute (script as)) :
    ReadsSubstituted r (a :: as) (a :: as') where
  reads := .cons (fits.congr h.head) h.reads
  text := by rw [script_cons, script_cons, h.text, hsub]
  literals := by rw [List.filter_cons, List.filter_cons, h.literals]
  head := head?_append_congr a.text h.head

/-- A comment that ends with a marker becomes two comments on lines of their own. -/
theorem ReadsSubstituted.replace {r : Reading} {a : Lexeme} {as as' : List Lexeme}
    (fits : Fits r.operand a (script as)) (hcomment : a.kind.isComment = true)
    {before text : List Char} (htext : IsMarker text) (ha : a.text = before ++ text)
    (h : ReadsSubstituted (r.after a) as as')
    (hsub : substitute (a.text ++ script as)
      = before ++ replacement.toList ++ substitute (script as)) :
    ReadsSubstituted r (a :: as) (substituted a before ++ as') where
  reads := reads_substituted fits hcomment htext ha
    (afterAll_substituted hcomment before r ▸ h.reads)
  text := by rw [script_append, script_substituted, h.text, script_cons, hsub]
  literals := by
    have hliteral := isLiteral_of_isComment hcomment
    rw [List.filter_append, filter_substituted hcomment, List.nil_append, h.literals,
      List.filter_cons_of_neg (by rw [hliteral]; exact Bool.false_ne_true)]
  head := by
    obtain ⟨inner, rfl, -⟩ := htext.inner
    rw [script_append, script_substituted, script_cons, ha, List.append_assoc, List.append_assoc,
      replacement_toList]
    exact head?_append_congr before rfl

/-- Replacing markers that end comments leaves a script that is read alike. -/
theorem exists_reads_substitute {r : Reading} {as : List Lexeme} (h : Reads r as) {offset : Nat}
    (hends : MarkersEndAtoms offset as) : ∃ as', ReadsSubstituted r as as' := by
  induction h generalizing offset with
  | nil r => exact ⟨[], .nil r, substitute_nil.symm, rfl, rfl⟩
  | @cons r a as fits rest ih =>
    have hpass (hle : ∀ m ∈ marks offset (a.text ++ script as),
        offset + Text.byteLength a.text ≤ m.start) : ∃ as', ReadsSubstituted r (a :: as) as' := by
      obtain ⟨hmarks, hsub⟩ := marks_append hle
      obtain ⟨as', has'⟩ := ih (hends.tail fun m hm => hmarks ▸ hm)
      exact ⟨a :: as', .pass fits has' hsub⟩
    rcases marks_cases offset (a.text ++ script as) with ⟨hnone, -⟩ |
      ⟨before, text, behind, hcs, htext, hmarks, hsub⟩
    · exact hpass fun m hm => nomatch hnone ▸ hm
    by_cases hbegins : Text.byteLength before < Text.byteLength a.text
    · have hmem : ⟨offset + Text.byteLength before, text⟩ ∈ marks offset (a.text ++ script as) := by
        rw [hmarks]
        exact .head _
      obtain ⟨s, hs, hcomment, hstop⟩ := hends _ hmem
      obtain ⟨hacomment, hatext, rfl⟩ := comment_of_mark (.cons fits rest) htext hcs hbegins hs
        hcomment (by rw [hstop, Mark.stop, Text.byteLength_append, Nat.add_assoc])
      rw [← hatext] at hmarks
      obtain ⟨as', has'⟩ := ih (hends.tail fun m hm => hmarks ▸ .tail _ hm)
      exact ⟨substituted a before ++ as', .replace fits hacomment htext hatext has' hsub⟩
    · refine hpass fun m hm => ?_
      rw [hmarks] at hm
      rcases List.mem_cons.mp hm with rfl | hm
      · exact Nat.add_le_add_left (Nat.le_of_not_lt hbegins) _
      · have hle := start_le_of_mem_marks hm
        rw [Text.byteLength_append] at hle
        omega

/-! ## Transforms of compiled scripts -/

/-- Every marker that is replaced ends a comment of the script. -/
def MarkersEndComments (code : List Char) (segments : List Segment) : Prop :=
  ∀ m ∈ marks 0 code, ∃ s ∈ segments, s.kind.isComment = true ∧ s.stop = m.stop

theorem exists_condense (condenser : Condenser) {source : String} {segments : List Segment}
    (h : scan source.toList = .ok segments) : ∃ out, condenser.minify source = .ok out := by
  rw [Condenser.minify, Condenser.condense, h]
  exact ⟨_, rfl⟩

/-- What is put in where markers end comments touches no literal, and what follows cannot fail. -/
theorem substitution_of_markersEndComments {source : String} {request : Request}
    {compiled : Compiled} (h : wrap source request = .ok compiled) :
    ∃ segments, scan compiled.code.toList = .ok segments ∧
      (MarkersEndComments compiled.code.toList segments →
        ∃ file segments', Transform.moduleDefinition.apply compiled = .ok file ∧
          scan file.code.toList = .ok segments' ∧ literals segments' = literals segments ∧
          ∀ condenser : Condenser, ∃ out, Transform.applyAll
            [.moduleDefinition, .minify condenser.minify] compiled = .ok out) := by
  obtain ⟨as, hreads, hscript⟩ := exists_reads_of_wrap h
  obtain ⟨ls, hscan, hatoms⟩ := scan_script hreads
  rw [hscript] at hscan
  refine ⟨_, hscan, fun hends => ?_⟩
  have hends' : MarkersEndAtoms 0 as := by
    intro m hm
    obtain ⟨s, hs, hcomment, hstop⟩ := hends m (hscript ▸ hm)
    refine ⟨s, hatoms ▸ mem_locate_atoms hs ?_, hcomment, hstop⟩
    intro hcode
    rw [hcode] at hcomment
    cases hcomment
  obtain ⟨as', has', hscript', hlit, -⟩ := exists_reads_substitute hreads hends'
  obtain ⟨ls', hscan', hatoms'⟩ := scan_script has'
  have hcode : (String.ofList (substitute compiled.code.toList)).toList = script as' := by
    rw [String.toList_ofList, hscript', hscript]
  rw [← hcode] at hscan'
  refine ⟨_, _, rfl, hscan', ?_, fun condenser => ?_⟩
  · rw [literals_locate, literals_locate, hatoms', hatoms, hlit]
  · obtain ⟨out, hout⟩ := exists_condense condenser hscan'
    refine ⟨{ compiled with code := out }, ?_⟩
    change (Except.map _ (ofMinify (condenser.minify _))).bind _ = _
    rw [hout]
    rfl

/-- A script whose marker is a comment. -/
theorem substitution_of_markersEndComments_comment :
    ∃ compiled, wrap "a(); /*<<module_def>> */" ⟨true, false, ""⟩ = .ok compiled ∧
      ∀ condenser : Condenser, ∃ out, Transform.applyAll
        [.moduleDefinition, .minify condenser.minify] compiled = .ok out := by
  have hclosed : closeLastLine "a(); /*<<module_def>> */" = "a(); /*<<module_def>> */\n" := by
    decide +kernel
  have hwrap : wrap "a(); /*<<module_def>> */" ⟨true, false, ""⟩
      = .ok ⟨"a(); /*<<module_def>> */\n", none⟩ := by
    rw [wrap_bare (by decide +kernel), hclosed]
  have hscan : scan "a(); /*<<module_def>> */\n".toList = .ok [⟨.code, 0, "a(); ".toList⟩,
      ⟨.blockComment, 5, "/*<<module_def>> */".toList⟩, ⟨.code, 24, "\n".toList⟩] := by
    decide +kernel
  obtain ⟨segments, hscan', hthen⟩ := substitution_of_markersEndComments hwrap
  obtain rfl := Except.ok.inj (hscan.symm.trans hscan')
  obtain ⟨-, -, -, -, -, hall⟩ := hthen (by unfold MarkersEndComments; decide +kernel)
  exact ⟨_, hwrap, hall⟩

/-- A marker in a string: the line break of the replacement leaves the string open. -/
theorem applyAll_string_marker :
    ∃ compiled, wrap "'/*<<module_def>> */'" ⟨true, false, ""⟩ = .ok compiled ∧
      Transform.applyAll [.moduleDefinition, .minify (Condenser.minify ⟨[]⟩)] compiled
        = .error (.minify ⟨0, "unterminated string literal"⟩) := by
  have hclosed : closeLastLine "'/*<<module_def>> */'" = "'/*<<module_def>> */'\n" := by
    decide +kernel
  have hsub : substitute "'/*<<module_def>> */'\n".toList
      = "'/*-module-*/\n/*_lib/twitter_cldr_*/'\n".toList := by decide +kernel
  have hscan : scan "'/*-module-*/\n/*_lib/twitter_cldr_*/'\n".toList = .error ⟨0, .string⟩ := by
    decide +kernel
  refine ⟨_, wrap_bare (by decide +kernel) "", ?_⟩
  change (Except.map _ (ofMinify (Condenser.minify ⟨[]⟩ (String.ofList (substitute _))))).bind _ = _
  rw [hclosed, hsub, Condenser.minify, Condenser.condense, String.toList_ofList, hscan]
  rfl

end LocaleScript.Build
