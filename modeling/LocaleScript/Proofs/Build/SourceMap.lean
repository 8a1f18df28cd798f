import LocaleScript.Proofs.Build.LineMap
import LocaleScript.Proofs.Builtin.Fragments
import Mathlib.Control.Monad.Basic

/-!
# Whether source maps describe built scripts

The source map of a library script describes the script before markers are replaced. The script
begins with a marker, so in the file the comment behind it, and every line that follows, stands one
line further down than the map says, if no other marker makes up for it. The second line of the file
is the second comment of the replacement, and no line of the script. So the map does not describe
the file unless a marker stands on the second line of the script, which only a locale tag that holds
one can put there.
-/

namespace LocaleScript.Build

open Text Script ModuleMarker

/-! ## The beginning of a library script -/

/-- The first line of a library script. -/
def firstLine : List Char := "/*<<module_def>> */".toList

/-- How the second line of a library script begins. -/
def versionNote : List Char := "/* cldrjs 0.4.0".toList

theorem firstLine_eq : firstLine = opening ++ [' '] ++ closing := by
  rw [opening_eq, closing_eq]
  exact String.toList_ofList

theorem versionNote_eq : versionNote
    = ['/', '*', ' ', 'c', 'l', 'd', 'r', 'j', 's', ' ', '0', '.', '4', '.', '0'] :=
  String.toList_ofList

theorem isMarker_firstLine : IsMarker firstLine :=
  ⟨[' '], List.cons_ne_nil _ _, List.forall_mem_singleton.mpr rfl, firstLine_eq⟩

theorem count_firstLine : firstLine.count '\n' = 0 := by
  rw [firstLine_eq, opening_eq, closing_eq]
  rfl

/-- A library script begins with a marker and the note of its version and locale. -/
theorem exists_script_eq {loaded : Template.Engine} (h : Builtin.engine = .ok loaded)
    {bundle : Bundle} (hkind : bundle.kind = .implementation) {script : String}
    (hrender : bundle.render loaded.renderNamed = .ok script) :
    ∃ rest, script.toList = firstLine ++ '\n' ::
      ((versionNote ++ (Builtin.localeNote bundle.locale).toList ++ [' ', '*', '/']) ++
        '\n' :: rest) := by
  rw [Builtin.render_implementation h hkind] at hrender
  rw [← Except.ok.inj hrender]
  have hopening : "/*<<module_def>> */\n/* cldrjs ".toList = _ := String.toList_ofList
  have hversion : version.toList = _ := String.toList_ofList
  have hnames : Builtin.namesText.toList = _ := String.toList_ofList
  unfold Builtin.front
  simp only [String.toList_append, hopening, hversion, hnames, firstLine_eq, opening_eq, closing_eq,
    versionNote_eq, List.append_assoc, List.cons_append, List.nil_append]
  exact ⟨_, rfl⟩

/-- The opening of a marker does not reach out of a text between two that it cannot begin or end
in. -/
theorem infix_of_infix_append {before text behind : List Char}
    (hbefore : '/' ∉ '*' :: ' ' :: before) (hbehind : '>' ∉ behind)
    (h : opening <:+: '/' :: '*' :: ' ' :: before ++ text ++ behind) : opening <:+: text := by
  obtain ⟨u, v, huv⟩ := h
  obtain ⟨mid, hopening⟩ : ∃ mid, opening = '/' :: '*' :: '<' :: mid ++ ['>'] :=
    ⟨(opening.drop 3).dropLast, by rw [opening_eq]; rfl⟩
  have hlast : (u ++ '/' :: '*' :: '<' :: mid) ++ '>' :: v
      = '/' :: '*' :: ' ' :: before ++ text ++ behind := by
    rw [← huv, hopening]
    simp only [List.append_assoc, List.cons_append, List.nil_append]
  obtain ⟨w, hw, -⟩ := exists_append_of_not_mem_right hbehind hlast
  rw [List.append_assoc] at hw
  cases u with
  | nil => cases (List.cons.inj (List.cons.inj (List.cons.inj hw).2).2).1
  | cons c u =>
    obtain ⟨ds, -, hds⟩ := exists_append_of_not_mem hbefore (List.cons.inj hw).2
    refine ⟨ds, w, ?_⟩
    rw [hds, hopening, List.append_assoc, List.append_assoc]
    rfl

/-- A marker in the note of the locale begins in the tag. -/
theorem infix_of_infix_note {locale : Option String}
    (h : opening <:+: versionNote ++ (Builtin.localeNote locale).toList ++ [' ', '*', '/']) :
    ∃ tag, locale = some tag ∧ opening <:+: tag.toList := by
  have hnone : ¬opening <:+: versionNote ++ [] ++ [' ', '*', '/'] := by
    rw [opening_eq, versionNote_eq]
    decide
  cases locale with
  | none => exact absurd h hnone
  | some tag =>
    refine ⟨tag, rfl, ?_⟩
    rw [Builtin.localeNote] at h
    split at h
    · exact absurd h hnone
    · have hopen : " (".toList = [' ', '('] := String.toList_ofList
      have hclose : ")".toList = [')'] := String.toList_ofList
      rw [String.toList_append, String.toList_append, hopen, hclose] at h
      have htag :
          opening <:+: (versionNote ++ [' ', '(']) ++ tag.toList ++ [')', ' ', '*', '/'] := by
        simpa only [List.append_assoc, List.cons_append, List.nil_append] using h
      rw [versionNote_eq] at htag
      exact infix_of_infix_append (by decide) (by decide) htag

/-- Two markers that a text begins with are the same. -/
theorem eq_of_append_of_isMarker {text text' rest rest' : List Char} (h : IsMarker text)
    (h' : IsMarker text') (heq : text ++ rest = text' ++ rest') : text = text' := by
  have hrest : marker? (text ++ rest) = some rest := marker?_eq_some_iff.mpr ⟨text, h, rfl⟩
  have hrest' := marker?_eq_some_iff.mpr ⟨text', h', heq⟩
  obtain rfl := Option.some.inj (hrest.symm.trans hrest')
  exact List.append_cancel_right heq

/-- If the first line of a text is a marker, a marker on the second line begins there. -/
theorem infix_of_holdsMarker {note rest : List Char}
    (h : HoldsMarker (firstLine ++ '\n' :: (note ++ '\n' :: rest)) 1) : opening <:+: note := by
  obtain ⟨before, text, behind, hcs, htext, hle, hge⟩ := h
  obtain ⟨inner, hinner, -⟩ := htext.inner
  have hnewline (cs x : List Char) : '\n' :: cs ≠ text ++ x := by
    rw [hinner]
    intro hx
    cases (List.cons.inj hx).1
  rw [List.append_assoc] at hcs
  rcases List.append_eq_append_iff.mp hcs with ⟨x, rfl, hx⟩ | ⟨y, hy, hbehind⟩
  · cases x with
    | nil => exact absurd hx (hnewline _ _)
    | cons c x =>
      obtain ⟨rfl, htail⟩ := List.cons.inj hx
      have hline : '\n' ∉ x := by
        rw [← List.count_eq_zero]
        rw [List.count_append, count_firstLine, List.count_cons_self] at hle
        omega
      obtain ⟨ds, rfl, hds⟩ := exists_append_of_not_mem hline htail.symm
      obtain ⟨blanks, -, -, rfl⟩ := htext
      have hopening : '\n' ∉ opening := by
        rw [opening_eq]
        decide
      rw [List.append_assoc, List.append_assoc] at hds
      obtain ⟨z, rfl, -⟩ := exists_append_of_not_mem hopening hds
      exact ⟨x, z, by rw [List.append_assoc]⟩
  · -- A marker that begins on the first line is that line.
    exfalso
    cases y with
    | nil => exact hnewline _ _ hbehind.symm
    | cons d y =>
      obtain rfl : d = '/' := by
        rw [hinner] at hbehind
        exact (List.cons.inj hbehind).1.symm
      rcases isMarker_firstLine.slash hy with rfl | rfl
      · rw [List.nil_append] at hy
        rw [← hy] at hbehind
        rw [eq_of_append_of_isMarker htext isMarker_firstLine hbehind] at hge
        rw [List.nil_append, count_firstLine] at hge
        exact Nat.not_succ_le_zero 0 hge
      · rw [hinner] at hbehind
        cases (List.cons.inj (List.cons.inj hbehind).2).1

/-! ## Whether the map describes the file -/

/-- The second comment of the replacement stands where the map looks for the second line of the
script. -/
theorem not_describes {file : Compiled} {script : String} (hmap : MapsLines file script)
    (hcode : file.code = String.ofList (substitute (enclose false script).toList))
    {note rest : List Char}
    (hscript : script.toList = firstLine ++ '\n' :: ((versionNote ++ note) ++ '\n' :: rest))
    (hfree : ¬opening <:+: versionNote ++ note) : ¬Describes file := by
  intro hdescribes
  have hcount : 1 < lineCount script.toList := by
    have hle : 2 ≤ script.toList.count '\n' := by
      rw [hscript]
      simp only [List.count_append, List.count_cons_self]
      omega
    rcases lineCount_eq script.toList with ⟨-, h⟩ | ⟨-, h⟩ <;> omega
  have hline := hmap.describes_iff.mp hdescribes 1 hcount fun hmarker => by
    rw [hscript] at hmarker
    exact hfree (infix_of_holdsMarker hmarker)
  obtain ⟨behind, -, hlines⟩ := exists_substitute_enclose script
  have hsecond : (splitLines file.code.toList)[2]? = some secondComment := by
    have hfirst : '\n' ∉ firstComment := by
      rw [firstComment_eq]
      decide
    have hsecond : '\n' ∉ secondComment := by
      rw [secondComment_eq]
      decide
    rw [hcode, String.toList_ofList, hlines, hscript, substitute_marker isMarker_firstLine,
      substitute_newline, replacement_toList]
    simp only [List.append_assoc, List.cons_append]
    rw [splitLines_append_newline, splitLines_of_not_mem hfirst, splitLines_append_newline,
      splitLines_of_not_mem hsecond]
    rfl
  have hfirst : '\n' ∉ firstLine := List.count_eq_zero.mp count_firstLine
  have hnote : (splitLines script.toList)[1]?
      = (splitLines (versionNote ++ note ++ '\n' :: rest))[0]? := by
    rw [hscript, splitLines_append_newline, splitLines_of_not_mem hfirst]
    rfl
  rw [hsecond, hnote] at hline
  obtain ⟨below, hbelow, -⟩ := exists_line hline.symm
  rw [linesAbove_zero, List.nil_append, secondComment_eq, versionNote_eq] at hbelow
  cases (List.cons.inj (List.cons.inj (List.cons.inj hbelow).2).2).1

/-- The source map of a library script describes the file exactly if replacing markers moves no line
to which the map leads, or moves it to one like it; and for a locale tag in which no marker begins
it does not. -/
theorem sourceMap_describes_iff {config : Config} {source : Locale.Source}
    {loaded : Template.Engine} {bundle : Bundle} {selection : List String}
    {registry : Feature.Registry} {file : Compiled} (hengine : Builtin.engine = .ok loaded)
    (hkind : bundle.kind = .implementation) (hmap : config.sourceMap = true)
    (h : (Compiler.standard config source loaded.renderNamed).compileBundle bundle selection
      registry ⟨false⟩ = .ok file) :
    ∃ script, MapsLines file script ∧
      (∀ l < lineCount script.toList, ¬HoldsMarker script.toList l →
        (splitLines file.code.toList)[lineAfter script.toList l + 1]?
          = (splitLines script.toList)[l]?) ∧
      (Describes file ↔ ∀ l < lineCount script.toList, ¬HoldsMarker script.toList l →
        (splitLines file.code.toList)[l + 1]?
          = (splitLines file.code.toList)[lineAfter script.toList l + 1]?) ∧
      ((∀ tag, bundle.locale = some tag → ¬opening <:+: tag.toList) → ¬Describes file) := by
  obtain ⟨assembled, script, hkind', hlocale, -, hrender, hcode, htext⟩ :=
    of_compileBundle rfl hmap h
  have hlines := mapsLines_lineForLine htext
  have hplace {l : Nat} (hl : l < lineCount script.toList) (hfree : ¬HoldsMarker script.toList l) :=
    getElem?_code hcode hl hfree
  refine ⟨script, hlines, fun l => hplace, ?_, fun htag => ?_⟩
  · rw [hlines.describes_iff]
    constructor
    · intro hall l hl hfree
      rw [hall l hl hfree, hplace hl hfree]
    · intro hall l hl hfree
      rw [hall l hl hfree, hplace hl hfree]
  · obtain ⟨rest, hscript⟩ := exists_script_eq hengine (hkind'.trans hkind) hrender
    rw [List.append_assoc versionNote] at hscript
    refine not_describes hlines hcode hscript fun hinfix => ?_
    rw [← List.append_assoc] at hinfix
    obtain ⟨tag, htag', hinfix'⟩ := infix_of_infix_note hinfix
    exact htag tag (hlocale.symm.trans htag') hinfix'

set_option maxRecDepth 4000 in
/-- The library script without features scans and balances. -/
theorem checkBrackets_empty_library : ∃ script,
    Builtin.front ⟨.implementation, none, true, []⟩ ++ ""
      ++ Builtin.back ⟨.implementation, none, true, []⟩ = script ∧
    checkBrackets script.toList = .ok () := by
  refine ⟨_, rfl, ?_⟩
  have hfront : Builtin.front ⟨.implementation, none, true, []⟩
      = "/*<<module_def>> */\n/* cldrjs " ++ version ++ "" ++ Builtin.namesText
        ++ (Json.str version).compact ++ ";\nCldr.locale = " ++ (Json.ofString? none).compact
        ++ ";\nCldr.features = " ++ (Json.ofStrings []).compact ++ Builtin.runtimeText := rfl
  have hname : "//# sourceURL=" ++ (Bundle.ofKind .implementation).sourceName ++ ".js\n"
      = "//# sourceURL=twitter_cldr.js\n" := by decide +kernel
  have hback : Builtin.back ⟨.implementation, none, true, []⟩
      = Builtin.exportText ++ "//# sourceURL=twitter_cldr.js\n" :=
    congrArg (Builtin.exportText ++ ·) hname
  have hopening : "/*<<module_def>> */\n/* cldrjs ".toList = _ := String.toList_ofList
  have hversion : version.toList = _ := String.toList_ofList
  have hnames : Builtin.namesText.toList = _ := String.toList_ofList
  have hlocale : ";\nCldr.locale = ".toList = _ := String.toList_ofList
  have hfeatures : ";\nCldr.features = ".toList = _ := String.toList_ofList
  have hruntime : Builtin.runtimeText.toList = _ := Builtin.toList_lines (by repeat constructor)
  have hexport : Builtin.exportText.toList = _ := Builtin.toList_lines (by repeat constructor)
  have hsource : "//# sourceURL=twitter_cldr.js\n".toList = _ := String.toList_ofList
  have hversionJson : (Json.str version).compact.toList = ['"', '0', '.', '4', '.', '0', '"'] := by
    decide +kernel
  have hlocaleJson : (Json.ofString? none).compact.toList = ['n', 'u', 'l', 'l'] := by
    decide +kernel
  have hfeaturesJson : (Json.ofStrings []).compact.toList = ['[', ']'] := by decide +kernel
  have hempty : "".toList = [] := rfl
  rw [hfront, hback]
  simp only [String.toList_append]
  rw [hopening, hversion, hnames, hlocale, hfeatures, hruntime, hexport, hsource, hversionJson,
    hlocaleJson, hfeaturesJson, hempty]
  decide +kernel

/-- The map of the library script without features does not describe it. -/
theorem sourceMap_describes_iff_empty_library :
    ∃ loaded file, Builtin.engine = .ok loaded ∧
      (Compiler.standard ⟨none, none, none, true, true⟩ Locale.Store.empty.source
        loaded.renderNamed).compileBundle (Bundle.ofKind .implementation) [] .empty ⟨false⟩
        = .ok file ∧ ¬Describes file := by
  obtain ⟨loaded, hengine⟩ := Builtin.exists_engine
  obtain ⟨script, hscript, hcheck⟩ := checkBrackets_empty_library
  have hrender := Builtin.render_implementation hengine
    (show (⟨.implementation, none, true, []⟩ : Bundle).kind = .implementation from rfl)
  replace hrender :
      Bundle.render ⟨.implementation, none, true, []⟩ loaded.renderNamed = .ok script :=
    hrender.trans (congrArg Except.ok hscript)
  have hfile : ∃ file, (Compiler.standard ⟨none, none, none, true, true⟩ Locale.Store.empty.source
      loaded.renderNamed).compileBundle (Bundle.ofKind .implementation) [] .empty ⟨false⟩
      = .ok file :=
    exists_finish rfl hrender hcheck
  obtain ⟨file, hfile⟩ := hfile
  obtain ⟨-, -, -, -, hnot⟩ := sourceMap_describes_iff hengine rfl rfl hfile
  exact ⟨loaded, file, hengine, hfile, hnot fun tag htag => nomatch htag⟩

end LocaleScript.Build
