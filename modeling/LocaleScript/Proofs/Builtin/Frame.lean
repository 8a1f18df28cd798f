import LocaleScript.Proofs.Builtin.Outer
import LocaleScript.Proofs.Script.Passage

/-!
# The frame of a script

What an outer template puts around the contents of a bundle is read beforehand, but for the locale
tag. The comment and the line that name the locale do not end in a tag without the end of a comment
and without a newline. So a bundle whose contents are a passage is rendered as one
(`exists_leads_render`), and the comments around the contents name no feature.
-/

namespace LocaleScript.Builtin

open Template Script

/-! ## Comments that name features -/

/-- The comment that names a feature. -/
def featureComment (name : String) : List Char :=
  "/* feature: ".toList ++ name.toList ++ " */".toList

/-- The feature that a comment names. -/
def featureOf? (comment : List Char) : Option String :=
  let name := String.ofList ((comment.drop 12).take (comment.length - 15))
  if comment = featureComment name then some name else none

theorem featureComment_eq (name : String) : featureComment name
    = ['/', '*', ' ', 'f', 'e', 'a', 't', 'u', 'r', 'e', ':', ' '] ++ name.toList
      ++ [' ', '*', '/'] := by
  have hopen : "/* feature: ".toList
      = ['/', '*', ' ', 'f', 'e', 'a', 't', 'u', 'r', 'e', ':', ' '] := String.toList_ofList
  have hclose : " */".toList = [' ', '*', '/'] := String.toList_ofList
  unfold featureComment
  rw [hopen, hclose]

theorem featureOf?_eq_some_iff {comment : List Char} {name : String} :
    featureOf? comment = some name ↔ comment = featureComment name := by
  unfold featureOf?
  constructor
  · intro h
    dsimp only at h
    split at h
    · next hcomment => rwa [Option.some.inj h] at hcomment
    · cases h
  · rintro rfl
    have hname : String.ofList (((featureComment name).drop 12).take
        ((featureComment name).length - 15)) = name := by
      rw [featureComment_eq]
      simp
    dsimp only
    rw [hname, if_pos rfl]

theorem featureOf?_featureComment (name : String) : featureOf? (featureComment name) = some name :=
  featureOf?_eq_some_iff.mpr rfl

/-- A comment that begins in another way names no feature. -/
theorem featureOf?_eq_none {comment : List Char}
    (h : comment.take 4 ≠ ['/', '*', ' ', 'f']) : featureOf? comment = none := by
  refine Option.eq_none_iff_forall_ne_some.mpr fun name hname => h ?_
  rw [featureOf?_eq_some_iff.mp hname, featureComment_eq]
  rfl

/-! ## Around the contents -/

/-- The rest of the comment that names the locale, and what stands behind it. -/
theorem exists_namesText_eq : ∃ rest, namesText.toList = [' ', '*', '/'] ++ rest ∧
    Stand.clear.past rest = some (.clear, []) := by
  have hnames : namesText.toList = _ := String.toList_ofList
  refine ⟨namesText.toList.drop 3, ?_, ?_⟩
  · rw [hnames]
    rfl
  · rw [hnames]
    rfl

theorem past_runtimeText : Stand.past ⟨none, []⟩ runtimeText.toList = some (.clear, []) := by
  rw [show runtimeText.toList = _ from toList_lines (by repeat constructor)]
  decide +kernel

theorem past_exportText : Stand.clear.past exportText.toList = some (.clear, []) := by
  rw [show exportText.toList = _ from toList_lines (by repeat constructor)]
  rfl

theorem past_helperExportText : Stand.clear.past helperExportText.toList = some (.clear, []) := by
  rw [show helperExportText.toList = _ from toList_lines (by repeat constructor)]
  decide +kernel

/-- The comment that a bundle of helpers begins with. -/
def helperNote : List Char := "/* cldrjs 0.4.0 test helpers */".toList

theorem past_helperFront : Stand.clear.past helperFront.toList = some (.clear, [helperNote]) := by
  have htext : helperText.toList = _ := toList_lines (by repeat constructor)
  have hfirst : "/* cldrjs ".toList = _ := String.toList_ofList
  have hversion : version.toList = _ := String.toList_ofList
  have hnote : helperNote = _ := String.toList_ofList
  rw [helperFront, String.toList_append, String.toList_append, htext, hnote, hfirst, hversion]
  rfl

/-- The first comment of a library bundle. -/
def markerNote : List Char := "/*<<module_def>> */".toList

/-- The comment of a library bundle that names its locale. -/
def localeComment (locale : Option String) : List Char :=
  "/* cldrjs ".toList ++ version.toList ++ (localeNote locale).toList ++ [' ', '*', '/']

/-- A tag in which no comment ends does not end the comment that names it. -/
theorem cutBlock_localeNote {locale : Option String}
    (htag : ∀ tag, locale = some tag → ¬['*', '/'] <:+: tag.toList) :
    cutBlock ((localeNote locale).toList ++ [' ', '*', '/'])
      = some ((localeNote locale).toList ++ [' ', '*', '/'], []) := by
  have hempty :
      cutBlock ("".toList ++ [' ', '*', '/']) = some ("".toList ++ [' ', '*', '/'], []) := by
    decide
  cases locale with
  | none => exact hempty
  | some tag =>
    rw [localeNote]
    by_cases h : tag = ""
    · rw [if_pos h]
      exact hempty
    · have hopen : " (".toList = [' ', '('] := String.toList_ofList
      have hclose : ")".toList = [')'] := String.toList_ofList
      have hend : cutBlock (')' :: [' ', '*', '/']) = some (')' :: [' ', '*', '/'], []) := by decide
      have hinside : cutBlock (tag.toList ++ ')' :: [' ', '*', '/']) = _ :=
        cutBlock_append_unended (htag tag rfl) fun _ => by decide
      rw [hend] at hinside
      rw [if_neg h, String.toList_append, String.toList_append, hopen, hclose]
      simp only [List.append_assoc, List.singleton_append]
      rw [cutBlock_append_unended (by decide) (fun hlast => absurd hlast (by decide)), hinside]
      rfl

theorem leads_localeComment {locale : Option String}
    (htag : ∀ tag, locale = some tag → ¬['*', '/'] <:+: tag.toList) :
    Leads .clear .clear [localeComment locale] (localeComment locale) := by
  have hcut : cutBlock ([' ', 'c', 'l', 'd', 'r', 'j', 's', ' ', '0', '.', '4', '.', '0']
      ++ ((localeNote locale).toList ++ [' ', '*', '/'])) = _ :=
    cutBlock_append_unended (by decide) fun hlast => absurd hlast (by decide)
  rw [cutBlock_localeNote htag, Option.map_some] at hcut
  have hcomment : localeComment locale = _ ++ _ ++ _ ++ _ := rfl
  rw [show "/* cldrjs ".toList = _ from String.toList_ofList,
    show version.toList = _ from String.toList_ofList, List.append_assoc] at hcomment
  rw [hcomment]
  exact leads_blockComment hcut []

theorem leads_front {bundle : Bundle}
    (htag : ∀ tag, bundle.locale = some tag → ¬['*', '/'] <:+: tag.toList) :
    Leads .clear .clear [markerNote, localeComment bundle.locale] (front bundle).toList := by
  have hmarker : Leads .clear .clear [markerNote] (markerNote ++ ['\n']) := by
    have hnote : markerNote = _ := String.toList_ofList
    refine leads_of_past ?_
    rw [hnote]
    rfl
  have hlocale : Leads ⟨none, []⟩ .clear [] ";\nCldr.locale = ".toList := by
    refine leads_of_past ?_
    rw [show ";\nCldr.locale = ".toList = _ from String.toList_ofList]
    rfl
  have hfeatures : Leads ⟨none, []⟩ .clear [] ";\nCldr.features = ".toList := by
    refine leads_of_past ?_
    rw [show ";\nCldr.features = ".toList = _ from String.toList_ofList]
    rfl
  have hdata (j : Json) : Leads .clear ⟨none, []⟩ [] j.compact.toList := by
    rw [Json.compact, String.toList_ofList]
    exact leads_data j .clear
  obtain ⟨names, hnames, hpast⟩ := exists_namesText_eq
  have hall := hmarker.append <| (leads_localeComment htag).append <|
    (leads_of_past hpast).append <| (hdata (.str version)).append <|
    hlocale.append <| (hdata (.ofString? bundle.locale)).append <|
    hfeatures.append <| (hdata (.ofStrings bundle.features)).append (leads_of_past past_runtimeText)
  have hfirst : "/*<<module_def>> */\n/* cldrjs ".toList
      = markerNote ++ ['\n'] ++ "/* cldrjs ".toList := rfl
  unfold localeComment at hall ⊢
  unfold front
  -- The literals stand for any texts from here on.
  generalize "/*<<module_def>> */\n/* cldrjs " = first at hfirst ⊢
  generalize "/* cldrjs ".toList = start at hfirst hall ⊢
  generalize ";\nCldr.locale = " = second at hall ⊢
  generalize ";\nCldr.features = " = third at hall ⊢
  simp only [String.toList_append, hfirst, hnames, List.append_assoc, List.nil_append,
    List.cons_append] at hall ⊢
  exact hall

theorem newline_not_mem_sourceName {bundle : Bundle}
    (htag : ∀ tag, bundle.locale = some tag → '\n' ∉ tag.toList) :
    '\n' ∉ bundle.sourceName.toList := by
  unfold Bundle.sourceName
  split
  · next tag _ hlocale =>
    rw [String.toList_append, List.mem_append, not_or]
    exact ⟨by simp, htag tag hlocale⟩
  · simp
  · simp

theorem leads_back {bundle : Bundle}
    (htag : ∀ tag, bundle.locale = some tag → '\n' ∉ tag.toList) :
    Leads .clear .clear [] (back bundle).toList := by
  have hexport := leads_of_past past_exportText
  unfold back
  rw [String.toList_append]
  cases bundle.sourceMap with
  | false => exact hexport.append (leads_nil .clear)
  | true =>
    have hopen : "//# sourceURL=".toList
        = '/' :: '/' :: ['#', ' ', 's', 'o', 'u', 'r', 'c', 'e', 'U', 'R', 'L', '='] :=
      String.toList_ofList
    have hend : ".js\n".toList = ['.', 'j', 's'] ++ ['\n'] := String.toList_ofList
    have hline : '\n' ∉ ['#', ' ', 's', 'o', 'u', 'r', 'c', 'e', 'U', 'R', 'L', '=']
        ++ bundle.sourceName.toList ++ ['.', 'j', 's'] := by
      simp only [List.mem_append, not_or]
      exact ⟨⟨by decide, newline_not_mem_sourceName htag⟩, by decide⟩
    have hall : Leads .clear .clear [] _ := hexport.append (leads_lineComment hline [])
    simp only [reduceIte, String.toList_append, hopen, hend]
    simpa only [List.append_assoc, List.cons_append] using hall

theorem featureOf?_markerNote : featureOf? markerNote = none := by
  refine featureOf?_eq_none ?_
  rw [show markerNote = _ from String.toList_ofList]
  decide

theorem featureOf?_helperNote : featureOf? helperNote = none := by
  refine featureOf?_eq_none ?_
  rw [show helperNote = _ from String.toList_ofList]
  decide

theorem featureOf?_localeComment (locale : Option String) :
    featureOf? (localeComment locale) = none := by
  refine featureOf?_eq_none ?_
  have hfirst : "/* cldrjs ".toList = _ := String.toList_ofList
  unfold localeComment
  rw [hfirst]
  simp

/-! ## Scripts -/

/-- A bundle whose contents are a passage is rendered as one; its own comments name no feature. -/
theorem exists_leads_render {loaded : Engine} (hengine : engine = .ok loaded) {bundle : Bundle}
    (htag : ∀ tag, bundle.locale = some tag → ¬['*', '/'] <:+: tag.toList ∧ '\n' ∉ tag.toList)
    {comments : List (List Char)} (h : Leads .clear .clear comments bundle.contents.toList) :
    ∃ script notes, bundle.render loaded.renderNamed = .ok script ∧
      Leads .clear .clear (notes ++ comments) script.toList ∧ notes.filterMap featureOf? = [] := by
  cases hkind : bundle.kind with
  | implementation =>
    have hfront := leads_front fun tag hlocale => (htag tag hlocale).1
    have hback := leads_back fun tag hlocale => (htag tag hlocale).2
    refine ⟨_, _, render_implementation hengine hkind, ?_,
      show [markerNote, localeComment bundle.locale].filterMap featureOf? = [] from ?_⟩
    · rw [String.toList_append, String.toList_append]
      have hall := (hfront.append h).append hback
      rwa [List.append_nil] at hall
    · simp only [List.filterMap_cons, featureOf?_markerNote, featureOf?_localeComment,
        List.filterMap_nil]
  | test =>
    have hfront := leads_of_past past_helperFront
    have hback := leads_of_past past_helperExportText
    refine ⟨_, _, render_test hengine hkind, ?_,
      show [helperNote].filterMap featureOf? = [] from ?_⟩
    · rw [String.toList_append, String.toList_append]
      have hall := (hfront.append h).append hback
      rwa [List.append_nil] at hall
    · simp only [List.filterMap_cons, featureOf?_helperNote, List.filterMap_nil]

end LocaleScript.Builtin
