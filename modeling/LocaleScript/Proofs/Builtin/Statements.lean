import Mathlib.Data.List.Basic
import LocaleScript.Bundle
import LocaleScript.Proofs.Template.OutlineLines

/-!
# Locale data in scripts

A fragment has its locale data in statements, each on a line of its own. An assignment to
`resources` holds the data of all its locales (`resourcesOf?`), a registration the data of one
locale under a category (`registrations`), and the registrations of a script make up one table
(`tableOf`).

Data stands within lines, so the outlines of a fragment and of the part for its locale data tell
which lines of the fragment begin like a statement, whatever the data are
(`linesFrom_assignOpening`, `linesFrom_registerOpening`, `linesFrom_localesOpening`). What these
lines say is read afterwards.
-/

namespace LocaleScript.Builtin

open Template Text

/-! ## Statements -/

/-- What stands between a beginning and an end of a line. -/
def between? (opening closing line : List Char) : Option (List Char) :=
  let inside := (line.drop opening.length).take (line.length - opening.length - closing.length)
  if line = opening ++ inside ++ closing then some inside else none

theorem between?_eq_some_iff {opening closing line inside : List Char} :
    between? opening closing line = some inside ↔ line = opening ++ inside ++ closing := by
  unfold between?
  constructor
  · intro h
    dsimp only at h
    split at h
    · next hline => rwa [Option.some.inj h] at hline
    · cases h
  · rintro rfl
    have hinside : ((opening ++ inside ++ closing).drop opening.length).take
        ((opening ++ inside ++ closing).length - opening.length - closing.length) = inside := by
      simp
    dsimp only
    rw [hinside, if_pos rfl]

theorem prefix_of_between? {opening closing line inside : List Char}
    (h : between? opening closing line = some inside) : opening <+: line := by
  rw [between?_eq_some_iff.mp h, List.append_assoc]
  exact List.prefix_append _ _

/-- The beginning of an assignment of locale data. -/
def assignOpening : List Char := "  var resources = ".toList

/-- The beginning of a registration of locale data. -/
def registerOpening : List Char := "  Cldr.register(".toList

/-- The beginning of an assignment of the locales that there are data of. -/
def localesOpening : List Char := "  var locales = ".toList

/-- The data that a line assigns to `resources`. -/
def assigned? (line : List Char) : Option Json :=
  (between? assignOpening [';'] line).bind Json.parseChars

/-- The locale, the category and the data that a line registers. -/
def registered? (line : List Char) : Option (String × String × Json) :=
  match between? registerOpening [')', ';'] line with
  | some inside =>
    match Json.parseChars ('[' :: (inside ++ [']'])) with
    | some (.arr [.str tag, .str category, data]) => some (tag, category, data)
    | _ => none
  | none => none

/-- The data that a script assigns to `resources`. -/
def resourcesOf? (text : String) : Option Json :=
  (splitLines text.toList).findSome? assigned?

/-- What a script registers, in order. -/
def registrations (text : String) : List (String × String × Json) :=
  (splitLines text.toList).filterMap registered?

/-- The table that the registrations of fragments make up, one after the other. -/
def tableOf (fragments : List Fragment) : Locale.Store :=
  (fragments.flatMap fun fragment => registrations fragment.text).foldl
    (fun table (tag, category, data) => table.insert tag category data) .empty

theorem prefix_of_assigned? {line : List Char} {data : Json} (h : assigned? line = some data) :
    assignOpening <+: line := by
  obtain ⟨inside, hinside, -⟩ := Option.bind_eq_some_iff.mp h
  exact prefix_of_between? hinside

theorem prefix_of_registered? {line : List Char} {entry : String × String × Json}
    (h : registered? line = some entry) : registerOpening <+: line := by
  unfold registered? at h
  split at h
  · next hinside => exact prefix_of_between? hinside
  · cases h

/-! ## Lines of statements -/

/-- The lines of a text with this beginning. -/
def linesFrom (opening : List Char) (text : String) : List (List Char) :=
  (splitLines text.toList).filter (opening.isPrefixOf ·)

/-- Keeps a line with this beginning. -/
def kept? (opening : List Char) : List Char → Option (List Char) :=
  Option.guard (opening.isPrefixOf ·)

/-- Statements with this beginning are looked for in the lines that have it. -/
theorem filterMap_linesFrom {α : Type} {find : List Char → Option α} {opening : List Char}
    (hfind : ∀ line a, find line = some a → opening <+: line) (text : String) :
    (splitLines text.toList).filterMap find = (linesFrom opening text).filterMap find := by
  rw [linesFrom, List.filterMap_filter]
  refine List.filterMap_congr fun line _ => ?_
  split
  · rfl
  · next hopening =>
    refine Option.eq_none_iff_forall_ne_some.mpr fun a ha => hopening ?_
    exact List.isPrefixOf_iff_prefix.mpr (hfind line a ha)

theorem linesFrom_ofList (opening cs : List Char) :
    linesFrom opening (String.ofList cs) = (splitLines cs).filterMap (kept? opening) := by
  rw [linesFrom, String.toList_ofList, kept?, List.filterMap_eq_filter]

theorem prefix_of_kept? {opening line kept : List Char} (h : kept? opening line = some kept) :
    opening <+: line :=
  List.isPrefixOf_iff_prefix.mp (Option.guard_eq_some_iff.mp h).2

theorem kept?_nil {opening : List Char} (h : opening ≠ []) : kept? opening [] = none := by
  cases opening with
  | nil => exact absurd rfl h
  | cons => rfl

theorem kept?_writeRow (opening : List Char) (d : Data) (row : List Symbol) :
    kept? opening (writeRow d (opening.map .char ++ row))
      = some (writeRow d (opening.map .char ++ row)) := by
  refine Option.guard_pos (List.isPrefixOf_iff_prefix.mpr ?_)
  rw [writeRow_append, writeRow_map_char]
  exact List.prefix_append _ _

/-! ## Statements in outlines -/

/-- The assignment of the data of all locales. -/
def assignRow : List Symbol :=
  assignOpening.map .char ++ [.json .resources, .char ';']

/-- The registration of the data of a locale. -/
def registerRow : List Symbol :=
  registerOpening.map .char ++ [.json .tag, .char ',', .char ' ', .json .category, .char ',',
    .char ' ', .json .data, .char ')', .char ';']

/-- The assignment of the locales. -/
def localesRow : List Symbol :=
  localesOpening.map .char ++ [.json .locales, .char ';']

/-- What is assigned on a line is read back. -/
theorem parse_between?_row (d : Data) (opening : List Char) (datum : Datum) :
    (between? opening [';'] (writeRow d (opening.map .char ++ [.json datum, .char ';']))).bind
      Json.parseChars = some (d.value datum).finite.reread := by
  have hline : writeRow d (opening.map .char ++ [.json datum, .char ';'])
      = opening ++ (d.value datum).finite.write ++ [';'] := by
    rw [writeRow_append, writeRow_map_char, List.append_assoc]
    rfl
  rw [between?_eq_some_iff.mpr hline]
  exact Json.parseChars_write _

theorem assigned?_assignRow (d : Data) :
    assigned? (writeRow d assignRow) = some (Json.obj d.resources).finite.reread :=
  parse_between?_row d assignOpening .resources

theorem registered?_registerRow {d : Data} {category : String} (h : d.category = some category) :
    registered? (writeRow d registerRow) = some (d.tag, category, d.data.finite.reread) := by
  have hline : writeRow d registerRow
      = registerOpening ++ ((Json.str d.tag).write ++ ',' :: ' ' :: ((Json.str category).write
        ++ ',' :: ' ' :: d.data.finite.write)) ++ [')', ';'] := by
    rw [registerRow, writeRow_append, writeRow_map_char, List.append_assoc]
    simp [Symbol.write, Data.value, h, Json.ofString?]
  rw [registered?, between?_eq_some_iff.mpr hline]
  have hparse := Json.parseChars_spaced (.str d.tag) (.str category) d.data.finite
  simp only [List.append_assoc, List.cons_append] at hparse ⊢
  rw [hparse]
  rfl

/-- The part for locale data has the statement that goes with the flag, for each of its locales. -/
def carriesData (prerender : Bool) (o : Outline) : Bool :=
  o.isEnded && if prerender then o.opened assignOpening = [(false, [assignRow])]
    else o.opened registerOpening = [(true, [registerRow]), (false, [])]

/-- The template includes the part for locale data, and has no such statements of its own. -/
def includesData (o : Outline) : Bool :=
  o.frames [assignOpening, registerOpening]

/-- The template includes another one, and behind it assigns the locales once. -/
def listsLocales : Outline → Bool
  | [⟨false, row⟩] =>
    match cutPart row with
    | some (before, behind) =>
      isWhole before && endsRow before && isWhole behind &&
        (openedLines localesOpening before = [] ∧ openedLines localesOpening behind = [localesRow])
    | none => false
  | _ => false

/-- The template does not assign locales. -/
def listsNothing (o : Outline) : Bool :=
  o.isEnded && (o.opened localesOpening).all (·.2.isEmpty)

theorem openings_ne_nil : assignOpening ≠ [] ∧ registerOpening ≠ [] ∧ localesOpening ≠ [] := by
  rw [show assignOpening = _ from String.toList_ofList,
    show registerOpening = _ from String.toList_ofList,
    show localesOpening = _ from String.toList_ofList]
  exact ⟨List.cons_ne_nil _ _, List.cons_ne_nil _ _, List.cons_ne_nil _ _⟩

section

variable {o o' : Outline} (h : includesData o = true) {d d' : Data} (hd : d.part = o'.write d')

include h hd

/-- The lines of a fragment with such a beginning are those of the part for locale data. -/
theorem linesFrom_part (hends : o'.isEnded = true) {opening : List Char}
    (hopening : opening ∈ [assignOpening, registerOpening]) (hne : opening ≠ []) :
    linesFrom opening (String.ofList (o.write d))
      = (o'.opened opening).flatMap (foundIn (kept? opening) d') := by
  have hnil := kept?_nil hne
  rw [linesFrom_ofList, filterMap_splitLines_frames (hd ▸ Outline.endsLine_write hends)
      (fun _ _ => prefix_of_kept?) hnil h hopening, hd,
    filterMap_splitLines_outline (fun _ _ => prefix_of_kept?) hnil hends]

/-- The assignment in the part for locale data is the only one of a fragment. -/
theorem linesFrom_assignOpening (h' : carriesData true o' = true) :
    linesFrom assignOpening (String.ofList (o.write d)) = [writeRow d' assignRow] := by
  have hkept : kept? assignOpening (writeRow d' assignRow) = some (writeRow d' assignRow) :=
    kept?_writeRow assignOpening d' _
  simp only [carriesData, Bool.and_eq_true, if_true, decide_eq_true_eq] at h'
  rw [linesFrom_part h hd h'.1 (.head _) openings_ne_nil.1, h'.2]
  simp [foundIn, hkept]

/-- The registrations in the part for locale data are the only ones of a fragment. -/
theorem linesFrom_registerOpening (h' : carriesData false o' = true) :
    linesFrom registerOpening (String.ofList (o.write d))
      = d'.resources.map fun resource => writeRow (d'.round resource) registerRow := by
  have hkept (resource : String × Json) :
      kept? registerOpening (writeRow (d'.round resource) registerRow)
        = some (writeRow (d'.round resource) registerRow) :=
    kept?_writeRow registerOpening _ _
  simp only [carriesData, Bool.and_eq_true, Bool.false_eq_true, if_false, decide_eq_true_eq] at h'
  rw [linesFrom_part h hd h'.1 (.tail _ (.head _)) openings_ne_nil.2.1, h'.2]
  simp only [foundIn, List.flatMap_cons, List.flatMap_nil, List.filterMap_cons, List.filterMap_nil,
    Function.comp_apply, hkept, List.append_nil]
  exact (List.map_eq_flatMap ..).symm

theorem resourcesOf?_outline (h' : carriesData true o' = true) :
    resourcesOf? (String.ofList (o.write d)) = some (Json.obj d'.resources).finite.reread := by
  rw [resourcesOf?, ← List.head?_filterMap, filterMap_linesFrom fun _ _ => prefix_of_assigned?,
    linesFrom_assignOpening h hd h', List.filterMap_cons_some (assigned?_assignRow d'),
    List.head?_cons]

theorem registrations_outline (h' : carriesData false o' = true) {category : String}
    (hcategory : d'.category = some category) :
    registrations (String.ofList (o.write d))
      = d'.resources.map fun resource => (resource.1, category, resource.2.finite.reread) := by
  have hregistered (resource : String × Json) :
      registered? (writeRow (d'.round resource) registerRow)
        = some (resource.1, category, resource.2.finite.reread) :=
    registered?_registerRow hcategory
  rw [registrations, filterMap_linesFrom fun _ _ => prefix_of_registered?,
    linesFrom_registerOpening h hd h', List.filterMap_map]
  simp only [Function.comp_def, hregistered, List.filterMap_eq_map']

end

/-- The assignment of the locales behind the included part is the only one of a fragment. -/
theorem linesFrom_localesOpening {o o' : Outline} (h : listsLocales o = true)
    (h' : listsNothing o' = true) {d d' : Data} (hd : d.part = o'.write d') :
    linesFrom localesOpening (String.ofList (o.write d)) = [writeRow d localesRow] := by
  have hnil := kept?_nil openings_ne_nil.2.2
  have hkept : kept? localesOpening (writeRow d localesRow) = some (writeRow d localesRow) :=
    kept?_writeRow localesOpening d _
  obtain ⟨hends', hnothing⟩ := Bool.and_eq_true_iff.mp h'
  have hpart : (splitLines d.part).filterMap (kept? localesOpening) = [] := by
    rw [hd, filterMap_splitLines_outline (fun _ _ => prefix_of_kept?) hnil hends']
    refine List.flatMap_eq_nil_iff.mpr fun ⟨each, rows⟩ hrows => ?_
    have hempty : rows = [] := List.isEmpty_iff.mp (List.all_eq_true.mp hnothing _ hrows)
    rw [hempty]
    exact foundIn_nil _ d' each
  unfold listsLocales at h
  split at h
  · split at h
    · next before behind hcut =>
      simp only [Bool.and_eq_true, decide_eq_true_eq] at h
      obtain ⟨⟨⟨hbefore, hends⟩, hbehind⟩, hbefore', hbehind'⟩ := h
      rw [linesFrom_ofList, filterMap_splitLines_cutPart (hd ▸ Outline.endsLine_write hends')
        (fun _ _ => prefix_of_kept?) hnil hcut hbefore hends hbehind, hpart, hbefore', hbehind']
      simp [hkept]
    · cases h
  · cases h

end LocaleScript.Builtin
