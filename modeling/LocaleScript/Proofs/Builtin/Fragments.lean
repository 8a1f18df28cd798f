import LocaleScript.Feature.Catalog
import LocaleScript.Proofs.Builtin.Frame
import LocaleScript.Proofs.Builtin.Statements
import LocaleScript.Proofs.Script.OutlinePassage

/-!
# Fragments of features

The templates of all features have outlines, and each outline can be read beforehand: it begins and
ends where nothing is open, and its only block comment names the feature. So a feature is written as
such a passage, whatever the locale data are (`leads_writer`). The plural rules of the library are
left out where they stand in the script themselves: the conditions of the data are then code.
-/

namespace LocaleScript.Builtin

open Template Script Feature

/-! ## Names in fragments -/

/-- The names of a fragment, with those of them whose values are known. -/
def fragmentNames (values : List (String × Json)) : Names :=
  ⟨values, "resources", "category", none⟩

/-- What a fragment sees. -/
theorem ofData_featureContext (name : String) (locale : Option String) (prerender : Bool)
    (category : Option String) (table : Table Json) :
    Scope.ofData (.ofJson (context name locale prerender category table))
      = [("feature", .str name), ("locale", .ofJson (.ofString? locale)),
        ("prerender", .bool prerender), ("category", .ofJson (.ofString? category)),
        ("resources", .ofJson (.obj table.entries))] := rfl

theorem hold_fragmentNames {name : String} {locale : Option String} {prerender : Bool} {d : Data}
    {table : Table Json} (hresources : d.resources = table.entries) {values : List (String × Json)}
    (hvalues : ∀ value ∈ values, value ∈ [("feature", .str name), ("prerender", .bool prerender)]) :
    (fragmentNames values).Hold d
      (.ofData (.ofJson (context name locale prerender d.category table))) := by
  intro x known hknown
  rw [ofData_featureContext, ← hresources]
  dsimp only [Names.find?, Names.outside?, fragmentNames] at hknown
  by_cases hx : x = "resources"
  · rw [if_pos hx] at hknown
    rw [hx, ← Option.some.inj hknown]
    rfl
  rw [if_neg hx] at hknown
  by_cases hx' : x = "category"
  · rw [if_pos hx'] at hknown
    rw [hx', ← Option.some.inj hknown]
    rfl
  rw [if_neg hx'] at hknown
  obtain ⟨j, hlookup, rfl⟩ := Option.map_eq_some_iff.mp hknown
  obtain ⟨before, behind, hvalue, -⟩ := List.lookup_eq_some_iff.mp hlookup
  have hmem := hvalues (x, j) (hvalue ▸ List.mem_append_right _ (.head _))
  simp only [List.mem_cons, List.not_mem_nil, or_false, Prod.mk.injEq] at hmem
  rcases hmem with ⟨rfl, rfl⟩ | ⟨rfl, rfl⟩ <;> rfl

/-! ## Outlines of the templates -/

/-- The template has an outline that passes a check. -/
def HasOutline (names : Names) (part : Option String) (check : Outline → Bool) (text : String) :
    Prop :=
  ∃ tree o, Tree.parse? text = some tree ∧ outline? names part tree = some o ∧ check o = true

theorem hasOutline_lines {texts : List String} {ls : List (List Char)} (h : Spelled texts ls)
    {names : Names} {part : Option String} {check : Outline → Bool}
    (hread : (readChars (ls.flatMap (· ++ ['\n']))).any
      (fun tree => (outline? names part tree).any check) = true) :
    HasOutline names part check (lines texts) := by
  obtain ⟨tree, htree, houtline⟩ := exists_tree_lines h hread
  obtain ⟨o, ho, hcheck⟩ := (Option.any_eq_true _ _).mp houtline
  exact ⟨tree, o, htree, ho, hcheck⟩

/-- The outline begins and ends where nothing is open, and its only block comment names the
feature. -/
def namesFeature (name : String) (o : Outline) : Bool :=
  Stand.clear.pastOutline o = some (.clear, [featureComment name])

/-- The outline begins and ends inside of a function, and has no block comment. -/
def staysInside (o : Outline) : Bool :=
  Stand.inside.pastOutline o = some (.inside, [])

/-- The part for locale data stays where it begins, has the statements that go with the flag, and
leaves the locales to others. -/
def isResource (prerender : Bool) (o : Outline) : Bool :=
  staysInside o && carriesData prerender o && listsNothing o

theorem isResource_iff {prerender : Bool} {o : Outline} : isResource prerender o = true ↔
    staysInside o = true ∧ carriesData prerender o = true ∧ listsNothing o = true := by
  rw [isResource, Bool.and_eq_true, Bool.and_eq_true, and_assoc]

theorem hasOutline_resource (prerender : Bool) :
    HasOutline (fragmentNames [("prerender", .bool prerender)]) none (isResource prerender)
      resource := by
  cases prerender <;> exact hasOutline_lines (by repeat constructor) (by decide +kernel)

/-- What is known beforehand of the flags of a feature. -/
def knownFlags (entry : Entry) : List (String × Json) :=
  if entry.template = "fragments/plural_rules" then [("prerender", .bool false)] else []

/-- The templates that include the part for locale data. -/
def dataTemplates : List String := ["fragments/numbers", "fragments/number_data_reader",
  "fragments/rbnf", "fragments/currencies", "fragments/lists", "fragments/timespan",
  "fragments/datetime", "fragments/languages"]

/-- The source of an entry's template. -/
def IsFragment (entry : Entry) (source : String × String) : Prop :=
  source.1 = entry.template ++ ".jinja" ∧
    HasOutline (fragmentNames (("feature", .str entry.name) :: knownFlags entry))
      (some "partials/resource")
      (fun o => namesFeature entry.name o &&
        (!dataTemplates.contains entry.template || includesData o)) source.2

/-- The sources of the features are in the order of the catalog. -/
theorem isFragment_catalog :
    List.Forall₂ IsFragment (libraryEntries ++ helperEntries) (sources.drop 3) := by
  refine .cons ?_ <| .cons ?_ <| .cons ?_ <| .cons ?_ <| .cons ?_ <| .cons ?_ <| .cons ?_ <|
    .cons ?_ <| .cons ?_ <| .cons ?_ <| .cons ?_ <| .cons ?_ <| .cons ?_ <| .cons ?_ <|
    .cons ?_ <| .cons ?_ <| .cons ?_ <| .nil <;>
    exact ⟨by decide +kernel, hasOutline_lines (by repeat constructor) (by decide +kernel)⟩

/-! ## Fragments -/

theorem exists_of_forall₂ {α β : Type} {related : α → β → Prop} {as : List α} {bs : List β}
    (h : List.Forall₂ related as bs) {a : α} (ha : a ∈ as) : ∃ b ∈ bs, related a b := by
  induction h with
  | nil => cases ha
  | cons hfirst _ ih =>
    rcases List.mem_cons.mp ha with rfl | ha
    · exact ⟨_, .head _, hfirst⟩
    · obtain ⟨b, hb, hab⟩ := ih ha
      exact ⟨b, .tail _ hb, hab⟩

theorem exists_isFragment {entry : Entry} (h : entry ∈ libraryEntries ++ helperEntries) :
    ∃ source ∈ sources, IsFragment entry source := by
  obtain ⟨source, hsource, hentry⟩ := exists_of_forall₂ isFragment_catalog h
  exact ⟨source, List.mem_of_mem_drop hsource, hentry⟩

/-- Each built-in template is well formed. -/
theorem exists_parse?_of_mem_sources {source : String × String} (h : source ∈ sources) :
    ∃ tree, Tree.parse? source.2 = some tree := by
  have hfirst : sources.take 3 = [("bundle.jinja", bundle), ("test_bundle.jinja", testBundle),
    ("partials/resource.jinja", resource)] := rfl
  rw [← List.take_append_drop 3 sources, List.mem_append, hfirst] at h
  rcases h with h | h
  · simp only [List.mem_cons, List.not_mem_nil, or_false] at h
    rcases h with rfl | rfl | rfl
    · exact ⟨_, parse?_bundle⟩
    · exact ⟨_, parse?_testBundle⟩
    · obtain ⟨tree, -, htree, -⟩ := hasOutline_resource true
      exact ⟨tree, htree⟩
  · obtain ⟨entry, -, -, tree, -, htree, -⟩ := exists_of_forall₂ isFragment_catalog.flip h
    exact ⟨tree, htree⟩

/-- The engine of the built-in templates exists. -/
theorem exists_engine : ∃ loaded, engine = .ok loaded := by
  refine Dialect.Engine.exists_ofLibrary_iff.mpr fun entry hentry => ?_
  rw [library, entries_ofBuiltin] at hentry
  rcases mem_addBuiltin hentry with hentry | ⟨source, hsource, htext, -⟩
  · cases hentry
  · obtain ⟨tree, htree⟩ := exists_parse?_of_mem_sources (Library.mem_byRank.mp hsource)
    rw [htext]
    exact ⟨tree, Tree.compile_of_parse? htree entry.1⟩

theorem mem_of_mem_knownFlags {entry : Entry} {prerender : Bool}
    (hplural : entry.template = "fragments/plural_rules" → prerender = false)
    {flag : String × Json} (h : flag ∈ knownFlags entry) :
    flag = ("prerender", .bool prerender) := by
  unfold knownFlags at h
  split at h
  · next htemplate =>
    rw [hplural htemplate]
    exact List.mem_singleton.mp h
  · cases h

/-- What is written into the outline of a fragment. -/
def fragmentData (category : Option String) (table : Table Json) (part : List Char) : Data :=
  ⟨category, table.entries, "", .null, part⟩

/-- A feature is written as the outline of its template, with the part of the locale data in it. -/
theorem writer_eq_outline {loaded : Engine} (hengine : engine = .ok loaded) {entry : Entry}
    {source : String × String} (hsource : source ∈ sources)
    (hname : source.1 = entry.template ++ ".jinja") {tree part : Tree}
    (hparse : Tree.parse? source.2 = some tree) (hparse' : Tree.parse? resource = some part)
    {values : List (String × Json)} {prerender : Bool}
    (hvalues : ∀ value ∈ values,
      value ∈ [("feature", .str entry.name), ("prerender", .bool prerender)])
    {o o' : Outline}
    (houtline : outline? (fragmentNames values) (some "partials/resource") tree = some o)
    (houtline' : outline? (fragmentNames [("prerender", .bool prerender)]) none part = some o')
    (data : Locale.Source) (locale : Option String) :
    entry.writer ⟨loaded.renderNamed, data, prerender⟩ locale
      = (resources data locale entry.binding).map fun table =>
        String.ofList (o.write (fragmentData entry.binding.category? table
          (o'.write (fragmentData entry.binding.category? table [])))) := by
  have htree := (get?_source hengine hsource hname).trans hparse
  have hpart : loaded.templates.get? "partials/resource" = some part :=
    (get?_source hengine (List.mem_of_getElem? (i := 2) rfl) rfl).trans hparse'
  rw [Entry.writer, writer]
  cases resources data locale entry.binding with
  | error e => rfl
  | ok table =>
    have hhold' : (fragmentNames [("prerender", .bool prerender)]).Hold
        (fragmentData entry.binding.category? table [])
        (.ofData (.ofJson (context entry.name locale prerender entry.binding.category? table))) :=
      hold_fragmentNames rfl fun value hvalue => .tail _ hvalue
    have hrender := renderNamed_of_outline? htree hpart houtline houtline'
      (d := fragmentData entry.binding.category? table _) rfl (hold_fragmentNames rfl hvalues)
      hhold'
    exact congrArg Build.ofRender hrender

/-- With its data, a feature is written as a passage whose only block comment names it. -/
theorem exists_leads_writer {loaded : Engine} (hengine : engine = .ok loaded) {entry : Entry}
    (hentry : entry ∈ libraryEntries ++ helperEntries) {prerender : Bool}
    (hplural : entry.template = "fragments/plural_rules" → prerender = false)
    {data : Locale.Source} {locale : Option String} {table : Table Json}
    (hresources : resources data locale entry.binding = .ok table) :
    ∃ text, entry.writer ⟨loaded.renderNamed, data, prerender⟩ locale = .ok text ∧
      Leads .clear .clear [featureComment entry.name] text.toList := by
  obtain ⟨source, hsource, hname, tree, o, hparse, houtline, hcheck⟩ := exists_isFragment hentry
  obtain ⟨part, o', hparse', houtline', hcheck'⟩ := hasOutline_resource prerender
  have hvalues : ∀ value ∈ ("feature", .str entry.name) :: knownFlags entry,
      value ∈ [("feature", .str entry.name), ("prerender", .bool prerender)] := by
    intro value hvalue
    rcases List.mem_cons.mp hvalue with rfl | hvalue
    · exact .head _
    · rw [mem_of_mem_knownFlags hplural hvalue]
      exact .tail _ (.head _)
  rw [writer_eq_outline hengine hsource hname hparse hparse' hvalues houtline houtline',
    hresources]
  refine ⟨_, rfl, ?_⟩
  rw [String.toList_ofList]
  -- The included part stays where it begins, so the outline leads on with it written in.
  refine leads_of_pastOutline ?_ (of_decide_eq_true (Bool.and_eq_true_iff.mp hcheck).1)
  exact leads_of_pastOutline (leads_nil _) (of_decide_eq_true (isResource_iff.mp hcheck').1)

/-- A feature is written as a passage whose only block comment names it, whatever the data are. -/
theorem leads_writer {loaded : Engine} (hengine : engine = .ok loaded) {entry : Entry}
    (hentry : entry ∈ libraryEntries ++ helperEntries) {prerender : Bool}
    (hplural : entry.template = "fragments/plural_rules" → prerender = false)
    {data : Locale.Source} {locale : Option String} {text : String}
    (hwrite : entry.writer ⟨loaded.renderNamed, data, prerender⟩ locale = .ok text) :
    Leads .clear .clear [featureComment entry.name] text.toList := by
  cases hresources : resources data locale entry.binding with
  | error e =>
    rw [Entry.writer, writer, hresources] at hwrite
    cases hwrite
  | ok table =>
    obtain ⟨text', hwrite', hleads⟩ := exists_leads_writer hengine hentry hplural hresources
    rwa [Except.ok.inj (hwrite.symm.trans hwrite')]

end LocaleScript.Builtin
