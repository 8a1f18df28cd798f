import LocaleScript.Proofs.Builtin.Bundles
import LocaleScript.Proofs.Template.Shape

/-!
# Missing data

The built-in templates have a text for all data, if the plural data are maps: sixteen of them by
their outlines, and the plural rules of the library, which go through their data, by a check against
shapes (`exists_text_writer`). So a feature fails only where the data of its category are missing
for the locale of the script (`writer_eq_error_iff`), and a bundle of built-in features fails at the
first of these (`assemble_fails_iff_lacks`).
-/

namespace LocaleScript.Builtin

open Template Feature

/-! ## Plural rules -/

/-- The plural data of all locales are maps. -/
def PluralsAreMaps (data : Locale.Source) : Prop :=
  ∀ tag conditions, data.get? tag "plurals" = some conditions → ∃ members, conditions = .obj members

/-- The shapes that the plural rules rely on. -/
def pluralShapes : Shapes :=
  [("category", .any), ("resources", .table (.table .any))]

theorem hold_pluralShapes {table : Table Json}
    (htable : ∀ resource ∈ table.entries, ∃ members, resource.2 = .obj members) (name : String)
    (locale : Option String) (prerender : Bool) (category : Option String) :
    pluralShapes.Hold (.ofData (.ofJson (context name locale prerender category table))) := by
  have hfits : (Shape.table (.table .any)).Fits (.obj table.entries) := by
    refine ⟨_, rfl, fun resource hresource => ?_⟩
    obtain ⟨members, hmembers⟩ := htable resource hresource
    exact ⟨members, hmembers, fun _ _ => trivial⟩
  rw [ofData_featureContext]
  intro x shape hshape
  obtain ⟨before, behind, hsplit, -⟩ := List.lookup_eq_some_iff.mp hshape
  have hmem : (x, shape) ∈ pluralShapes := hsplit ▸ List.mem_append_right _ (.head _)
  simp only [pluralShapes, List.mem_cons, List.not_mem_nil, or_false, Prod.mk.injEq] at hmem
  rcases hmem with ⟨rfl, rfl⟩ | ⟨rfl, rfl⟩
  · exact ⟨_, rfl, trivial⟩
  · exact ⟨_, rfl, hfits⟩

/-- The plural rules go through their data in loops of two levels, and cannot fail. -/
theorem exists_safe_pluralRules :
    ∃ tree, Tree.parse? pluralRules = some tree ∧ areSafe pluralShapes 2 tree = true :=
  exists_tree_lines (by repeat constructor) (by decide +kernel)

theorem binding_of_template_pluralRules : ∀ entry ∈ libraryEntries ++ helperEntries,
    entry.template = "fragments/plural_rules" → entry.binding = .ofLocale "plurals" := by
  decide

theorem binding_of_name_numberDataReader : ∀ entry ∈ libraryEntries ++ helperEntries,
    entry.name = "number_data_reader" → entry.binding = .ofAll "numbers" := by
  decide

/-! ## A feature -/

section

variable {loaded : Engine} (hengine : engine = .ok loaded) {entry : Entry}
  (hentry : entry ∈ libraryEntries ++ helperEntries) {data : Locale.Source}
  (hplurals : PluralsAreMaps data) {prerender : Bool} {locale : Option String}

include hengine hentry hplurals

/-- A feature has a text if there is the data that it is written with. -/
theorem exists_text_writer {table : Table Json}
    (hresources : resources data locale entry.binding = .ok table) :
    ∃ text, entry.writer ⟨loaded.renderNamed, data, prerender⟩ locale = .ok text := by
  by_cases htemplate : entry.template = "fragments/plural_rules"
  · have hbinding := binding_of_template_pluralRules entry hentry htemplate
    obtain ⟨tree, htree, hsafe⟩ := exists_safe_pluralRules
    have hloaded : loaded.templates.get? entry.template = some tree := by
      rw [htemplate, ← htree]
      exact get?_source hengine (List.mem_of_getElem? (i := 7) rfl) rfl
    have htable : ∀ resource ∈ table.entries, ∃ members, resource.2 = .obj members := by
      intro resource hresource
      exact hplurals resource.1 resource.2
        (get?_of_mem_resources hresources (by rw [hbinding]; rfl) hresource)
    obtain ⟨text, htext⟩ := exists_renderNamed hloaded hsafe (by decide)
      (hold_pluralShapes htable entry.name locale prerender entry.binding.category?)
    refine ⟨text, ?_⟩
    rw [Entry.writer, writer, hresources]
    exact congrArg Build.ofRender htext
  · obtain ⟨text, htext, -⟩ := exists_leads_writer hengine hentry
      (fun hplural => absurd hplural htemplate) hresources
    exact ⟨text, htext⟩

/-- A feature fails only where the data of one locale are missing. -/
theorem writer_eq_error_iff {e : Build.BuildError} :
    entry.writer ⟨loaded.renderNamed, data, prerender⟩ locale = .error e ↔
      ∃ tag category, locale = some tag ∧ entry.binding = .ofLocale category ∧
        data.get? tag category = none ∧ e = .missingData tag category := by
  rw [← resources_eq_error_iff]
  cases hresources : resources data locale entry.binding with
  | error e' =>
    rw [Entry.writer, writer, hresources]
    simp only [Except.error.injEq]
  | ok table =>
    obtain ⟨text, htext⟩ := exists_text_writer hengine hentry hplurals hresources
    rw [htext]
    simp only [reduceCtorEq]

/-- What does not ask for the data of one locale has a text. -/
theorem exists_text_of_ne_ofLocale (hbinding : ∀ category, entry.binding ≠ .ofLocale category) :
    ∃ text, entry.writer ⟨loaded.renderNamed, data, prerender⟩ locale = .ok text := by
  cases hresources : resources data locale entry.binding with
  | ok table => exact exists_text_writer hengine hentry hplurals hresources
  | error e =>
    obtain ⟨-, category, -, hlocale, -⟩ := resources_eq_error_iff.mp hresources
    exact absurd hlocale (hbinding category)

end

/-! ## A bundle -/

/-- A feature of this name is written with the data of one locale alone, and the locale has none of
the category. -/
def Lacks (entries : List Entry) (data : Locale.Source) (tag name category : String) : Prop :=
  ∃ entry ∈ entries, entry.name = name ∧ entry.binding = .ofLocale category ∧
    data.get? tag category = none

section

variable {loaded : Engine} (hengine : engine = .ok loaded) {entries : List Entry}
  (hentries : entries = libraryEntries ∨ entries = helperEntries) {data : Locale.Source}
  (hplurals : PluralsAreMaps data) {prerender : Bool}

include hentries

theorem mem_catalog {entry : Entry} (hentry : entry ∈ entries) :
    entry ∈ libraryEntries ++ helperEntries := by
  rcases hentries with rfl | rfl
  · exact List.mem_append_left _ hentry
  · exact List.mem_append_right _ hentry

theorem nodup_names_of_catalog : (entries.map (·.name)).Nodup := by
  rcases hentries with rfl | rfl
  · exact nodup_names.1
  · exact nodup_names.2

include hengine hplurals

/-- What fails in a script for a locale lacks the data. -/
theorem exists_failed_iff_lacks {tag name : String} {e : Build.BuildError} :
    (∃ write, (registryOf entries).get? name = some write ∧
      write ⟨loaded.renderNamed, data, prerender⟩ (some tag) = .error e) ↔
    ∃ category, Lacks entries data tag name category ∧ e = .missingData tag category := by
  constructor
  · rintro ⟨write, hget, hwrite⟩
    obtain ⟨entry, hentry, hname, rfl⟩ := mem_of_get?_registryOf hget
    obtain ⟨tag', category, htag, hbinding, hdata, he⟩ :=
      (writer_eq_error_iff hengine (mem_catalog hentries hentry) hplurals).mp hwrite
    obtain rfl := Option.some.inj htag
    exact ⟨category, ⟨entry, hentry, hname, hbinding, hdata⟩, he⟩
  · rintro ⟨category, ⟨entry, hentry, rfl, hbinding, hdata⟩, he⟩
    refine ⟨entry.writer, get?_registryOf (nodup_names_of_catalog hentries) hentry, ?_⟩
    exact (writer_eq_error_iff hengine (mem_catalog hentries hentry) hplurals).mpr
      ⟨tag, category, rfl, hbinding, hdata, he⟩

section

variable {selection : List String} {bundle next : Bundle}

/-- Where a bundle was assembled, no selected feature lacks its data. -/
theorem not_lacks_of_assemble {tag : String} (htag : bundle.locale = some tag)
    (h : bundle.assemble (registryOf entries) ⟨loaded.renderNamed, data, prerender⟩ selection
      = (next, .ok ())) :
    ∀ name ∈ selection, ∀ category, ¬Lacks entries data tag name category := by
  intro name hname category hlacks
  obtain ⟨write, hget, hwrite⟩ :=
    (exists_failed_iff_lacks hengine hentries hplurals).mpr ⟨category, hlacks, rfl⟩
  have hcontains : (registryOf entries).contains name = true := by
    rw [Table.contains_eq_isSome, hget]
    rfl
  obtain ⟨added, -, hall⟩ := Bundle.fragments_assemble h
  obtain ⟨fragment, -, -, write', hget', hwrite'⟩ :=
    exists_of_forall₂ hall (List.mem_filter.mpr ⟨hname, hcontains⟩)
  obtain rfl := Option.some.inj (hget.symm.trans hget')
  rw [htag, hwrite] at hwrite'
  cases hwrite'

/-- A bundle for a locale fails at the first selected feature that lacks its data. -/
theorem exists_first_lack {tag : String} (htag : bundle.locale = some tag) {e : Build.BuildError}
    (h : bundle.assemble (registryOf entries) ⟨loaded.renderNamed, data, prerender⟩ selection
      = (next, .error e)) :
    ∃ before name behind category, selection = before ++ name :: behind ∧
      (∀ other ∈ before, ∀ category, ¬Lacks entries data tag other category) ∧
      Lacks entries data tag name category ∧ e = .missingData tag category := by
  obtain ⟨before, name, behind, write, hselection, hbefore, hget, hwrite⟩ :=
    Bundle.exists_of_assemble_error h
  rw [htag] at hwrite
  obtain ⟨category, hlacks, he⟩ :=
    (exists_failed_iff_lacks hengine hentries hplurals).mp ⟨write, hget, hwrite⟩
  exact ⟨before, name, behind, category, hselection,
    not_lacks_of_assemble hengine hentries hplurals htag hbefore, hlacks, he⟩

/-- A bundle that fails is for a locale. -/
theorem ne_none_of_assemble_error {e : Build.BuildError}
    (h : bundle.assemble (registryOf entries) ⟨loaded.renderNamed, data, prerender⟩ selection
      = (next, .error e)) : bundle.locale ≠ none := by
  obtain ⟨-, name, -, write, -, -, hget, hwrite⟩ := Bundle.exists_of_assemble_error h
  obtain ⟨entry, hentry, -, rfl⟩ := mem_of_get?_registryOf hget
  obtain ⟨tag, -, htag, -⟩ :=
    (writer_eq_error_iff hengine (mem_catalog hentries hentry) hplurals).mp hwrite
  exact htag ▸ Option.some_ne_none tag

end

end

/-- A bundle of built-in features fails only because data are missing. A script for all locales is
always assembled. One for a locale is assembled unless a selected feature lacks the data of its
category, and then the failure names the locale and the category of the first such feature. What is
pure code never fails, and neither does the reader of number data. -/
theorem assemble_fails_iff_lacks {loaded : Engine} (hengine : engine = .ok loaded)
    {entries : List Entry} (hentries : entries = libraryEntries ∨ entries = helperEntries)
    {data : Locale.Source} (hplurals : PluralsAreMaps data) (prerender : Bool)
    (selection : List String) (bundle : Bundle) :
    let env : Environment := ⟨loaded.renderNamed, data, prerender⟩
    let outcome := (bundle.assemble (registryOf entries) env selection).2
    (bundle.locale = none → outcome = .ok ()) ∧
    (∀ tag, bundle.locale = some tag →
      ((∃ e, outcome = .error e) ↔
        ∃ name ∈ selection, ∃ category, Lacks entries data tag name category) ∧
      ∀ e, outcome = .error e → ∃ before name behind category,
        selection = before ++ name :: behind ∧
        (∀ other ∈ before, ∀ category, ¬Lacks entries data tag other category) ∧
        Lacks entries data tag name category ∧ e = .missingData tag category) ∧
    ∀ entry ∈ entries, entry.binding = .code ∨ entry.name = "number_data_reader" →
      ∀ locale, ∃ text, entry.writer env locale = .ok text := by
  intro env outcome
  obtain ⟨next, hassemble⟩ : ∃ next,
      bundle.assemble (registryOf entries) env selection = (next, outcome) := ⟨_, rfl⟩
  refine ⟨fun hnone => ?_, fun tag htag => ⟨⟨?_, ?_⟩, ?_⟩, ?_⟩
  · cases he : outcome with
    | ok => rfl
    | error e =>
      rw [he] at hassemble
      exact absurd hnone (ne_none_of_assemble_error hengine hentries hplurals hassemble)
  · rintro ⟨e, he⟩
    rw [he] at hassemble
    obtain ⟨before, name, behind, category, rfl, -, hlacks, -⟩ :=
      exists_first_lack hengine hentries hplurals htag hassemble
    exact ⟨name, List.mem_append_right _ (.head _), category, hlacks⟩
  · rintro ⟨name, hname, category, hlacks⟩
    cases he : outcome with
    | error e => exact ⟨e, rfl⟩
    | ok =>
      rw [he] at hassemble
      exact absurd hlacks
        (not_lacks_of_assemble hengine hentries hplurals htag hassemble name hname category)
  · intro e he
    rw [he] at hassemble
    exact exists_first_lack hengine hentries hplurals htag hassemble
  · intro entry hentry hwhole locale
    have hcatalog := mem_catalog hentries hentry
    refine exists_text_of_ne_ofLocale hengine hcatalog hplurals fun category hbinding => ?_
    rcases hwhole with hcode | hname
    · cases hcode.symm.trans hbinding
    · cases (binding_of_name_numberDataReader entry hcatalog hname).symm.trans hbinding

/-- Where there are plural rules for French and nothing else, list patterns are the first to be
missing. -/
theorem assemble_fails_iff_lacks_lists : ∃ loaded, engine = .ok loaded ∧
    let data := (Locale.Store.empty.insert "fr" "plurals" (.obj [("one", .str "n < 2")])).source
    PluralsAreMaps data ∧
    ((⟨.implementation, some "fr", false, []⟩ : Bundle).assemble libraryRegistry
      ⟨loaded.renderNamed, data, true⟩ ["plural_rules", "lists", "numbers"]).2
      = .error (.missingData "fr" "lists") := by
  obtain ⟨loaded, hengine⟩ := exists_engine
  refine ⟨loaded, hengine, ?_⟩
  intro data
  have hget (tag category : String) : data.get? tag category
      = if tag = "fr" ∧ category = "plurals" then some (.obj [("one", .str "n < 2")]) else none :=
    Locale.Store.get?_insert ..
  have hplurals : PluralsAreMaps data := by
    intro tag conditions hconditions
    rw [hget] at hconditions
    split at hconditions
    · exact ⟨_, (Option.some.inj hconditions).symm⟩
    · cases hconditions
  have hbindings : ∀ entry ∈ libraryEntries,
      (entry.name = "plural_rules" → entry.binding = .ofLocale "plurals") ∧
      (entry.name = "lists" → entry.binding = .ofLocale "lists") := by decide
  have hlists : Lacks libraryEntries data "fr" "lists" "lists" :=
    ⟨_, List.mem_of_getElem? (i := 9) rfl, rfl, rfl, by rw [hget, if_neg (by decide)]⟩
  have hrules (category : String) : ¬Lacks libraryEntries data "fr" "plural_rules" category := by
    rintro ⟨entry, hentry, hname, hbinding, hdata⟩
    obtain rfl := Binding.ofLocale.inj ((hbindings entry hentry).1 hname ▸ hbinding)
    rw [hget, if_pos ⟨rfl, rfl⟩] at hdata
    cases hdata
  refine ⟨hplurals, ?_⟩
  obtain ⟨hiff, hfirst⟩ := (assemble_fails_iff_lacks hengine (.inl rfl) hplurals true
    ["plural_rules", "lists", "numbers"] ⟨.implementation, some "fr", false, []⟩).2.1 "fr" rfl
  obtain ⟨e, he⟩ := hiff.mpr ⟨"lists", .tail _ (.head _), "lists", hlists⟩
  obtain ⟨before, name, behind, category, hselection, hbefore, hlacks, rfl⟩ := hfirst e he
  rcases before with - | ⟨first, - | ⟨second, rest⟩⟩
  · obtain ⟨rfl, -⟩ := List.cons.inj hselection
    exact absurd hlacks (hrules category)
  · obtain ⟨rfl, -⟩ := List.cons.inj (List.cons.inj hselection).2
    obtain ⟨entry, hentry, hname, hbinding, -⟩ := hlacks
    obtain rfl := Binding.ofLocale.inj ((hbindings entry hentry).2 hname ▸ hbinding)
    exact he
  · obtain ⟨rfl, -⟩ := List.cons.inj (List.cons.inj hselection).2
    exact absurd hlists (hbefore "lists" (.tail _ (.head _)) "lists")

end LocaleScript.Builtin
