import LocaleScript.Proofs.Builtin.Bundles

/-!
# Data in the script and data that is looked up

The features that include the part for locale data have their data in their own fragments, or they
register it in the one table of the script. Both give a feature the same data, but for one case: the
table has the numbers of all locales once the reader of number data registers them, and then the
number formatter of a script for one locale sees those of the others as well (`lookup_tableOf_iff`).
-/

namespace LocaleScript.Builtin

open Template Feature

/-! ## What fragments hold -/

/-- The members of an object as they are read where the object was printed. -/
def printedMembers (members : List (String × Json)) : List (String × Json) :=
  members.map fun member => (member.1, member.2.finite.reread)

theorem reread_finite_obj (members : List (String × Json)) :
    (Json.obj members).finite.reread = .obj (printedMembers members) := by
  rw [Json.finite_obj, Json.reread, Json.rereadMembers_eq_map, Json.finiteMembers_eq_map,
    List.map_map]
  rfl

theorem lookup_printedMembers (members : List (String × Json)) (tag : String) :
    (printedMembers members).lookup tag
      = (members.lookup tag).map fun data => data.finite.reread := by
  induction members with
  | nil => rfl
  | cons member members ih =>
    obtain ⟨key, data⟩ := member
    rw [printedMembers, List.map_cons, List.lookup_cons, List.lookup_cons, ← printedMembers, ih]
    cases tag == key <;> rfl

section

variable {loaded : Engine} (hengine : engine = .ok loaded) {entry : Entry}
  (hentry : entry ∈ libraryEntries) (htemplate : entry.template ∈ dataTemplates)

include hengine hentry htemplate

/-- A feature with locale data is written as an outline that includes the part for the data. -/
theorem exists_writer_eq_outline (prerender : Bool) (data : Locale.Source)
    (locale : Option String) :
    ∃ o o', includesData o = true ∧ carriesData prerender o' = true ∧
      entry.writer ⟨loaded.renderNamed, data, prerender⟩ locale
        = (resources data locale entry.binding).map fun table =>
          String.ofList (o.write (fragmentData entry.binding.category? table
            (o'.write (fragmentData entry.binding.category? table [])))) := by
  obtain ⟨source, hsource, hname, tree, o, hparse, houtline, hcheck⟩ :=
    exists_isFragment (List.mem_append_left _ hentry)
  obtain ⟨part, o', hparse', houtline', hcheck'⟩ := hasOutline_resource prerender
  have hflags : knownFlags entry = [] := by
    refine if_neg fun hplural => ?_
    rw [hplural] at htemplate
    exact absurd htemplate (by decide)
  have hvalues : ∀ value ∈ ("feature", .str entry.name) :: knownFlags entry,
      value ∈ [("feature", .str entry.name), ("prerender", .bool prerender)] := by
    rw [hflags]
    exact fun value hvalue => List.mem_singleton.mp hvalue ▸ .head _
  have hincludes : includesData o = true := by
    simpa [htemplate] using (Bool.and_eq_true_iff.mp hcheck).2
  exact ⟨o, o', hincludes, (isResource_iff.mp hcheck').2.1,
    writer_eq_outline hengine hsource hname hparse hparse' hvalues houtline houtline' data locale⟩

variable {data : Locale.Source} {locale : Option String}

/-- What is written of a feature is written with the data that its binding selects. -/
theorem exists_table_of_writer {prerender : Bool} {text : String}
    (h : entry.writer ⟨loaded.renderNamed, data, prerender⟩ locale = .ok text) :
    ∃ o o' table, includesData o = true ∧ carriesData prerender o' = true ∧
      resources data locale entry.binding = .ok table ∧
      String.ofList (o.write (fragmentData entry.binding.category? table
        (o'.write (fragmentData entry.binding.category? table [])))) = text := by
  obtain ⟨o, o', hincludes, hcarries, hwriter⟩ :=
    exists_writer_eq_outline hengine hentry htemplate prerender data locale
  rw [hwriter] at h
  cases hresources : resources data locale entry.binding with
  | error e =>
    rw [hresources] at h
    cases h
  | ok table =>
    rw [hresources] at h
    exact ⟨o, o', table, hincludes, hcarries, rfl, Except.ok.inj h⟩

/-- A fragment with its data inside assigns them to `resources`. -/
theorem resourcesOf?_writer {text : String}
    (h : entry.writer ⟨loaded.renderNamed, data, true⟩ locale = .ok text) :
    ∃ table, resources data locale entry.binding = .ok table ∧
      resourcesOf? text = some (.obj (printedMembers table.entries)) := by
  obtain ⟨o, o', table, hincludes, hcarries, hresources, rfl⟩ :=
    exists_table_of_writer hengine hentry htemplate h
  refine ⟨table, hresources, ?_⟩
  rw [resourcesOf?_outline hincludes rfl hcarries, reread_finite_obj]
  rfl

/-- A fragment without its data registers them locale by locale, under their category. -/
theorem registrations_writer {category : String}
    (hcategory : entry.binding.category? = some category)
    {text : String} (h : entry.writer ⟨loaded.renderNamed, data, false⟩ locale = .ok text) :
    ∃ table, resources data locale entry.binding = .ok table ∧ registrations text
      = table.entries.map fun resource => (resource.1, category, resource.2.finite.reread) := by
  obtain ⟨o, o', table, hincludes, hcarries, hresources, rfl⟩ :=
    exists_table_of_writer hengine hentry htemplate h
  refine ⟨table, hresources, ?_⟩
  rw [registrations_outline hincludes rfl hcarries hcategory]
  rfl

end

/-! ## What a bundle registers -/

/-- What a table of insertions holds was inserted or was there before. -/
theorem mem_of_get?_foldl_insert {entries : List (String × String × Json)} {store : Locale.Store}
    {tag category : String} {data : Json}
    (h : (entries.foldl (fun table (tag, category, data) => table.insert tag category data)
      store).get? tag category = some data) :
    (tag, category, data) ∈ entries ∨ store.get? tag category = some data := by
  induction entries generalizing store with
  | nil => exact .inr h
  | cons entry entries ih =>
    obtain ⟨tag', category', data'⟩ := entry
    rcases ih h with hmem | hget
    · exact .inl (.tail _ hmem)
    · rw [Locale.Store.get?_insert] at hget
      split at hget
      · next heq =>
        obtain ⟨rfl, rfl⟩ := heq
        rw [Option.some.inj hget]
        exact .inl (.head _)
      · exact .inr hget

/-- What was inserted or was there before can be found. -/
theorem isSome_get?_foldl_insert {entries : List (String × String × Json)} {store : Locale.Store}
    {tag category : String}
    (h : (∃ data, (tag, category, data) ∈ entries) ∨ (store.get? tag category).isSome = true) :
    ((entries.foldl (fun table (tag, category, data) => table.insert tag category data) store).get?
      tag category).isSome = true := by
  induction entries generalizing store with
  | nil => exact h.resolve_left fun ⟨_, hmem⟩ => nomatch hmem
  | cons entry entries ih =>
    obtain ⟨tag', category', data'⟩ := entry
    refine ih ?_
    rw [Locale.Store.get?_insert]
    rcases h with ⟨data, hmem⟩ | hget
    · rcases List.mem_cons.mp hmem with heq | hmem
      · obtain ⟨rfl, hrest⟩ := Prod.mk.inj heq
        obtain ⟨rfl, -⟩ := Prod.mk.inj hrest
        exact .inr (by simp)
      · exact .inl ⟨data, hmem⟩
    · refine .inr ?_
      split
      · rfl
      · exact hget

/-- What has the part for locale data has a category. -/
theorem isSome_category? : ∀ entry ∈ libraryEntries, entry.template ∈ dataTemplates →
    entry.binding.category?.isSome = true := by
  decide

section

variable {env : Environment} {selection : List String} {kind : Bundle.Kind} {locale : Option String}
  {sourceMap : Bool} {next : Bundle}
  (h : Bundle.assemble libraryRegistry env selection ⟨kind, locale, sourceMap, []⟩ = (next, .ok ()))

include h

theorem exists_entry_of_mem_fragments {fragment : Fragment}
    (hfragment : fragment ∈ next.fragments) :
    ∃ entry ∈ libraryEntries, entry.name ∈ selection ∧ fragment.name = entry.name ∧
      entry.writer env locale = .ok fragment.text := by
  obtain ⟨added, hadded, hall⟩ := Bundle.fragments_assemble h
  rw [hadded, List.nil_append] at hfragment
  obtain ⟨name, hname, rfl, write, hget, hwrite⟩ := exists_of_forall₂ hall.flip hfragment
  obtain ⟨entry, hentry, hname', rfl⟩ := mem_of_get?_registryOf hget
  exact ⟨entry, hentry, hname' ▸ (List.mem_filter.mp hname).1, hname'.symm, hwrite⟩

theorem exists_fragment_of_mem_selection {entry : Entry} (hentry : entry ∈ libraryEntries)
    (hselected : entry.name ∈ selection) :
    ∃ fragment ∈ next.fragments, entry.writer env locale = .ok fragment.text := by
  have hget := get?_registryOf nodup_names.1 hentry
  have hcontains : libraryRegistry.contains entry.name = true := by
    rw [Table.contains_eq_isSome, libraryRegistry, hget]
    rfl
  obtain ⟨added, hadded, hall⟩ := Bundle.fragments_assemble h
  obtain ⟨fragment, hfragment, -, write, hget', hwrite⟩ :=
    exists_of_forall₂ hall (List.mem_filter.mpr ⟨hselected, hcontains⟩)
  obtain rfl := Option.some.inj (hget.symm.trans hget')
  exact ⟨fragment, by rwa [hadded, List.nil_append], hwrite⟩

end

/-- Of the features with one category, only the reader of number data has the data of other locales
than the one the script is for, and the number formatter has not. -/
theorem names_of_omits {entry other : Entry} (hentry : entry ∈ libraryEntries)
    (hother : other ∈ libraryEntries) {category : String}
    (hcategory : entry.binding.category? = some category)
    (hcategory' : other.binding.category? = some category) {locale : Option String} {tag : String}
    (homits : entry.binding.Omits locale tag) (hnot : ¬other.binding.Omits locale tag) :
    entry.name = "numbers" ∧ other.name = "number_data_reader" ∧ category = "numbers" := by
  have hpairs : ∀ entry ∈ libraryEntries, ∀ other ∈ libraryEntries,
      entry.binding.category?.isSome = true → entry.binding.category? = other.binding.category? →
      entry.binding = other.binding ∨ entry.binding = .ofAll "numbers" ∨
        entry.name = "numbers" ∧ other.name = "number_data_reader" ∧
          entry.binding.category? = some "numbers" := by
    decide
  rcases hpairs entry hentry other hother (by rw [hcategory]; rfl) (hcategory.trans hcategory'.symm)
    with heq | hall | ⟨hname, hname', hnumbers⟩
  · exact absurd (heq ▸ homits) hnot
  · obtain ⟨own, category, -, hbinding, -⟩ := homits
    cases hall.symm.trans hbinding
  · exact ⟨hname, hname', Option.some.inj (hcategory.symm.trans hnumbers)⟩

theorem bindings_numbers : ∀ entry ∈ libraryEntries,
    (entry.name = "numbers" → entry.binding = .ofLocale "numbers") ∧
    (entry.name = "number_data_reader" → entry.binding = .ofAll "numbers") := by
  decide

section

variable {loaded : Engine} (hengine : engine = .ok loaded) {store : Locale.Store}
  {locale : Option String} {selection : List String}
  (hselection : ∀ entry ∈ libraryEntries, entry.name ∈ selection → entry.template ∈ dataTemplates)
  {kind : Bundle.Kind} {sourceMap : Bool} {registered : Bundle}
  (h : Bundle.assemble libraryRegistry ⟨loaded.renderNamed, store.source, false⟩ selection
    ⟨kind, locale, sourceMap, []⟩ = (registered, .ok ()))

include hengine hselection h

/-- Each selected feature registers the data it has. -/
theorem mem_registrations_of_mem_selection {entry : Entry} (hentry : entry ∈ libraryEntries)
    (hselected : entry.name ∈ selection) {category : String}
    (hcategory : entry.binding.category? = some category) {tag : String}
    (homits : ¬entry.binding.Omits locale tag) {data : Json}
    (hdata : store.get? tag category = some data) :
    (tag, category, data.finite.reread) ∈
      registered.fragments.flatMap fun fragment => registrations fragment.text := by
  obtain ⟨fragment, hfragment, hwrite⟩ := exists_fragment_of_mem_selection h hentry hselected
  obtain ⟨table, hresources, hregistrations⟩ := registrations_writer hengine hentry
    (hselection entry hentry hselected) hcategory hwrite
  have hmem : (tag, data) ∈ table.entries := by
    rw [Table.mem_entries_iff (nodup_keys_resources hresources),
      get?_resources hresources hcategory homits, hdata]
  refine List.mem_flatMap.mpr ⟨fragment, hfragment, ?_⟩
  rw [hregistrations]
  exact List.mem_map.mpr ⟨_, hmem, rfl⟩

/-- What is registered is data of the store. -/
theorem get?_of_mem_registrations {tag category : String} {data : Json}
    (hmem : (tag, category, data) ∈
      registered.fragments.flatMap fun fragment => registrations fragment.text) :
    ∃ entry ∈ libraryEntries, entry.name ∈ selection ∧
      entry.binding.category? = some category ∧ ¬entry.binding.Omits locale tag ∧
      (store.get? tag category).map (fun data => data.finite.reread) = some data := by
  obtain ⟨fragment, hfragment, hmem⟩ := List.mem_flatMap.mp hmem
  obtain ⟨entry, hentry, hselected, -, hwrite⟩ := exists_entry_of_mem_fragments h hfragment
  have htemplate := hselection entry hentry hselected
  obtain ⟨category', hcategory⟩ :=
    Option.isSome_iff_exists.mp (isSome_category? entry hentry htemplate)
  obtain ⟨table, hresources, hregistrations⟩ :=
    registrations_writer hengine hentry htemplate hcategory hwrite
  rw [hregistrations] at hmem
  obtain ⟨⟨tag', data'⟩, hresource, heq⟩ := List.mem_map.mp hmem
  obtain ⟨rfl, hrest⟩ := Prod.mk.inj heq
  obtain ⟨rfl, rfl⟩ := Prod.mk.inj hrest
  have hget := (Table.mem_entries_iff (nodup_keys_resources hresources)).mp hresource
  have homits : ¬entry.binding.Omits locale tag' := by
    intro homits
    rw [get?_resources_of_omits hresources homits] at hget
    cases hget
  refine ⟨entry, hentry, hselected, hcategory, homits, ?_⟩
  rw [← get?_resources hresources hcategory homits, hget]
  rfl

/-- The table has what the store has, for the locales that a selected feature registers. -/
theorem get?_tableOf {entry : Entry} (hentry : entry ∈ libraryEntries)
    (hselected : entry.name ∈ selection) {category : String}
    (hcategory : entry.binding.category? = some category) {tag : String}
    (homits : ¬entry.binding.Omits locale tag) :
    (tableOf registered.fragments).get? tag category
      = (store.get? tag category).map fun data => data.finite.reread := by
  cases htable : (tableOf registered.fragments).get? tag category with
  | some data =>
    have hmem := (mem_of_get?_foldl_insert htable).resolve_right fun hempty => by cases hempty
    obtain ⟨-, -, -, -, -, hdata⟩ := get?_of_mem_registrations hengine hselection h hmem
    exact hdata.symm
  | none =>
    cases hstore : store.get? tag category with
    | none => rfl
    | some data =>
      have hmem := mem_registrations_of_mem_selection hengine hselection h hentry hselected
        hcategory homits hstore
      have hsome : ((tableOf registered.fragments).get? tag category).isSome = true :=
        isSome_get?_foldl_insert (.inl ⟨_, hmem⟩)
      rw [htable] at hsome
      cases hsome

end

/-- The selection has the number formatter see numbers of other locales than the one of the script,
of which there are some for the tag. -/
def SharesNumbers (store : Locale.Store) (locale : Option String) (selection : List String)
    (feature tag : String) : Prop :=
  feature = "numbers" ∧ "number_data_reader" ∈ selection ∧
    (∃ own, locale = some own ∧ tag ≠ own) ∧ (store.get? tag "numbers").isSome = true

/-- Of a locale that a fragment would not hold, the table has nothing unless numbers are shared. -/
theorem get?_tableOf_eq_none_iff {loaded : Engine} (hengine : engine = .ok loaded)
    {store : Locale.Store} {locale : Option String} {selection : List String}
    (hselection : ∀ entry ∈ libraryEntries, entry.name ∈ selection → entry.template ∈ dataTemplates)
    {kind : Bundle.Kind} {sourceMap : Bool} {registered : Bundle}
    (h : Bundle.assemble libraryRegistry ⟨loaded.renderNamed, store.source, false⟩ selection
      ⟨kind, locale, sourceMap, []⟩ = (registered, .ok ()))
    {entry : Entry} (hentry : entry ∈ libraryEntries) {category : String}
    (hcategory : entry.binding.category? = some category) {tag : String}
    (homits : entry.binding.Omits locale tag) :
    (tableOf registered.fragments).get? tag category = none ↔
      ¬SharesNumbers store locale selection entry.name tag := by
  constructor
  · rintro hnone ⟨hnumbers, hreader, -, hdata⟩
    obtain ⟨reader, hreader', hname⟩ :
        ∃ reader ∈ libraryEntries, reader.name = "number_data_reader" :=
      ⟨_, List.mem_of_getElem? (i := 6) rfl, rfl⟩
    have hbinding := (bindings_numbers reader hreader').2 hname
    rw [(bindings_numbers entry hentry).1 hnumbers] at hcategory
    obtain rfl := Option.some.inj hcategory
    have htable := get?_tableOf hengine hselection h hreader' (hname ▸ hreader)
      (by rw [hbinding]; rfl) (hbinding ▸ not_omits_ofAll _ _ tag)
    obtain ⟨data, hdata⟩ := Option.isSome_iff_exists.mp hdata
    rw [hnone, hdata] at htable
    cases htable
  · intro hshares
    refine Option.eq_none_iff_forall_ne_some.mpr fun data hdata => hshares ?_
    have hmem := (mem_of_get?_foldl_insert hdata).resolve_right fun hempty => by cases hempty
    obtain ⟨other, hother, hselected, hcategory', homits', hstore⟩ :=
      get?_of_mem_registrations hengine hselection h hmem
    obtain ⟨hnumbers, hreader, rfl⟩ :=
      names_of_omits hentry hother hcategory hcategory' homits homits'
    obtain ⟨own, -, hlocale, -, hne⟩ := homits
    obtain ⟨data', hdata', -⟩ := Option.map_eq_some_iff.mp hstore
    exact ⟨hnumbers, hreader ▸ hselected, ⟨own, hlocale, hne⟩, by rw [hdata']; rfl⟩

/-- Each selected feature finds in the table of the script what its fragment would hold itself, but
for the number formatter: beside the reader of number data, it finds numbers of locales that its
fragment would not hold. -/
theorem lookup_tableOf_iff {loaded : Engine} (hengine : engine = .ok loaded) {store : Locale.Store}
    {locale : Option String} {selection : List String}
    (hselection : ∀ entry ∈ libraryEntries, entry.name ∈ selection → entry.template ∈ dataTemplates)
    {kind : Bundle.Kind} {sourceMap : Bool} {inlined registered : Bundle}
    (h : Bundle.assemble libraryRegistry ⟨loaded.renderNamed, store.source, true⟩ selection
      ⟨kind, locale, sourceMap, []⟩ = (inlined, .ok ()))
    (h' : Bundle.assemble libraryRegistry ⟨loaded.renderNamed, store.source, false⟩ selection
      ⟨kind, locale, sourceMap, []⟩ = (registered, .ok ())) :
    inlined.features = selection.filter libraryRegistry.contains ∧
    ∀ fragment ∈ inlined.fragments, ∃ entry ∈ libraryEntries, ∃ category members,
      entry.name = fragment.name ∧ entry.binding.category? = some category ∧
      resourcesOf? fragment.text = some (.obj members) ∧ (members.map (·.1)).Nodup ∧
      ∀ tag, (tableOf registered.fragments).get? tag category = members.lookup tag ↔
        ¬SharesNumbers store locale selection fragment.name tag := by
  refine ⟨Bundle.features_assemble h, fun fragment hfragment => ?_⟩
  obtain ⟨entry, hentry, hselected, hname, hwrite⟩ := exists_entry_of_mem_fragments h hfragment
  have htemplate := hselection entry hentry hselected
  obtain ⟨category, hcategory⟩ :=
    Option.isSome_iff_exists.mp (isSome_category? entry hentry htemplate)
  obtain ⟨table, hresources, hinline⟩ := resourcesOf?_writer hengine hentry htemplate hwrite
  have hnodup : ((printedMembers table.entries).map (·.1)).Nodup := by
    rw [printedMembers, List.map_map]
    exact nodup_keys_resources hresources
  refine ⟨entry, hentry, category, _, hname.symm, hcategory, hinline, hnodup, fun tag => ?_⟩
  have hlookup : (printedMembers table.entries).lookup tag
      = (table.get? tag).map fun data => data.finite.reread := lookup_printedMembers _ tag
  rw [hlookup, hname]
  by_cases homits : entry.binding.Omits locale tag
  · rw [get?_resources_of_omits hresources homits, Option.map_none]
    exact get?_tableOf_eq_none_iff hengine hselection h' hentry hcategory homits
  · rw [get?_resources hresources hcategory homits,
      get?_tableOf hengine hselection h' hentry hselected hcategory homits]
    refine ⟨fun _ hshares => homits ?_, fun _ => rfl⟩
    obtain ⟨hnumbers, -, ⟨own, hlocale, hne⟩, -⟩ := hshares
    exact ⟨own, "numbers", hlocale, (bindings_numbers entry hentry).1 hnumbers, hne⟩

/-- Numbers of two locales. -/
def twoLocales : Locale.Store :=
  (Locale.Store.empty.insert "en" "numbers" (.obj [("group", .str ",")])).insert "de" "numbers"
    (.obj [("group", .str ".")])

/-- In a script for English, the number formatter finds the German numbers that its fragment would
not hold. -/
theorem lookup_tableOf_iff_two_locales : ∃ loaded inlined registered,
    engine = .ok loaded ∧
    Bundle.assemble libraryRegistry ⟨loaded.renderNamed, twoLocales.source, true⟩
      ["numbers", "number_data_reader"] ⟨.implementation, some "en", false, []⟩
        = (inlined, .ok ()) ∧
    Bundle.assemble libraryRegistry ⟨loaded.renderNamed, twoLocales.source, false⟩
      ["numbers", "number_data_reader"] ⟨.implementation, some "en", false, []⟩
        = (registered, .ok ()) ∧
    ∃ fragment ∈ inlined.fragments, fragment.name = "numbers" ∧
      ∃ members, resourcesOf? fragment.text = some (.obj members) ∧
        (tableOf registered.fragments).get? "de" "numbers" ≠ members.lookup "de" := by
  obtain ⟨loaded, hengine⟩ := exists_engine
  have hentries : ∀ entry ∈ libraryEntries, entry.name ∈ ["numbers", "number_data_reader"] →
      entry.template ∈ dataTemplates ∧ entry.template ≠ "fragments/plural_rules" ∧
        (entry.binding = .ofLocale "numbers" ∨ entry.binding = .ofAll "numbers") := by decide
  have hassemble (prerender : Bool) : ∃ bundle, Bundle.assemble libraryRegistry
      ⟨loaded.renderNamed, twoLocales.source, prerender⟩ ["numbers", "number_data_reader"]
      ⟨.implementation, some "en", false, []⟩ = (bundle, .ok ()) := by
    refine exists_assemble_library hengine fun entry hentry hname => ?_
    obtain ⟨-, htemplate, hbinding⟩ := hentries entry hentry hname
    refine ⟨htemplate, ?_⟩
    rcases hbinding with hbinding | hbinding
    · simp [hbinding, resources, twoLocales, Locale.Store.source]
    · exact ⟨_, by rw [hbinding, resources]⟩
  obtain ⟨inlined, hinlined⟩ := hassemble true
  obtain ⟨registered, hregistered⟩ := hassemble false
  obtain ⟨hfeatures, hfragments⟩ := lookup_tableOf_iff hengine
    (fun entry hentry hname => (hentries entry hentry hname).1) hinlined hregistered
  obtain ⟨fragment, hfragment, hname⟩ :
      ∃ fragment ∈ inlined.fragments, fragment.name = "numbers" := by
    refine List.mem_map.mp ?_
    rw [← Bundle.features, hfeatures]
    decide
  obtain ⟨entry, hentry, category, members, hname', hcategory, hinline, -, hiff⟩ :=
    hfragments fragment hfragment
  rw [(bindings_numbers entry hentry).1 (hname'.trans hname)] at hcategory
  obtain rfl := Option.some.inj hcategory
  refine ⟨loaded, inlined, registered, hengine, hinlined, hregistered, fragment, hfragment, hname,
    members, hinline,
    fun hsame => (hiff "de").mp hsame ⟨hname, by decide, ⟨"en", rfl, by decide⟩, ?_⟩⟩
  simp [twoLocales]

end LocaleScript.Builtin
