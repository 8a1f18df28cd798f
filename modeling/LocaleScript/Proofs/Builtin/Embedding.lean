import LocaleScript.Proofs.Builtin.Prerendering
import LocaleScript.Proofs.Template.PrintedData

/-!
# Embedded data

A feature whose template includes the part for locale data is written with the data that its binding
selects and with no other, in their order (`writer_embeds_selected`). They stand in one assignment
to `resources`, or in a registration for each locale, and the reader of number data lists the
locales beside them. A line of the fragment that begins like one of these statements is one, since
data stands within lines.
-/

namespace LocaleScript

namespace Template

/-! ## Templates that include another one -/

mutual

/-- The node includes the template of this name, or a node that it nests does. -/
def Node.includes (part : String) : Node → Bool
  | .text _ | .print _ => false
  | .branch _ yes no => anyIncludes part yes || anyIncludes part no
  | .loop _ _ body otherwise => anyIncludes part body || anyIncludes part otherwise
  | .transclude name _ => name.text? == some part

/-- One of the nodes includes the template of this name. -/
def anyIncludes (part : String) : List Node → Bool
  | [] => false
  | node :: nodes => node.includes part || anyIncludes part nodes

end

end Template

namespace Builtin

open Template Text Feature

/-- The first five features of the library, which the plural rules are the last of, do not include
the part for locale data. -/
theorem not_anyIncludes_catalog :
    List.Forall₂ (fun (entry : Entry) (source : String × String) =>
        source.1 = entry.template ++ ".jinja" ∧ ∃ tree, Tree.parse? source.2 = some tree ∧
          (!anyIncludes "partials/resource" tree) = true)
      (libraryEntries.take 5) ((sources.drop 3).take 5) := by
  refine .cons ?_ <| .cons ?_ <| .cons ?_ <| .cons ?_ <| .cons ?_ <| .nil <;>
    exact ⟨by decide +kernel, exists_tree_lines (by repeat constructor) (by decide +kernel)⟩

theorem mem_dataTemplates {loaded : Engine} (hengine : engine = .ok loaded) {entry : Entry}
    (hentry : entry ∈ libraryEntries) {tree : Tree}
    (htree : loaded.templates.get? entry.template = some tree)
    (hincludes : anyIncludes "partials/resource" tree = true) : entry.template ∈ dataTemplates := by
  have hbehind : ∀ entry ∈ libraryEntries.drop 5, entry.template ∈ dataTemplates := by decide
  rw [← List.take_append_drop 5 libraryEntries, List.mem_append] at hentry
  refine hentry.elim (fun hfront => ?_) (hbehind entry)
  obtain ⟨source, hsource, hname, tree', hparse, hnot⟩ :=
    exists_of_forall₂ not_anyIncludes_catalog hfront
  have hloaded := get?_source hengine (List.mem_of_mem_drop (List.mem_of_mem_take hsource)) hname
  obtain rfl := Option.some.inj (htree.symm.trans (hloaded.trans hparse))
  rw [hincludes] at hnot
  cases hnot

/-! ## Fragments -/

/-- The value that a line with this beginning assigns. -/
def assignedTo? (opening line : List Char) : Option Json :=
  (between? opening [';'] line).bind Json.parseChars

/-- The reader of number data includes the part for locale data, and behind it lists the locales. -/
theorem exists_tree_numberDataReader : ∃ tree, Tree.parse? numberDataReader = some tree ∧
    (anyIncludes "partials/resource" tree &&
      (outline? (fragmentNames [("feature", .str "number_data_reader")]) (some "partials/resource")
        tree).any listsLocales) = true :=
  exists_tree_lines (by repeat constructor) (by decide +kernel)

theorem printedMembers_of_exact {members : List (String × Json)}
    (h : ∀ member ∈ members, member.2.IsExact) : printedMembers members = members := by
  refine (List.map_congr_left fun member hmember => ?_).trans (List.map_id members)
  exact Prod.ext rfl (Json.reread_finite_of_isExact (h member hmember))

theorem eq_of_name_numberDataReader : ∀ entry ∈ libraryEntries, entry.name = "number_data_reader" →
    entry = ⟨"number_data_reader", "fragments/number_data_reader", .ofAll "numbers"⟩ := by
  decide

section

variable {loaded : Engine} (hengine : engine = .ok loaded) {entry : Entry}
  (hentry : entry ∈ libraryEntries) {data : Locale.Source} {locale : Option String}

include hengine hentry

/-- The reader of number data lists the locales that it has data of. -/
theorem locales_writer (hname : entry.name = "number_data_reader") {prerender : Bool}
    {text : String}
    (h : entry.writer ⟨loaded.renderNamed, data, prerender⟩ locale = .ok text) :
    ∃ line, linesFrom localesOpening text = [line] ∧ assignedTo? localesOpening line
      = some (.ofStrings ((selected data locale entry.binding).map (·.1))) := by
  obtain rfl := eq_of_name_numberDataReader entry hentry hname
  obtain ⟨tree, hparse, hcheck⟩ := exists_tree_numberDataReader
  obtain ⟨o, houtline, hlists⟩ := (Option.any_eq_true _ _).mp (Bool.and_eq_true_iff.mp hcheck).2
  obtain ⟨part, o', hparse', houtline', hcheck'⟩ := hasOutline_resource prerender
  obtain ⟨-, -, hnothing⟩ := isResource_iff.mp hcheck'
  rw [writer_eq_outline hengine (List.mem_of_getElem? (i := 9) rfl) rfl hparse hparse'
    (fun value hvalue => List.mem_singleton.mp hvalue ▸ .head _) houtline houtline'] at h
  cases hresources : resources data locale (.ofAll "numbers") with
  | error e =>
    rw [hresources] at h
    cases h
  | ok table =>
    rw [hresources] at h
    obtain rfl := Except.ok.inj h
    refine ⟨_, linesFrom_localesOpening hlists hnothing rfl, ?_⟩
    rw [← entries_resources hresources, assignedTo?, localesRow, parse_between?_row]
    refine congrArg some ((congrArg Json.reread (Json.finite_ofStrings _)).trans ?_)
    exact Json.reread_of_isExact (Json.isExact_ofStrings _)

end

/-- What is written of a feature that includes the part for locale data has the data that its
binding selects, in their order: with prerendering all of them in the one assignment to `resources`,
and without it each in one of the registrations. The reader of number data assigns the locales once.
Data without doubles come back as they were. -/
theorem writer_embeds_selected {loaded : Engine} (hengine : engine = .ok loaded) {entry : Entry}
    (hentry : entry ∈ libraryEntries) {tree : Tree}
    (htree : loaded.templates.get? entry.template = some tree)
    (hincludes : anyIncludes "partials/resource" tree = true) {data : Locale.Source}
    (hexact : ∀ tag category value, data.get? tag category = some value → value.IsExact)
    {prerender : Bool} {locale : Option String} {text : String}
    (h : entry.writer ⟨loaded.renderNamed, data, prerender⟩ locale = .ok text) :
    ∃ category, entry.binding.category? = some category ∧
      (prerender = true → ∃ line, linesFrom assignOpening text = [line] ∧
        assignedTo? assignOpening line = some (.obj (selected data locale entry.binding))) ∧
      (prerender = false → (linesFrom registerOpening text).map registered?
        = (selected data locale entry.binding).map fun resource =>
          some (resource.1, category, resource.2)) ∧
      (entry.name = "number_data_reader" → ∃ line, linesFrom localesOpening text = [line] ∧
        assignedTo? localesOpening line
          = some (.ofStrings ((selected data locale entry.binding).map (·.1)))) := by
  have htemplate := mem_dataTemplates hengine hentry htree hincludes
  obtain ⟨category, hcategory⟩ :=
    Option.isSome_iff_exists.mp (isSome_category? entry hentry htemplate)
  have hlocales := fun hname => locales_writer hengine hentry hname h
  obtain ⟨o, o', table, hframes, hcarries, hresources, rfl⟩ :=
    exists_table_of_writer hengine hentry htemplate h
  have hvalues : ∀ resource ∈ table.entries, resource.2.IsExact := fun resource hresource =>
    hexact _ _ _ (get?_of_mem_resources hresources hcategory hresource)
  rw [← entries_resources hresources] at hlocales ⊢
  refine ⟨category, hcategory, ?_, ?_, hlocales⟩
  · rintro rfl
    refine ⟨_, linesFrom_assignOpening hframes rfl hcarries, ?_⟩
    refine (assigned?_assignRow _).trans (congrArg some ?_)
    rw [reread_finite_obj]
    exact congrArg Json.obj (printedMembers_of_exact hvalues)
  · rintro rfl
    rw [linesFrom_registerOpening hframes rfl hcarries, List.map_map]
    refine List.map_congr_left fun resource hresource => ?_
    refine (registered?_registerRow hcategory).trans ?_
    exact congrArg (fun value => some (resource.1, category, value))
      (Json.reread_finite_of_isExact (hvalues resource hresource))

/-- In a script for English, the reader of number data has the German numbers too. -/
theorem writer_embeds_selected_two_locales : ∃ loaded text, engine = .ok loaded ∧
    Entry.writer ⟨"number_data_reader", "fragments/number_data_reader", .ofAll "numbers"⟩
      ⟨loaded.renderNamed, twoLocales.source, true⟩ (some "en") = .ok text ∧
    (∃ line, linesFrom assignOpening text = [line] ∧ assignedTo? assignOpening line
      = some (.obj [("en", .obj [("group", .str ",")]), ("de", .obj [("group", .str ".")])])) ∧
    ∃ line, linesFrom localesOpening text = [line] ∧
      assignedTo? localesOpening line = some (.ofStrings ["en", "de"]) := by
  obtain ⟨loaded, hengine⟩ := exists_engine
  let entry : Entry := ⟨"number_data_reader", "fragments/number_data_reader", .ofAll "numbers"⟩
  have hentry : entry ∈ libraryEntries := List.mem_of_getElem? (i := 6) rfl
  obtain ⟨tree, hparse, hcheck⟩ := exists_tree_numberDataReader
  have hincludes := (Bool.and_eq_true_iff.mp hcheck).1
  have htree : loaded.templates.get? entry.template = some tree :=
    (get?_source hengine (List.mem_of_getElem? (i := 9) rfl) rfl).trans hparse
  have hexact : ∀ tag category value, twoLocales.source.get? tag category = some value →
      value.IsExact := by
    intro tag category value hvalue
    have hget : twoLocales.get? tag category = some value := hvalue
    rw [twoLocales, Locale.Store.get?_insert, Locale.Store.get?_insert] at hget
    split at hget
    · rw [← Option.some.inj hget]
      exact ⟨trivial, trivial⟩
    · split at hget
      · rw [← Option.some.inj hget]
        exact ⟨trivial, trivial⟩
      · cases hget
  have hselected : selected twoLocales.source (some "en") entry.binding
      = [("en", .obj [("group", .str ",")]), ("de", .obj [("group", .str ".")])] := rfl
  have hresources : resources twoLocales.source (some "en") entry.binding
      = .ok (allResources twoLocales.source "numbers") := rfl
  obtain ⟨text, htext⟩ :
      ∃ text, entry.writer ⟨loaded.renderNamed, twoLocales.source, true⟩ (some "en") = .ok text :=
    (exists_leads_writer hengine (List.mem_append_left _ hentry)
      (fun hplural => absurd hplural (by decide)) hresources).imp fun _ hwritten => hwritten.1
  obtain ⟨-, -, hassigned, -, hlocales⟩ :=
    writer_embeds_selected hengine hentry htree hincludes hexact htext
  rw [hselected] at hassigned hlocales
  exact ⟨loaded, text, hengine, htext, hassigned rfl, hlocales rfl⟩

end Builtin

end LocaleScript
