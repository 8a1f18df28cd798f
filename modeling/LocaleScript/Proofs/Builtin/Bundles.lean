import LocaleScript.Proofs.Builtin.Fragments
import LocaleScript.Proofs.Feature.Assembling
import LocaleScript.Proofs.Feature.Resources
import LocaleScript.Script.Wrapper

/-!
# Bundles of features

Whatever the locale data are, a bundle of the built-in templates is rendered and compiled, and the
comments of its script that name features name those that were selected, in order
(`comments_of_assemble`). Data can neither break a bundle nor forge a feature. What stands around
the texts of the features does not depend on them (`render_frames_contents`).
-/

namespace LocaleScript.Builtin

open Template Script Feature

/-! ## The frame of the contents -/

/-- A bundle of features without a text. -/
def hollow (kind : Bundle.Kind) (locale : Option String) (sourceMap : Bool) (names : List String) :
    Bundle :=
  ⟨kind, locale, sourceMap, names.map fun name => ⟨name, ""⟩⟩

theorem features_hollow (kind : Bundle.Kind) (locale : Option String) (sourceMap : Bool)
    (names : List String) : (hollow kind locale sourceMap names).features = names := by
  simp only [hollow, Bundle.features, List.map_map, Function.comp_def, List.map_id']

/-- The contents of a bundle are written once and as they are. What stands in front of them and
behind them is known from the kind, the locale, the flag for source maps and the names of the
features, whatever the texts of the features are. -/
theorem render_frames_contents {loaded : Engine} (hengine : engine = .ok loaded)
    (kind : Bundle.Kind)
    (locale : Option String) (sourceMap : Bool) (names : List String) :
    ∃ before behind : String, ∀ bundle : Bundle, bundle.kind = kind → bundle.locale = locale →
      bundle.sourceMap = sourceMap → bundle.features = names →
      bundle.render loaded.renderNamed = .ok (before ++ bundle.contents ++ behind) := by
  cases kind with
  | implementation =>
    let hollow := hollow .implementation locale sourceMap names
    refine ⟨front hollow, back hollow, fun bundle hkind hlocale hmap hfeatures => ?_⟩
    have hfront : front bundle = front hollow :=
      front_congr hlocale (hfeatures.trans (features_hollow ..).symm)
    have hback : back bundle = back hollow := back_congr hkind hlocale hmap
    rw [render_implementation hengine hkind, hfront, hback]
  | test =>
    exact ⟨helperFront, helperExportText, fun bundle hkind _ _ _ => render_test hengine hkind⟩

/-- A text that looks like a template stands where any other text of the feature would stand. -/
theorem render_frames_contents_template : ∃ loaded, engine = .ok loaded ∧ ∃ before behind : String,
    (⟨.implementation, some "en", true, [⟨"lists", "\x7b\x7b x \x7d\x7d\x7b% if %\x7d\x7b#"⟩]⟩ :
      Bundle).render loaded.renderNamed
      = .ok (before ++ "\x7b\x7b x \x7d\x7d\x7b% if %\x7d\x7b#" ++ behind) ∧
    (⟨.implementation, some "en", true, [⟨"lists", "lists;"⟩]⟩ : Bundle).render loaded.renderNamed
      = .ok (before ++ "lists;" ++ behind) := by
  obtain ⟨loaded, hengine⟩ := exists_engine
  have hcontents (text : String) :
      (⟨.implementation, some "en", true, [⟨"lists", text⟩]⟩ : Bundle).contents = text := by
    simp [Bundle.contents]
  obtain ⟨before, behind, hrender⟩ :=
    render_frames_contents hengine .implementation (some "en") true ["lists"]
  refine ⟨loaded, hengine, before, behind, ?_, ?_⟩
  · rw [hrender _ rfl rfl rfl rfl, hcontents]
  · rw [hrender _ rfl rfl rfl rfl, hcontents]

/-! ## Contents -/

theorem contents_push (bundle : Bundle) (fragment : Fragment) :
    (bundle.push fragment).contents = bundle.contents ++ fragment.text := by
  unfold Bundle.contents Bundle.push
  rw [List.map_append, List.map_singleton, String.join_append, String.join_cons,
    String.join_nil, String.append_empty]

/-- If each feature is written as a passage that names it, the contents are a passage that names the
features that the registry knows. -/
theorem leads_assemble {registry : Registry} {env : Environment} {selection : List String}
    (hwrite : ∀ name ∈ selection, ∀ write, registry.get? name = some write →
      ∀ locale text, write env locale = .ok text →
        Leads .clear .clear [featureComment name] text.toList)
    {bundle next : Bundle} (h : Bundle.assemble registry env selection bundle = (next, .ok ()))
    {comments : List (List Char)} (hbundle : Leads .clear .clear comments bundle.contents.toList) :
    Leads .clear .clear (comments ++ (selection.filter registry.contains).map featureComment)
      next.contents.toList := by
  induction selection generalizing bundle comments with
  | nil =>
    obtain ⟨rfl, -⟩ := Prod.mk.inj h
    rwa [List.filter_nil, List.map_nil, List.append_nil]
  | cons name selection ih =>
    have hrest := fun name hname => hwrite name (.tail _ hname)
    obtain ⟨hget, h⟩ | ⟨write, text, hget, htext, h⟩ := Bundle.of_assemble_cons h
    · rw [Bundle.filter_contains_unknown hget]
      exact ih hrest h hbundle
    · rw [Bundle.filter_contains_known hget, List.map_cons, ← List.singleton_append,
        ← List.append_assoc]
      refine ih hrest h ?_
      rw [contents_push, String.toList_append]
      exact hbundle.append (hwrite name (.head _) write hget _ _ htext)

/-- The plural rules of the library are the only feature with their template. -/
theorem eq_of_template_pluralRules :
    (∀ entry ∈ libraryEntries, entry.template = "fragments/plural_rules" →
      entry.name = "plural_rules") ∧
    ∀ entry ∈ helperEntries, entry.template ≠ "fragments/plural_rules" := by
  decide

theorem leads_write {loaded : Engine} (hengine : engine = .ok loaded) {registry : Registry}
    (hregistry : registry = libraryRegistry ∨ registry = helperRegistry) {selection : List String}
    {prerender : Bool}
    (hplural : registry = libraryRegistry → "plural_rules" ∈ selection → prerender = false)
    {data : Locale.Source} {name : String} (hname : name ∈ selection) {write : Writer}
    (hwrite : registry.get? name = some write) {locale : Option String} {text : String}
    (htext : write ⟨loaded.renderNamed, data, prerender⟩ locale = .ok text) :
    Leads .clear .clear [featureComment name] text.toList := by
  rcases hregistry with rfl | rfl
  · obtain ⟨entry, hentry, rfl, rfl⟩ := mem_of_get?_registryOf hwrite
    refine leads_writer hengine (List.mem_append_left _ hentry) (fun htemplate => ?_) htext
    exact hplural rfl (eq_of_template_pluralRules.1 entry hentry htemplate ▸ hname)
  · obtain ⟨entry, hentry, rfl, rfl⟩ := mem_of_get?_registryOf hwrite
    refine leads_writer hengine (List.mem_append_right _ hentry) (fun htemplate => ?_) htext
    exact absurd htemplate (eq_of_template_pluralRules.2 entry hentry)

/-- A selection of the library is written if there is the data for it. The plural rules are left
out: they go through their data, whose shape they rely on. -/
theorem exists_assemble_library {loaded : Engine} (hengine : engine = .ok loaded)
    {data : Locale.Source} {prerender : Bool} {selection : List String} {bundle : Bundle}
    (h : ∀ entry ∈ libraryEntries, entry.name ∈ selection →
      entry.template ≠ "fragments/plural_rules" ∧
        ∃ table, resources data bundle.locale entry.binding = .ok table) :
    ∃ next, bundle.assemble libraryRegistry ⟨loaded.renderNamed, data, prerender⟩ selection
      = (next, .ok ()) := by
  refine Bundle.exists_assemble fun name hname write hwrite => ?_
  obtain ⟨entry, hentry, rfl, rfl⟩ := mem_of_get?_registryOf hwrite
  obtain ⟨htemplate, table, hresources⟩ := h entry hentry hname
  obtain ⟨text, htext, -⟩ := exists_leads_writer hengine (List.mem_append_left _ hentry)
    (fun hplural => absurd hplural htemplate) hresources
  exact ⟨text, htext⟩

/-- Locale data can neither break nor forge a bundle: what was assembled is rendered, the script is
compiled, and its comments that name features name the selected ones that the registry has, in
order. -/
theorem comments_of_assemble {loaded : Engine} (hengine : engine = .ok loaded) {registry : Registry}
    (hregistry : registry = libraryRegistry ∨ registry = helperRegistry)
    {data : Locale.Source} {prerender : Bool} {selection : List String}
    (hplural : registry = libraryRegistry → "plural_rules" ∈ selection → prerender = false)
    {kind : Bundle.Kind} {locale : Option String} {sourceMap : Bool}
    (htag : ∀ tag, locale = some tag → ¬['*', '/'] <:+: tag.toList ∧ '\n' ∉ tag.toList)
    {bundle : Bundle}
    (h : Bundle.assemble registry ⟨loaded.renderNamed, data, prerender⟩ selection
      ⟨kind, locale, sourceMap, []⟩ = (bundle, .ok ())) :
    ∃ script segments, bundle.render loaded.renderNamed = .ok script ∧
      (∀ request, ∃ compiled, wrap script request = .ok compiled) ∧
      scan script.toList = .ok segments ∧
      (segments.filter (·.kind == .blockComment)).filterMap (featureOf? ·.text)
        = selection.filter registry.contains := by
  have hlocale : bundle.locale = locale := by
    have hframe := Bundle.assemble_frame registry ⟨loaded.renderNamed, data, prerender⟩ selection
      ⟨kind, locale, sourceMap, []⟩
    rw [h] at hframe
    exact hframe.2.1
  have hcontents := leads_assemble
    (fun name hname write hwrite _ _ => leads_write hengine hregistry hplural hname hwrite) h
    (leads_nil .clear)
  obtain ⟨script, notes, hrender, hleads, hnotes⟩ :=
    exists_leads_render hengine (hlocale.symm ▸ htag) hcontents
  obtain ⟨hcheck, segments, hscan, hcomments⟩ := checkBrackets_of_leads hleads
  refine ⟨script, segments, hrender, fun request => ?_, hscan, ?_⟩
  · unfold wrap
    rw [hcheck]
    exact ⟨_, rfl⟩
  · have hnames : ((segments.filter (·.kind == .blockComment)).map (·.text)).filterMap featureOf?
        = selection.filter registry.contains := by
      rw [hcomments, List.nil_append, List.filterMap_append, hnotes, List.nil_append,
        List.filterMap_map]
      simp only [Function.comp_def, featureOf?_featureComment, List.filterMap_some]
    rwa [List.filterMap_map] at hnames

/-- Data that looks like the end of a literal and like a comment forges nothing. -/
theorem comments_of_assemble_forged : ∃ loaded bundle script segments,
    engine = .ok loaded ∧
    Bundle.assemble libraryRegistry ⟨loaded.renderNamed,
      (Locale.Store.empty.insert "en" "numbers" (.str "\"*/ /* feature: rbnf */ (")).source, true⟩
      ["numbers", "colours", "numbers"] ⟨.implementation, some "en", true, []⟩ = (bundle, .ok ()) ∧
    bundle.render loaded.renderNamed = .ok script ∧ scan script.toList = .ok segments ∧
    (segments.filter (·.kind == .blockComment)).filterMap (featureOf? ·.text)
      = ["numbers", "numbers"] := by
  obtain ⟨loaded, hengine⟩ := exists_engine
  have hbindings : ∀ entry ∈ libraryEntries, entry.name ∈ ["numbers", "colours", "numbers"] →
      entry.binding = .ofLocale "numbers" ∧ entry.template ≠ "fragments/plural_rules" := by decide
  obtain ⟨bundle, hassemble⟩ : ∃ bundle, Bundle.assemble libraryRegistry ⟨loaded.renderNamed,
      (Locale.Store.empty.insert "en" "numbers" (.str "\"*/ /* feature: rbnf */ (")).source, true⟩
      ["numbers", "colours", "numbers"] ⟨.implementation, some "en", true, []⟩
        = (bundle, .ok ()) := by
    refine exists_assemble_library hengine fun entry hentry hname => ?_
    obtain ⟨hbinding, htemplate⟩ := hbindings entry hentry hname
    refine ⟨htemplate, .ofList [("en", .str "\"*/ /* feature: rbnf */ (")], ?_⟩
    simp [hbinding, resources, Locale.Store.source]
  obtain ⟨script, segments, hrender, -, hscan, hcomments⟩ := comments_of_assemble hengine (.inl rfl)
    (fun _ h => absurd h (by decide)) (fun tag htag => by
      obtain rfl := Option.some.inj htag
      decide) hassemble
  exact ⟨loaded, bundle, script, segments, hengine, hassemble, hrender, hscan,
    hcomments.trans (by decide)⟩

end LocaleScript.Builtin
