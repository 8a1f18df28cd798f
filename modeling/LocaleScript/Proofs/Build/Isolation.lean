import LocaleScript.Proofs.Build.Selection
import LocaleScript.Proofs.Builtin.Prerendering

/-!
# Scripts of one locale

A script for one locale is a function of the data of that locale: a build that reads another source
of locale data, in which this locale has the same data, gives the same result. The one exception is
the reader of number data, which has the numbers of all locales in every script.

The agreement of the sources is carried from what a binding selects (`resources_congr`) through the
writer of a feature (`writer_congr`) to the bundle; what follows reads no locale data. A build of
several locales builds each of them by itself, so it does not matter to one which others are built,
in which order, or whether they fail (`compile_isolated`).
-/

namespace LocaleScript

/-- The sources have the same data of a locale. -/
def Locale.Source.AgreeAt (locale : String) (source source' : Locale.Source) : Prop :=
  ∀ category, source.get? locale category = source'.get? locale category

namespace Feature

open LocaleScript.Locale (Source)

/-- A feature with this binding has no data but those of the locale of the script, if there is
one. -/
def Binding.isOwn : Binding → Bool
  | .code | .ofLocale _ => true
  | .ofAll _ => false

/-- Only the reader of number data has the data of all locales. -/
theorem isOwn_of_ne : ∀ entry ∈ libraryEntries ++ helperEntries,
    entry.name ≠ "number_data_reader" → entry.binding.isOwn = true := by
  decide

section

variable {locale : String} {source source' : Source} (h : source.AgreeAt locale source')
  {binding : Binding} (hown : binding.isOwn = true)
include h hown

theorem resources_congr : resources source (some locale) binding
    = resources source' (some locale) binding := by
  cases binding with
  | code => rfl
  | ofLocale category => simp only [resources, h category]
  | ofAll category => cases hown

theorem writer_congr (name template : String) (renderer : Template.Renderer) (prerender : Bool) :
    writer name template binding ⟨renderer, source, prerender⟩ (some locale)
      = writer name template binding ⟨renderer, source', prerender⟩ (some locale) := by
  simp only [writer, resources_congr h hown]

end

end Feature

namespace Build

open Feature
open LocaleScript.Locale (Source)

variable {compiler : Compiler} {source' : Source} {locale : String}

/-- What is built for a locale is the same with a source that agrees there. -/
theorem compileBundle_congr (hagree : compiler.source.AgreeAt locale source') {registry : Registry}
    (hregistry : registry = libraryRegistry ∨ registry = helperRegistry) {selection : List String}
    (hreader : "number_data_reader" ∉ selection) {bundle : Bundle}
    (hlocale : bundle.locale = some locale) (options : Options) :
    compiler.compileBundle bundle selection registry options
      = { compiler with source := source' }.compileBundle bundle selection registry options := by
  obtain ⟨entries, rfl, hsubset⟩ : ∃ entries, registry = registryOf entries ∧
      ∀ entry ∈ entries, entry ∈ libraryEntries ++ helperEntries := by
    rcases hregistry with rfl | rfl
    · exact ⟨libraryEntries, rfl, fun _ => List.mem_append_left _⟩
    · exact ⟨helperEntries, rfl, fun _ => List.mem_append_right _⟩
  have hassemble : Bundle.assemble (registryOf entries) compiler.environment selection
        { bundle with sourceMap := compiler.config.sourceMap }
      = Bundle.assemble (registryOf entries) { compiler with source := source' }.environment
          selection
        { bundle with sourceMap := compiler.config.sourceMap } := by
    refine Bundle.assemble_congr fun name hname write hwrite => ?_
    obtain ⟨entry, hentry, rfl, rfl⟩ := mem_of_get?_registryOf hwrite
    -- Without a locale even a feature of its own would read the data of all of them.
    have hown := isOwn_of_ne entry (hsubset entry hentry) fun h => hreader (h ▸ hname)
    change entry.writer _ bundle.locale = entry.writer _ bundle.locale
    rw [hlocale]
    exact writer_congr hagree hown _ _ _ _
  unfold Compiler.compileBundle
  rw [hassemble]
  rfl

/-- A locale is built from its own data, whichever other locales there are. -/
theorem compileLocale_congr (hagree : compiler.source.AgreeAt locale source')
    (hreader : "number_data_reader" ∉ compiler.features)
    (htag : compiler.source.externalTag locale = source'.externalTag locale)
    (locales : Option (List String)) (options : Options) :
    compiler.compileLocale options locale
      = { compiler with
          config := { compiler.config with locales := locales },
          source := source' }.compileLocale options locale := by
  have hbundle := compileBundle_congr hagree (.inl rfl) hreader
    (show { Bundle.ofKind .implementation with locale := some locale }.locale = some locale
      from rfl)
    options
  unfold Compiler.compileLocale
  rw [hbundle, htag]
  rfl

/-- The result for a locale does not hang on the data of other locales, unless the reader of number
data is selected, nor on which other locales are built, before it or behind it, and what becomes of
them. -/
theorem compile_isolated (hagree : compiler.source.AgreeAt locale source') :
    (∀ bundle selection registry options, bundle.locale = some locale →
      registry = libraryRegistry ∨ registry = helperRegistry → "number_data_reader" ∉ selection →
      compiler.compileBundle bundle selection registry options
        = { compiler with source := source' }.compileBundle bundle selection registry options) ∧
    ∀ (locales : List String) (i j : Nat) (options : Options),
      compiler.locales[i]? = some locale → locales[j]? = some locale →
      let config := { compiler.config with locales := some locales }
      ∃ result, (compiler.compileEach options)[i]? = some result ∧
        ({ compiler with config := config }.compileEach options)[j]? = some result ∧
        ("number_data_reader" ∉ compiler.features →
          compiler.source.externalTag locale = source'.externalTag locale →
          ({ compiler with config := config, source := source' }.compileEach options)[j]?
            = some result) := by
  constructor
  · intro bundle selection registry options hlocale hregistry hreader
    exact compileBundle_congr hagree hregistry hreader hlocale options
  · intro locales i j options hi hj config
    refine ⟨_, getElem?_compileEach hi options, getElem?_compileEach hj options,
      fun hreader htag => ?_⟩
    rw [compileLocale_congr hagree hreader htag (some locales) options]
    exact getElem?_compileEach hj options

/-- German numbers change nothing for English, and neither does a locale without data. -/
theorem compile_isolated_two_locales : ∃ loaded, Builtin.engine = .ok loaded ∧
    let changed := Builtin.twoLocales.insert "de" "numbers" .null
    let compiler := Compiler.standard ⟨some ["en", "de"], some ["numbers"], none, true, true⟩
      Builtin.twoLocales.source loaded.renderNamed
    let other := Compiler.standard ⟨some ["fr", "de", "en"], some ["numbers"], none, true, true⟩
      changed.source loaded.renderNamed
    compiler.compileBundle ⟨.implementation, some "en", false, []⟩ ["numbers", "lists"]
        libraryRegistry
        ⟨true⟩
      = { compiler with source := changed.source }.compileBundle
          ⟨.implementation, some "en", false, []⟩ ["numbers", "lists"] libraryRegistry ⟨true⟩ ∧
    ∃ result, (compiler.compileEach ⟨true⟩)[0]? = some result ∧
      (other.compileEach ⟨true⟩)[2]? = some result := by
  obtain ⟨loaded, hengine⟩ := Builtin.exists_engine
  refine ⟨loaded, hengine, ?_⟩
  intro changed compiler other
  have hagree : compiler.source.AgreeAt "en" changed.source := by
    intro category
    exact (Locale.Store.get?_insert Builtin.twoLocales "de" "numbers" "en" category .null).symm
  have hreader : "number_data_reader" ∉ ["numbers"] := by decide
  obtain ⟨hbundle, heach⟩ := compile_isolated hagree
  obtain ⟨result, hresult, -, hother⟩ := heach ["fr", "de", "en"] 0 2 ⟨true⟩ rfl rfl
  exact ⟨hbundle _ _ _ _ rfl (.inl rfl) (by decide), result, hresult, hother hreader rfl⟩

end Build

end LocaleScript
