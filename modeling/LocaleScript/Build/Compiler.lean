import LocaleScript.Build.Config
import LocaleScript.Build.Transform
import LocaleScript.Bundle
import LocaleScript.Feature.Catalog

/-!
# The compiler of bundles

A compiler takes a bundle through all stages: it writes the selected features, renders the outer
template, compiles the script, puts the module definition in its place and makes the code shorter if
it is asked to. The first failure of a stage is the failure of the whole.
-/

namespace LocaleScript.Build

open Feature

/-- The file name under which the script of a published tag goes. -/
def outputFileName (tag : String) (minified : Bool) : String :=
  "twitter_cldr_" ++ tag ++ (if minified then ".min.js" else ".js")

/-- A configuration and what the stages work with. -/
structure Compiler where
  config : Config
  source : Locale.Source
  renderer : Template.Renderer
  compile : Script.Compile
  minifier : Minifier

namespace Compiler

/-- The compiler that wraps scripts and keeps the comments of the module definition. -/
def standard (config : Config) (source : Locale.Source) (renderer : Template.Renderer) :
    Compiler where
  config := config
  source := source
  renderer := renderer
  compile := Script.wrap
  minifier := defaultMinifier

/-- The configured locales, or all that there is data for. -/
def locales (compiler : Compiler) : List String :=
  compiler.config.locales.getD compiler.source.locales

/-- The configured features, or all of the library. -/
def features (compiler : Compiler) : List String :=
  compiler.config.features.getD libraryRegistry.keys

/-- The configured test helpers, or all of them. -/
def testHelpers (compiler : Compiler) : List String :=
  compiler.config.testHelpers.getD helperRegistry.keys

/-- What the writers of features work with. -/
def environment (compiler : Compiler) : Environment :=
  ⟨compiler.renderer, compiler.source, compiler.config.prerender⟩

/-- The transforms that follow the compile stage. -/
def transforms (compiler : Compiler) (options : Options) : List Transform :=
  .moduleDefinition :: if options.minify then [.minify compiler.minifier] else []

/-- Renders an assembled bundle and takes the script through the stages that follow. -/
def finish (compiler : Compiler) (bundle : Bundle) (options : Options) :
    Except BuildError Script.Compiled :=
  match bundle.render compiler.renderer with
  | .error e => .error e
  | .ok script =>
    match ofSource (compiler.compile script ⟨false, bundle.sourceMap, bundle.sourceName⟩) with
    | .error e => .error e
    | .ok file => Transform.applyAll (compiler.transforms options) file

/-- Writes the selected features into a bundle and compiles it. Whether there is a source map is up
to the configuration, whatever the bundle asks for. -/
def compileBundle (compiler : Compiler) (bundle : Bundle) (selection : List String)
    (registry : Registry) (options : Options) : Except BuildError Script.Compiled :=
  -- The flag has to be set before the outer template is rendered, for that shows it.
  match ({ bundle with sourceMap := compiler.config.sourceMap } : Bundle).assemble registry
      compiler.environment selection with
  | (_, .error e) => .error e
  | (assembled, .ok ()) => compiler.finish assembled options

/-- The script of a locale with the tag that it is published under. -/
def compileLocale (compiler : Compiler) (options : Options) (locale : String) :
    Except BuildError (Script.Compiled × String) :=
  (compiler.compileBundle { Bundle.ofKind .implementation with locale := some locale }
    compiler.features libraryRegistry options).map fun file =>
      (file, compiler.source.externalTag locale)

/-- The scripts of all locales in order; none hangs on whether another fails. -/
def compileEach (compiler : Compiler) (options : Options) :
    List (Except BuildError (Script.Compiled × String)) :=
  compiler.locales.map (compiler.compileLocale options)

/-- The scripts of all locales, or the first failure. -/
def compileAll (compiler : Compiler) (options : Options) :
    Except BuildError (List (Script.Compiled × String)) :=
  (compiler.compileEach options).mapM id

/-- The script of the test helpers. -/
def compileTest (compiler : Compiler) (options : Options) : Except BuildError String :=
  (compiler.compileBundle (Bundle.ofKind .test) compiler.testHelpers helperRegistry options).map
    (·.code)

end Compiler

/-- The result for a locale stands where the locale stands. -/
theorem getElem?_compileEach {compiler : Compiler} {locale : String} {i : Nat}
    (h : compiler.locales[i]? = some locale) (options : Options) :
    (compiler.compileEach options)[i]? = some (compiler.compileLocale options locale) := by
  rw [Compiler.compileEach, List.getElem?_map, h, Option.map_some]

end LocaleScript.Build
