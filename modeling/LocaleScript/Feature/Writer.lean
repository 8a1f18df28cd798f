import LocaleScript.Build.Error
import LocaleScript.Locale.Store
import LocaleScript.Template.Engine

/-!
# Writers of features

A feature is written by rendering its template with the locale data that its binding selects. A
registry lists writers under the names of their features, in the order in which they go into a
script by default.
-/

namespace LocaleScript.Feature

open Build

/-- What writers work with: the templates, the locale data, and whether data stands where it is used
or is registered to be looked up when the script runs. -/
structure Environment where
  renderer : Template.Renderer
  source : Locale.Source
  prerender : Bool

/-- Writes one feature for a locale, or for all of them. -/
abbrev Writer : Type := Environment → Option String → Except BuildError String

/-- Writers under the names of their features. -/
abbrev Registry : Type := Table Writer

/-- The locale data that a feature is written with. -/
inductive Binding where
  /-- None. -/
  | code
  /-- A category of the locale, or of every locale that has it if there is no locale. -/
  | ofLocale (category : String)
  /-- A category of every locale that has it. -/
  | ofAll (category : String)
deriving DecidableEq, Repr

/-- The category that a binding selects. -/
def Binding.category? : Binding → Option String
  | .code => none
  | .ofLocale category | .ofAll category => some category

/-- The data of a category of every locale that has it, in the order of the locales. -/
def allResources (source : Locale.Source) (category : String) : Table Json :=
  .ofList (source.locales.filterMap fun locale =>
    (source.get? locale category).map fun data => (locale, data))

/-- The data that a binding selects, by locale. -/
def resources (source : Locale.Source) (locale : Option String) :
    Binding → Except BuildError (Table Json)
  | .code => .ok .empty
  | .ofAll category => .ok (allResources source category)
  | .ofLocale category =>
    match locale with
    | none => .ok (allResources source category)
    | some tag =>
      match source.get? tag category with
      | some data => .ok (.ofList [(tag, data)])
      | none => .error (.missingData tag category)

/-- What the template of a feature is rendered with. -/
def context (name : String) (locale : Option String) (prerender : Bool) (category : Option String)
    (resources : Table Json) : Json :=
  .obj [("feature", .str name), ("locale", .ofString? locale), ("prerender", .bool prerender),
    ("category", .ofString? category), ("resources", .obj resources.entries)]

/-- Writes a feature through a template. -/
def writer (name template : String) (binding : Binding) : Writer := fun env locale =>
  match resources env.source locale binding with
  | .error e => .error e
  | .ok table =>
    ofRender (env.renderer template (context name locale env.prerender binding.category? table))

end LocaleScript.Feature
