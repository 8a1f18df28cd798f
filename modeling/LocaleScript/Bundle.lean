import LocaleScript.Feature.Writer

/-!
# Bundles

A bundle collects the texts of features, in the order in which they were selected, and is rendered
into one script by the outer template of its kind.
-/

namespace LocaleScript

open Build Feature

/-- The version that every script carries. -/
def version : String := "0.4.0"

/-- What a bundle is for. -/
inductive Bundle.Kind where
  /-- The library itself. -/
  | implementation
  /-- Helpers for testing the library. -/
  | test
deriving DecidableEq, Repr

namespace Bundle.Kind

/-- The name shown for a kind. -/
def name : Kind → String
  | implementation => "implementation"
  | test => "test"

/-- The outer template. -/
def template : Kind → String
  | implementation => "bundle"
  | test => "test_bundle"

end Bundle.Kind

/-- The text of a feature under its name. -/
structure Fragment where
  name : String
  text : String
deriving DecidableEq, Repr

/-- Texts of features with what is known about the script they go into. -/
structure Bundle where
  kind : Bundle.Kind
  /-- The locale of the script, or none for a script for all of them. -/
  locale : Option String
  /-- A source map is asked for. -/
  sourceMap : Bool
  fragments : List Fragment
deriving DecidableEq, Repr

namespace Bundle

/-- The bundle without features, for all locales and without a source map. -/
def ofKind (kind : Kind) : Bundle := ⟨kind, none, false, []⟩

/-- The features in order. -/
def features (bundle : Bundle) : List String :=
  bundle.fragments.map (·.name)

/-- The texts of the features one after the other. -/
def contents (bundle : Bundle) : String :=
  String.join (bundle.fragments.map (·.text))

/-- The name of the script. -/
def sourceName (bundle : Bundle) : String :=
  match bundle.kind, bundle.locale with
  | .implementation, some locale => "twitter_cldr_" ++ locale
  | .implementation, none => "twitter_cldr"
  | .test, _ => "twitter_cldr_test_helpers"

/-- Adds a fragment behind the others. -/
def push (bundle : Bundle) (fragment : Fragment) : Bundle :=
  { bundle with fragments := bundle.fragments ++ [fragment] }

/-- Writes the selected features into the bundle in order and leaves out what the registry does not
know. At the first failure the bundle keeps what was written before. -/
def assemble (registry : Registry) (env : Environment) :
    List String → Bundle → Bundle × Except BuildError Unit
  | [], bundle => (bundle, .ok ())
  | name :: selection, bundle =>
    match registry.get? name with
    | none => assemble registry env selection bundle
    | some write =>
      match write env bundle.locale with
      | .error e => (bundle, .error e)
      | .ok text => assemble registry env selection (bundle.push ⟨name, text⟩)

/-- Writing one selection after another is writing both in turn; the second is not begun if the
first fails. -/
theorem assemble_append (registry : Registry) (env : Environment) (first second : List String)
    (bundle : Bundle) :
    assemble registry env (first ++ second) bundle
      = match assemble registry env first bundle with
        | (next, .error e) => (next, .error e)
        | (next, .ok ()) => assemble registry env second next := by
  induction first generalizing bundle with
  | nil => rfl
  | cons name first ih =>
    simp only [List.cons_append, assemble]
    cases registry.get? name with
    | none => exact ih bundle
    | some write =>
      cases hwrite : write env bundle.locale with
      | error e => simp [hwrite]
      | ok text =>
        simp only [hwrite]
        exact ih _

/-- Writing features changes nothing but the fragments. -/
theorem assemble_frame (registry : Registry) (env : Environment) (selection : List String)
    (bundle : Bundle) :
    let next := (assemble registry env selection bundle).1
    next.kind = bundle.kind ∧ next.locale = bundle.locale ∧ next.sourceMap = bundle.sourceMap := by
  induction selection generalizing bundle with
  | nil => exact ⟨rfl, rfl, rfl⟩
  | cons name selection ih =>
    simp only [assemble]
    cases registry.get? name with
    | none => exact ih bundle
    | some write =>
      cases hwrite : write env bundle.locale with
      | error e => simp [hwrite]
      | ok text =>
        simp only [hwrite]
        exact ih (bundle.push ⟨name, text⟩)

/-- What the outer template is rendered with. -/
def context (bundle : Bundle) : Json :=
  .obj [("version", .str version), ("locale", .ofString? bundle.locale),
    ("features", .ofStrings bundle.features), ("contents", .str bundle.contents),
    ("source_map", .bool bundle.sourceMap), ("source_name", .str bundle.sourceName)]

/-- The script of the bundle. -/
def render (bundle : Bundle) (renderer : Template.Renderer) : Except BuildError String :=
  ofRender (renderer bundle.kind.template bundle.context)

end Bundle

end LocaleScript
