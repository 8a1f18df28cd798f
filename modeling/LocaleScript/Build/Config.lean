import LocaleScript.Json.Value

/-!
# Configurations of a build

A configuration says which locales, features and test helpers go into the scripts and how they are
written; where it names none, all are meant. Options are given with each build.
-/

namespace LocaleScript.Build

/-- What a compiler builds. -/
structure Config where
  locales : Option (List String)
  features : Option (List String)
  testHelpers : Option (List String)
  /-- Data stands where it is used. -/
  prerender : Bool
  sourceMap : Bool
deriving DecidableEq, Repr

/-- All locales, features and test helpers, with data where it is used and without source maps. -/
def Config.standard : Config := ⟨none, none, none, true, false⟩

/-- What is asked of one build. -/
structure Options where
  minify : Bool
deriving DecidableEq, Repr

namespace Options

/-- Scripts are made shorter unless a build says otherwise. -/
def standard : Options := ⟨true⟩

/-- Options as a JSON value: an object whose member `minify` may be left out, or an array of at most
that one value. -/
def ofJson? : Json → Option Options
  | .arr [] => some standard
  | .arr [.bool minify] => some ⟨minify⟩
  | .obj members =>
    match members.filter (·.1 = "minify") with
    | [] => some standard
    | [(_, .bool minify)] => some ⟨minify⟩
    | _ => none
  | _ => none

end Options

end LocaleScript.Build
