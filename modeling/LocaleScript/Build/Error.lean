import LocaleScript.Script.Error
import LocaleScript.Template.Error

/-!
# Errors of a build

Everything that can stop the build of a script: a locale lacks data that a feature asks for, a
template fails, or one of the script stages refuses the text it is given.
-/

namespace LocaleScript.Build

/-- Why a script could not be built. -/
inductive BuildError where
  /-- The locale has no data of this category. -/
  | missingData (locale category : String)
  | render (cause : Template.RenderError)
  | source (cause : Script.SourceError)
  | minify (cause : Script.MinifyError)
deriving DecidableEq, Repr

/-- The text shown for an error. -/
def BuildError.message : BuildError → String
  | .missingData locale category =>
    "no \x60" ++ category ++ "\x60 data for locale \x60" ++ locale ++ "\x60"
  | .render cause => "render error: " ++ cause.message
  | .source cause => cause.message
  | .minify cause => cause.message

/-- A failure to render as a failure of the build. -/
def ofRender {α : Type} : Except Template.RenderError α → Except BuildError α
  | .ok value => .ok value
  | .error cause => .error (.render cause)

/-- A refusal of the script compiler as a failure of the build. -/
def ofSource {α : Type} : Except Script.SourceError α → Except BuildError α
  | .ok value => .ok value
  | .error cause => .error (.source cause)

/-- A refusal of the minifier as a failure of the build. -/
def ofMinify {α : Type} : Except Script.MinifyError α → Except BuildError α
  | .ok value => .ok value
  | .error cause => .error (.minify cause)

end LocaleScript.Build
