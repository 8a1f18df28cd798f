import LocaleScript.Build.Error
import LocaleScript.Build.ModuleMarker
import LocaleScript.Script.Wrapper
import LocaleScript.Script.Condenser

/-!
# Transforms of compiled scripts

The build of a script goes through stages in a fixed order. What follows the compile stage is a row
of transforms, each of which changes the code and leaves the source map alone.
-/

namespace LocaleScript.Build

/-- The stages of a build, in order. -/
inductive Stage where
  | assembling
  | serializing
  | compiling
  | postSubstituting
  | minifying
  | done
deriving DecidableEq, Repr

namespace Stage

/-- All stages in order. -/
def all : List Stage :=
  [assembling, serializing, compiling, postSubstituting, minifying, done]

/-- The name shown for a stage. -/
def name : Stage → String
  | assembling => "ASSEMBLING"
  | serializing => "SERIALIZING"
  | compiling => "COMPILING"
  | postSubstituting => "POST_SUBSTITUTING"
  | minifying => "MINIFYING"
  | done => "DONE"

end Stage

/-- Makes a script shorter. -/
abbrev Minifier : Type := String → Except Script.MinifyError String

/-- The minifier that keeps the comments of the module definition. -/
def defaultMinifier : Minifier :=
  Script.Condenser.minify ⟨ModuleMarker.commentStarts⟩

/-- A step that a compiled script goes through. -/
structure Transform where
  /-- The stage that the step belongs to. -/
  stage : Stage
  apply : Script.Compiled → Except BuildError Script.Compiled

namespace Transform

/-- Puts the module definition in the place of its markers. -/
def moduleDefinition : Transform where
  stage := .postSubstituting
  apply := fun file =>
    .ok { file with code := String.ofList (ModuleMarker.substitute file.code.toList) }

/-- Makes the code shorter. The source map goes on describing the longer code. -/
def minify (minifier : Minifier) : Transform where
  stage := .minifying
  apply := fun file => (ofMinify (minifier file.code)).map fun code => { file with code := code }

/-- Applies transforms in order, up to the first that fails. -/
def applyAll (transforms : List Transform) (file : Script.Compiled) :
    Except BuildError Script.Compiled :=
  transforms.foldlM (fun file transform => transform.apply file) file

end Transform

end LocaleScript.Build
