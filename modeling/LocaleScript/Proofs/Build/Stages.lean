import LocaleScript.Build.Compiler

/-!
# Stages of a build

A build that returns a file went through all of its stages: the selection was assembled into the
bundle under the flag that the configuration has (`exists_of_compileBundle`), the bundle was
rendered, the script compiled, and the transforms applied (`exists_of_finish`).
-/

namespace LocaleScript.Build

variable {compiler : Compiler} {bundle : Bundle} {options : Options} {file : Script.Compiled}

theorem exists_of_compileBundle {selection : List String} {registry : Feature.Registry}
    (h : compiler.compileBundle bundle selection registry options = .ok file) :
    ∃ assembled, Bundle.assemble registry compiler.environment selection
        { bundle with sourceMap := compiler.config.sourceMap } = (assembled, .ok ()) ∧
      assembled.kind = bundle.kind ∧ assembled.locale = bundle.locale ∧
      assembled.sourceMap = compiler.config.sourceMap ∧
      compiler.finish assembled options = .ok file := by
  unfold Compiler.compileBundle at h
  have hframe := Bundle.assemble_frame registry compiler.environment selection
    { bundle with sourceMap := compiler.config.sourceMap }
  cases hassemble : Bundle.assemble registry compiler.environment selection
    { bundle with sourceMap := compiler.config.sourceMap } with
  | mk assembled outcome =>
    rw [hassemble] at h hframe
    cases outcome with
    | error e => cases h
    | ok _ => exact ⟨assembled, rfl, hframe.1, hframe.2.1, hframe.2.2, h⟩

theorem exists_of_finish (h : compiler.finish bundle options = .ok file) :
    ∃ script compiled, bundle.render compiler.renderer = .ok script ∧
      compiler.compile script ⟨false, bundle.sourceMap, bundle.sourceName⟩ = .ok compiled ∧
      Transform.applyAll (compiler.transforms options) compiled = .ok file := by
  unfold Compiler.finish at h
  cases hrender : bundle.render compiler.renderer with
  | error e =>
    rw [hrender] at h
    cases h
  | ok script =>
    cases hcompile : compiler.compile script ⟨false, bundle.sourceMap, bundle.sourceName⟩ with
    | error e =>
      simp only [hrender, hcompile, ofSource] at h
      cases h
    | ok compiled =>
      simp only [hrender, hcompile, ofSource] at h
      exact ⟨script, compiled, rfl, hcompile, h⟩

end LocaleScript.Build
