import LocaleScript.Proofs.Build.Stages
import LocaleScript.Proofs.Script.Enclosure
import Mathlib.Control.Monad.Basic

/-!
# What options and flags do to a build

Minifying is the last transform of a build. A build that minifies is therefore one that does not,
with the minifier run over the code that came out (`compileBundle_minify`). No transform touches the
source map, so a file has the map that the compile stage made (`exists_of_finish`). That stage is
asked for a map if the bundle has the flag for it when it is rendered, and the compiler sets this
flag before it assembles: what flag a bundle came with is forgotten.
-/

namespace LocaleScript.Build

open Feature Script

/-! ## Transforms -/

namespace Transform

/-- The transform leaves the source map of every file alone. -/
def KeepsMap (transform : Transform) : Prop :=
  ∀ file result, transform.apply file = .ok result → result.map = file.map

theorem keepsMap_moduleDefinition : moduleDefinition.KeepsMap := by
  intro file result h
  rw [← Except.ok.inj h]

/-- Minifying fails as the minifier does, and otherwise has its code with the map that was there. -/
theorem apply_minify (minifier : Minifier) (file : Compiled) :
    (minify minifier).apply file
      = match minifier file.code with
        | .error cause => .error (.minify cause)
        | .ok code => .ok ⟨code, file.map⟩ := by
  simp only [minify]
  cases minifier file.code <;> rfl

theorem keepsMap_minify (minifier : Minifier) : (minify minifier).KeepsMap := by
  intro file result h
  rw [apply_minify] at h
  cases hcode : minifier file.code with
  | error cause =>
    rw [hcode] at h
    cases h
  | ok code =>
    rw [hcode] at h
    rw [← Except.ok.inj h]

theorem applyAll_cons (t : Transform) (transforms : List Transform) (file : Compiled) :
    applyAll (t :: transforms) file = (t.apply file).bind (applyAll transforms) :=
  List.foldlM_cons

theorem applyAll_append (first second : List Transform) (file : Compiled) :
    applyAll (first ++ second) file = (applyAll first file).bind (applyAll second) :=
  List.foldlM_append

theorem map_of_applyAll {transforms : List Transform} (hkeep : ∀ t ∈ transforms, t.KeepsMap)
    {file result : Compiled} (h : applyAll transforms file = .ok result) :
    result.map = file.map := by
  induction transforms generalizing file with
  | nil => rw [← Except.ok.inj h]
  | cons t transforms ih =>
    rw [applyAll_cons] at h
    cases hfirst : t.apply file with
    | error e =>
      rw [hfirst] at h
      cases h
    | ok next =>
      rw [hfirst] at h
      rw [ih (fun t ht => hkeep t (.tail _ ht)) h, hkeep t (.head _) file next hfirst]

end Transform

namespace Compiler

theorem keepsMap_of_mem_transforms (compiler : Compiler) (options : Options) :
    ∀ t ∈ compiler.transforms options, t.KeepsMap := by
  intro t ht
  rcases List.mem_cons.mp ht with rfl | ht
  · exact Transform.keepsMap_moduleDefinition
  · split at ht
    · rw [List.mem_singleton.mp ht]
      exact Transform.keepsMap_minify compiler.minifier
    · cases ht

theorem transforms_minify (compiler : Compiler) :
    compiler.transforms ⟨true⟩ = compiler.transforms ⟨false⟩ ++ [.minify compiler.minifier] := rfl

/-- A build that minifies is finished as one that does not, with the minifier behind. -/
theorem finish_minify (compiler : Compiler) (bundle : Bundle) :
    compiler.finish bundle ⟨true⟩
      = (compiler.finish bundle ⟨false⟩).bind (Transform.minify compiler.minifier).apply := by
  unfold finish
  cases bundle.render compiler.renderer with
  | error e => rfl
  | ok script =>
    cases hcompile : ofSource
        (compiler.compile script ⟨false, bundle.sourceMap, bundle.sourceName⟩) with
    | error e =>
      simp only [hcompile]
      rfl
    | ok compiled =>
      simp only [hcompile, transforms_minify, Transform.applyAll_append]
      congr 1
      funext file
      exact bind_pure _

end Compiler

/-! ## Options and flags -/

/-- The script compiler returns a map if and only if it is asked for one. -/
def MapsOnRequest (compile : Compile) : Prop :=
  ∀ script request compiled, compile script request = .ok compiled →
    compiled.map.isSome = request.sourceMap

theorem mapsOnRequest_wrap : MapsOnRequest wrap := by
  intro script request compiled h
  obtain ⟨-, -, hmap⟩ := of_wrap h
  rw [hmap]
  cases request.sourceMap <;> rfl

/-- No transform takes the map away or makes one, so a file has a map where the configuration asks
for one. -/
theorem isSome_map_of_compileBundle {compiler : Compiler}
    (hcompile : MapsOnRequest compiler.compile)
    {bundle : Bundle} {selection : List String} {registry : Registry} {options : Options}
    {file : Compiled} (h : compiler.compileBundle bundle selection registry options = .ok file) :
    file.map.isSome = compiler.config.sourceMap := by
  obtain ⟨assembled, -, -, -, hflag, hfinish⟩ := exists_of_compileBundle h
  obtain ⟨script, compiled, -, hcompiled, happly⟩ := exists_of_finish hfinish
  rw [Transform.map_of_applyAll (compiler.keepsMap_of_mem_transforms options) happly,
    hcompile _ _ _ hcompiled]
  exact hflag

/-- A build that minifies is one that does not, followed by the minifier: an earlier failure stays
what it is, a failure of the minifier leaves no file, and the map stays. The flag for source maps
that a bundle carries makes no difference. Where scripts are wrapped, a file has a map if and only
if the configuration asks for one. -/
theorem compileBundle_minify (compiler : Compiler) (bundle : Bundle) (selection : List String)
    (registry : Registry) :
    (compiler.compileBundle bundle selection registry ⟨true⟩
      = match compiler.compileBundle bundle selection registry ⟨false⟩ with
        | .error e => .error e
        | .ok file =>
          match compiler.minifier file.code with
          | .error cause => .error (.minify cause)
          | .ok code => .ok ⟨code, file.map⟩) ∧
    (∀ flag options,
      compiler.compileBundle { bundle with sourceMap := flag } selection registry options
      = compiler.compileBundle bundle selection registry options) ∧
    (compiler.compile = wrap → ∀ options file,
      compiler.compileBundle bundle selection registry options = .ok file →
      (file.map.isSome = true ↔ compiler.config.sourceMap = true)) := by
  refine ⟨?_, fun flag options => rfl, fun hwrap options file h => ?_⟩
  · unfold Compiler.compileBundle
    cases Bundle.assemble registry compiler.environment selection
      { bundle with sourceMap := compiler.config.sourceMap } with
    | mk assembled outcome =>
      cases outcome with
      | error e => rfl
      | ok _ =>
        simp only [Compiler.finish_minify]
        cases compiler.finish assembled ⟨false⟩ with
        | error e => rfl
        | ok file => exact Transform.apply_minify compiler.minifier file
  · rw [isSome_map_of_compileBundle (hwrap ▸ mapsOnRequest_wrap) h]

/-- A bundle with a flag that the configuration does not have, which is minified. -/
theorem compileBundle_minify_flagged :
    let compiler := Compiler.standard .standard Locale.Store.empty.source fun _ _ => .ok "f( 1 );"
    let bundle : Bundle := ⟨.implementation, none, true, []⟩
    ∃ file, compiler.compileBundle bundle [] libraryRegistry ⟨true⟩ = .ok file ∧
      file.code = "(function()\x7b\nf(1);\n\x7d).call(this);\n" ∧
      (file.map.isSome = true ↔ compiler.config.sourceMap = true) := by
  intro compiler bundle
  obtain ⟨hminify, -, hmap⟩ := compileBundle_minify compiler bundle [] libraryRegistry
  have hlong : compiler.compileBundle bundle [] libraryRegistry ⟨false⟩
      = .ok ⟨"(function() \x7b\nf( 1 );\n\x7d).call(this);\n", none⟩ := by
    decide +kernel
  have hshort : compiler.minifier "(function() \x7b\nf( 1 );\n\x7d).call(this);\n"
      = .ok "(function()\x7b\nf(1);\n\x7d).call(this);\n" := by
    decide +kernel
  simp only [hlong, hshort] at hminify
  exact ⟨_, hminify, rfl, hmap rfl ⟨true⟩ _ hminify⟩

end LocaleScript.Build
