import LocaleScript.Build.Compiler
import LocaleScript.Proofs.Builtin.Bundles

/-!
# Laws of selections

What is selected goes into a bundle feature by feature, and nothing else of a selection goes into a
script. So a bundle into which features were written before is as good as one that is given them
with the selection, and names that the registry does not know may stand anywhere
(`compileBundle_selection`).

Both are laws of assembling first. The compiler sets the flag for source maps before it assembles,
so a bundle that was assembled earlier need not have the flag that it would have got; but no feature
is written differently for it.
-/

namespace LocaleScript.Build

open Feature

/-- Compiling a bundle into which features were written is compiling with these in front of the
selection, and what the registry does not know of a selection makes no difference. -/
theorem compileBundle_selection (compiler : Compiler) (registry : Registry) (options : Options)
    (bundle : Bundle) :
    (∀ first second assembled,
      bundle.assemble registry compiler.environment first = (assembled, .ok ()) →
      compiler.compileBundle assembled second registry options
        = compiler.compileBundle bundle (first ++ second) registry options) ∧
    ∀ selection selection' : List String,
      selection.filter registry.contains = selection'.filter registry.contains →
      compiler.compileBundle bundle selection registry options
        = compiler.compileBundle bundle selection' registry options := by
  constructor
  · intro first second assembled hfirst
    -- `assembled` has the flag of `bundle`, not the one that the compiler sets.
    have hflagged := Bundle.assemble_withSourceMap registry compiler.environment
      compiler.config.sourceMap first bundle
    rw [hfirst] at hflagged
    unfold Compiler.compileBundle
    rw [Bundle.assemble_append, hflagged]
  · intro selection selection' hsame
    unfold Compiler.compileBundle
    rw [← Bundle.assemble_filter_contains registry compiler.environment selection, hsame,
      Bundle.assemble_filter_contains]

/-- A bundle with a feature that is given another one and a name that is unknown. -/
theorem compileBundle_selection_unknown : ∃ loaded bundle, Builtin.engine = .ok loaded ∧
    let compiler := Compiler.standard .standard Locale.Store.empty.source loaded.renderNamed
    (Bundle.ofKind .implementation).assemble libraryRegistry compiler.environment ["range"]
      = (bundle, .ok ()) ∧
    compiler.compileBundle bundle ["colours", "token"] libraryRegistry ⟨true⟩
      = compiler.compileBundle (Bundle.ofKind .implementation) ["range", "token"] libraryRegistry
          ⟨true⟩ := by
  obtain ⟨loaded, hengine⟩ := Builtin.exists_engine
  have hbindings : ∀ entry ∈ libraryEntries, entry.name ∈ ["range"] →
      entry.binding = .code ∧ entry.template ≠ "fragments/plural_rules" := by decide
  obtain ⟨bundle, hbundle⟩ : ∃ bundle, (Bundle.ofKind .implementation).assemble libraryRegistry
      (Compiler.standard .standard Locale.Store.empty.source loaded.renderNamed).environment
      ["range"] = (bundle, .ok ()) := by
    refine Builtin.exists_assemble_library hengine fun entry hentry hname => ?_
    obtain ⟨hbinding, htemplate⟩ := hbindings entry hentry hname
    exact ⟨htemplate, .empty, by rw [hbinding]; rfl⟩
  refine ⟨loaded, bundle, hengine, hbundle, ?_⟩
  obtain ⟨happend, hunknown⟩ := compileBundle_selection
    (Compiler.standard .standard Locale.Store.empty.source loaded.renderNamed) libraryRegistry
    ⟨true⟩ (Bundle.ofKind .implementation)
  rw [happend ["range"] ["colours", "token"] bundle hbundle]
  exact hunknown _ _ (by decide)

end LocaleScript.Build
