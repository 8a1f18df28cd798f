import LocaleScript.Build.Compiler
import LocaleScript.Proofs.Locale.Tags
import Mathlib.Control.Monad.Basic

/-!
# Names of published files

A script goes under a file name that is made of the tag of its locale, and a name tells the tag
(`outputFileName_inj`). So the scripts of two locales go under one name exactly where the locales
meet under one tag (`outputFileName_eq_iff_meets`). Locales do meet: Norwegian is published under
the alias of Bokmål (`outputFileName_no`).
-/

namespace LocaleScript.Build

open Feature
open LocaleScript.Locale (Change SetApart Store)

theorem outputFileName_inj {tag tag' : String} {minified : Bool} :
    outputFileName tag minified = outputFileName tag' minified ↔ tag = tag' := by
  unfold outputFileName
  rw [String.append_left_inj, String.append_right_inj]

/-- A script that a build makes for a locale is published under the tag of that locale. -/
theorem tag_of_getElem?_compileEach {compiler : Compiler} {options : Options} {i : Nat}
    {locale : String} (hlocale : compiler.locales[i]? = some locale) {file : Script.Compiled}
    {tag : String} (h : (compiler.compileEach options)[i]? = some (.ok (file, tag))) :
    tag = compiler.source.externalTag locale := by
  rw [getElem?_compileEach hlocale] at h
  have hresult := Option.some.inj h
  unfold Compiler.compileLocale at hresult
  cases hfile : compiler.compileBundle { Bundle.ofKind .implementation with locale := some locale }
      compiler.features libraryRegistry options with
  | error e =>
    rw [hfile] at hresult
    cases hresult
  | ok built =>
    rw [hfile] at hresult
    exact (Prod.mk.inj (Except.ok.inj hresult)).2.symm

/-- Where no tag is set for two locales, the scripts of two locales go under one name exactly where
the locales meet, and so do the scripts that a build of several locales makes. -/
theorem outputFileName_eq_iff_meets {changes : List Change} (hapart : SetApart changes) :
    let store := Store.ofChanges changes
    (∀ a b, a ≠ b → ∀ minified,
      outputFileName (store.externalTag a) minified
        = outputFileName (store.externalTag b) minified ↔
        store.Meets a b ∨ store.Meets b a) ∧
    ∀ (compiler : Compiler) (options : Options), compiler.source = store.source →
      ∀ (i j : Nat) (a b : String), compiler.locales[i]? = some a → compiler.locales[j]? = some b →
      a ≠ b → ∀ file tag file' tag', (compiler.compileEach options)[i]? = some (.ok (file, tag)) →
      (compiler.compileEach options)[j]? = some (.ok (file', tag')) →
      (outputFileName tag options.minify = outputFileName tag' options.minify ↔
        store.Meets a b ∨ store.Meets b a) := by
  intro store
  have hiff : ∀ a b, a ≠ b → ∀ minified,
      outputFileName (store.externalTag a) minified
        = outputFileName (store.externalTag b) minified ↔
        store.Meets a b ∨ store.Meets b a := by
    intro a b hne minified
    rw [outputFileName_inj]
    refine Store.externalTag_eq_iff_meets hne fun tag ha hb => hne ?_
    exact hapart a b tag (Store.mem_of_get?_tags_ofChanges ha) (Store.mem_of_get?_tags_ofChanges hb)
  refine ⟨hiff, ?_⟩
  intro compiler options hsource i j a b hi hj hne file tag file' tag' hfile hfile'
  have htag := tag_of_getElem?_compileEach hi hfile
  have htag' := tag_of_getElem?_compileEach hj hfile'
  rw [hsource] at htag htag'
  rw [htag, htag']
  exact hiff a b hne options.minify

/-- Chinese has a tag of its own and so does not meet Chinese of China; Brazilian Portuguese meets
the same tag in lower case. -/
theorem outputFileName_eq_iff_meets_case :
    let changes : List Change := [.insert "zh" "lists" .null, .setTag "zh" "zh-hans",
      .insert "zh-CN" "lists" .null, .insert "pt-BR" "lists" .null, .insert "pt-br" "lists" .null]
    let store := Store.ofChanges changes
    let compiler := Compiler.standard ⟨none, some [], none, true, false⟩ store.source
      fun _ _ => .ok ""
    SetApart changes ∧
    outputFileName (store.externalTag "pt-BR") true
      = outputFileName (store.externalTag "pt-br") true ∧
    (∃ file tag file' tag', (compiler.compileEach ⟨true⟩)[0]? = some (.ok (file, tag)) ∧
      (compiler.compileEach ⟨true⟩)[1]? = some (.ok (file', tag')) ∧
      outputFileName tag true ≠ outputFileName tag' true ∧
      ¬(store.Meets "zh" "zh-CN" ∨ store.Meets "zh-CN" "zh")) := by
  intro changes store compiler
  have hapart : SetApart changes := by
    intro a b tag ha hb
    simp only [changes, List.mem_cons, List.not_mem_nil, reduceCtorEq, Change.setTag.injEq,
      false_or, or_false] at ha hb
    rw [ha.1, hb.1]
  obtain ⟨hnames, hfiles⟩ := outputFileName_eq_iff_meets hapart
  refine ⟨hapart, ?_, ?_⟩
  · refine (hnames "pt-BR" "pt-br" (by decide) true).mpr (.inl (.lowerLower ?_ ?_ ?_ ?_ ?_)) <;>
      decide +kernel
  · have hfirst : (compiler.compileEach ⟨true⟩)[0]?
        = some (.ok (⟨"(function()\x7b\n\x7d).call(this);\n", none⟩, "zh-hans")) := by
      decide +kernel
    have hsecond : (compiler.compileEach ⟨true⟩)[1]?
        = some (.ok (⟨"(function()\x7b\n\x7d).call(this);\n", none⟩, "zh-cn")) := by
      decide +kernel
    have hdiffer : outputFileName "zh-hans" true ≠ outputFileName "zh-cn" true := by decide
    refine ⟨_, _, _, _, hfirst, hsecond, hdiffer, ?_⟩
    rwa [← hfiles compiler ⟨true⟩ rfl 0 1 "zh" "zh-CN" rfl rfl (by decide) _ _ _ _ hfirst hsecond]

/-- Norwegian is published under the alias of Bokmål, though no tag was set. -/
theorem outputFileName_no :
    let changes : List Change :=
      [.insert "nb" "plurals" (.obj []), .insert "no" "plurals" (.obj [])]
    let store := Store.ofChanges changes
    SetApart changes ∧ "nb" ∈ store.supported ∧ "no" ∈ store.supported ∧ "nb" ≠ "no" ∧
      ∀ minified, outputFileName (store.externalTag "nb") minified
        = outputFileName (store.externalTag "no") minified := by
  intro changes store
  refine ⟨?_, by decide, by decide, by decide, by decide +kernel⟩
  intro a b tag ha hb
  simp [changes] at ha

end LocaleScript.Build
