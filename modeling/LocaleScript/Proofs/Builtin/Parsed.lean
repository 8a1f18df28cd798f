import Mathlib.Data.List.Nodup
import LocaleScript.Builtin.Sources
import LocaleScript.Proofs.Template.Extensions
import LocaleScript.Proofs.Template.Loading

/-!
# The trees of the built-in templates

The engine of the built-in templates has the tree of each of them under its name without extension
(`get?_source`).

Templates are evaluated on their characters. A literal is the text of the characters that it is
unified with (`Spelled`), which spares decoding it.
-/

namespace LocaleScript.Builtin

open Template

/-! ## Characters of templates -/

/-- The characters of texts. -/
inductive Spelled : List String → List (List Char) → Prop
  | nil : Spelled [] []
  | cons (line : List Char) {texts : List String} {lines : List (List Char)} :
    Spelled texts lines → Spelled (String.ofList line :: texts) (line :: lines)

theorem toList_lines {texts : List String} {ls : List (List Char)} (h : Spelled texts ls) :
    (lines texts).toList = ls.flatMap (· ++ ['\n']) := by
  rw [lines, String.toList_join, List.flatMap_map]
  induction h with
  | nil => rfl
  | cons line _ ih =>
    rw [List.flatMap_cons, List.flatMap_cons, ih, String.toList_append, String.toList_ofList]
    rfl

/-- Parses a template given by its characters. -/
def readChars (cs : List Char) : Option Tree :=
  match splitFrom (cs.length + 1) 1 true cs with
  | none => none
  | some chunks => (Directive.ofChunks? nestingLimit chunks).bind Tree.ofDirectives?

theorem parse?_lines {texts : List String} {ls : List (List Char)} (h : Spelled texts ls) :
    Tree.parse? (lines texts) = readChars (ls.flatMap (· ++ ['\n'])) := by
  rw [← toList_lines h]
  rfl

/-- A template whose tree passes a check. -/
theorem exists_tree_lines {texts : List String} {ls : List (List Char)} (h : Spelled texts ls)
    {check : Tree → Bool} (hread : (readChars (ls.flatMap (· ++ ['\n']))).any check = true) :
    ∃ tree, Tree.parse? (lines texts) = some tree ∧ check tree = true := by
  obtain ⟨tree, htree, hcheck⟩ := (Option.any_eq_true _ _).mp hread
  exact ⟨tree, (parse?_lines h).trans htree, hcheck⟩

/-! ## Names of templates -/

/-- The names of the built-in templates without their extension. -/
def bases : List String := ["bundle", "test_bundle", "partials/resource", "fragments/range",
  "fragments/code_points", "fragments/token", "fragments/number_tokenizer",
  "fragments/plural_rules", "fragments/numbers", "fragments/number_data_reader", "fragments/rbnf",
  "fragments/currencies", "fragments/lists", "fragments/timespan", "fragments/datetime",
  "fragments/languages", "test_helpers/plural_rules", "test_helpers/numbers", "test_helpers/lists",
  "test_helpers/rbnf"]

theorem map_fst_sources : sources.map (·.1) = bases.map (· ++ ".jinja") :=
  rfl

theorem nodup_bases : bases.Nodup := by
  decide

/-- No name is another one with an extension. -/
theorem jinja_not_mem_bases : ∀ base ∈ bases, base ++ ".jinja" ∉ bases := by
  decide

theorem append_jinja_inj {base other : String} (h : base ++ ".jinja" = other ++ ".jinja") :
    base = other := by
  have htext := congrArg String.toList h
  rw [String.toList_append, String.toList_append] at htext
  exact String.toList_inj.mp (List.append_cancel_right htext)

theorem stripExtension_jinja (base : String) :
    stripExtension (base ++ ".jinja") extensions = base :=
  stripExtension_append (.head _) base

theorem mem_bases {base text : String} (h : (base ++ ".jinja", text) ∈ sources) : base ∈ bases := by
  have hname : base ++ ".jinja" ∈ sources.map (·.1) := List.mem_map.mpr ⟨_, h, rfl⟩
  rw [map_fst_sources] at hname
  obtain ⟨other, hother, heq⟩ := List.mem_map.mp hname
  exact append_jinja_inj heq ▸ hother

theorem exists_base {name text : String} (h : (name, text) ∈ sources) :
    ∃ base ∈ bases, name = base ++ ".jinja" := by
  have hname : name ∈ sources.map (·.1) := List.mem_map.mpr ⟨_, h, rfl⟩
  rw [map_fst_sources] at hname
  obtain ⟨base, hbase, heq⟩ := List.mem_map.mp hname
  exact ⟨base, hbase, heq.symm⟩

theorem sources_unique {name text text' : String} (h : (name, text) ∈ sources)
    (h' : (name, text') ∈ sources) : text = text' := by
  have hnodup : (sources.map (·.1)).Nodup := by
    rw [map_fst_sources]
    exact nodup_bases.map fun _ _ => append_jinja_inj
  have heq := List.inj_on_of_nodup_map hnodup h h' rfl
  exact (Prod.mk.inj heq).2

/-- Each built-in template is found under its name without extension. -/
theorem get?_source {loaded : Engine} (h : engine = .ok loaded) {name base text : String}
    (hmem : (name, text) ∈ sources) (hname : name = base ++ ".jinja") :
    loaded.templates.get? base = Tree.parse? text := by
  subst hname
  have hget := Dialect.Engine.get?_of_ofBuiltin h hmem fun other hother hfull => by
    obtain ⟨other, text'⟩ := other
    obtain ⟨base', hbase', rfl⟩ := exists_base hother
    rw [stripExtension_jinja, stripExtension_jinja] at hfull
    rcases hfull with rfl | rfl
    · exact absurd (mem_bases hmem) (jinja_not_mem_bases base' hbase')
    · exact sources_unique hother hmem
  rwa [stripExtension_jinja, Tree.toOption_compile] at hget

theorem get?_bundle {loaded : Engine} (h : engine = .ok loaded) :
    loaded.templates.get? "bundle" = Tree.parse? bundle :=
  get?_source h (List.mem_of_getElem? (i := 0) rfl) rfl

end LocaleScript.Builtin
