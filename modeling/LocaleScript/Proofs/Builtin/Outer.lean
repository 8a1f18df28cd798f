import LocaleScript.Proofs.Builtin.Parsed
import LocaleScript.Proofs.Template.Rendering
import LocaleScript.Bundle

/-!
# The outer templates

An outer template writes what stands in front of the contents of a bundle, the contents as they are,
and what stands behind them (`render_implementation`, `render_test`). In front of the contents of a
library bundle stand the marker of the module definition, a comment that names the locale, and the
runtime.
-/

namespace LocaleScript.Builtin

open Template

/-! ## The tree -/

/-- What the template has between the version and the locale of the script. -/
def namesText : String := " */\nvar root = this;\nvar Cldr = \x7b\x7d;\nCldr.VERSION = "

/-- What the template has between the names of the features and the contents. -/
def runtimeText : String := lines [
  ";",
  "Cldr.data = \x7b\x7d;",
  "Cldr.register = function(locale, category, data) \x7b",
  "  (Cldr.data[locale] = Cldr.data[locale] || \x7b\x7d)[category] = data;",
  "\x7d;",
  "Cldr.resource = function(locale, category) \x7b",
  "  var entry = Cldr.data[locale];",
  "  return entry ? entry[category] : undefined;",
  "\x7d;",
  ""]

/-- What the template has behind the contents. -/
def exportText : String := lines [
  "",
  "if (typeof module !== \"undefined\" && module.exports) \x7b",
  "  module.exports = Cldr;",
  "\x7d else \x7b",
  "  root.Cldr = Cldr;",
  "\x7d"]

/-- The pieces of the template, with the runtime and the text behind the contents. -/
def bundleChunks (runtime behind : List Char) : List Chunk := [
  .text "/*<<module_def>> */\n/* cldrjs ".toList, .print [.name "version"],
  .statement 2 [.name "if", .name "locale"], .text " (".toList, .print [.name "locale"],
  .text ")".toList, .statement 2 [.name "endif"], .text namesText.toList,
  .print [.name "version", .symbol '|', .name "tojs"], .text ";\nCldr.locale = ".toList,
  .print [.name "locale", .symbol '|', .name "tojs"], .text ";\nCldr.features = ".toList,
  .print [.name "features", .symbol '|', .name "tojs"], .text runtime,
  .print [.name "contents"], .text behind, .statement 23 [.name "if", .name "source_map"],
  .text "//# sourceURL=".toList, .print [.name "source_name"], .text ".js\n".toList,
  .statement 25 [.name "endif"]]

/-- The tree of the template, with the runtime and the text behind the contents. -/
def bundleTree (runtime behind : List Char) : Tree := [
  .text "/*<<module_def>> */\n/* cldrjs ".toList, .print (.variable "version"),
  .branch (.variable "locale")
    [.text " (".toList, .print (.variable "locale"), .text ")".toList] [],
  .text namesText.toList, .print (.filter (.variable "version") "tojs" []),
  .text ";\nCldr.locale = ".toList,
  .print (.filter (.variable "locale") "tojs" []), .text ";\nCldr.features = ".toList,
  .print (.filter (.variable "features") "tojs" []), .text runtime,
  .print (.variable "contents"), .text behind,
  .branch (.variable "source_map")
    [.text "//# sourceURL=".toList, .print (.variable "source_name"), .text ".js\n".toList] []]

theorem ofDirectives?_bundleChunks (runtime behind : List Char) :
    (Directive.ofChunks? nestingLimit (bundleChunks runtime behind)).bind Tree.ofDirectives?
      = some (bundleTree runtime behind) := by
  with_unfolding_all rfl

theorem parse?_of_chunks {texts : List String} {ls : List (List Char)} {chunks : List Chunk}
    {tree : Tree} (h : Spelled texts ls)
    (hsplit : splitFrom ((ls.flatMap (· ++ ['\n'])).length + 1) 1 true (ls.flatMap (· ++ ['\n']))
      = some chunks)
    (htree : (Directive.ofChunks? nestingLimit chunks).bind Tree.ofDirectives? = some tree) :
    Tree.parse? (lines texts) = some tree := by
  rw [parse?_lines h, readChars, hsplit]
  exact htree

theorem parse?_bundle :
    Tree.parse? bundle = some (bundleTree runtimeText.toList exportText.toList) := by
  have hruntime : runtimeText.toList = _ := toList_lines (by repeat constructor)
  have hexport : exportText.toList = _ := toList_lines (by repeat constructor)
  have hnames : namesText.toList = _ := String.toList_ofList
  refine parse?_of_chunks (by repeat constructor)
    (show _ = some (bundleChunks runtimeText.toList exportText.toList) from ?_)
    (ofDirectives?_bundleChunks runtimeText.toList exportText.toList)
  rw [hruntime, hexport, bundleChunks, hnames,
    show "/*<<module_def>> */\n/* cldrjs ".toList = _ from String.toList_ofList,
    show ";\nCldr.locale = ".toList = _ from String.toList_ofList,
    show ";\nCldr.features = ".toList = _ from String.toList_ofList,
    show "//# sourceURL=".toList = _ from String.toList_ofList]
  decide +kernel

/-! ## The text -/

/-- The locale as the comment at the top names it. -/
def localeNote : Option String → String
  | none => ""
  | some tag => if tag = "" then "" else " (" ++ tag ++ ")"

/-- What the library bundle has in front of its contents. -/
def front (bundle : Bundle) : String :=
  "/*<<module_def>> */\n/* cldrjs " ++ version ++ localeNote bundle.locale ++ namesText
    ++ (Json.str version).compact ++ ";\nCldr.locale = " ++ (Json.ofString? bundle.locale).compact
    ++ ";\nCldr.features = " ++ (Json.ofStrings bundle.features).compact ++ runtimeText

/-- What the library bundle has behind its contents. -/
def back (bundle : Bundle) : String :=
  exportText ++ if bundle.sourceMap then "//# sourceURL=" ++ bundle.sourceName ++ ".js\n" else ""

theorem front_congr {bundle other : Bundle} (hlocale : bundle.locale = other.locale)
    (hfeatures : bundle.features = other.features) : front bundle = front other := by
  unfold front
  rw [hlocale, hfeatures]

theorem back_congr {bundle other : Bundle} (hkind : bundle.kind = other.kind)
    (hlocale : bundle.locale = other.locale) (hmap : bundle.sourceMap = other.sourceMap) :
    back bundle = back other := by
  unfold back Bundle.sourceName
  rw [hkind, hlocale, hmap]

/-- The names that the outer template is rendered with. -/
def scope (bundle : Bundle) : Scope :=
  [("version", .str version), ("locale", .ofJson (.ofString? bundle.locale)),
    ("features", .ofJson (.ofStrings bundle.features)), ("contents", .str bundle.contents),
    ("source_map", .bool bundle.sourceMap), ("source_name", .str bundle.sourceName)]

theorem ofData_context (bundle : Bundle) :
    Scope.ofData (.ofJson bundle.context) = scope bundle := rfl

section

variable (expand : Expander) (depth : Nat) (bundle : Bundle)

theorem render_localeNote :
    (Node.branch (.variable "locale")
        [.text " (".toList, .print (.variable "locale"), .text ")".toList] []).render
      expand depth (scope bundle)
      = .ok (localeNote bundle.locale) := by
  have hnodes : renderAll expand depth (scope bundle)
      [.text " (".toList, .print (.variable "locale"), .text ")".toList] = .ok _ :=
    renderAll_cons (render_text _) <| renderAll_cons (render_variable rfl) <|
    renderAll_cons (render_text _) renderAll_nil
  have hlocale : (scope bundle).lookup "locale" = some (.ofJson (.ofString? bundle.locale)) := rfl
  rw [render_if hlocale fun _ => hnodes]
  cases bundle.locale with
  | none => rfl
  | some tag =>
    by_cases htag : tag = ""
    · subst htag
      rfl
    · have htrue : (Value.str tag).isTrue = true := bne_iff_ne.mpr htag
      simp only [localeNote, Json.ofString?, Value.ofJson, htrue, htag, reduceIte, text_str,
        String.append_assoc, String.append_empty]

theorem render_sourceNote :
    (Node.branch (.variable "source_map")
        [.text "//# sourceURL=".toList, .print (.variable "source_name"), .text ".js\n".toList]
        []).render expand depth (scope bundle)
      = .ok
        (if bundle.sourceMap then "//# sourceURL=" ++ bundle.sourceName ++ ".js\n" else "") := by
  have hnodes : renderAll expand depth (scope bundle)
      [.text "//# sourceURL=".toList, .print (.variable "source_name"), .text ".js\n".toList]
      = .ok _ :=
    renderAll_cons (render_text _) <| renderAll_cons (render_variable rfl) <|
    renderAll_cons (render_text _) renderAll_nil
  have hflag : (scope bundle).lookup "source_map" = some (.bool bundle.sourceMap) := rfl
  rw [render_if hflag fun _ => hnodes]
  simp [Value.isTrue, Value.text, String.append_assoc]

theorem renderAll_bundleTree :
    renderAll expand depth (scope bundle) (bundleTree runtimeText.toList exportText.toList)
      = .ok (front bundle ++ bundle.contents ++ back bundle) := by
  have hversion : (scope bundle).lookup "version" = some (.ofJson (.str version)) := rfl
  have hlocale : (scope bundle).lookup "locale" = some (.ofJson (.ofString? bundle.locale)) := rfl
  have hfeatures :
      (scope bundle).lookup "features" = some (.ofJson (.ofStrings bundle.features)) := rfl
  have hcontents : (scope bundle).lookup "contents" = some (.str bundle.contents) := rfl
  have hnodes := renderAll_cons (render_sourceNote expand depth bundle) renderAll_nil
  replace hnodes := renderAll_cons (render_variable hcontents) <|
    renderAll_cons (render_text exportText) hnodes
  replace hnodes := renderAll_cons (render_tojs hfeatures) <|
    renderAll_cons (render_text runtimeText) hnodes
  replace hnodes := renderAll_cons (render_tojs hlocale) <|
    renderAll_cons (render_text ";\nCldr.features = ") hnodes
  replace hnodes := renderAll_cons (render_tojs hversion) <|
    renderAll_cons (render_text ";\nCldr.locale = ") hnodes
  replace hnodes := renderAll_cons (render_localeNote expand depth bundle) <|
    renderAll_cons (render_text namesText) hnodes
  replace hnodes := renderAll_cons (render_text "/*<<module_def>> */\n/* cldrjs ") <|
    renderAll_cons (render_variable hversion) hnodes
  rw [String.append_empty] at hnodes
  simp only [Value.ofJson, text_str, Json.finite_str, Json.finite_ofString?, Json.finite_ofStrings]
    at hnodes
  refine Eq.trans (show renderAll expand depth (scope bundle)
    (bundleTree runtimeText.toList exportText.toList) = _ from hnodes) ?_
  unfold front back
  simp only [String.append_assoc]

end

/-- The outer template writes the contents of a bundle as they are. -/
theorem render_implementation {loaded : Engine} (h : engine = .ok loaded) {bundle : Bundle}
    (hkind : bundle.kind = .implementation) :
    bundle.render loaded.renderNamed = .ok (front bundle ++ bundle.contents ++ back bundle) := by
  have htree := (get?_bundle h).trans parse?_bundle
  unfold Bundle.render
  rw [hkind, Bundle.Kind.template, Dialect.Engine.renderNamed_of_get? htree, Tree.dialect_render,
    Tree.renderRoot, Tree.render, ofData_context, renderAll_bundleTree]
  rfl

/-! ## Test helpers -/

/-- What the template of the helpers has between the version and the contents. -/
def helperText : String := lines [
  " test helpers */",
  "var root = this;",
  "var CldrTestHelpers = \x7b\x7d;",
  ""]

/-- What the template of the helpers has behind the contents. -/
def helperExportText : String := lines [
  "",
  "if (typeof module !== \"undefined\" && module.exports) \x7b",
  "  module.exports = CldrTestHelpers;",
  "\x7d else \x7b",
  "  root.CldrTestHelpers = CldrTestHelpers;",
  "\x7d"]

/-- The pieces of the template of the helpers. -/
def helperChunks (between behind : List Char) : List Chunk := [
  .text "/* cldrjs ".toList, .print [.name "version"], .text between, .print [.name "contents"],
  .text behind]

/-- The tree of the template of the helpers. -/
def helperTree (between behind : List Char) : Tree := [
  .text "/* cldrjs ".toList, .print (.variable "version"), .text between,
  .print (.variable "contents"), .text behind]

theorem ofDirectives?_helperChunks (between behind : List Char) :
    (Directive.ofChunks? nestingLimit (helperChunks between behind)).bind Tree.ofDirectives?
      = some (helperTree between behind) := by
  with_unfolding_all rfl

theorem parse?_testBundle :
    Tree.parse? testBundle = some (helperTree helperText.toList helperExportText.toList) := by
  have hbetween : helperText.toList = _ := toList_lines (by repeat constructor)
  have hbehind : helperExportText.toList = _ := toList_lines (by repeat constructor)
  refine parse?_of_chunks (by repeat constructor)
    (show _ = some (helperChunks helperText.toList helperExportText.toList) from ?_)
    (ofDirectives?_helperChunks helperText.toList helperExportText.toList)
  rw [hbetween, hbehind, helperChunks, show "/* cldrjs ".toList = _ from String.toList_ofList]
  decide +kernel

/-- What a bundle of helpers has in front of its contents. -/
def helperFront : String := "/* cldrjs " ++ version ++ helperText

theorem renderAll_helperTree (expand : Expander) (depth : Nat) (bundle : Bundle) :
    renderAll expand depth (scope bundle) (helperTree helperText.toList helperExportText.toList)
      = .ok (helperFront ++ bundle.contents ++ helperExportText) := by
  have hversion : (scope bundle).lookup "version" = some (.str version) := rfl
  have hcontents : (scope bundle).lookup "contents" = some (.str bundle.contents) := rfl
  have hnodes : renderAll expand depth (scope bundle)
      (helperTree helperText.toList helperExportText.toList) = .ok _ :=
    renderAll_cons (render_text _) <| renderAll_cons (render_variable hversion) <|
    renderAll_cons (render_text _) <| renderAll_cons (render_variable hcontents) <|
    renderAll_cons (render_text _) renderAll_nil
  rw [hnodes]
  simp only [text_str, helperFront, String.append_assoc, String.append_empty]

/-- The outer template of the helpers writes the contents of a bundle as they are. -/
theorem render_test {loaded : Engine} (h : engine = .ok loaded) {bundle : Bundle}
    (hkind : bundle.kind = .test) :
    bundle.render loaded.renderNamed
      = .ok (helperFront ++ bundle.contents ++ helperExportText) := by
  have hget : loaded.templates.get? "test_bundle" = Tree.parse? testBundle :=
    get?_source h (List.mem_of_getElem? (i := 1) rfl) rfl
  have htree := hget.trans parse?_testBundle
  unfold Bundle.render
  rw [hkind, Bundle.Kind.template, Dialect.Engine.renderNamed_of_get? htree, Tree.dialect_render,
    Tree.renderRoot, Tree.render, ofData_context, renderAll_helperTree]
  rfl

end LocaleScript.Builtin
