import LocaleScript.Proofs.Json.RoundTrip
import LocaleScript.Proofs.Template.Rendering

/-!
# Data that a template prints

The filter `tojs` writes a value of the data as JSON. A value that holds no doubles, and whose
integers 64 bits hold, is neither changed on its way into the template and out of it
(`finite_of_isExact`) nor by printing and reading (`reread_of_isExact`), so what was printed reads
back as the value, with the members of each object in their order (`parse_render_tojs`).
-/

namespace LocaleScript

namespace Json

/-! ## Data without doubles -/

mutual

theorem finite_of_isExact : ∀ {j : Json}, j.IsExact → j.finite = j
  | .null, _ | .bool _, _ | .int _, _ | .str _, _ => rfl
  | .float _, h => by
    unfold IsExact at h
    exact h.elim
  | .arr items, h => by
    unfold IsExact at h
    rw [finite, finiteItems_of_areExact h]
  | .obj members, h => by
    unfold IsExact at h
    rw [finite, finiteMembers_of_haveExact h]

theorem finiteItems_of_areExact : ∀ {items : List Json}, AreExact items →
    finiteItems items = items
  | [], _ => rfl
  | item :: items, h => by
    rw [finiteItems, finite_of_isExact h.1, finiteItems_of_areExact h.2]

theorem finiteMembers_of_haveExact : ∀ {members : List (String × Json)}, HaveExact members →
    finiteMembers members = members
  | [], _ => rfl
  | (key, value) :: members, h => by
    rw [finiteMembers, finite_of_isExact h.1, finiteMembers_of_haveExact h.2]

end

/-- Data without doubles are read as they were before they were printed. -/
theorem reread_finite_of_isExact {j : Json} (h : j.IsExact) : j.finite.reread = j := by
  rw [finite_of_isExact h, reread_of_isExact h]

end Json

namespace Template

/-! ## Names of the data -/

/-- The members of the data are what the names of a template stand for. -/
theorem lookup_ofData (data : Json) (name : String) :
    (Scope.ofData (.ofJson data)).lookup name = (data.get? name).map Value.ofJson := by
  cases data with
  | obj members =>
    rw [Value.ofJson, ofMembers_eq_map, Scope.ofData, List.filterMap_map, Json.get?]
    induction members with
    | nil => rfl
    | cons member members ih =>
      obtain ⟨key, value⟩ := member
      rw [List.filterMap_cons, List.lookup_cons]
      dsimp only [Function.comp]
      rw [List.lookup_cons, ih]
      cases name == key <;> rfl
  | null | bool _ | int _ | float _ | str _ | arr _ => rfl

/-! ## Printed values -/

theorem parse?_tojs :
    Tree.parse? "{{ x | tojs }}" = some [.print (.filter (.variable "x") "tojs" [])] := by
  with_unfolding_all rfl

theorem compile_tojs (name : String) : Tree.dialect.compile name "{{ x | tojs }}"
    = .ok [.print (.filter (.variable "x") "tojs" [])] :=
  Tree.compile_of_parse? parse?_tojs name

theorem renderRoot_tojs (templates : Table Tree) (template : String) {data value : Json}
    {name : String} (h : data.get? name = some value) :
    Tree.renderRoot templates template [.print (.filter (.variable name) "tojs" [])] data
      = .ok value.finite.compact := by
  have hlookup : (Scope.ofData (.ofJson data)).lookup name = some (.ofJson value) := by
    rw [lookup_ofData, h, Option.map_some]
  rw [Tree.renderRoot, Tree.render, renderAll_cons (render_tojs hlookup) renderAll_nil,
    String.append_empty]

/-- Rendering a value of the data with `tojs` succeeds, and the text reads back as the value,
whether or not the template has a name. -/
theorem parse_render_tojs {data value : Json} (h : data.get? "x" = some value)
    (hexact : value.IsExact) (engine : Engine) :
    ∃ text, engine.render "{{ x | tojs }}" data = .ok text ∧ Json.parse text = some value ∧
      ∀ name, ∃ loaded, engine.add name "{{ x | tojs }}" = .ok loaded ∧
        loaded.renderNamed name data = .ok text := by
  have hroot (templates : Table Tree) (template : String) :
      Tree.renderRoot templates template [.print (.filter (.variable "x") "tojs" [])] data
        = .ok value.compact := by
    rw [renderRoot_tojs templates template h, Json.finite_of_isExact hexact]
  refine ⟨value.compact, ?_, Json.parse_compact hexact, fun name => ?_⟩
  · rw [Dialect.Engine.render_of_compile (compile_tojs anonymous)]
    exact hroot engine.templates anonymous
  · refine ⟨_, Dialect.Engine.add_of_compile (compile_tojs name) engine, ?_⟩
    rw [Dialect.Engine.renderNamed_of_get? (by rw [Table.get?_insert, if_pos rfl])]
    exact hroot _ name

theorem parse_render_tojs_nested :
    let value : Json := .obj [
      ("b", .arr [.int (-9223372036854775808), .int 18446744073709551615, .obj [], .null]),
      ("\x01 \"a\\", .str "/*\t'\n\x7f é\u2028")]
    let data : Json := .obj [("y", .bool true), ("x", value)]
    data.get? "x" = some value ∧ value.IsExact ∧
      ∃ text, Engine.empty.render "{{ x | tojs }}" data = .ok text ∧
        Json.parse text = some value := by
  intro value data
  have hexact : value.IsExact := by
    refine ⟨⟨?_, ?_, trivial, trivial, trivial⟩, trivial, trivial⟩ <;> exact ⟨by decide, by decide⟩
  have hvalue : data.get? "x" = some value := rfl
  obtain ⟨text, hrender, hparse, -⟩ := parse_render_tojs hvalue hexact Engine.empty
  exact ⟨hvalue, hexact, text, hrender, hparse⟩

end Template

end LocaleScript
