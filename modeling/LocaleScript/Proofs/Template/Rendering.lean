import LocaleScript.Template.Engine

/-!
# Rendering node by node

One lemma for each kind of node that the built-in templates have, and one for a row of nodes
(`renderAll_cons`). What `tojs` prints of a JSON value is the value with `null` for each double that
is not finite (`toJson?_ofJson`).
-/

namespace LocaleScript

namespace Json

mutual

/-- The value with `null` for each double that is not finite. -/
def finite : Json → Json
  | .null => .null
  | .bool b => .bool b
  | .int n => .int n
  | .float x => .ofFloat x
  | .str s => .str s
  | .arr items => .arr (finiteItems items)
  | .obj members => .obj (finiteMembers members)

def finiteItems : List Json → List Json
  | [] => []
  | item :: items => item.finite :: finiteItems items

def finiteMembers : List (String × Json) → List (String × Json)
  | [] => []
  | (key, value) :: members => (key, value.finite) :: finiteMembers members

end

@[simp] theorem finite_str (s : String) : (Json.str s).finite = .str s := rfl

@[simp] theorem finite_obj (members : List (String × Json)) :
    (Json.obj members).finite = .obj (finiteMembers members) := rfl

@[simp] theorem finite_ofString? (text : Option String) :
    (ofString? text).finite = ofString? text := by
  cases text <;> rfl

theorem finiteItems_map_str (texts : List String) :
    finiteItems (texts.map .str) = texts.map .str := by
  induction texts with
  | nil => rfl
  | cons text texts ih => rw [List.map_cons, finiteItems, ih, finite_str]

@[simp] theorem finite_ofStrings (texts : List String) :
    (ofStrings texts).finite = ofStrings texts :=
  congrArg Json.arr (finiteItems_map_str texts)

theorem finiteMembers_eq_map (members : List (String × Json)) :
    finiteMembers members = members.map fun m => (m.1, m.2.finite) := by
  induction members with
  | nil => rfl
  | cons m members ih => rw [finiteMembers, ih, List.map_cons]

end Json

namespace Template

/-! ## Values of JSON values -/

mutual

/-- A JSON value comes back from a template, but for what has no JSON form. -/
theorem toJson?_ofJson : ∀ j : Json, (Value.ofJson j).toJson? = some j.finite
  | .null | .bool _ | .int _ | .str _ | .float _ => rfl
  | .arr items => by
    rw [Value.ofJson, Value.toJson?, toItems?_ofItems items]
    rfl
  | .obj members => by
    rw [Value.ofJson, Value.toJson?, toMembers?_ofMembers members]
    rfl

theorem toItems?_ofItems : ∀ items : List Json,
    Value.toItems? (Value.ofItems items) = some (Json.finiteItems items)
  | [] => rfl
  | item :: items => by
    rw [Value.ofItems, Value.toItems?, toJson?_ofJson item, toItems?_ofItems items]
    rfl

theorem toMembers?_ofMembers : ∀ members : List (String × Json),
    Value.toMembers? (Value.ofMembers members) = some (Json.finiteMembers members)
  | [] => rfl
  | (key, value) :: members => by
    rw [Value.ofMembers, Value.toMembers?, toJson?_ofJson value, toMembers?_ofMembers members]
    rfl

end

theorem ofItems_eq_map (items : List Json) : Value.ofItems items = items.map Value.ofJson := by
  induction items with
  | nil => rfl
  | cons item items ih => rw [Value.ofItems, ih, List.map_cons]

theorem ofMembers_eq_map (members : List (String × Json)) :
    Value.ofMembers members = members.map fun m => (.str m.1, .ofJson m.2) := by
  induction members with
  | nil => rfl
  | cons m members ih => rw [Value.ofMembers, ih, List.map_cons]

theorem applyFilter_tojs {value : Value} {j : Json} (h : value.toJson? = some j) :
    applyFilter "tojs" value [] = .ok (.str j.compact) := by
  unfold applyFilter
  rw [if_pos rfl, h]

/-- The keys of an object as a list. -/
theorem applyFilter_list (members : List (String × Json)) :
    applyFilter "list" (.ofJson (.obj members)) []
      = .ok (.ofJson (.ofStrings (members.map (·.1)))) := by
  unfold applyFilter
  rw [if_neg (by decide), if_neg (by decide), if_pos rfl]
  rw [Value.ofJson, Json.ofStrings, Value.ofJson, ofMembers_eq_map, ofItems_eq_map]
  simp only [Value.parts?, List.map_map]
  rfl

/-- The members of an object as pairs. -/
theorem applyFilter_items (members : List (String × Json)) :
    applyFilter "items" (.ofJson (.obj members)) []
      = .ok (.list (members.map fun m => .list [.str m.1, .ofJson m.2])) := by
  unfold applyFilter
  rw [if_neg (by decide), if_pos rfl, Value.ofJson, ofMembers_eq_map]
  simp only [List.map_map]
  rfl

/-! ## Nodes -/

section

variable {expand : Expander} {depth : Nat} {scope : Scope}

theorem eval_variable {name : String} {value : Value} (h : scope.lookup name = some value) :
    (Expr.variable name).eval scope = .ok value := by
  rw [Expr.eval, h, Option.getD_some]

theorem eval_filter {operand : Expr} {value : Value} (h : operand.eval scope = .ok value)
    (name : String) :
    (Expr.filter operand name []).eval scope = applyFilter name value [] := by
  rw [Expr.eval, h]
  simp only [evalItems]

theorem render_variable {name : String} {value : Value} (h : scope.lookup name = some value) :
    (Node.print (.variable name)).render expand depth scope = .ok value.text := by
  rw [Node.render, eval_variable h]

theorem text_str (s : String) : (Value.str s).text = s := rfl

/-- An expression is printed as JSON. -/
theorem render_filter_tojs {operand : Expr} {j : Json}
    (h : operand.eval scope = .ok (.ofJson j)) :
    (Node.print (.filter operand "tojs" [])).render expand depth scope = .ok j.finite.compact := by
  rw [Node.render, eval_filter h, applyFilter_tojs (toJson?_ofJson j)]
  rfl

theorem render_tojs {name : String} {j : Json} (h : scope.lookup name = some (.ofJson j)) :
    (Node.print (.filter (.variable name) "tojs" [])).render expand depth scope
      = .ok j.finite.compact :=
  render_filter_tojs (eval_variable h)

theorem render_text (text : String) :
    (Node.text text.toList).render expand depth scope = .ok text := by
  rw [Node.render, String.ofList_toList]

theorem renderAll_nil : renderAll expand depth scope [] = .ok "" := by
  rw [renderAll]

theorem renderAll_cons {node : Node} {nodes : List Node} {text texts : String}
    (h : node.render expand depth scope = .ok text)
    (hs : renderAll expand depth scope nodes = .ok texts) :
    renderAll expand depth scope (node :: nodes) = .ok (text ++ texts) := by
  rw [renderAll, h, hs]

/-- A text that stands only if a name has a value that counts as true. -/
theorem render_if {name : String} {value : Value} {nodes : List Node} {text : String}
    (h : scope.lookup name = some value)
    (hs : value.isTrue = true → renderAll expand depth scope nodes = .ok text) :
    (Node.branch (.variable name) nodes []).render expand depth scope
      = .ok (if value.isTrue then text else "") := by
  rw [Node.render, eval_variable h]
  dsimp only
  split
  · next htrue => exact hs htrue
  · exact renderAll_nil

/-- What the rounds of a loop write makes up what the loop writes. -/
theorem overParts_map {α : Type} {run : Nat → Value → Except RenderError String} {part : α → Value}
    {write : α → List Char} (h : ∀ round a, run round (part a) = .ok (String.ofList (write a)))
    (items : List α) (round : Nat) :
    overParts run round (items.map part) = .ok (String.ofList (items.flatMap write)) := by
  induction items generalizing round with
  | nil => rfl
  | cons item items ih =>
    rw [List.map_cons, overParts, h round item]
    simp only [ih, List.flatMap_cons, String.ofList_append]

end

end Template

end LocaleScript
