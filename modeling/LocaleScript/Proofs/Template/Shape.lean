import LocaleScript.Proofs.Template.Outline

/-!
# Templates that cannot fail

Rendering fails where an expression has no value or a loop has nothing to go through, and that hangs
on the data. A shape says of a datum whether loops may go through it. A template can be checked
against the shapes of its names (`Node.isSafe`), and then it has a text whatever the data of these
shapes are (`exists_renderNamed`). Outlines say what the text is; here, where loops nest and branch
on their data, it is only said that there is one.
-/

namespace LocaleScript.Template

/-! ## Shapes -/

/-- What is known of a datum. -/
inductive Shape where
  | any
  /-- An object whose members have a shape. -/
  | table (member : Shape)

/-- The datum has the shape. -/
def Shape.Fits : Shape → Json → Prop
  | .any, _ => True
  | .table member, j => ∃ members, j = .obj members ∧ ∀ m ∈ members, member.Fits m.2

/-- The names whose shapes are known, the innermost first. -/
abbrev Shapes : Type := List (String × Shape)

/-- A scope gives the names data of their shapes. -/
def Shapes.Hold (shapes : Shapes) (scope : Scope) : Prop :=
  ∀ x shape, shapes.lookup x = some shape →
    ∃ j, scope.lookup x = some (.ofJson j) ∧ shape.Fits j

/-- One more name with a datum of its shape. -/
theorem Shapes.Hold.cons {shapes : Shapes} {scope : Scope} (h : shapes.Hold scope) (x : String)
    (shape : Shape) {j : Json} (hj : shape.Fits j) :
    Shapes.Hold ((x, shape) :: shapes) ((x, .ofJson j) :: scope) := by
  intro y shape' hy
  rw [List.lookup_cons] at hy ⊢
  cases hxy : y == x with
  | true =>
    rw [hxy] at hy
    exact ⟨j, rfl, Option.some.inj hy ▸ hj⟩
  | false =>
    rw [hxy] at hy
    exact h y shape' hy

/-! ## The check -/

/-- The expression has a value where names have data of their shapes. -/
def Expr.isSafe (shapes : Shapes) : Expr → Bool
  | .variable _ => true
  | .filter (.variable x) f [] => f = "tojs" && (shapes.lookup x).isSome
  | _ => false

/-- The shape of the second parts of the pairs that an expression lists. -/
def Expr.listed? (shapes : Shapes) : Expr → Option Shape
  | .filter (.variable x) f [] =>
    match shapes.lookup x with
    | some (.table member) => if f = "items" then some member else none
    | _ => none
  | _ => none

mutual

/-- The node cannot fail where names have data of their shapes and as many loops may still be opened
in each other. -/
def Node.isSafe (shapes : Shapes) (loops : Nat) : Node → Bool
  | .text _ => true
  | .print e => e.isSafe shapes
  | .branch test yes no => test.isSafe shapes && areSafe shapes loops yes && areSafe shapes loops no
  | .loop pattern whole body otherwise =>
    match pattern.pair?, whole.listed? shapes with
    | some (tag, data), some member =>
      0 < loops && areSafe shapes loops otherwise &&
        areSafe ((data, member) :: (tag, .any) :: ("loop", .any) :: shapes) (loops - 1) body
    | _, _ => false
  | .transclude .. => false

/-- None of the nodes can fail. -/
def areSafe (shapes : Shapes) (loops : Nat) : List Node → Bool
  | [] => true
  | node :: nodes => node.isSafe shapes loops && areSafe shapes loops nodes

end

/-! ## Soundness -/

section

variable {expand : Expander} {scope : Scope} {shapes : Shapes}

theorem exists_eval {e : Expr} (he : e.isSafe shapes = true) (h : shapes.Hold scope) :
    ∃ value, e.eval scope = .ok value := by
  unfold Expr.isSafe at he
  split at he
  · next x => exact ⟨_, by rw [Expr.eval]⟩
  · next x f =>
    rw [Bool.and_eq_true, decide_eq_true_eq] at he
    obtain ⟨rfl, hx⟩ := he
    obtain ⟨shape, hshape⟩ := Option.isSome_iff_exists.mp hx
    obtain ⟨j, hj, -⟩ := h x shape hshape
    rw [eval_filter (eval_variable hj), applyFilter_tojs (toJson?_ofJson j)]
    exact ⟨_, rfl⟩
  · cases he

/-- An expression that lists pairs has a list of names with data as its value. -/
theorem eval_of_listed? {whole : Expr} {member : Shape}
    (hwhole : whole.listed? shapes = some member)
    (h : shapes.Hold scope) : ∃ members : List (String × Json), (∀ m ∈ members, member.Fits m.2) ∧
      whole.eval scope = .ok (.list (members.map fun m => .list [.str m.1, .ofJson m.2])) := by
  unfold Expr.listed? at hwhole
  split at hwhole
  · next x f =>
    split at hwhole
    · next member' hshape =>
      split at hwhole
      · next hf =>
        obtain ⟨j, hj, members, rfl, hmembers⟩ := h x _ hshape
        refine ⟨members, Option.some.inj hwhole ▸ hmembers, ?_⟩
        rw [hf, eval_filter (eval_variable hj)]
        exact applyFilter_items members
      · cases hwhole
    · cases hwhole
  · cases hwhole

/-- If each round writes a text, so does the loop. -/
theorem exists_overParts {run : Nat → Value → Except RenderError String} {parts : List Value}
    (h : ∀ part ∈ parts, ∀ round, ∃ text, run round part = .ok text) (round : Nat) :
    ∃ text, overParts run round parts = .ok text := by
  induction parts generalizing round with
  | nil => exact ⟨"", rfl⟩
  | cons part parts ih =>
    obtain ⟨text, htext⟩ := h part (.head _) round
    obtain ⟨texts, htexts⟩ := ih (fun part hpart => h part (.tail _ hpart)) (round + 1)
    rw [overParts, htext]
    simp only [htexts]
    exact ⟨_, rfl⟩

/-- The scope in a round of a loop over pairs. -/
theorem Shapes.Hold.inRound (h : shapes.Hold scope) (tag data : String) {member : Shape}
    {m : String × Json} (hm : member.Fits m.2) (round : Nat) :
    Shapes.Hold ((data, member) :: (tag, .any) :: ("loop", .any) :: shapes)
      ((data, .ofJson m.2) :: (tag, .str m.1) :: ("loop", loopValue round) :: scope) := by
  -- What a body sees of its loop is a JSON value like all others.
  have hloop : Shapes.Hold (("loop", .any) :: shapes) (("loop", loopValue round) :: scope) :=
    h.cons "loop" .any (j := .obj [("index", .int round)]) trivial
  exact (hloop.cons tag .any (j := .str m.1) trivial).cons data member hm

mutual

/-- A checked node has a text. The number of loops that it may open is what the depth leaves. -/
theorem Node.exists_render {shapes : Shapes} {scope : Scope} {loops depth : Nat}
    (h : shapes.Hold scope) (hdepth : depth + loops ≤ depthLimit + 1) : ∀ node : Node,
    node.isSafe shapes loops = true → ∃ text, node.render expand depth scope = .ok text
  | .text cs, _ => ⟨_, by rw [Node.render]⟩
  | .print e, hnode => by
    rw [Node.isSafe] at hnode
    obtain ⟨value, hvalue⟩ := exists_eval hnode h
    rw [Node.render, hvalue]
    exact ⟨_, rfl⟩
  | .branch test yes no, hnode => by
    rw [Node.isSafe, Bool.and_eq_true, Bool.and_eq_true] at hnode
    obtain ⟨value, hvalue⟩ := exists_eval hnode.1.1 h
    rw [Node.render, hvalue]
    dsimp only
    split
    · exact exists_renderAll h hdepth yes hnode.1.2
    · exact exists_renderAll h hdepth no hnode.2
  | .loop pattern whole body otherwise, hnode => by
    rw [Node.isSafe] at hnode
    split at hnode
    · next tag data member hpattern hwhole =>
      rw [Bool.and_eq_true, Bool.and_eq_true, decide_eq_true_eq] at hnode
      obtain ⟨⟨hloops, hotherwise⟩, hbody⟩ := hnode
      obtain ⟨members, hmembers, heval⟩ := eval_of_listed? hwhole h
      have hopen : ¬depthLimit < depth := by omega
      rw [Node.render, heval]
      simp only [Value.parts?, if_neg hopen]
      split
      · exact exists_renderAll h hdepth otherwise hotherwise
      · refine exists_overParts (fun part hpart round => ?_) 1
        obtain ⟨m, hm, rfl⟩ := List.mem_map.mp hpart
        rw [eq_of_pair? hpattern]
        exact exists_renderAll (h.inRound tag data (hmembers m hm) round)
          (show depth + 1 + (loops - 1) ≤ depthLimit + 1 by omega) body hbody
    · cases hnode
  | .transclude name line, hnode => by
    rw [Node.isSafe] at hnode
    cases hnode

theorem exists_renderAll {shapes : Shapes} {scope : Scope} {loops depth : Nat}
    (h : shapes.Hold scope) (hdepth : depth + loops ≤ depthLimit + 1) : ∀ nodes : List Node,
    areSafe shapes loops nodes = true → ∃ text, renderAll expand depth scope nodes = .ok text
  | [], _ => ⟨"", renderAll_nil⟩
  | node :: nodes, hnodes => by
    rw [areSafe, Bool.and_eq_true] at hnodes
    obtain ⟨text, htext⟩ := Node.exists_render h hdepth node hnodes.1
    obtain ⟨texts, htexts⟩ := exists_renderAll h hdepth nodes hnodes.2
    exact ⟨_, renderAll_cons htext htexts⟩

end

end

/-- A named template that was checked has a text whatever the data of these shapes are. -/
theorem exists_renderNamed {engine : Engine} {name : String} {tree : Tree}
    (htree : engine.templates.get? name = some tree) {shapes : Shapes} {loops : Nat}
    (hsafe : areSafe shapes loops tree = true) (hloops : loops ≤ depthLimit) {data : Json}
    (h : shapes.Hold (.ofData (.ofJson data))) :
    ∃ text, engine.renderNamed name data = .ok text := by
  rw [Dialect.Engine.renderNamed_of_get? htree, Tree.dialect_render, Tree.renderRoot, Tree.render]
  exact exists_renderAll h (by omega) tree hsafe

end LocaleScript.Template
