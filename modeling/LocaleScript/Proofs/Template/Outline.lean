import LocaleScript.Proofs.Template.Rendering

/-!
# Outlines of templates

A fragment is rendered with names whose values are known beforehand, and with locale data. Its
outline is what is known of its text: a row of characters, of places where data is printed and of
places where another template is included, parts of which stand once for each locale. The text is
the outline with all that written in (`renderNamed_of_outline?`), whatever the data are. Outlines
can be computed, so what is found on an outline holds for all data.
-/

namespace LocaleScript.Template

/-! ## Rows and outlines -/

/-- The data that a fragment prints. -/
inductive Datum where
  /-- The data of all locales, by locale. -/
  | resources
  /-- The locales that there are data of. -/
  | locales
  /-- The category of the data. -/
  | category
  /-- The locale of a round. -/
  | tag
  /-- The data of the locale of a round. -/
  | data
deriving DecidableEq, Repr

/-- A character, or a place where a datum is printed or another template included. -/
inductive Symbol where
  | char (c : Char)
  | json (datum : Datum)
  | part
deriving DecidableEq, Repr

/-- A row of symbols that stands once, or once for each locale. -/
structure Stretch where
  each : Bool
  row : List Symbol
deriving DecidableEq, Repr

/-- What is known of a text. -/
abbrev Outline : Type := List Stretch

/-- What is written into an outline. -/
structure Data where
  category : Option String
  /-- Locale data, by locale. -/
  resources : List (String × Json)
  /-- The locale of a round. -/
  tag : String
  /-- The data of the locale of a round. -/
  data : Json
  /-- The text of the included template. -/
  part : List Char

/-- The data in the round of a locale. -/
def Data.round (d : Data) (resource : String × Json) : Data :=
  { d with tag := resource.1, data := resource.2 }

/-- The value of a datum. -/
def Data.value (d : Data) : Datum → Json
  | .resources => .obj d.resources
  | .locales => .ofStrings (d.resources.map (·.1))
  | .category => .ofString? d.category
  | .tag => .str d.tag
  | .data => d.data

/-- The text of a symbol. -/
def Symbol.write (d : Data) : Symbol → List Char
  | .char c => [c]
  | .json datum => (d.value datum).finite.write
  | .part => d.part

/-- The text of a row. -/
def writeRow (d : Data) (row : List Symbol) : List Char :=
  row.flatMap (Symbol.write d)

/-- The text of a stretch. -/
def Stretch.write (d : Data) (s : Stretch) : List Char :=
  if s.each then d.resources.flatMap fun resource => writeRow (d.round resource) s.row
  else writeRow d s.row

/-- The text of an outline. -/
def Outline.write (d : Data) (o : Outline) : List Char :=
  o.flatMap (Stretch.write d)

section

variable (d : Data)

@[simp] theorem writeRow_nil : writeRow d [] = [] := rfl

@[simp] theorem writeRow_cons (s : Symbol) (row : List Symbol) :
    writeRow d (s :: row) = s.write d ++ writeRow d row := rfl

@[simp] theorem writeRow_append (row row' : List Symbol) :
    writeRow d (row ++ row') = writeRow d row ++ writeRow d row' :=
  List.flatMap_append

@[simp] theorem writeRow_map_char (cs : List Char) : writeRow d (cs.map .char) = cs := by
  induction cs with
  | nil => rfl
  | cons c cs ih => rw [List.map_cons, writeRow_cons, ih, Symbol.write, List.singleton_append]

@[simp] theorem Outline.write_nil : Outline.write d [] = [] := rfl

@[simp] theorem Outline.write_cons (s : Stretch) (o : Outline) :
    Outline.write d (s :: o) = s.write d ++ Outline.write d o := rfl

@[simp] theorem Stretch.write_once (row : List Symbol) :
    Stretch.write d ⟨false, row⟩ = writeRow d row :=
  rfl

@[simp] theorem Stretch.write_each (row : List Symbol) :
    Stretch.write d ⟨true, row⟩
      = d.resources.flatMap fun resource => writeRow (d.round resource) row :=
  rfl

end

/-- A stretch in front of an outline; rows that stand once are joined. -/
def Stretch.before (s : Stretch) : Outline → Outline
  | [] => [s]
  | t :: o => if s.each || t.each then s :: t :: o else ⟨false, s.row ++ t.row⟩ :: o

/-- One outline in front of another one. -/
def Outline.join (o o' : Outline) : Outline :=
  o.foldr Stretch.before o'

theorem Stretch.write_before (d : Data) (s : Stretch) (o : Outline) :
    Outline.write d (s.before o) = s.write d ++ Outline.write d o := by
  cases o with
  | nil => rfl
  | cons t o =>
    rw [Stretch.before]
    split
    · rfl
    · next honce =>
      obtain ⟨each, row⟩ := s
      obtain ⟨each', row'⟩ := t
      obtain ⟨rfl, rfl⟩ : each = false ∧ each' = false := by simpa using honce
      simp only [Outline.write_cons, Stretch.write_once, writeRow_append, List.append_assoc]

@[simp] theorem Outline.write_join (d : Data) (o o' : Outline) :
    Outline.write d (o.join o') = Outline.write d o ++ Outline.write d o' := by
  induction o with
  | nil => rfl
  | cons s o ih =>
    rw [Outline.join, List.foldr_cons, Stretch.write_before]
    rw [Outline.join] at ih
    rw [ih, Outline.write_cons, List.append_assoc]

/-! ## Outlines of nodes -/

/-- What is known of the value of a name. -/
inductive Known where
  | value (value : Json)
  | datum (datum : Datum)

/-- What a known value or a datum is as JSON. -/
def Known.json (d : Data) : Known → Json
  | .value j => j
  | .datum place => d.value place

/-- The row of a known value or a datum that is printed as JSON. -/
def Known.row : Known → List Symbol
  | .value j => j.finite.write.map .char
  | .datum place => [.json place]

/-- The names that a template sees. -/
structure Names where
  /-- The names whose values are known. -/
  values : List (String × Json)
  /-- The name of the data of all locales. -/
  resources : String
  /-- The name of their category. -/
  category : String
  /-- In a round, the names of the locale and of its data. -/
  round : Option (String × String)

namespace Names

/-- What is known of a name outside of rounds. -/
def outside? (names : Names) (x : String) : Option Known :=
  if x = names.resources then some (.datum .resources)
  else if x = names.category then some (.datum .category)
  else (names.values.lookup x).map .value

/-- What is known of a name. -/
def find? (names : Names) (x : String) : Option Known :=
  match names.round with
  | some (tag, data) =>
    if x = data then some (.datum .data)
    else if x = tag then some (.datum .tag)
    else if x = "loop" then none
    else names.outside? x
  | none => names.outside? x

end Names

/-- What is printed of an expression. -/
def Expr.row? (names : Names) : Expr → Option (List Symbol)
  | .variable x =>
    match names.find? x with
    | some (.value (.str s)) => some (s.toList.map .char)
    | _ => none
  | .filter (.variable x) f [] =>
    if f = "tojs" then (names.find? x).map Known.row else none
  | .filter (.filter (.variable x) f []) g [] =>
    match names.find? x with
    | some (.datum .resources) =>
      if f = "list" ∧ g = "tojs" then some [.json .locales] else none
    | _ => none
  | _ => none

/-- The truth value that an expression is known to have. -/
def Expr.flag? (names : Names) : Expr → Option Bool
  | .variable x =>
    match names.find? x with
    | some (.value (.bool b)) => some b
    | _ => none
  | _ => none

/-- The expression is a list of the locales with their data. -/
def Expr.isItems (names : Names) : Expr → Bool
  | .filter (.variable x) f [] =>
    match names.find? x with
    | some (.datum .resources) => f = "items"
    | _ => false
  | _ => false

/-- The two names of a pattern. -/
def Pattern.pair? : Pattern → Option (String × String)
  | .tuple [.variable tag, .variable data] => some (tag, data)
  | _ => none

/-- The text that an expression is. -/
def Expr.text? : Expr → Option String
  | .literal (.str s) => some s
  | _ => none

/-- The row of a node that nests nothing. -/
def Node.row? (names : Names) : Node → Option (List Symbol)
  | .text cs => some (cs.map .char)
  | .print e => e.row? names
  | _ => none

/-- The row of nodes that nest nothing. -/
def rowOf? (names : Names) : List Node → Option (List Symbol)
  | [] => some []
  | node :: nodes =>
    match node.row? names, rowOf? names nodes with
    | some row, some row' => some (row ++ row')
    | _, _ => none

mutual

/-- The outline of a node, if it can be told without the data. It may include one other template. -/
def Node.outline? (names : Names) (part : Option String) : Node → Option Outline
  | .text cs => some [⟨false, cs.map .char⟩]
  | .print e => (e.row? names).map fun row => [⟨false, row⟩]
  | .branch test yes no =>
    match test.flag? names with
    | some true => outline? names part yes
    | some false => outline? names part no
    | none => none
  | .loop pattern whole body otherwise =>
    match pattern.pair? with
    | some (tag, data) =>
      if names.round.isNone && whole.isItems names && otherwise.isEmpty then
        (rowOf? { names with round := some (tag, data) } body).map fun row => [⟨true, row⟩]
      else none
    | none => none
  | .transclude name _ =>
    if name.text?.isSome && name.text? == part then some [⟨false, [.part]⟩] else none

/-- The outline of nodes, one after the other. -/
def outline? (names : Names) (part : Option String) : List Node → Option Outline
  | [] => some []
  | node :: nodes =>
    match node.outline? names part, outline? names part nodes with
    | some o, some o' => some (o.join o')
    | _, _ => none

end

/-! ## Outlines and texts -/

/-- A scope gives the names their values. -/
def Names.Hold (names : Names) (d : Data) (scope : Scope) : Prop :=
  ∀ x known, names.find? x = some known → scope.lookup x = some (.ofJson (known.json d))

section

variable {expand : Expander} {depth : Nat} {scope : Scope} {names : Names} {d : Data}

theorem Known.writeRow_row (known : Known) :
    writeRow d known.row = (known.json d).finite.write := by
  cases known with
  | value j => exact writeRow_map_char d j.finite.write
  | datum place => exact List.append_nil (Symbol.write d (.json place))

theorem Names.json_outside {x : String} {known : Known} (h : names.outside? x = some known)
    (resource : String × Json) : known.json (d.round resource) = known.json d := by
  unfold Names.outside? at h
  split at h
  · rw [← Option.some.inj h]
    rfl
  split at h
  · rw [← Option.some.inj h]
    rfl
  · obtain ⟨j, -, rfl⟩ := Option.map_eq_some_iff.mp h
    rfl

/-- The scope in a round gives names to the locale and its data. -/
theorem Names.Hold.inRound (h : names.Hold d scope) (hround : names.round = none)
    (tag data : String) (resource : String × Json) (loop : Value) :
    Names.Hold { names with round := some (tag, data) } (d.round resource)
      ((data, .ofJson resource.2) :: (tag, .str resource.1) :: ("loop", loop) :: scope) := by
  intro x known hknown
  simp only [Names.find?] at hknown
  simp only [List.lookup_cons]
  by_cases hdata : x = data
  · rw [if_pos hdata] at hknown
    rw [hdata, beq_self_eq_true, ← Option.some.inj hknown]
    rfl
  rw [if_neg hdata] at hknown
  rw [beq_false_of_ne hdata]
  by_cases htag : x = tag
  · rw [if_pos htag] at hknown
    rw [htag, beq_self_eq_true, ← Option.some.inj hknown]
    rfl
  rw [if_neg htag] at hknown
  rw [beq_false_of_ne htag]
  by_cases hloop : x = "loop"
  · rw [if_pos hloop] at hknown
    cases hknown
  rw [if_neg hloop] at hknown
  rw [beq_false_of_ne hloop]
  have hfind : names.find? x = some known := by
    rw [Names.find?, hround]
    exact hknown
  exact (h x known hfind).trans (by rw [Names.json_outside hknown])

/-- A printed expression is written as its row. -/
theorem render_row? {e : Expr} {row : List Symbol} (hrow : e.row? names = some row)
    (h : names.Hold d scope) :
    (Node.print e).render expand depth scope = .ok (String.ofList (writeRow d row)) := by
  unfold Expr.row? at hrow
  split at hrow
  · next x =>
    split at hrow
    · next s hfind =>
      rw [render_variable (h x _ hfind), ← Option.some.inj hrow, writeRow_map_char,
        String.ofList_toList]
      rfl
    · cases hrow
  · next x f =>
    split at hrow
    · next hf =>
      obtain ⟨known, hfind, rfl⟩ := Option.map_eq_some_iff.mp hrow
      rw [hf, render_tojs (h x known hfind), Known.writeRow_row]
      rfl
    · cases hrow
  · next x f g =>
    split at hrow
    · next hfind =>
      split at hrow
      · next hfg =>
        obtain ⟨rfl, rfl⟩ := hfg
        have hlist : (Expr.filter (.variable x) "list" []).eval scope
            = .ok (.ofJson (d.value .locales)) := by
          rw [eval_filter (eval_variable (h x _ hfind))]
          exact applyFilter_list d.resources
        rw [render_filter_tojs hlist, ← Option.some.inj hrow]
        exact congrArg (Except.ok ∘ String.ofList) (List.append_nil _).symm
      · cases hrow
    · cases hrow
  · cases hrow

theorem Node.render_of_row? {node : Node} {row : List Symbol} (hrow : node.row? names = some row)
    (h : names.Hold d scope) :
    node.render expand depth scope = .ok (String.ofList (writeRow d row)) := by
  cases node with
  | text cs =>
    rw [← Option.some.inj hrow, writeRow_map_char, Node.render]
  | print e => exact render_row? hrow h
  | branch | loop | transclude => cases hrow

theorem renderAll_of_rowOf? {nodes : List Node} {row : List Symbol}
    (hrow : rowOf? names nodes = some row) (h : names.Hold d scope) :
    renderAll expand depth scope nodes = .ok (String.ofList (writeRow d row)) := by
  induction nodes generalizing row with
  | nil =>
    rw [← Option.some.inj hrow]
    exact renderAll_nil
  | cons node nodes ih =>
    rw [rowOf?] at hrow
    split at hrow
    · next first rest hfirst hrest =>
      rw [renderAll_cons (Node.render_of_row? hfirst h) (ih hrest), ← Option.some.inj hrow,
        writeRow_append, String.ofList_append]
    · cases hrow

/-- An expression with a known truth value has this value. -/
theorem eval_of_flag? {e : Expr} {b : Bool} (hflag : e.flag? names = some b)
    (h : names.Hold d scope) : e.eval scope = .ok (.bool b) := by
  unfold Expr.flag? at hflag
  split at hflag
  · next x =>
    split at hflag
    · next b' hfind =>
      rw [eval_variable (h x _ hfind), ← Option.some.inj hflag]
      rfl
    · cases hflag
  · cases hflag

theorem eval_of_isItems {e : Expr} (hitems : e.isItems names = true) (h : names.Hold d scope) :
    e.eval scope = .ok (.list (d.resources.map fun m => .list [.str m.1, .ofJson m.2])) := by
  unfold Expr.isItems at hitems
  split at hitems
  · next x f =>
    split at hitems
    · next hfind =>
      rw [of_decide_eq_true hitems, eval_filter (eval_variable (h x _ hfind))]
      exact applyFilter_items d.resources
    · cases hitems
  · cases hitems

theorem eq_of_pair? {pattern : Pattern} {tag data : String}
    (h : pattern.pair? = some (tag, data)) :
    pattern = .tuple [.variable tag, .variable data] := by
  unfold Pattern.pair? at h
  split at h
  · obtain ⟨rfl, rfl⟩ := Prod.mk.inj (Option.some.inj h)
    rfl
  · cases h

theorem eval_of_text? {e : Expr} {s : String} (h : e.text? = some s) :
    e.eval scope = .ok (.str s) := by
  unfold Expr.text? at h
  split at h
  · rw [Option.some.inj h, Expr.eval]
  · cases h

/-- A loop over the locales with their data writes its row for each of them. -/
theorem render_loop {pattern : Pattern} {whole : Expr} {body : List Node} {row : List Symbol}
    {tag data : String} (hpattern : pattern.pair? = some (tag, data))
    (hround : names.round = none) (hwhole : whole.isItems names = true)
    (hbody : rowOf? { names with round := some (tag, data) } body = some row)
    (hdepth : depth ≤ depthLimit) (h : names.Hold d scope) :
    (Node.loop pattern whole body []).render expand depth scope
      = .ok (String.ofList (Stretch.write d ⟨true, row⟩)) := by
  rw [Node.render, eval_of_isItems hwhole h]
  simp only [Value.parts?, if_neg (Nat.not_lt.mpr hdepth), List.isEmpty_map]
  split
  · next hempty =>
    rw [Stretch.write_each, List.isEmpty_iff.mp hempty]
    exact renderAll_nil
  · rw [Stretch.write_each]
    refine overParts_map (fun round resource => ?_) d.resources 1
    rw [eq_of_pair? hpattern]
    exact renderAll_of_rowOf? hbody (h.inRound hround tag data resource (loopValue round))

mutual

/-- A node is rendered as its outline with the data written in. -/
theorem Node.render_of_outline? {part : Option String}
    (hpart : ∀ name, part = some name → ∀ line,
      expand depth scope (.str name) line = .ok (String.ofList d.part))
    (hdepth : depth ≤ depthLimit) (h : names.Hold d scope) : ∀ (node : Node) (o : Outline),
    node.outline? names part = some o →
      node.render expand depth scope = .ok (String.ofList (o.write d))
  | .text cs, o, hnode => by
    rw [Node.outline?, Option.some.injEq] at hnode
    rw [← hnode, Node.render, Outline.write_cons, Stretch.write_once, writeRow_map_char,
      Outline.write_nil, List.append_nil]
  | .print e, o, hnode => by
    rw [Node.outline?] at hnode
    obtain ⟨row, hrow, rfl⟩ := Option.map_eq_some_iff.mp hnode
    rw [render_row? hrow h, Outline.write_cons, Stretch.write_once, Outline.write_nil,
      List.append_nil]
  | .branch test yes no, o, hnode => by
    rw [Node.outline?] at hnode
    cases hflag : test.flag? names with
    | none =>
      rw [hflag] at hnode
      cases hnode
    | some b =>
      rw [hflag] at hnode
      rw [Node.render, eval_of_flag? hflag h]
      cases b with
      | true => exact renderAll_of_outline? hpart hdepth h yes o hnode
      | false => exact renderAll_of_outline? hpart hdepth h no o hnode
  | .loop pattern whole body otherwise, o, hnode => by
    rw [Node.outline?] at hnode
    split at hnode
    · next tag data hpattern =>
      split at hnode
      · next hchecks =>
        simp only [Bool.and_eq_true, Option.isNone_iff_eq_none, List.isEmpty_iff] at hchecks
        obtain ⟨⟨hround, hwhole⟩, rfl⟩ := hchecks
        obtain ⟨row, hrow, rfl⟩ := Option.map_eq_some_iff.mp hnode
        rw [render_loop hpattern hround hwhole hrow hdepth h, Outline.write_cons,
          Outline.write_nil, List.append_nil]
      · cases hnode
    · cases hnode
  | .transclude name line, o, hnode => by
    rw [Node.outline?] at hnode
    split at hnode
    · next hname =>
      simp only [Bool.and_eq_true, beq_iff_eq] at hname
      obtain ⟨s, hs⟩ := Option.isSome_iff_exists.mp hname.1
      rw [Node.render, eval_of_text? hs, ← Option.some.inj hnode]
      rw [hs] at hname
      refine (hpart s hname.2.symm line).trans (congrArg (Except.ok ∘ String.ofList) ?_)
      simp only [Outline.write_cons, Outline.write_nil, Stretch.write_once, writeRow_cons,
        writeRow_nil, Symbol.write, List.append_nil]
    · cases hnode

theorem renderAll_of_outline? {part : Option String}
    (hpart : ∀ name, part = some name → ∀ line,
      expand depth scope (.str name) line = .ok (String.ofList d.part))
    (hdepth : depth ≤ depthLimit) (h : names.Hold d scope) : ∀ (nodes : List Node) (o : Outline),
    outline? names part nodes = some o →
      renderAll expand depth scope nodes = .ok (String.ofList (o.write d))
  | [], o, hnodes => by
    rw [outline?, Option.some.injEq] at hnodes
    rw [← hnodes]
    exact renderAll_nil
  | node :: nodes, o, hnodes => by
    rw [outline?] at hnodes
    split at hnodes
    · next first rest hfirst hrest =>
      rw [renderAll_cons (Node.render_of_outline? hpart hdepth h node first hfirst)
          (renderAll_of_outline? hpart hdepth h nodes rest hrest), ← Option.some.inj hnodes,
        Outline.write_join, String.ofList_append]
    · cases hnodes

end

end

/-! ## Outlines of templates -/

theorem render_of_outline? {tree : Tree} {names : Names} {o : Outline}
    (houtline : outline? names none tree = some o) {d : Data} {scope : Scope}
    (h : names.Hold d scope) {depth : Nat} (hdepth : depth ≤ depthLimit) (templates : Table Tree)
    (levels : Nat) (name : String) :
    Tree.render templates levels depth name tree scope = .ok (String.ofList (o.write d)) := by
  rw [Tree.render]
  refine renderAll_of_outline? (fun _ hnone => ?_) hdepth h tree o houtline
  cases hnone

/-- A named template is rendered as its outline with the data written in. -/
theorem renderNamed_of_outline? {engine : Engine} {name part : String} {tree included : Tree}
    (htree : engine.templates.get? name = some tree)
    (hincluded : engine.templates.get? part = some included)
    {names names' : Names} {o o' : Outline} (houtline : outline? names (some part) tree = some o)
    (houtline' : outline? names' none included = some o') {d d' : Data} (hd : d.part = o'.write d')
    {data : Json} (h : names.Hold d (.ofData (.ofJson data)))
    (h' : names'.Hold d' (.ofData (.ofJson data))) :
    engine.renderNamed name data = .ok (String.ofList (o.write d)) := by
  obtain ⟨levels, hlevels⟩ : ∃ levels, depthLimit / includeCost = levels + 1 := ⟨49, rfl⟩
  rw [Dialect.Engine.renderNamed_of_get? htree, Tree.dialect_render, Tree.renderRoot, Tree.render,
    hlevels]
  refine renderAll_of_outline? (fun chosen hchosen line => ?_) (by decide) h tree o houtline
  obtain rfl := Option.some.inj hchosen
  have hchoose : Tree.choose engine.templates [] (Tree.candidates (.str part))
      = .chosen part included :=
    Tree.choose_of_get? hincluded [] []
  have hrender : Tree.render engine.templates levels (1 + includeCost) part included
      (.ofData (.ofJson data)) = .ok (String.ofList (o'.write d')) :=
    render_of_outline? houtline' h' (by decide) engine.templates levels part
  have hdepth : ¬depthLimit < 1 + includeCost := by decide
  simp only [hchoose, if_neg hdepth, hrender, hd]

end LocaleScript.Template
