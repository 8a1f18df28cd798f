import LocaleScript.Template.Tree
import LocaleScript.Template.Dialect

/-!
# The template engine

The engine of the dialect whose templates are trees. Templates may include others of the same
engine, which see the names of the place where they are included. What an included template does
wrong is reported as a failed inclusion.

## Settings

The dialect is set up to write code and not markup. Each setting has its place in the reading or
rendering of trees:

* nothing is escaped, whatever the name of the template: a printed value is its text
  (`Node.render`, `Value.text`);
* the newline behind a statement or comment goes with it (`trimAfter`, `dropLineEnd`);
* the blanks before a statement or comment that stands alone on its line go with it (`trimBefore`,
  `lineIsBlank`, `dropIndent`);
* a newline at the end of a template stays: `split` leaves the last text as it is;
* one filter is added to those of the language, `tojs`, which prints a value as JSON
  (`applyFilter`).

## Termination

Templates may include themselves. Each inclusion is `includeCost` deeper than the place where it
stands, so no more than `depthLimit / includeCost` of them are open at once.
-/

namespace LocaleScript.Template

/-- How much deeper than its place an included template is rendered. -/
def includeCost : Nat := 10

namespace Tree

/-- What comes of choosing a template to include. -/
inductive Choice where
  | chosen (name : String) (tree : Tree)
  /-- None of these names belongs to a template. -/
  | missing (names : List String)
  | fault (fault : OperationFault)

/-- The first template that one of the values names. `tried` holds the names before that belong to
no template. -/
def choose (templates : Table Tree) (tried : List String) : List Value → Choice
  | [] => .missing tried
  | .str name :: rest =>
    match templates.get? name with
    | some tree => .chosen name tree
    | none => choose templates (tried ++ [name]) rest
  | _ :: _ => .fault .notATemplateName

theorem choose_of_get? {templates : Table Tree} {name : String} {tree : Tree}
    (h : templates.get? name = some tree) (tried : List String) (rest : List Value) :
    choose templates tried (.str name :: rest) = .chosen name tree := by
  rw [choose, h]

/-- The values that an inclusion offers to choose from: the parts of a list or map, or the value. -/
def candidates : Value → List Value
  | .list items => items
  | .map entries => entries.map (·.1)
  | value => [value]

/-- Renders a tree of the given name at a depth, with at most `levels` inclusions open at once. -/
def render (templates : Table Tree) (levels depth : Nat) (name : String) (tree : Tree)
    (scope : Scope) : Except RenderError String :=
  renderAll (fun depth scope value line =>
    match choose templates [] (candidates value) with
    | .fault fault => .error (.operation fault)
    | .missing [] => .ok ""
    | .missing names => .error (.unknownInclude names name line)
    | .chosen chosen included =>
      match levels with
      | 0 => .error (.operation .tooDeep)
      | levels + 1 =>
        if depthLimit < depth + includeCost then .error (.operation .tooDeep)
        else
          match render templates levels (depth + includeCost) chosen included scope with
          | .ok text => .ok text
          | .error _ => .error (.operation .failedInclude)) depth scope tree

/-- Renders a tree that nothing includes. -/
def renderRoot (templates : Table Tree) (name : String) (tree : Tree) (data : Json) :
    Except RenderError String :=
  render templates (depthLimit / includeCost) 1 name tree (.ofData (.ofJson data))

/-- Parses a template, whatever its name. -/
def compile (source : String) : Except RenderError Tree :=
  match parse? source with
  | some tree => .ok tree
  | none => .error .malformed

/-- The dialect of the templates that are parsed to trees. -/
def dialect : Dialect Tree where
  compile _ source := compile source
  render := renderRoot

theorem dialect_compile (name source : String) : dialect.compile name source = compile source := rfl

theorem dialect_render : dialect.render = renderRoot := rfl

theorem compile_of_parse? {source : String} {tree : Tree} (h : parse? source = some tree)
    (name : String) : dialect.compile name source = .ok tree := by
  rw [dialect_compile, compile, h]

@[simp] theorem toOption_compile (name source : String) :
    (dialect.compile name source).toOption = parse? source := by
  rw [dialect_compile, compile]
  cases parse? source <;> rfl

end Tree

/-- Trees under names. -/
abbrev Engine : Type := Tree.dialect.Engine

/-- The engine without templates. -/
abbrev Engine.empty : Engine := Dialect.Engine.empty

/-- The engine with all templates of a library. -/
abbrev Engine.ofLibrary (library : Library) : Except RenderError Engine :=
  Dialect.Engine.ofLibrary library

end LocaleScript.Template
