import LocaleScript.Template.Library
import LocaleScript.Json.Value
import LocaleScript.Table

/-!
# Dialects and their engines

A dialect is a language of templates: it says what a source is compiled to and what a compiled
template prints. An engine of a dialect holds compiled templates under names and renders them, or
any other template, with data. What is said about engines here holds whatever the dialect is.
-/

namespace LocaleScript.Template

/-- A template language whose sources are compiled to values of a type. -/
structure Dialect (τ : Type) where
  /-- Compiles the source of a template of this name. -/
  compile (name source : String) : Except RenderError τ
  /-- Renders a template of this name with data. Other templates are there under their names. -/
  render (templates : Table τ) (name : String) (template : τ) (data : Json) :
    Except RenderError String

/-- Renders JSON data through a named template. -/
abbrev Renderer : Type := String → Json → Except RenderError String

/-- The name that messages give a template without one. -/
def anonymous : String := "<string>"

/-- Compiled templates of a dialect under names. -/
structure Dialect.Engine {τ : Type} (dialect : Dialect τ) where
  templates : Table τ

namespace Dialect.Engine

variable {τ : Type} {dialect : Dialect τ}

/-- The engine without templates. -/
def empty : dialect.Engine := ⟨.empty⟩

/-- Compiles a template and adds it, in place of any other of this name. -/
def add (engine : dialect.Engine) (name source : String) : Except RenderError dialect.Engine :=
  match dialect.compile name source with
  | .ok template => .ok ⟨engine.templates.insert name template⟩
  | .error e => .error e

/-- Compiles and adds templates in turn, up to the first that does not compile. -/
def addAll (engine : dialect.Engine) (entries : List (String × String)) :
    Except RenderError dialect.Engine :=
  entries.foldlM (fun engine (name, source) => engine.add name source) engine

/-- The engine with all templates of a library. -/
def ofLibrary (library : Library) : Except RenderError dialect.Engine :=
  empty.addAll library.entries

/-- There is a template of this name. -/
def has (engine : dialect.Engine) (name : String) : Bool :=
  engine.templates.contains name

/-- Renders the template of this name. -/
def renderNamed (engine : dialect.Engine) : Renderer := fun name data =>
  match engine.templates.get? name with
  | some template => dialect.render engine.templates name template data
  | none => .error (.unknownTemplate name)

/-- Renders a template that has no name. -/
def render (engine : dialect.Engine) (source : String) (data : Json) : Except RenderError String :=
  match dialect.compile anonymous source with
  | .ok template => dialect.render engine.templates anonymous template data
  | .error e => .error e

theorem add_of_compile {name source : String} {template : τ}
    (h : dialect.compile name source = .ok template) (engine : dialect.Engine) :
    engine.add name source = .ok ⟨engine.templates.insert name template⟩ := by
  rw [add, h]

theorem addAll_cons (entry : String × String) (entries : List (String × String))
    (engine : dialect.Engine) : engine.addAll (entry :: entries)
      = (engine.add entry.1 entry.2).bind fun engine => engine.addAll entries := rfl

theorem renderNamed_of_get? {engine : dialect.Engine} {name : String} {template : τ}
    (h : engine.templates.get? name = some template) (data : Json) :
    engine.renderNamed name data = dialect.render engine.templates name template data := by
  rw [renderNamed, h]

theorem render_of_compile {source : String} {template : τ}
    (h : dialect.compile anonymous source = .ok template) (engine : dialect.Engine) (data : Json) :
    engine.render source data = dialect.render engine.templates anonymous template data := by
  rw [render, h]

end Dialect.Engine

end LocaleScript.Template
