import LocaleScript.Text.Quoted

/-!
# Errors of templates

Each error is a cause; `RenderError.kind` groups the causes as callers tell them apart. Only the
missing templates have a text that callers rely on.
-/

namespace LocaleScript.Template

/-- A failure of an operation on values while a template is rendered. -/
inductive OperationFault where
  /-- The value has nothing to go through. -/
  | notIterable
  /-- Only a map has pairs. -/
  | notPairs
  /-- A pattern takes another number of parts than a value has, or the value has no parts. -/
  | notUnpackable
  /-- The value has no length. -/
  | noLength
  /-- The value is no number that has an opposite. -/
  | notNumeric
  /-- Values cannot be called. -/
  | notCallable
  /-- A filter has more arguments than it takes. -/
  | tooManyArguments
  /-- A template was named by something that is no text. -/
  | notATemplateName
  /-- Loops and inclusions are too deep in each other. -/
  | tooDeep
  /-- An included template failed. -/
  | failedInclude
deriving DecidableEq, Repr

/-- Why a template could not be found, parsed or rendered. -/
inductive RenderError where
  /-- The template is not well formed. -/
  | malformed
  /-- A property was asked of an undefined value. -/
  | undefinedValue
  | unknownFilter (name : String)
  | unknownTest (name : String)
  | unknownFunction (name : String)
  | unknownMethod (name : String)
  /-- No template of this name was added to the engine. -/
  | unknownTemplate (name : String)
  /-- None of the names that a template included, on a line of it, belongs to a template. -/
  | unknownInclude (names : List String) (template : String) (line : Nat)
  /-- A library has no source under this name. -/
  | unregistered (name : String)
  /-- A value has no form in the data format. -/
  | unserializable
  | operation (fault : OperationFault)
deriving DecidableEq, Repr

/-- The groups of errors. -/
inductive RenderError.Kind where
  | template
  | notFound
  | serialization
  | operation
deriving DecidableEq, Repr

/-- The group of an error. -/
def RenderError.kind : RenderError → RenderError.Kind
  | .malformed | .undefinedValue | .unknownFilter _ | .unknownTest _ | .unknownFunction _
  | .unknownMethod _ => .template
  | .unknownTemplate _ | .unknownInclude .. | .unregistered _ => .notFound
  | .unserializable => .serialization
  | .operation _ => .operation

/-- The list of names as it stands in a message. -/
def nameList (names : List String) : String :=
  "[" ++ ", ".intercalate (names.map Text.quoted) ++ "]"

/-- What is said about the cause. -/
def RenderError.detail : RenderError → String
  | .malformed => "malformed template"
  | .undefinedValue => "undefined value"
  | .unknownFilter name => s!"unknown filter: {name}"
  | .unknownTest name => s!"unknown test: {name}"
  | .unknownFunction name => s!"unknown function: {name}"
  | .unknownMethod name => s!"unknown method: {name}"
  | .unknownTemplate name =>
    "template not found: template " ++ Text.quoted name ++ " does not exist"
  | .unknownInclude names template line =>
    "template not found: tried to include " ++
      (match names with
        | [name] => "non-existing template " ++ Text.quoted name
        | _ => "one of multiple templates, none of which existed " ++ nameList names) ++
      " (in " ++ template ++ ":" ++ toString line ++ ")"
  | .unregistered name => name
  | .unserializable => "value cannot be serialized"
  | .operation .notIterable => "value is not iterable"
  | .operation .notPairs => "only a map has pairs"
  | .operation .notUnpackable => "cannot unpack the item"
  | .operation .noLength => "value has no length"
  | .operation .notNumeric => "value is not a number"
  | .operation .notCallable => "value is not callable"
  | .operation .tooManyArguments => "too many arguments"
  | .operation .notATemplateName => "template name was not a string"
  | .operation .tooDeep => "recursion limit exceeded"
  | .operation .failedInclude => "could not render an included template"

/-- The text shown for an error. -/
def RenderError.message (e : RenderError) : String :=
  match e.kind with
  | .template => "template error: " ++ e.detail
  | .notFound => "template not found: " ++ e.detail
  | .serialization => "serialization error: " ++ e.detail
  | .operation => e.detail

end LocaleScript.Template
