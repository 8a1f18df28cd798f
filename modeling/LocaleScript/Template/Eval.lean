import LocaleScript.Template.Expr
import LocaleScript.Template.Error
import LocaleScript.Text.Case

/-!
# Values of expressions

An expression has a value in a scope, or an error stops it. Operands are taken from left to right;
`and` and `or` leave out the right one if the left one decides, and give the one that decides.

Between two values that are known without a scope (`Expr.constant?`), `and` gives `false` unless
both are true.
-/

namespace LocaleScript.Template

/-- The names that have a value, the innermost first. -/
abbrev Scope : Type := List (String × Value)

/-- The scope of the data a template is rendered with; only a map gives names values. -/
def Scope.ofData : Value → Scope
  | .map entries => entries.filterMap fun (key, value) =>
      match key with
      | .str name => some (name, value)
      | _ => none
  | _ => []

/-- The part of a value, or the undefined value; asking it of the undefined value is an error. -/
def partOf (whole : Value) (part : Option Value) : Except RenderError Value :=
  match part, whole with
  | some value, _ => .ok value
  | none, .undefined => .error .undefinedValue
  | none, _ => .ok .undefined

/-- The filters. -/
def applyFilter (name : String) (operand : Value) (arguments : List Value) :
    Except RenderError Value :=
  if name = "tojs" then
    match arguments, operand.toJson? with
    | [], some j => .ok (.str j.compact)
    | [], none => .error .unserializable
    | _, _ => .error (.operation .tooManyArguments)
  else if name = "items" then
    match arguments, operand with
    | [], .map entries => .ok (.list (entries.map fun (key, value) => .list [key, value]))
    | [], _ => .error (.operation .notPairs)
    | _, _ => .error (.operation .tooManyArguments)
  else if name = "list" then
    match arguments, operand.parts? with
    | [], some parts => .ok (.list parts)
    | [], none => .error (.operation .notIterable)
    | _, _ => .error (.operation .tooManyArguments)
  else if name = "length" then
    match arguments, operand.length? with
    | [], some n => .ok (.int n)
    | [], none => .error (.operation .noLength)
    | _, _ => .error (.operation .tooManyArguments)
  else if name = "upper" then
    if arguments.isEmpty then .ok (.str (Text.upper operand.text))
    else .error (.operation .tooManyArguments)
  else if name = "lower" then
    if arguments.isEmpty then .ok (.str (Text.lower operand.text))
    else .error (.operation .tooManyArguments)
  else if name = "join" then
    let join := fun joiner =>
      match operand.parts? with
      | some parts => .ok (.str (joiner.intercalate (parts.map Value.text)))
      | none => .error (.operation .notIterable)
    match arguments with
    | [] | [.none] | [.undefined] => join ""
    | [joiner] => join joiner.text
    | _ => .error (.operation .tooManyArguments)
  else .error (.unknownFilter name)

/-- The opposite number. Integers below `2 ^ 127` have one; this number itself stays as it is, and
greater ones have none. -/
def negated : Value → Except RenderError Value
  | .int n =>
    if n < Decimal.twoTo 127 then .ok (.int (-n))
    else if n = Decimal.twoTo 127 then .ok (.int n)
    else .error (.operation .notNumeric)
  | .float x => .ok (.float (-x))
  | _ => .error (.operation .notNumeric)

namespace Expr

/-- The value of a literal. -/
def literal? : Expr → Option Value
  | .literal value => some value
  | _ => none

/-- The key and value of an entry of literals. -/
def literalEntry? (entry : Expr × Expr) : Option (Value × Value) :=
  match entry.1.literal?, entry.2.literal? with
  | some key, some value => some (key, value)
  | _, _ => none

/-- The value of an expression that is known before there is a scope: literals, lists and maps of
nothing but literals, and what logic, equality and a minus make of known values. -/
def constant? : Expr → Option Value
  | .literal value => some value
  | .list items => (items.mapM literal?).map .list
  | .map entries =>
    (entries.mapM literalEntry?).map fun known =>
      .map (known.foldl (fun entries (key, value) => Value.setEntry key value entries) [])
  | .negate operand => operand.constant?.bind fun v => (negated v).toOption
  | .equal left right =>
    match left.constant?, right.constant? with
    | some v, some w => some (.bool (v.equals w))
    | _, _ => none
  | .unequal left right =>
    match left.constant?, right.constant? with
    | some v, some w => some (.bool !(v.equals w))
    | _, _ => none
  | .not operand => operand.constant?.map fun v => .bool !v.isTrue
  | .and left right =>
    match left.constant?, right.constant? with
    | some v, some w => some (if v.isTrue && w.isTrue then w else .bool false)
    | _, _ => none
  | .or left right =>
    match left.constant?, right.constant? with
    | some v, some w => some (if v.isTrue then v else w)
    | _, _ => none
  | .variable _ | .attribute .. | .item .. | .call .. | .filter .. | .test .. => none

end Expr

mutual

/-- The value of an expression in a scope. -/
def Expr.eval (scope : Scope) : Expr → Except RenderError Value
  | .literal value => .ok value
  | .variable name => .ok ((scope.lookup name).getD .undefined)
  | .list items => (evalItems scope items).map .list
  | .map entries => (evalEntries scope [] entries).map .map
  | .attribute operand name =>
    match operand.eval scope with
    | .error e => .error e
    | .ok value => partOf value (value.attribute? name)
  | .item operand key =>
    match operand.eval scope with
    | .error e => .error e
    | .ok value =>
      match key.eval scope with
      | .error e => .error e
      | .ok k => partOf value (value.item? k)
  | .call (.attribute operand name) arguments =>
    match operand.eval scope with
    | .error e => .error e
    | .ok value =>
      match evalItems scope arguments with
      | .error e => .error e
      | .ok _ =>
        if (value.attribute? name).isSome then .error (.operation .notCallable)
        else .error (.unknownMethod name)
  | .call (.variable name) arguments =>
    match evalItems scope arguments with
    | .error e => .error e
    | .ok _ =>
      if (scope.lookup name).isSome then .error (.operation .notCallable)
      else .error (.unknownFunction name)
  | .call function arguments =>
    match function.eval scope with
    | .error e => .error e
    | .ok _ =>
      match evalItems scope arguments with
      | .error e => .error e
      | .ok _ => .error (.operation .notCallable)
  | .filter operand name arguments =>
    match operand.eval scope with
    | .error e => .error e
    | .ok value =>
      match evalItems scope arguments with
      | .error e => .error e
      | .ok values => applyFilter name value values
  | .test operand name =>
    match operand.eval scope with
    | .error e => .error e
    | .ok _ => .error (.unknownTest name)
  | .negate operand =>
    match operand.eval scope with
    | .error e => .error e
    | .ok value => negated value
  | .equal left right =>
    match left.eval scope with
    | .error e => .error e
    | .ok v =>
      match right.eval scope with
      | .error e => .error e
      | .ok w => .ok (.bool (v.equals w))
  | .unequal left right =>
    match left.eval scope with
    | .error e => .error e
    | .ok v =>
      match right.eval scope with
      | .error e => .error e
      | .ok w => .ok (.bool (!v.equals w))
  | .not operand =>
    match operand.eval scope with
    | .error e => .error e
    | .ok value => .ok (.bool !value.isTrue)
  | .and left right =>
    -- Known values that are not both true give `false`, others the first one that is not true.
    match (Expr.and left right).constant? with
    | some value => .ok value
    | none =>
      match left.eval scope with
      | .error e => .error e
      | .ok v => if v.isTrue then right.eval scope else .ok v
  | .or left right =>
    match left.eval scope with
    | .error e => .error e
    | .ok v => if v.isTrue then .ok v else right.eval scope

def evalItems (scope : Scope) : List Expr → Except RenderError (List Value)
  | [] => .ok []
  | e :: es =>
    match e.eval scope with
    | .error err => .error err
    | .ok value =>
      match evalItems scope es with
      | .error err => .error err
      | .ok values => .ok (value :: values)

def evalEntries (scope : Scope) (entries : List (Value × Value)) :
    List (Expr × Expr) → Except RenderError (List (Value × Value))
  | [] => .ok entries
  | (k, v) :: rest =>
    match k.eval scope with
    | .error err => .error err
    | .ok key =>
      match v.eval scope with
      | .error err => .error err
      | .ok value => evalEntries scope (Value.setEntry key value entries) rest

end

end LocaleScript.Template
