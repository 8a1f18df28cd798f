import LocaleScript.Yaml.Node
import LocaleScript.Yaml.Scalar

/-!
# Contents of nodes

What a node holds is read by what is expected of it: a text, a truth value, a list, a map, or any
value. A reference holds what the node holds that it refers to. So that references cannot be used to
write down more than a document has room for, they are counted, and collections may be nested only
so deep.

## Termination

Values are read by recursion on the number of collections that may be open.
-/

namespace LocaleScript.Yaml

/-- How many collections may be open at once. -/
def depthLimit : Nat := 128

/-- How many references may be followed for each part of a document. -/
def referencesPerPart : Nat := 100

/-- Reads contents and counts down the references that may still be followed. -/
abbrev Contents (α : Type) : Type := StateT Nat Option α

namespace Document

/-- The number of references that may be followed in a document. -/
def referenceLimit (document : Document) : Nat :=
  document.size * referencesPerPart

/-- The node that a node stands for, which is no reference. -/
def follow (document : Document) (node : Node) : Contents Node :=
  match node with
  | .reference anchor => do
    match ← get with
    | 0 => failure
    | left + 1 =>
      set left
      document.find? anchor
  | node => return node

/-- A scalar, whatever it is like, as a text. -/
def readText (document : Document) (node : Node) : Contents String := do
  match ← document.follow node with
  | .scalar _ _ text => return text
  | _ => failure

/-- The tag of truth values. -/
def boolTag : String := "tag:yaml.org,2002:bool"

/-- The tag of integers. -/
def intTag : String := "tag:yaml.org,2002:int"

/-- The tag of doubles. -/
def floatTag : String := "tag:yaml.org,2002:float"

/-- The tag of null. -/
def nullTag : String := "tag:yaml.org,2002:null"

/-- A truth value, written plainly, or as a literal that is said to be one. -/
def readFlag (document : Document) (node : Node) : Contents Bool := do
  match ← document.follow node with
  | .scalar properties style text =>
    if style = .plain ∨ (style = .literal ∧ properties.tag = some boolTag) then truth? text
    else failure
  | _ => failure

/-- Nothing is written in the place of a node. -/
def isBlank : Node → Bool
  | .scalar _ style text => style = .plain && text = ""
  | _ => false

/-- The items of a list; where nothing is written there are none. -/
def readItems (document : Document) (node : Node) : Contents (List Node) := do
  match ← document.follow node with
  | .sequence _ items => return items
  -- A null that is spelled out is no empty list.
  | other => if isBlank other then return [] else failure

/-- The entries of a map in order; where nothing is written there are none. Keys are texts. -/
def readEntries (document : Document) (node : Node) : Contents (List (String × Node)) := do
  match ← document.follow node with
  | .mapping _ entries => entries.mapM fun (key, value) => do
    return (← document.readText key, value)
  | other => if isBlank other then return [] else failure

/-- Contents that may be missing: null or nothing, unless a tag says that it is something. -/
def readOption {α : Type} (document : Document) (read : Node → Contents α) (node : Node) :
    Contents (Option α) := do
  match ← document.follow node with
  | .scalar properties style text =>
    let isMissing ← match properties.tag with
      | some tag =>
        if style = .plain ∧ tag = nullTag then (if isNull text then pure true else failure)
        else pure false
      | none => pure (style = .plain && (text = "" || isNull text))
    if isMissing then return none
    else return some (← read (.scalar properties style text))
  | other => return some (← read other)

/-- The value of a scalar: a tag says what it must be, else a plain one is what it looks like. A tag
of the document's own has no meaning here. -/
def scalarValue? (properties : Properties) (style : Style) (text : String) : Option Json :=
  match properties.tag with
  | none => if style = .plain then plainValue? text else some (.str text)
  | some tag =>
    if tag.startsWith "!" then none
    else if tag = boolTag then (truth? text).map .bool
    else if tag = intTag then ((integer? text.toList).filter isWide).bind ofInteger?
    else if tag = floatTag then (double? text).map .ofFloat
    else if tag = nullTag then (if isNull text then some .null else none)
    else some (.str text)

/-- The collection has a tag of the document's own, which has no meaning here. -/
def hasOwnTag (properties : Properties) : Bool :=
  properties.tag.any (·.startsWith "!")

/-- Any value, with at most `depth` collections open at once. Of entries with the same key the last
one counts and the first one gives the place. -/
def readJson (document : Document) : Nat → Node → Contents Json
  | depth, node => do
    match ← document.follow node with
    | .scalar properties style text =>
      let value ← scalarValue? properties style text
      return value
    | .sequence properties items =>
      match depth with
      | 0 => failure
      | depth + 1 =>
        if hasOwnTag properties then failure
        return .arr (← items.mapM (document.readJson depth))
    | .mapping properties entries =>
      match depth with
      | 0 => failure
      | depth + 1 =>
        if hasOwnTag properties then failure
        let members ← entries.mapM fun (key, value) => do
          let name ← document.readText key
          return (name, ← document.readJson depth value)
        return .obj (Table.ofList members).entries
    | .reference _ => failure

/-- Reads a document whose root is a record: the entries of its fields. No field may stand twice,
and no other may stand there. -/
def readFields (document : Document) (fields : List String) : Contents (List (String × Node)) := do
  match document.root with
  | none => return []
  | some root =>
    let entries ← document.readEntries root
    let names := entries.map (·.1)
    if names.all fields.contains && decide names.Nodup then return entries else failure

end Document

/-- Reads a text that holds one document. -/
def readText? {α : Type} (text : String) (read : Document → Contents α) : Option α :=
  match Document.parse? text with
  | none => none
  | some document => ((read document).run document.referenceLimit).map (·.1)

end LocaleScript.Yaml
