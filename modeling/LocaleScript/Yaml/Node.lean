import LocaleScript.Yaml.Token
import LocaleScript.Table

/-!
# Nodes of a document

A document is a tree of nodes: scalars, sequences, mappings, and references to named nodes. Names
are numbered where they are given. A name that is given once more gets the number of names known so
far, so it may share a number with a later name; a reference means the last node with its number.

## Termination

Every function takes the number of steps it may use; `Document.ofTokens?` passes more than the
tokens of a document can take.
-/

namespace LocaleScript.Yaml

/-- What a node may carry besides its contents. -/
structure Properties where
  /-- The number under which the node is referred to. -/
  anchor : Option Nat
  tag : Option String
deriving DecidableEq, Repr

/-- Neither a number nor a tag. -/
def Properties.none : Properties := ⟨.none, .none⟩

/-- A node of a document. -/
inductive Node where
  | scalar (properties : Properties) (style : Style) (text : String)
  | sequence (properties : Properties) (items : List Node)
  | mapping (properties : Properties) (entries : List (Node × Node))
  | reference (anchor : Nat)
deriving Repr, Inhabited

namespace Node

/-- The node that stands where nothing is written. -/
def empty : Node := .scalar .none .plain ""

mutual

/-- How many parts a node has: its beginning, its end if it is a collection, and what lies
between. -/
def size : Node → Nat
  | .scalar .. | .reference _ => 1
  | .sequence _ items => sizeOfItems items + 2
  | .mapping _ entries => sizeOfEntries entries + 2

def sizeOfItems : List Node → Nat
  | [] => 0
  | item :: items => item.size + sizeOfItems items

def sizeOfEntries : List (Node × Node) → Nat
  | [] => 0
  | (key, value) :: entries => key.size + value.size + sizeOfEntries entries

end

mutual

/-- The nodes that have numbers, in the order in which they begin, with their numbers. -/
def anchored (node : Node) : List (Nat × Node) :=
  match node with
  | .scalar properties .. => properties.anchor.toList.map (·, node)
  | .reference _ => []
  | .sequence properties items =>
    properties.anchor.toList.map (·, node) ++ anchoredItems items
  | .mapping properties entries =>
    properties.anchor.toList.map (·, node) ++ anchoredEntries entries

def anchoredItems : List Node → List (Nat × Node)
  | [] => []
  | item :: items => item.anchored ++ anchoredItems items

def anchoredEntries : List (Node × Node) → List (Nat × Node)
  | [] => []
  | (key, value) :: entries => key.anchored ++ value.anchored ++ anchoredEntries entries

end

end Node

/-! ## Reading nodes -/

/-- Tokens that are left and the numbers of names. -/
structure Input where
  tokens : List Token
  names : Table Nat

/-- Reads a part of a document. -/
abbrev NodeReader (α : Type) : Type := StateT Input Option α

namespace NodeReader

/-- The next token. -/
def peek : NodeReader (Option Token) := do
  return (← get).tokens.head?

/-- Goes over the next token. -/
def drop : NodeReader Unit :=
  modify fun input => { input with tokens := input.tokens.drop 1 }

/-- The next token is one of these. -/
def peekIn (tokens : List Token) : NodeReader Bool := do
  return (← peek).any tokens.contains

/-- Goes over the next token if it is this one. -/
def accept (token : Token) : NodeReader Bool := do
  if (← peek) == some token then
    drop
    return true
  else return false

/-- Numbers a name. -/
def number (name : String) : NodeReader Nat := do
  let input ← get
  let id := input.names.size
  set { input with names := input.names.insert name id }
  return id

/-- The name that is given here. -/
def readAnchor : NodeReader (Option String) := do
  match ← peek with
  | some (.anchor name) =>
    drop
    return some name
  | _ => return none

/-- The tag that is given here. -/
def readNodeTag (handles : List (String × String)) : NodeReader (Option String) := do
  match ← peek with
  | some (.tag tag) =>
    drop
    let text ← tag.resolve? handles
    return some text
  | _ => return none

/-- A name and a tag in either order, both of which may be missing. -/
def readProperties (handles : List (String × String)) : NodeReader Properties := do
  match ← readAnchor with
  | some name =>
    let tag ← readNodeTag handles
    let id ← number name
    return ⟨some id, tag⟩
  | none =>
    let tag ← readNodeTag handles
    if tag.isNone then return .none
    match ← readAnchor with
    | some name =>
      let id ← number name
      return ⟨some id, tag⟩
    | none => return ⟨none, tag⟩

/-- A node without contents, which must have a name or a tag. -/
def scalarFor (properties : Properties) : NodeReader Node :=
  if properties = .none then failure else return .scalar properties .plain ""

mutual

/-- A node. A block may stand only where `block` says so, and a sequence that is no deeper than the
keys around it only where `level` says so. -/
def node (handles : List (String × String)) : Nat → Bool → Bool → NodeReader Node
  | 0, _, _ => failure
  | steps + 1, block, level => do
    if let some (.alias name) ← peek then
      drop
      let id ← (← get).names.get? name
      return .reference id
    let properties ← readProperties handles
    match ← peek with
    | some .item =>
      if level then return .sequence properties (← levelItems handles steps)
      else scalarFor properties
    | some (.scalar style text) =>
      drop
      return .scalar properties style text
    | some (.openFlow .sequence) =>
      drop
      return .sequence properties (← flowItems handles steps true)
    | some (.openFlow .mapping) =>
      drop
      return .mapping properties (← flowEntries handles steps true)
    | some (.openBlock .sequence) =>
      if !block then return ← scalarFor properties
      drop
      return .sequence properties (← blockItems handles steps)
    | some (.openBlock .mapping) =>
      if !block then return ← scalarFor properties
      drop
      return .mapping properties (← blockEntries handles steps)
    | _ => scalarFor properties

/-- The items of a block sequence up to its end. -/
def blockItems (handles : List (String × String)) : Nat → NodeReader (List Node)
  | 0 => failure
  | steps + 1 => do
    if ← accept .closeBlock then return []
    if !(← accept .item) then failure
    let item ← if ← peekIn [.item, .closeBlock] then pure .empty else node handles steps true false
    return item :: (← blockItems handles steps)

/-- The items of a sequence that is no deeper than the keys around it. -/
def levelItems (handles : List (String × String)) : Nat → NodeReader (List Node)
  | 0 => failure
  | steps + 1 => do
    if !(← accept .item) then return []
    let item ← if ← peekIn [.item, .key, .value, .closeBlock] then pure .empty
      else node handles steps true false
    return item :: (← levelItems handles steps)

/-- The entries of a block mapping up to its end. -/
def blockEntries (handles : List (String × String)) : Nat → NodeReader (List (Node × Node))
  | 0 => failure
  | steps + 1 => do
    if ← accept .closeBlock then return []
    if !(← accept .key) then failure
    let ends : List Token := [.key, .value, .closeBlock]
    let key ← if ← peekIn ends then pure .empty else node handles steps true true
    let value ← if ← accept .value then
        if ← peekIn ends then pure .empty else node handles steps true true
      else pure .empty
    return (key, value) :: (← blockEntries handles steps)

/-- The value of a key in a flow collection. -/
def flowValue (handles : List (String × String)) (close : Token) : Nat → NodeReader Node
  | 0 => failure
  | steps + 1 => do
    if ← accept .value then
      if ← peekIn [.comma, close] then return .empty else node handles steps false false
    else return .empty

/-- The items of a flow sequence up to its end. An item with a key is a mapping of that one key. A
key mark with nothing behind it takes the token behind it along. -/
def flowItems (handles : List (String × String)) : Nat → Bool → NodeReader (List Node)
  | 0, _ => failure
  | steps + 1, first => do
    let close : Token := .closeFlow .sequence
    if ← accept close then return []
    if !first then
      if !(← accept .comma) then failure
    if ← accept close then return []
    let item ← if ← accept .key then
        let key ← if ← peekIn [.value, .comma, close] then
            drop
            pure .empty
          else node handles steps false false
        let value ← flowValue handles close steps
        pure (.mapping .none [(key, value)])
      else node handles steps false false
    return item :: (← flowItems handles steps false)

/-- The entries of a flow mapping up to its end. -/
def flowEntries (handles : List (String × String)) : Nat → Bool → NodeReader (List (Node × Node))
  | 0, _ => failure
  | steps + 1, first => do
    let close : Token := .closeFlow .mapping
    if ← accept close then return []
    if !first then
      if !(← accept .comma) then failure
    if ← accept close then return []
    let entry ← if ← accept .key then
        let key ← if ← peekIn [.value, .comma, close] then pure .empty
          else node handles steps false false
        let value ← flowValue handles close steps
        pure (key, value)
      else
        let key ← node handles steps false false
        pure (key, .empty)
    return entry :: (← flowEntries handles steps false)

end

end NodeReader

/-! ## Documents -/

/-- A document: its root, none if nothing at all is written, and the nodes that have numbers. -/
structure Document where
  root : Option Node
  anchored : List (Nat × Node)

namespace Document

/-- The document of a root. -/
def ofRoot (root : Node) : Document := ⟨some root, root.anchored⟩

/-- The document in which nothing is written. -/
def blank : Document := ⟨none, []⟩

/-- The last node with a number. -/
def find? (document : Document) (anchor : Nat) : Option Node :=
  (document.anchored.reverse.find? (·.1 = anchor)).map (·.2)

/-- How many parts the document has. -/
def size (document : Document) : Nat :=
  document.root.elim 1 Node.size

/-- Takes the directives from the front: no directive may stand twice, and the version must be 1.1
or 1.2. Gives the handles. -/
def readDirectives (version : Bool) (handles : List (String × String)) :
    List Token → Option (List (String × String) × List Token)
  | .directive (.version major minor) :: tokens =>
    if version ∨ major ≠ 1 ∨ (minor ≠ 1 ∧ minor ≠ 2) then none
    else readDirectives true handles tokens
  | .directive (.handle name start) :: tokens =>
    if (handles.lookup name).isSome then none
    else readDirectives version ((name, start) :: handles) tokens
  | tokens => some (handles ++ standardHandles, tokens)

/-- The next token begins no node of this document. -/
def endsContents : List Token → Bool
  | [] | .directive _ :: _ | .documentStart :: _ | .documentEnd :: _ => true
  | _ => false

/-- The root that the tokens make up; nothing may follow it but marks of the end. -/
def readRoot (handles : List (String × String)) (tokens : List Token) : Option Document :=
  match (NodeReader.node handles (4 * tokens.length + 4) true false).run ⟨tokens, .empty⟩ with
  | some (root, input) =>
    if input.tokens.all (· == .documentEnd) then some (.ofRoot root) else none
  | none => none

/-- The one document that the tokens make up. -/
def ofTokens? (tokens : List Token) : Option Document :=
  match tokens with
  | [] => some .blank
  | .directive _ :: _ | .documentStart :: _ =>
    match readDirectives false [] tokens with
    | some (handles, .documentStart :: contents) =>
      if endsContents contents then
        if contents.all (· == .documentEnd) then some (.ofRoot .empty) else none
      else readRoot handles contents
    | _ => none
  | _ => readRoot standardHandles tokens

/-- The one document that a text holds. -/
def parse? (text : String) : Option Document :=
  (tokens? text).bind ofTokens?

end Document

end LocaleScript.Yaml
