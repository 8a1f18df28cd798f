import LocaleScript.Json.Printer
import LocaleScript.Text.Quoted

/-!
# Values of templates

Templates work on JSON values and one more, the undefined value, which stands for whatever has no
value. A value has two forms as text: `Value.text`, in which a text stands as it is, and
`Value.inner`, in which it is quoted, as inside a list. A double alone has all its places, inside
another value it may have an exponent.
-/

namespace LocaleScript.Template

/-- A value of a template. -/
inductive Value where
  | undefined
  | none
  | bool (value : Bool)
  | int (value : Int)
  | float (value : Float)
  | str (value : String)
  | list (items : List Value)
  | map (entries : List (Value × Value))
deriving Repr, Inhabited

namespace Value

/-! ## JSON -/

mutual

/-- A JSON value as a value of templates. -/
def ofJson : Json → Value
  | .null => .none
  | .bool b => .bool b
  | .int n => .int n
  | .float x => .float x
  | .str s => .str s
  | .arr items => .list (ofItems items)
  | .obj members => .map (ofMembers members)

def ofItems : List Json → List Value
  | [] => []
  | item :: items => ofJson item :: ofItems items

def ofMembers : List (String × Json) → List (Value × Value)
  | [] => []
  | (key, value) :: members => (.str key, ofJson value) :: ofMembers members

end

/-- The name of a member whose key is this value. Infinities name none. -/
def keyName? : Value → Option String
  | .str s => some s
  | .int n => some (String.ofList (Decimal.integer n))
  | .float x =>
    if x.isFinite then some (String.ofList (Json.numberLayout.write x)) else Option.none
  | .bool b => some (if b then "true" else "false")
  | .undefined | .none | .list _ | .map _ => Option.none

mutual

/-- The JSON value; a map has one only if its keys can name members. The undefined value becomes
`null`. -/
def toJson? : Value → Option Json
  | .undefined | .none => some .null
  | .bool b => some (.bool b)
  | .int n => some (.int n)
  | .float x => some (.ofFloat x)
  | .str s => some (.str s)
  | .list items => (toItems? items).map .arr
  | .map entries => (toMembers? entries).map .obj

def toItems? : List Value → Option (List Json)
  | [] => some []
  | item :: items =>
    match toJson? item, toItems? items with
    | some j, some js => some (j :: js)
    | _, _ => Option.none

def toMembers? : List (Value × Value) → Option (List (String × Json))
  | [] => some []
  | (key, value) :: entries =>
    match keyName? key, toJson? value, toMembers? entries with
    | some k, some j, some members => some ((k, j) :: members)
    | _, _, _ => Option.none

end

/-! ## Text -/

/-- Doubles from `1e-4` up to `1e16` have all their places, others an exponent without a plus. -/
def innerLayout : Decimal.Layout := ⟨-3, 16, false⟩

/-- All doubles have all their places: none of them has its point this far from its digits. -/
def textLayout : Decimal.Layout := ⟨-400, 400, false⟩

/-- A double in a layout, or the word for an infinity. -/
def floatText (layout : Decimal.Layout) (x : Float) : String :=
  if x.isFinite then String.ofList (layout.write x) else if x < 0.0 then "-inf" else "inf"

mutual

/-- The text of a value inside another one. -/
def inner : Value → String
  | .undefined => "undefined"
  | .none => "none"
  | .bool b => if b then "true" else "false"
  | .int n => String.ofList (Decimal.integer n)
  | .float x => floatText innerLayout x
  | .str s => Text.quoted s
  | .list items => "[" ++ innerItems "" items ++ "]"
  | .map entries => "\x7b" ++ innerEntries "" entries ++ "\x7d"

def innerItems (separator : String) : List Value → String
  | [] => ""
  | item :: items => separator ++ inner item ++ innerItems ", " items

def innerEntries (separator : String) : List (Value × Value) → String
  | [] => ""
  | (key, value) :: entries =>
    separator ++ inner key ++ ": " ++ inner value ++ innerEntries ", " entries

end

/-- The text of a value: a text as it is, nothing for the undefined value. -/
def text : Value → String
  | .undefined => ""
  | .str s => s
  | .float x => floatText textLayout x
  | v => inner v

/-! ## Truth and equality -/

/-- False are the undefined value, `none`, zero and whatever is empty. -/
def isTrue : Value → Bool
  | .undefined | .none => false
  | .bool b => b
  | .int n => n != 0
  | .float x => x != 0.0
  | .str s => s != ""
  | .list items => !items.isEmpty
  | .map entries => !entries.isEmpty

/-- Truth values count as the numbers zero and one. -/
def whole? : Value → Option Int
  | .bool b => some (if b then 1 else 0)
  | .int n => some n
  | _ => Option.none

/-- What an integer counts as beside a double: the greatest integers of 64 and of 128 bits are as
much as the doubles above them, into which they round and which come back as these integers. -/
def besideFloat (n : Int) : Int :=
  if n + 1 = Decimal.twoTo 64 ∨ n + 1 = Decimal.twoTo 128 then n + 1 else n

/-- The double is this integer. -/
def isInteger (x : Float) (n : Int) : Bool :=
  let b := Decimal.Binary.ofFloat x
  x.isFinite && (x < 0.0) == decide (n < 0) &&
    b.significand * Decimal.twoTo b.exponent.toNat ==
      n.natAbs * Decimal.twoTo (-b.exponent).toNat

/-- The double and the integer are equal. -/
def isWorth (x : Float) (n : Int) : Bool :=
  isInteger x (besideFloat n)

/-- Values that are no lists and no maps are equal. Numbers are compared by what they are worth. -/
def equalsLeaf : Value → Value → Bool
  | .undefined, .undefined | .none, .none => true
  | .str s, .str t => s == t
  | .float x, .float y => x == y
  | .float x, v => v.whole?.any (isWorth x)
  | v, .float y => v.whole?.any (isWorth y)
  | v, w => match v.whole?, w.whole? with
    | some m, some n => m == n
    | _, _ => false

/-- The value is a truth value. -/
def isBool : Value → Bool
  | .bool _ => true
  | _ => false

/-- A key may find another one of a map with `size` entries, if they are equal. Truth values and
numbers are told apart as keys, except where there is only one to choose. -/
def mayFind (size : Nat) (key found : Value) : Bool :=
  size == 1 || key.isBool == found.isBool

mutual

/-- Two values are equal; maps are whatever the order of their keys. -/
def equals : Value → Value → Bool
  | .list items, .list others => equalsItems items others
  | .map entries, .map others => entries.length == others.length && includedIn entries others
  | v, w => equalsLeaf v w

def equalsItems : List Value → List Value → Bool
  | [], [] => true
  | item :: items, other :: others => equals item other && equalsItems items others
  | _, _ => false

def includedIn (entries others : List (Value × Value)) : Bool :=
  match entries with
  | [] => true
  | (key, value) :: rest =>
    others.any (fun (k, v) => mayFind others.length key k && equals key k && equals value v) &&
      includedIn rest others

end

/-! ## Parts -/

/-- The values that a value consists of: the characters of a text, the items of a list, the keys of
a map, and none for what has no value. -/
def parts? : Value → Option (List Value)
  | .undefined | .none => some []
  | .str s => some (s.toList.map fun c => .str (String.singleton c))
  | .list items => some items
  | .map entries => some (entries.map (·.1))
  | .bool _ | .int _ | .float _ => Option.none

/-- The number of parts of a text, a list or a map. -/
def length? : Value → Option Nat
  | .str s => some s.length
  | .list items => some items.length
  | .map entries => some entries.length
  | _ => Option.none

/-- The value of a key of a map. -/
def entry? (entries : List (Value × Value)) (key : Value) : Option Value :=
  (entries.find? fun (k, _) => mayFind entries.length key k && equals key k).map (·.2)

/-- The property of a given name; only maps have properties. -/
def attribute? (name : String) : Value → Option Value
  | .map entries => entry? entries (.str name)
  | _ => Option.none

/-- The integer a value is worth as an index. -/
def index? : Value → Option Int
  | .float x => if isInteger x x.toInt64.toInt then some x.toInt64.toInt else Option.none
  | v => v.whole?

/-- The part at an index; negative ones count from the end. -/
def at? {α : Type} (parts : List α) (index : Int) : Option α :=
  if 0 ≤ index then parts[index.toNat]?
  else if index.natAbs ≤ parts.length then parts[parts.length - index.natAbs]?
  else Option.none

/-- The part of a value that a key selects. -/
def item? (whole key : Value) : Option Value :=
  match whole with
  | .map entries => entry? entries key
  | .list items => key.index?.bind (at? items)
  | .str s => key.index?.bind fun i => (at? s.toList i).map fun c => .str (String.singleton c)
  | _ => Option.none

/-- Sets a key of a map; a new key goes behind the others. -/
def setEntry (key value : Value) : List (Value × Value) → List (Value × Value)
  | [] => [(key, value)]
  | (k, v) :: rest =>
    if key.isBool == k.isBool && equals key k then (k, value) :: rest
    else (k, v) :: setEntry key value rest

end Value

end LocaleScript.Template
