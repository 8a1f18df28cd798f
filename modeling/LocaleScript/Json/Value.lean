/-!
# JSON values

Values of the data format in which locale data is held. Integers and doubles are told apart, and the
members of an object stand in order.
-/

namespace LocaleScript

/-- A JSON value. -/
inductive Json where
  | null
  | bool (value : Bool)
  | int (value : Int)
  | float (value : Float)
  | str (value : String)
  | arr (items : List Json)
  | obj (members : List (String × Json))
deriving Repr, BEq, Inhabited

namespace Json

/-- A double as a value; infinities and what is no number have no JSON form and become `null`. -/
def ofFloat (x : Float) : Json :=
  if x.isFinite then .float x else .null

/-- Texts as an array. -/
def ofStrings (texts : List String) : Json :=
  .arr (texts.map .str)

/-- A text, or `null` for none. -/
def ofString? : Option String → Json
  | some text => .str text
  | none => .null

/-- The value of the first member with this key. -/
def get? (key : String) : Json → Option Json
  | .obj members => members.lookup key
  | _ => none

end Json

end LocaleScript
