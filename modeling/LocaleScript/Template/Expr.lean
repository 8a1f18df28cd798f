import LocaleScript.Template.Chunk
import LocaleScript.Template.Value

/-!
# Expressions of templates

Expressions are read from the tokens of a tag. From loosest to tightest
bind `or`, `and`, `not`, the equalities, a minus, and what stands behind an operand: properties,
indices, calls, filters and tests. Equalities chain: `a == b != c` stands for
`a == b and b != c`.

Whether a filter or test exists is asked only when one is reached, so an expression that names an
unknown one is well formed. No value can be called: a call is well formed and fails when reached.
-/

namespace LocaleScript.Template

/-- An expression. -/
inductive Expr where
  | literal (value : Value)
  | variable (name : String)
  | list (items : List Expr)
  | map (entries : List (Expr × Expr))
  | attribute (operand : Expr) (name : String)
  | item (operand key : Expr)
  | call (function : Expr) (arguments : List Expr)
  | filter (operand : Expr) (name : String) (arguments : List Expr)
  | test (operand : Expr) (name : String)
  | negate (operand : Expr)
  | equal (left right : Expr)
  | unequal (left right : Expr)
  | not (operand : Expr)
  | and (left right : Expr)
  | or (left right : Expr)
deriving Repr, Inhabited

/-! ## Reading

Every function takes the number of steps it may use and returns what it read and the tokens left.
`levels` bounds how deeply expressions nest: an expression and an operand are a level each.
-/

/-- The levels that a template has for what nests in it. -/
def nestingLimit : Nat := 150

namespace Expr

/-- The literals that are names. -/
def namedLiteral? (name : String) : Option Value :=
  if name = "true" ∨ name = "True" then some (.bool true)
  else if name = "false" ∨ name = "False" then some (.bool false)
  else if name = "none" ∨ name = "None" then some .none
  else none

/-- Integers behind a point lie below this number. -/
def indexLimit : Nat := Decimal.twoTo 64

/-- A chain of equalities with one more at its end. -/
def extend (chain : Option Expr) (last : Expr) : Expr :=
  chain.elim last (.and · last)

/-- Texts in a row make up one text. -/
def takeTexts : List Token → String × List Token
  | .str s :: ts =>
    let (text, rest) := takeTexts ts
    (s ++ text, rest)
  | ts => ("", ts)

mutual

/-- An expression. -/
def read : Nat → Nat → List Token → Option (Expr × List Token)
  | steps + 1, levels + 1, ts =>
    match readAnd steps levels ts with
    | none => none
    | some (e, rest) => readOrTail steps levels e rest
  | _, _, _ => none

def readOrTail : Nat → Nat → Expr → List Token → Option (Expr × List Token)
  | 0, _, _, _ => none
  | steps + 1, levels, e, .name "or" :: ts =>
    match readAnd steps levels ts with
    | none => none
    | some (f, rest) => readOrTail steps levels (.or e f) rest
  | _ + 1, _, e, ts => some (e, ts)

def readAnd : Nat → Nat → List Token → Option (Expr × List Token)
  | 0, _, _ => none
  | steps + 1, levels, ts =>
    match readNot steps levels ts with
    | none => none
    | some (e, rest) => readAndTail steps levels e rest

def readAndTail : Nat → Nat → Expr → List Token → Option (Expr × List Token)
  | 0, _, _, _ => none
  | steps + 1, levels, e, .name "and" :: ts =>
    match readNot steps levels ts with
    | none => none
    | some (f, rest) => readAndTail steps levels (.and e f) rest
  | _ + 1, _, e, ts => some (e, ts)

def readNot : Nat → Nat → List Token → Option (Expr × List Token)
  | 0, _, _ => none
  | steps + 1, levels, .name "not" :: ts =>
    (readNot steps levels ts).map fun p => (.not p.1, p.2)
  | steps + 1, levels, ts =>
    match readSigned steps levels ts with
    | none => none
    | some (e, rest) => readEqualTail steps levels none e rest

/-- What stands behind `last`, with which the equalities in `chain` end. -/
def readEqualTail :
    Nat → Nat → Option Expr → Expr → List Token → Option (Expr × List Token)
  | 0, _, _, _, _ => none
  | steps + 1, levels, chain, last, .equal :: ts =>
    match readSigned steps levels ts with
    | none => none
    | some (e, rest) => readEqualTail steps levels (extend chain (.equal last e)) e rest
  | steps + 1, levels, chain, last, .unequal :: ts =>
    match readSigned steps levels ts with
    | none => none
    | some (e, rest) => readEqualTail steps levels (extend chain (.unequal last e)) e rest
  | _ + 1, _, chain, last, ts => some (chain.getD last, ts)

/-- An operand with what stands behind it; a minus binds tighter than that. -/
def readSigned : Nat → Nat → List Token → Option (Expr × List Token)
  | 0, _, _ => none
  | steps + 1, levels, ts =>
    match readNegated steps levels ts with
    | none => none
    | some (e, rest) => readTail steps levels true e rest

def readNegated : Nat → Nat → List Token → Option (Expr × List Token)
  | 0, _, _ => none
  | steps + 1, levels, .symbol '-' :: ts =>
    (readNegated steps levels ts).map fun p => (.negate p.1, p.2)
  | steps + 1, levels, ts => readOperand steps levels ts

/-- What stands behind an operand: parts and calls as long as the flag is set, then only filters and
tests. -/
def readTail : Nat → Nat → Bool → Expr → List Token → Option (Expr × List Token)
  | 0, _, _, _, _ => none
  | steps + 1, levels, true, e, .symbol '.' :: .name name :: ts =>
    readTail steps levels true (.attribute e name) ts
  | steps + 1, levels, true, e, .symbol '.' :: .number (.int n) :: ts =>
    if n < indexLimit then readTail steps levels true (.item e (.literal (.int n))) ts else none
  | _ + 1, _, true, _, .symbol '.' :: _ => none
  | steps + 1, levels, true, e, .symbol '[' :: ts =>
    match read steps levels ts with
    | some (key, .symbol ']' :: rest) => readTail steps levels true (.item e key) rest
    | _ => none
  | steps + 1, levels, true, e, .symbol '(' :: ts =>
    match readItems steps levels ')' ts with
    | some (arguments, rest) => readTail steps levels true (.call e arguments) rest
    | none => none
  | steps + 1, levels, _, e, .symbol '|' :: .name name :: .symbol '(' :: ts =>
    match readItems steps levels ')' ts with
    | some (arguments, rest) => readTail steps levels false (.filter e name arguments) rest
    | none => none
  | steps + 1, levels, _, e, .symbol '|' :: .name name :: ts =>
    readTail steps levels false (.filter e name []) ts
  | _ + 1, _, _, _, .symbol '|' :: _ => none
  | steps + 1, levels, _, e, .name "is" :: .name "not" :: .name name :: ts =>
    readTail steps levels false (.not (.test e name)) ts
  | steps + 1, levels, _, e, .name "is" :: .name name :: ts =>
    readTail steps levels false (.test e name) ts
  | _ + 1, _, _, _, .name "is" :: _ => none
  | _ + 1, _, _, e, ts => some (e, ts)

/-- An operand. In parentheses it is one expression, or with a comma a list of them. -/
def readOperand : Nat → Nat → List Token → Option (Expr × List Token)
  | _ + 1, _ + 1, .name name :: ts =>
    some ((namedLiteral? name).elim (.variable name) .literal, ts)
  | _ + 1, _ + 1, .str s :: ts =>
    let (text, rest) := takeTexts (.str s :: ts)
    some (.literal (.str text), rest)
  | _ + 1, _ + 1, .number (.int n) :: ts => some (.literal (.int n), ts)
  | _ + 1, _ + 1, .number (.decimal significand exponent) :: ts =>
    some (.literal (.float (Decimal.toFloat significand exponent)), ts)
  | _ + 1, _ + 1, .symbol '(' :: .symbol ')' :: ts => some (.list [], ts)
  | steps + 1, levels + 1, .symbol '(' :: ts =>
    match read steps levels ts with
    | some (e, .symbol ')' :: rest) => some (e, rest)
    | some (e, .symbol ',' :: rest) =>
      (readItems steps levels ')' rest).map fun p => (.list (e :: p.1), p.2)
    | _ => none
  | steps + 1, levels + 1, .symbol '[' :: ts =>
    (readItems steps levels ']' ts).map fun p => (.list p.1, p.2)
  | steps + 1, levels + 1, .symbol '{' :: ts =>
    (readEntries steps levels ts).map fun p => (.map p.1, p.2)
  | _, _, _ => none

/-- Expressions with commas between them, up to a closing bracket; a comma may stand before it. -/
def readItems : Nat → Nat → Char → List Token → Option (List Expr × List Token)
  | 0, _, _, _ => none
  | steps + 1, levels, close, ts =>
    if ts.head? = some (.symbol close) then some ([], ts.drop 1)
    else
      match read steps levels ts with
      | some (e, .symbol ',' :: rest) =>
        (readItems steps levels close rest).map fun p => (e :: p.1, p.2)
      | some (e, rest) =>
        if rest.head? = some (.symbol close) then some ([e], rest.drop 1) else none
      | none => none

/-- Keys and values with colons between them, up to a closing brace. -/
def readEntries : Nat → Nat → List Token → Option (List (Expr × Expr) × List Token)
  | 0, _, _ => none
  | _ + 1, _, .symbol '}' :: ts => some ([], ts)
  | steps + 1, levels, ts =>
    match read steps levels ts with
    | some (key, .symbol ':' :: rest) =>
      match read steps levels rest with
      | some (value, .symbol ',' :: rest) =>
        (readEntries steps levels rest).map fun p => ((key, value) :: p.1, p.2)
      | some (value, .symbol '}' :: rest) => some ([(key, value)], rest)
      | _ => none
    | _ => none

end

/-- Steps enough for any row of tokens: no token takes part in more than ten of them. -/
def steps (ts : List Token) : Nat :=
  10 * ts.length + 10

/-- The expression that a whole row of tokens makes up. -/
def ofTokens? (levels : Nat) (ts : List Token) : Option Expr :=
  match read (steps ts) levels ts with
  | some (e, []) => some e
  | _ => none

end Expr

end LocaleScript.Template
