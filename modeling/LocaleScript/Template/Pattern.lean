import LocaleScript.Template.Eval

/-!
# Patterns of loops

A loop gives its items names through a pattern. A name stands for a whole item; names or patterns
with commas between them stand for its parts, one each, and parentheses nest them. A comma alone
makes parts: `a,` takes a list of one.
-/

namespace LocaleScript.Template

/-- What a loop gives names: an item under one name, or its parts under a pattern each. -/
inductive Pattern where
  | variable (name : String)
  | tuple (parts : List Pattern)
deriving Repr, Inhabited

namespace Pattern

/-- Names that no loop may set. -/
def reserved : List String :=
  ["true", "True", "false", "False", "none", "None", "loop", "self"]

/-- No part of a pattern begins here. -/
def endsAt : List Token → Bool
  | .symbol ')' :: _ | .name "in" :: _ => true
  | _ => false

mutual

/-- A pattern: one part, or with a comma several, or none. -/
def read : Nat → List Token → Option (Pattern × List Token)
  | 0, _ => none
  | steps + 1, ts =>
    if endsAt ts then some (.tuple [], ts)
    else
      match readPart steps ts with
      | some (p, .symbol ',' :: rest) =>
        (readParts steps rest).map fun q => (.tuple (p :: q.1), q.2)
      | other => other

/-- The parts behind a comma. -/
def readParts : Nat → List Token → Option (List Pattern × List Token)
  | 0, _ => none
  | steps + 1, ts =>
    if endsAt ts then some ([], ts)
    else
      match readPart steps ts with
      | some (p, .symbol ',' :: rest) =>
        (readParts steps rest).map fun q => (p :: q.1, q.2)
      | some (p, rest) => some ([p], rest)
      | none => none

/-- A name, or a pattern in parentheses. -/
def readPart : Nat → List Token → Option (Pattern × List Token)
  | _ + 1, .name name :: ts => if reserved.contains name then none else some (.variable name, ts)
  | steps + 1, .symbol '(' :: ts =>
    match read steps ts with
    | some (p, .symbol ')' :: rest) => some (p, rest)
    | _ => none
  | _, _ => none

end

/-- Steps enough for any row of tokens: no token takes part in more than three of them. -/
def steps (ts : List Token) : Nat :=
  3 * ts.length + 3

/-- The pattern of a loop and what stands behind the word `in`. -/
def ofTokens? (ts : List Token) : Option (Pattern × List Token) :=
  match read (steps ts) ts with
  | some (p, .name "in" :: rest) => some (p, rest)
  | _ => none

mutual

/-- The names that a pattern gives a value and its parts, if the value has as many parts as the
pattern. The names that stand last come first, so they count. -/
def bind : Pattern → Value → Option Scope
  | .variable name, value => some [(name, value)]
  | .tuple parts, .list items => bindParts parts items
  | .tuple parts, .map entries => bindParts parts (entries.map (·.1))
  | .tuple _, _ => none

def bindParts : List Pattern → List Value → Option Scope
  | [], [] => some []
  | part :: parts, item :: items =>
    match part.bind item, bindParts parts items with
    | some first, some others => some (others ++ first)
    | _, _ => none
  | _, _ => none

end

end Pattern

end LocaleScript.Template
