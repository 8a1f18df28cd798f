import LocaleScript.Template.Pattern

/-!
# Template trees

The statements of a template nest: a tree has a node for each text, printed expression, branch, loop
and inclusion. A template is well formed if its tags hold expressions and its statements close in
order.

## The language

The statements are `if` with `elif` and `else`, `for` with `else`, and `include`. The template
language that this one is part of has others, and a template that uses them is malformed here:
`set`, `with`, `do`, `block`, `extends`, `macro`, `call`, `import`, `from`, `filter`, `raw` and
`autoescape`, loops that filter or recur, and inclusions of templates that may be missing. Of
expressions there is no arithmetic but the minus in front, no `~`, no comparison but `==` and `!=`,
no `in`, no `if` within an expression, no slices, and no arguments that are named or given to a
test.

There are no functions and no tests, and no filters but those of `applyFilter`: to reach one is an
error. A loop tells its body the number of the round and nothing else.
-/

namespace LocaleScript.Template

/-! ## Reading -/

/-- A piece of a template with its tags read. -/
inductive Directive where
  | text (text : List Char)
  | print (value : Expr)
  | beginIf (test : Expr)
  | beginElif (test : Expr)
  | beginElse
  | endIf
  | beginFor (pattern : Pattern) (whole : Expr)
  | endFor
  /-- Renders another template here; the line is kept for messages. -/
  | transclude (name : Expr) (line : Nat)
deriving Repr, Inhabited

namespace Directive

/-- Reads the tokens of a statement; `levels` are left for what nests in it. A statement is a level
of its own, but what a branch tests and a loop goes through is on that level. -/
def ofTokens? (levels line : Nat) : List Token → Option Directive
  | .name "if" :: ts => (Expr.ofTokens? levels ts).map .beginIf
  | .name "elif" :: ts => (Expr.ofTokens? (levels + 1) ts).map .beginElif
  | [.name "else"] => some .beginElse
  | [.name "endif"] => some .endIf
  | .name "for" :: ts =>
    match Pattern.ofTokens? ts with
    | none => none
    | some (pattern, rest) => (Expr.ofTokens? levels rest).map (.beginFor pattern)
  | [.name "endfor"] => some .endFor
  | .name "include" :: ts => (Expr.ofTokens? (levels - 1) ts).map fun e => .transclude e line
  | _ => none

/-- Reads the tags of a chunk. -/
def ofChunk? (levels : Nat) : Chunk → Option Directive
  | .text s => some (.text s)
  | .print tokens => (Expr.ofTokens? levels tokens).map .print
  | .statement line tokens => ofTokens? levels line tokens

/-- The levels that are left behind a directive. -/
def levelsBehind (levels : Nat) : Directive → Nat
  | .beginIf _ | .beginFor .. => levels - 1
  | .endIf | .endFor => levels + 1
  | _ => levels

/-- Reads the tags of chunks. -/
def ofChunks? : Nat → List Chunk → Option (List Directive)
  | _, [] => some []
  | levels, chunk :: chunks =>
    match ofChunk? levels chunk with
    | none => none
    | some d => (ofChunks? (d.levelsBehind levels) chunks).map (d :: ·)

end Directive

/-- A node of a template. -/
inductive Node where
  | text (text : List Char)
  | print (value : Expr)
  | branch (test : Expr) (yes no : List Node)
  /-- The body once for each part of a value, or `otherwise` if there is none. -/
  | loop (pattern : Pattern) (whole : Expr) (body otherwise : List Node)
  | transclude (name : Expr) (line : Nat)
deriving Repr, Inhabited

/-- A parsed template. -/
abbrev Tree : Type := List Node

mutual

/-- The nodes up to a directive that continues or ends a statement, and the directives left. -/
def readNodes : Nat → List Directive → Option (Tree × List Directive)
  | 0, _ => none
  | steps + 1, .text text :: ds => (readNodes steps ds).map fun p => (.text text :: p.1, p.2)
  | steps + 1, .print e :: ds => (readNodes steps ds).map fun p => (.print e :: p.1, p.2)
  | steps + 1, .transclude e line :: ds =>
    (readNodes steps ds).map fun p => (.transclude e line :: p.1, p.2)
  | steps + 1, .beginIf test :: ds =>
    match readBranch steps test ds with
    | none => none
    | some (node, rest) => (readNodes steps rest).map fun p => (node :: p.1, p.2)
  | steps + 1, .beginFor pattern whole :: ds =>
    match readLoop steps pattern whole ds with
    | none => none
    | some (node, rest) => (readNodes steps rest).map fun p => (node :: p.1, p.2)
  | _ + 1, ds => some ([], ds)

/-- The branch whose test was read, to behind its end. -/
def readBranch : Nat → Expr → List Directive → Option (Node × List Directive)
  | 0, _, _ => none
  | steps + 1, test, ds =>
    match readNodes steps ds with
    | some (yes, .endIf :: rest) => some (.branch test yes [], rest)
    | some (yes, .beginElif test' :: rest) =>
      (readBranch steps test' rest).map fun p => (.branch test yes [p.1], p.2)
    | some (yes, .beginElse :: rest) =>
      match readNodes steps rest with
      | some (no, .endIf :: rest) => some (.branch test yes no, rest)
      | _ => none
    | _ => none

/-- The loop whose head was read, to behind its end. -/
def readLoop : Nat → Pattern → Expr → List Directive → Option (Node × List Directive)
  | 0, _, _, _ => none
  | steps + 1, pattern, whole, ds =>
    match readNodes steps ds with
    | some (body, .endFor :: rest) => some (.loop pattern whole body [], rest)
    | some (body, .beginElse :: rest) =>
      match readNodes steps rest with
      | some (otherwise, .endFor :: rest) => some (.loop pattern whole body otherwise, rest)
      | _ => none
    | _ => none

end

/-- The tree of a row of directives; each directive takes part in at most three steps. -/
def Tree.ofDirectives? (ds : List Directive) : Option Tree :=
  match readNodes (3 * ds.length + 1) ds with
  | some (tree, []) => some tree
  | _ => none

/-- Parses a template. -/
def Tree.parse? (source : String) : Option Tree :=
  match split source with
  | none => none
  | some chunks => (Directive.ofChunks? nestingLimit chunks).bind Tree.ofDirectives?

/-! ## Rendering -/

/-- How deeply loops and inclusions may be open in each other. -/
def depthLimit : Nat := 500

/-- Renders the templates that a value names, at a depth and in a scope; the line is kept for
messages. -/
abbrev Expander : Type := Nat → Scope → Value → Nat → Except RenderError String

/-- What a loop body sees of its loop: the number of the round, counted from one. -/
def loopValue (round : Nat) : Value :=
  .map [(.str "index", .int round)]

/-- Runs over the parts of a value with the number of the round, and writes the texts one after the
other. -/
def overParts (run : Nat → Value → Except RenderError String) (round : Nat) :
    List Value → Except RenderError String
  | [] => .ok ""
  | part :: parts =>
    match run round part with
    | .error e => .error e
    | .ok text =>
      match overParts run (round + 1) parts with
      | .error e => .error e
      | .ok texts => .ok (text ++ texts)

mutual

/-- The text of a node in a scope. The body of a loop is one deeper than the loop. -/
def Node.render (expand : Expander) (depth : Nat) (scope : Scope) :
    Node → Except RenderError String
  | .text text => .ok (String.ofList text)
  | .print e =>
    match e.eval scope with
    | .error err => .error err
    | .ok value => .ok value.text
  | .branch test yes no =>
    match test.eval scope with
    | .error err => .error err
    | .ok value =>
      if value.isTrue then renderAll expand depth scope yes else renderAll expand depth scope no
  | .loop pattern whole body otherwise =>
    match whole.eval scope with
    | .error err => .error err
    | .ok value =>
      match value.parts? with
      | none => .error (.operation .notIterable)
      | some parts =>
        if depthLimit < depth then .error (.operation .tooDeep)
        else if parts.isEmpty then renderAll expand depth scope otherwise
        else
          overParts (fun round part =>
            match pattern.bind part with
            | none => .error (.operation .notUnpackable)
            | some bound =>
              renderAll expand (depth + 1) (bound ++ ("loop", loopValue round) :: scope) body)
            1 parts
  | .transclude name line =>
    match name.eval scope with
    | .error err => .error err
    | .ok value => expand depth scope value line

/-- The texts of nodes, one after the other. -/
def renderAll (expand : Expander) (depth : Nat) (scope : Scope) :
    List Node → Except RenderError String
  | [] => .ok ""
  | node :: nodes =>
    match node.render expand depth scope with
    | .error err => .error err
    | .ok text =>
      match renderAll expand depth scope nodes with
      | .error err => .error err
      | .ok texts => .ok (text ++ texts)

end

end LocaleScript.Template
