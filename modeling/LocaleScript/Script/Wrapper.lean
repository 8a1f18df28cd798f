import LocaleScript.Script.Brackets
import LocaleScript.SourceMap.Document

/-!
# Wrapping a script

A script that scans and whose brackets balance is compiled as it stands, inside a function scope
unless it is to stay bare. A script that is not empty ends in a newline, so the closing line of the
scope stands alone and the lines of the script stay lines.
-/

namespace LocaleScript.Script

/-- The line that opens the function scope. -/
def scopeHead : String := "(function() \x7b\n"

/-- The line that closes the function scope. -/
def scopeTail : String := "\x7d).call(this);\n"

/-- What is asked of a script compiler. -/
structure Request where
  /-- Leave the function scope out. -/
  bare : Bool
  /-- Return a source map too. -/
  sourceMap : Bool
  /-- The name of the script in its source map. -/
  name : String
deriving DecidableEq, Repr

/-- Compiled code and, if one was asked for, the text of its source map. -/
structure Compiled where
  code : String
  map : Option String
deriving DecidableEq, Repr

/-- A stage that turns a script into compiled code. -/
abbrev Compile : Type := String → Request → Except SourceError Compiled

/-- The script with a newline behind its last line. -/
def closeLastLine (source : String) : String :=
  if source.toList.getLast?.all (· == '\n') then source else source ++ "\n"

/-- The script, in a function scope unless it is to stay bare. -/
def enclose (bare : Bool) (source : String) : String :=
  if bare then closeLastLine source else scopeHead ++ closeLastLine source ++ scopeTail

/-- Checks the script and puts it into a function scope. -/
def wrap : Compile := fun source request =>
  match checkBrackets source.toList with
  | .error e => .error e
  | .ok () =>
    let leading := if request.bare then 0 else 1
    .ok {
      code := enclose request.bare source
      map :=
        if request.sourceMap then some (SourceMap.lineForLine request.name source leading).render
        else none }

end LocaleScript.Script
