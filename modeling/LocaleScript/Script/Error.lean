import LocaleScript.Script.Segment

/-!
# Errors of the script stages

A script that cannot be compiled is reported by line and column, one that cannot be condensed by
byte offset.
-/

namespace LocaleScript.Script

/-- A malformed script, with the place of the fault. -/
structure SourceError where
  position : Text.Position
  reason : String
deriving DecidableEq, Repr

/-- The fault at a byte offset; offsets past the end name the end. -/
def SourceError.atByte (source : List Char) (offset : Nat) (reason : String) : SourceError :=
  ⟨.atByte source offset, reason⟩

/-- The fault at a byte offset, unless the offset lies inside a character. -/
def SourceError.atByte? (source : List Char) (offset : Nat) (reason : String) :
    Option SourceError :=
  if Text.isBoundary offset source then some (.atByte source offset reason) else none

/-- The text shown for a malformed script. -/
def SourceError.message (e : SourceError) : String :=
  s!"syntax error at line {e.position.line}, column {e.position.column}: {e.reason}"

/-- A script that cannot be condensed. -/
structure MinifyError where
  offset : Nat
  reason : String
deriving DecidableEq, Repr

/-- The text shown for a script that cannot be condensed. -/
def MinifyError.message (e : MinifyError) : String :=
  s!"minify error at offset {e.offset}: {e.reason}"

end LocaleScript.Script
