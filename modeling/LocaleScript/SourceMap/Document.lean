import LocaleScript.SourceMap.Vlq
import LocaleScript.Text.Position
import LocaleScript.Json.Printer
import LocaleScript.Json.Reader

/-!
# Source map documents

Revision 3 of the source map format. A script that keeps its lines, perhaps with some lines put in
front, has a map with one mapping a line. A document is written with its fields in a fixed order and
read with them in any.
-/

namespace LocaleScript

/-- A source map. -/
structure SourceMap where
  version : UInt8
  file : String
  sourceRoot : String
  sources : List String
  /-- The texts of the sources; none if they are not recorded. -/
  sourcesContent : List String
  names : List String
  mappings : String
deriving DecidableEq, Repr

namespace SourceMap

/-- The mapping of the beginning of a line: no column moves, and the source line is the one after
the line mapped before, or the first. -/
def lineMapping (first : Bool) : List Char :=
  Vlq.encode 0 ++ Vlq.encode 0 ++ Vlq.encode (if first then 0 else 1) ++ Vlq.encode 0

/-- The mappings of `lines` lines that follow one another, separated by semicolons. -/
def lineMappings : Nat → List Char
  | 0 => []
  | lines + 1 =>
    lineMapping true ++ (List.replicate lines (';' :: lineMapping false)).flatten

/-- The map of a script that is `source` behind `leading` more lines, line for line. -/
def lineForLine (name source : String) (leading : Nat) : SourceMap where
  version := 3
  file := name ++ ".js"
  sourceRoot := ""
  sources := [name]
  sourcesContent := [source]
  names := []
  mappings := String.ofList
    (List.replicate leading ';' ++ lineMappings (Text.lineCount source.toList))

/-! ## Writing -/

/-- The document; the texts of the sources are left out if there are none. -/
def toJson (m : SourceMap) : Json :=
  .obj <|
    [("version", .int m.version.toNat), ("file", .str m.file), ("sourceRoot", .str m.sourceRoot),
      ("sources", .ofStrings m.sources)]
    ++ (if m.sourcesContent.isEmpty then [] else [("sourcesContent", .ofStrings m.sourcesContent)])
    ++ [("names", .ofStrings m.names), ("mappings", .str m.mappings)]

/-- The text of the document. -/
def render (m : SourceMap) : String :=
  m.toJson.compact

/-! ## Reading -/

/-- The fields a document may have, in the order of the form without names. -/
def fieldNames : List String :=
  ["version", "file", "sourceRoot", "sources", "sourcesContent", "names", "mappings"]

/-- A version: an integer of one byte. -/
def version? : Json → Option UInt8
  | .int n => if 0 ≤ n ∧ n < 256 then some n.toNat.toUInt8 else none
  | _ => none

/-- A text. -/
def text? : Json → Option String
  | .str s => some s
  | _ => none

/-- A list of texts. -/
def texts? : Json → Option (List String)
  | .arr items => items.mapM text?
  | _ => none

/-- The map of the values of the fields, in the order of `fieldNames`. -/
def ofValues? (version file sourceRoot sources sourcesContent names mappings : Json) :
    Option SourceMap := do
  return {
    version := ← version? version
    file := ← text? file
    sourceRoot := ← text? sourceRoot
    sources := ← texts? sources
    sourcesContent := ← texts? sourcesContent
    names := ← texts? names
    mappings := ← text? mappings }

/-- Reads a document: an object that has each field once, the texts of the sources perhaps not at
all, and any other members; or an array of the seven values. -/
def ofJson? : Json → Option SourceMap
  | .obj members =>
    if (members.map (·.1)).filter fieldNames.contains |>.Nodup then do
      let field := fun name => members.lookup name
      ofValues? (← field "version") (← field "file") (← field "sourceRoot") (← field "sources")
        ((field "sourcesContent").getD (.arr [])) (← field "names") (← field "mappings")
    else none
  | .arr [version, file, sourceRoot, sources, sourcesContent, names, mappings] =>
    ofValues? version file sourceRoot sources sourcesContent names mappings
  | _ => none

/-- Reads the text of a document. -/
def parse? (text : String) : Option SourceMap :=
  (Json.parseWanted fieldNames.contains text).bind ofJson?

end SourceMap

end LocaleScript
