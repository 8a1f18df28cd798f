import LocaleScript.SourceMap.Document
import LocaleScript.Proofs.SourceMap.Vlq

/-!
# Reading mappings

Mappings are read as revision 3 of the format has it: a group for each generated line, ended by
semicolons, in it segments with commas between them, and in a segment one, four or five integers.
The first of them is the generated column, counted from the segment before on the same line; the
others are the source, its line and its column, counted from the last segment that has them on any
line, and a name. A segment of one integer belongs to no source.

The map of a script that is kept line for line has exactly one mapping for each of its lines
(`decode_lineForLine`).
-/

namespace LocaleScript.SourceMap

/-- A place of the generated code and the place of a source that it comes from. -/
structure Mapping where
  generatedLine : Nat
  generatedColumn : Nat
  source : Nat
  sourceLine : Nat
  sourceColumn : Nat
deriving DecidableEq, Repr

namespace Mapping

/-- The places that the first segment counts from. -/
def origin : Mapping := ⟨0, 0, 0, 0, 0⟩

/-- A number that a difference leads to; none is negative. -/
def advance (n : Nat) (difference : Int) : Option Nat :=
  ((n : Int) + difference).toNat?

/-- The places that a segment leads to. -/
def move (m : Mapping) (column source line sourceColumn : Int) : Option Mapping := do
  return { m with
    generatedColumn := ← advance m.generatedColumn column
    source := ← advance m.source source
    sourceLine := ← advance m.sourceLine line
    sourceColumn := ← advance m.sourceColumn sourceColumn }

/-- Reads the integers of a segment: the places behind it, and its mapping if it has one. -/
def ofFields (m : Mapping) : List Int → Option (Mapping × List Mapping)
  | [column] => (m.move column 0 0 0).map fun next => (next, [])
  | [column, source, line, sourceColumn] | [column, source, line, sourceColumn, _] =>
    (m.move column source line sourceColumn).map fun next => (next, [next])
  | _ => none

/-- Reads the segments of a line. -/
def ofSegments (m : Mapping) : List (List Char) → Option (Mapping × List Mapping)
  | [] => some (m, [])
  | segment :: segments =>
    match (Vlq.decode segment).bind m.ofFields with
    | none => none
    | some (next, here) => (next.ofSegments segments).map fun p => (p.1, here ++ p.2)

/-- The segments of a group. -/
def segments (group : List Char) : List (List Char) :=
  if group.isEmpty then [] else group.splitOn ','

/-- Reads groups, each for one generated line. -/
def ofGroups (m : Mapping) : List (List Char) → Option (List Mapping)
  | [] => some []
  | group :: groups =>
    match { m with generatedColumn := 0 }.ofSegments (segments group) with
    | none => none
    | some (last, here) =>
      ({ last with generatedLine := last.generatedLine + 1 }.ofGroups groups).map (here ++ ·)

end Mapping

/-- The mappings of a map, in order; none if they are not well formed. -/
def decodeMappings (mappings : String) : Option (List Mapping) :=
  Mapping.origin.ofGroups (mappings.toList.splitOn ';')

/-! ## Line for line -/

theorem lineMapping_true : lineMapping true = ['A', 'A', 'A', 'A'] := by
  simp [lineMapping, Vlq.encode, Vlq.zigzag, Vlq.encodeNat, Vlq.digitChar]

theorem lineMapping_false : lineMapping false = ['A', 'A', 'C', 'A'] := by
  simp [lineMapping, Vlq.encode, Vlq.zigzag, Vlq.encodeNat, Vlq.digitChar]

theorem decode_lineMapping (first : Bool) :
    Vlq.decode (lineMapping first) = some [0, 0, if first then 0 else 1, 0] := by
  unfold lineMapping
  simp only [List.append_assoc, Vlq.decode_encode_append]
  rw [← List.append_nil (Vlq.encode 0), Vlq.decode_encode_append]
  rfl

theorem splitOn_lineMappings (lines : Nat) :
    (lineMappings (lines + 1)).splitOn ';'
      = lineMapping true :: List.replicate lines (lineMapping false) := by
  have hfalse : ';' ∉ lineMapping false := by rw [lineMapping_false]; decide
  have hbehind (first : Bool) (hfirst : ';' ∉ lineMapping first) :
      (lineMapping first ++ (List.replicate lines (';' :: lineMapping false)).flatten).splitOn ';'
        = lineMapping first :: List.replicate lines (lineMapping false) := by
    induction lines generalizing first with
    | zero =>
      rw [List.replicate_zero, List.flatten_nil, List.append_nil]
      exact List.splitOn_eq_singleton hfirst
    | succ lines ih =>
      rw [List.replicate_succ, List.flatten_cons, List.cons_append,
        List.splitOn_append_cons_self_of_not_mem hfirst, ih false hfalse, List.replicate_succ]
  exact hbehind true (by rw [lineMapping_true]; decide)

namespace Mapping

theorem segments_lineMapping (first : Bool) :
    segments (lineMapping first) = [lineMapping first] := by
  cases first with
  | true =>
    rw [lineMapping_true]
    rfl
  | false =>
    rw [lineMapping_false]
    rfl

theorem ofSegments_lineMapping (g l : Nat) (first : Bool) :
    let next : Mapping := ⟨g, 0, 0, l + if first then 0 else 1, 0⟩
    ofSegments ⟨g, 0, 0, l, 0⟩ (segments (lineMapping first)) = some (next, [next]) := by
  rw [segments_lineMapping, ofSegments, decode_lineMapping]
  cases first <;> rfl

/-- The first line that is mapped comes from the source line that was reached. -/
theorem ofGroups_lineMapping_true (g l : Nat) (groups : List (List Char)) :
    ofGroups ⟨g, 0, 0, l, 0⟩ (lineMapping true :: groups)
      = (ofGroups ⟨g + 1, 0, 0, l, 0⟩ groups).map (⟨g, 0, 0, l, 0⟩ :: ·) := by
  rw [ofGroups, ofSegments_lineMapping]
  rfl

/-- Every other line that is mapped comes from the next source line. -/
theorem ofGroups_lineMapping_false (g l : Nat) (groups : List (List Char)) :
    ofGroups ⟨g, 0, 0, l, 0⟩ (lineMapping false :: groups)
      = (ofGroups ⟨g + 1, 0, 0, l + 1, 0⟩ groups).map (⟨g, 0, 0, l + 1, 0⟩ :: ·) := by
  rw [ofGroups, ofSegments_lineMapping]
  rfl

/-- One more line is one in front of the others. -/
theorem map_range_succ (lines g l : Nat) :
    ((List.range (lines + 1)).map fun i => (⟨g + i, 0, 0, l + i, 0⟩ : Mapping))
      = ⟨g, 0, 0, l, 0⟩ :: (List.range lines).map fun i => ⟨g + 1 + i, 0, 0, l + 1 + i, 0⟩ := by
  rw [List.range_succ_eq_map, List.map_cons, List.map_map]
  congr 2
  funext i
  simp only [Function.comp_apply, Nat.succ_eq_add_one]
  congr 1 <;> omega

theorem ofGroups_replicate (lines g l : Nat) :
    ofGroups ⟨g, 0, 0, l, 0⟩ (List.replicate lines (lineMapping false))
      = some ((List.range lines).map fun i => ⟨g + i, 0, 0, l + 1 + i, 0⟩) := by
  induction lines generalizing g l with
  | zero => rfl
  | succ lines ih =>
    rw [List.replicate_succ, ofGroups_lineMapping_false, ih, map_range_succ, Option.map_some]

theorem ofGroups_lineMappings (lines g : Nat) :
    ofGroups ⟨g, 0, 0, 0, 0⟩ ((lineMappings lines).splitOn ';')
      = some ((List.range lines).map fun i => ⟨g + i, 0, 0, i, 0⟩) := by
  cases lines with
  | zero => rfl
  | succ lines =>
    have hrange := map_range_succ lines g 0
    simp only [Nat.zero_add] at hrange
    rw [splitOn_lineMappings, ofGroups_lineMapping_true, ofGroups_replicate, hrange,
      Option.map_some]

/-- Lines in front of the first mapping have none. -/
theorem ofGroups_leading (leading g : Nat) (cs : List Char) :
    ofGroups ⟨g, 0, 0, 0, 0⟩ ((List.replicate leading ';' ++ cs).splitOn ';')
      = ofGroups ⟨g + leading, 0, 0, 0, 0⟩ (cs.splitOn ';') := by
  induction leading generalizing g with
  | zero => rfl
  | succ leading ih =>
    have hsplit : (';' :: (List.replicate leading ';' ++ cs)).splitOn ';'
        = [] :: (List.replicate leading ';' ++ cs).splitOn ';' :=
      List.splitOn_append_cons_self_of_not_mem List.not_mem_nil (List.replicate leading ';' ++ cs)
    rw [List.replicate_succ, List.cons_append, hsplit, Nat.add_comm leading, ← Nat.add_assoc, ← ih]
    exact Option.map_id'

end Mapping

/-- The map of a script behind `leading` lines maps the beginning of each line to where it stands,
and nothing else. -/
theorem decode_lineForLine (name source : String) (leading : Nat) :
    decodeMappings (lineForLine name source leading).mappings
      = some ((List.range (Text.lineCount source.toList)).map fun l =>
          ⟨leading + l, 0, 0, l, 0⟩) := by
  change Mapping.ofGroups ⟨0, 0, 0, 0, 0⟩ ((String.ofList _).toList.splitOn ';') = _
  rw [String.toList_ofList, Mapping.ofGroups_leading, Mapping.ofGroups_lineMappings, Nat.zero_add]

end LocaleScript.SourceMap
