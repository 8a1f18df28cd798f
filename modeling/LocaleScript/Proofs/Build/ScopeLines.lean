import LocaleScript.Proofs.Build.LineMap
import LocaleScript.Proofs.Script.Wrapping

/-!
# The lines of a script in its scope

A wrapped script has the lines of the script, perhaps between a line that opens the scope and one
that closes it (`splitLines_enclose`). The closing line is a line of its own because the last line
of the script is ended first; where it is ended already, or there is none, nothing is added.

The map of a wrapped script has one mapping for each line of the script, from where that line stands
now. So the lines of the scope are mapped to nothing (`wrap_maps_lines`).
-/

namespace LocaleScript.Script

open Text

/-! ## Where the lines stand -/

/-- The lines above a script in its scope. -/
def linesBefore (bare : Bool) : List (List Char) :=
  if bare then [] else ["(function() \x7b".toList]

/-- The lines below a script in its scope. -/
def linesBehind (bare : Bool) : List (List Char) :=
  if bare then [] else ["\x7d).call(this);".toList]

theorem endsLine_closeLastLine (source : String) : EndsLine (closeLastLine source).toList := by
  unfold closeLastLine
  split
  · next hclosed => exact (endsLine_iff _).mpr hclosed
  · exact .inr ⟨source.toList, String.toList_append⟩

/-- The last line of a script is ended, unless it is already. Behind it nothing stands. -/
theorem splitLines_closeLastLine (source : String) :
    splitLines (closeLastLine source).toList
      = (splitLines source.toList).take (lineCount source.toList) ++ [[]] := by
  have hclosed := endsLine_iff source.toList
  unfold closeLastLine
  rcases lineCount_eq source.toList with ⟨hends, hcount⟩ | ⟨hopen, hcount⟩
  · rw [if_pos (hclosed.mp hends), hcount]
    -- An ended script has nothing behind its last newline, which `take` leaves out.
    rcases hends with hnil | ⟨init, hinit⟩
    · rw [hnil]
      rfl
    · have hlength : (init ++ ['\n']).count '\n' = (splitLines init).length := by
        rw [length_splitLines, List.count_append, List.count_singleton_self]
      rw [hinit, hlength, splitLines_append_newline, List.take_left]
      rfl
  · rw [if_neg fun h => hopen (hclosed.mpr h), hcount, ← length_splitLines, List.take_length,
      String.toList_append]
    exact splitLines_append_newline source.toList []

theorem scopeHead_eq_line : scopeHead.toList = "(function() \x7b".toList ++ ['\n'] := by
  rw [scopeHead_eq]
  rfl

theorem splitLines_scopeHead : splitLines scopeHead.toList = linesBefore false ++ [[]] := by
  rw [scopeHead_eq_line, splitLines_append_newline, splitLines_of_not_mem (by decide)]
  rfl

theorem splitLines_scopeTail : splitLines scopeTail.toList = linesBehind false ++ [[]] := by
  have htail : scopeTail.toList = "\x7d).call(this);".toList ++ ['\n'] := by
    rw [scopeTail_eq]
    rfl
  rw [htail, splitLines_append_newline, splitLines_of_not_mem (by decide)]
  rfl

/-- A script in its scope has the lines of the scope and its own. -/
theorem splitLines_enclose (bare : Bool) (source : String) :
    splitLines (enclose bare source).toList
      = linesBefore bare ++ (splitLines source.toList).take (lineCount source.toList)
        ++ linesBehind bare ++ [[]] := by
  cases bare with
  | true =>
    rw [enclose, if_pos rfl, splitLines_closeLastLine]
    simp only [linesBefore, linesBehind, reduceIte, List.nil_append, List.append_nil]
  | false =>
    -- Head and script end their last lines, so no line runs from one part into the next.
    rw [enclose, if_neg Bool.false_ne_true, String.toList_append, String.toList_append,
      List.append_assoc, splitLines_append_of_endsLine (.inr ⟨_, scopeHead_eq_line⟩),
      splitLines_append_of_endsLine (endsLine_closeLastLine source), splitLines_scopeHead,
      splitLines_closeLastLine, splitLines_scopeTail, List.dropLast_concat, List.dropLast_concat]
    simp only [List.append_assoc]

/-- What is counted as a line is one of the pieces between newlines. -/
theorem lt_length_splitLines {cs : List Char} {i : Nat} (hi : i < lineCount cs) :
    i < (splitLines cs).length := by
  rw [length_splitLines]
  rcases lineCount_eq cs with ⟨-, h⟩ | ⟨-, h⟩ <;> omega

theorem getElem?_splitLines_enclose (bare : Bool) (source : String) {i : Nat}
    (hi : i < lineCount source.toList) :
    (splitLines (enclose bare source).toList)[(linesBefore bare).length + i]?
      = (splitLines source.toList)[i]? := by
  have htake : i < ((splitLines source.toList).take (lineCount source.toList)).length := by
    rw [List.length_take]
    exact Nat.lt_min.mpr ⟨hi, lt_length_splitLines hi⟩
  rw [splitLines_enclose, List.append_assoc, List.append_assoc,
    List.getElem?_append_right (Nat.le_add_right _ _), Nat.add_sub_cancel_left,
    List.getElem?_append_left htake, List.getElem?_take_of_lt hi]

/-! ## What the map says -/

/-- The map of a wrapped script reads, and it leads from each line of the code that is a line of the
script to that line, and from no other. -/
theorem wrap_maps_lines {source : String} {request : Request} {compiled : Compiled}
    (h : wrap source request = .ok compiled) (hmap : request.sourceMap = true) :
    let lead := if request.bare then 0 else 1
    let lines := lineCount source.toList
    ∃ text map, compiled.map = some text ∧ SourceMap.parse? text = some map ∧
      map.sources = [request.name] ∧ map.sourcesContent = [source] ∧
      SourceMap.decodeMappings map.mappings
        = some ((List.range lines).map fun i => ⟨lead + i, 0, 0, i, 0⟩) ∧
      splitLines compiled.code.toList
        = linesBefore request.bare ++ (splitLines source.toList).take lines
          ++ linesBehind request.bare ++ [[]] ∧
      ∀ i < lines, ∃ line, (splitLines source.toList)[i]? = some line ∧
        (splitLines compiled.code.toList)[lead + i]? = some line := by
  intro lead lines
  have hlead : (linesBefore request.bare).length = lead := by
    change (if request.bare = true then [] else [_]).length = if request.bare = true then 0 else 1
    split <;> rfl
  unfold wrap at h
  cases hcheck : checkBrackets source.toList with
  | error e =>
    rw [hcheck] at h
    cases h
  | ok _ =>
    rw [hcheck] at h
    obtain rfl := Except.ok.inj h
    refine ⟨_, SourceMap.lineForLine request.name source lead, if_pos hmap,
      Build.parse?_lineForLine request.name source lead, rfl, rfl,
      SourceMap.decode_lineForLine request.name source lead, splitLines_enclose request.bare source,
      fun i hi => ?_⟩
    have hline := List.getElem?_eq_getElem (lt_length_splitLines hi)
    refine ⟨_, hline, ?_⟩
    rw [← hline, ← hlead]
    exact getElem?_splitLines_enclose request.bare source hi

/-- Lines that end in a carriage return and a newline, a blank line among them, and one that does
not end. -/
theorem wrap_maps_lines_unended :
    ∃ compiled text map, wrap "a;\r\n\n b" ⟨false, true, "x"⟩ = .ok compiled ∧
      compiled.map = some text ∧ SourceMap.parse? text = some map ∧
      SourceMap.decodeMappings map.mappings
        = some [⟨1, 0, 0, 0, 0⟩, ⟨2, 0, 0, 1, 0⟩, ⟨3, 0, 0, 2, 0⟩] ∧
      splitLines compiled.code.toList = ["(function() \x7b".toList, "a;\r".toList, [], " b".toList,
        "\x7d).call(this);".toList, []] := by
  have haccepted : ∃ compiled, wrap "a;\r\n\n b" ⟨false, true, "x"⟩ = .ok compiled := by
    have hcheck : checkBrackets "a;\r\n\n b".toList = .ok () := by decide +kernel
    obtain ⟨compiled, hcompiled, -⟩ := wrap_of_checkBrackets hcheck ⟨false, true, "x"⟩
    exact ⟨compiled, hcompiled⟩
  obtain ⟨compiled, hcompiled⟩ := haccepted
  obtain ⟨text, map, htext, hparse, -, -, hmappings, hlines, -⟩ := wrap_maps_lines hcompiled rfl
  refine ⟨compiled, text, map, hcompiled, htext, hparse, ?_, ?_⟩
  · rw [hmappings]
    decide +kernel
  · rw [hlines]
    decide +kernel

end LocaleScript.Script
