import LocaleScript.Proofs.Build.Displacement
import LocaleScript.Proofs.Build.Stages
import LocaleScript.Proofs.Script.Enclosure
import LocaleScript.Proofs.SourceMap.Document
import LocaleScript.Proofs.SourceMap.Mappings

/-!
# The source map of a built script

The map that is returned with a script is made when the script is put into its scope, and it says
that each line moves down by one. Then markers are replaced, and the map stays (`of_compileBundle`).
-/

namespace LocaleScript

open Text

/-! ## The script in its scope -/

namespace Script

theorem exists_enclose (source : String) :
    ∃ behind, (enclose false source).toList = scopeHead.toList ++ (source.toList ++ behind) ∧
      '/' ∉ behind ∧ (BeginsLine behind ∨ EndsLine source.toList) := by
  have hends := endsLine_iff source.toList
  simp only [enclose, closeLastLine, Bool.false_eq_true, reduceIte]
  have htail : '/' ∉ '\n' :: scopeTail.toList := by
    rw [scopeTail_eq]
    decide
  split
  · next hclosed =>
    refine ⟨scopeTail.toList, ?_, fun hmem => htail (.tail _ hmem), .inr (hends.mpr hclosed)⟩
    simp only [String.toList_append, List.append_assoc]
  · refine ⟨'\n' :: scopeTail.toList, ?_, htail, .inl (.inr ⟨_, rfl⟩)⟩
    simp only [String.toList_append, List.append_assoc]
    rfl

end Script

namespace Build

open Script ModuleMarker

theorem substitute_of_slash_not_mem {cs : List Char} (h : '/' ∉ cs) : substitute cs = cs := by
  refine substitute_eq_self fun before text behind hcs hmarker => ?_
  obtain ⟨inner, rfl, -⟩ := hmarker.inner
  exact h (by simp [hcs])

/-- Markers of an enclosed script are those of the script, and its lines move down by one. -/
theorem exists_substitute_enclose (source : String) :
    ∃ behind, (BeginsLine behind ∨ EndsLine source.toList) ∧ ∀ l,
      (splitLines (substitute (enclose false source).toList))[l + 1]?
        = (splitLines (substitute source.toList ++ behind))[l]? := by
  obtain ⟨behind, henclose, hslash, hends⟩ := exists_enclose source
  refine ⟨behind, hends, fun l => ?_⟩
  obtain ⟨head, hhead, hcount, hfree⟩ : ∃ head, scopeHead.toList = head ++ ['\n'] ∧
      head.count '\n' = 0 ∧ '/' ∉ scopeHead.toList := by
    refine ⟨scopeHead.toList.dropLast, ?_⟩
    rw [scopeHead_eq]
    decide
  rw [henclose, substitute_append (apart_of_slash_not_mem_left hfree _),
    substitute_append (apart_of_slash_not_mem_right _ hslash), substitute_of_slash_not_mem hslash,
    substitute_of_slash_not_mem hfree, hhead, List.append_assoc, List.singleton_append,
    Nat.add_comm l]
  have hline := getElem?_splitLines_newline head (substitute source.toList ++ behind) l
  rwa [hcount, Nat.zero_add] at hline

/-! ## What a build returns -/

/-- A build without minifying returns the enclosed script with its markers replaced, and the map of
the enclosed script. -/
theorem of_compileBundle {compiler : Compiler} (hwrap : compiler.compile = wrap)
    (hmap : compiler.config.sourceMap = true) {bundle : Bundle} {selection : List String}
    {registry : Feature.Registry} {file : Compiled}
    (h : compiler.compileBundle bundle selection registry ⟨false⟩ = .ok file) :
    ∃ (assembled : Bundle) (script : String), assembled.kind = bundle.kind ∧
      assembled.locale = bundle.locale ∧ assembled.sourceMap = true ∧
      assembled.render compiler.renderer = .ok script ∧
      file.code = String.ofList (substitute (enclose false script).toList) ∧
      file.map = some (SourceMap.lineForLine assembled.sourceName script 1).render := by
  obtain ⟨assembled, -, hkind, hlocale, hflag, hfinish⟩ := exists_of_compileBundle h
  obtain ⟨script, compiled, hrender, hcompile, happly⟩ := exists_of_finish hfinish
  rw [hwrap] at hcompile
  have hsourceMap : assembled.sourceMap = true := hflag.trans hmap
  obtain ⟨-, hcode, htext⟩ := of_wrap hcompile
  rw [if_pos hsourceMap] at htext
  refine ⟨assembled, script, hkind, hlocale, hsourceMap, hrender, ?_, ?_⟩
  · rw [← Except.ok.inj happly, ← hcode]
  · rw [← Except.ok.inj happly]
    exact htext

/-- A bundle is built whose script scans and balances. -/
theorem exists_finish {compiler : Compiler} (hwrap : compiler.compile = wrap) {bundle : Bundle}
    {script : String} (hrender : bundle.render compiler.renderer = .ok script)
    (hcheck : checkBrackets script.toList = .ok ()) :
    ∃ file, compiler.finish bundle ⟨false⟩ = .ok file := by
  unfold Compiler.finish
  rw [hrender, hwrap]
  simp only [wrap, hcheck]
  exact ⟨_, rfl⟩

/-- The map of a file, if it has one that reads. -/
def readMap? (file : Compiled) : Option SourceMap :=
  file.map.bind SourceMap.parse?

theorem parse?_lineForLine (name source : String) (leading : Nat) :
    SourceMap.parse? (SourceMap.lineForLine name source leading).render
      = some (SourceMap.lineForLine name source leading) :=
  SourceMap.parse?_render _

/-! ## Whether the map describes the file -/

/-- The map of a file reads, its mappings too, and each of them leads from a line of the file to the
same line of the first source, unless a marker stands there. -/
def Describes (file : Compiled) : Prop :=
  ∃ (map : SourceMap) (source : String) (mappings : List SourceMap.Mapping),
    readMap? file = some map ∧ map.sourcesContent.head? = some source ∧
      SourceMap.decodeMappings map.mappings = some mappings ∧
      ∀ m ∈ mappings, ¬HoldsMarker source.toList m.sourceLine →
        (splitLines file.code.toList)[m.generatedLine]?
          = (splitLines source.toList)[m.sourceLine]?

/-- The map of a file is the one of an enclosed script. -/
def MapsLines (file : Compiled) (script : String) : Prop :=
  ∃ map, readMap? file = some map ∧ map.sourcesContent = [script] ∧
    SourceMap.decodeMappings map.mappings
      = some ((List.range (lineCount script.toList)).map fun l => ⟨l + 1, 0, 0, l, 0⟩)

theorem mapsLines_lineForLine {file : Compiled} {name script : String}
    (h : file.map = some (SourceMap.lineForLine name script 1).render) : MapsLines file script := by
  refine ⟨SourceMap.lineForLine name script 1, ?_, rfl, ?_⟩
  · rw [readMap?, h, Option.bind_some, parse?_lineForLine]
  · rw [SourceMap.decode_lineForLine]
    simp only [Nat.add_comm 1]

theorem MapsLines.describes_iff {file : Compiled} {script : String} (h : MapsLines file script) :
    Describes file ↔ ∀ l < lineCount script.toList, ¬HoldsMarker script.toList l →
      (splitLines file.code.toList)[l + 1]? = (splitLines script.toList)[l]? := by
  obtain ⟨map, hread, hcontent, hmappings⟩ := h
  constructor
  · rintro ⟨map', source, mappings, hread', hsource, hmappings', hall⟩ l hl hfree
    obtain rfl := Option.some.inj (hread.symm.trans hread')
    obtain rfl := Option.some.inj (hmappings.symm.trans hmappings')
    rw [hcontent] at hsource
    obtain rfl := Option.some.inj hsource
    exact hall ⟨l + 1, 0, 0, l, 0⟩ (List.mem_map.mpr ⟨l, List.mem_range.mpr hl, rfl⟩) hfree
  · intro hall
    refine ⟨map, script, _, hread, by rw [hcontent]; rfl, hmappings, fun m hm hfree => ?_⟩
    obtain ⟨l, hl, rfl⟩ := List.mem_map.mp hm
    exact hall l (List.mem_range.mp hl) hfree

/-- Where the lines of the script stand in the file. -/
theorem getElem?_code {file : Compiled} {script : String}
    (hcode : file.code = String.ofList (substitute (enclose false script).toList)) {l : Nat}
    (hl : l < lineCount script.toList) (hfree : ¬HoldsMarker script.toList l) :
    (splitLines file.code.toList)[lineAfter script.toList l + 1]?
      = (splitLines script.toList)[l]? := by
  obtain ⟨behind, hbehind, hlines⟩ := exists_substitute_enclose script
  rw [hcode, String.toList_ofList, hlines, getElem?_splitLines_substitute hl hfree hbehind]

end Build

end LocaleScript
