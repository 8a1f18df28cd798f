import LocaleScript.Proofs.Script.BracketFaults
import LocaleScript.Proofs.Script.Data
import LocaleScript.Proofs.Template.PrintedData

/-!
# Printed data as a script

What `tojs` prints is a script of code and strings. Its strings are those of the data, each with its
own literal, and its brackets are balanced (`scan_tojs`). So whatever the data holds, be it quotes,
slashes, openings of comments, newlines or brackets, no literal ends early and nothing else begins.

The atoms of the printed data (`Script.dataAtoms`) are known to be read wherever they stand and to
leave the brackets around them as they are. What is added here is which of them are strings
(`stringsOf_dataAtoms`), and that segments have the strings of their atoms (`scan_write`).
-/

namespace LocaleScript

namespace Json

/-! ## The texts of a value -/

mutual

/-- The strings of a value and the keys of its objects, as they come. A key stands before its
value. -/
def texts : Json → List String
  | .null | .bool _ | .int _ | .float _ => []
  | .str s => [s]
  | .arr items => itemTexts items
  | .obj members => memberTexts members

def itemTexts : List Json → List String
  | [] => []
  | item :: items => item.texts ++ itemTexts items

def memberTexts : List (String × Json) → List String
  | [] => []
  | (key, value) :: members => key :: (value.texts ++ memberTexts members)

end

mutual

/-- A double that is not finite is no text, and neither is `null`. -/
theorem texts_finite : ∀ j : Json, j.finite.texts = j.texts
  | .null | .bool _ | .int _ | .str _ => rfl
  | .float x => by
    unfold finite ofFloat
    split
    · rfl
    · simp only [texts]
  | .arr items => by
    rw [finite, texts, texts]
    exact itemTexts_finiteItems items
  | .obj members => by
    rw [finite, texts, texts]
    exact memberTexts_finiteMembers members

theorem itemTexts_finiteItems : ∀ items : List Json, itemTexts (finiteItems items) = itemTexts items
  | [] => rfl
  | item :: items => by
    rw [finiteItems, itemTexts, itemTexts, texts_finite item, itemTexts_finiteItems items]

theorem memberTexts_finiteMembers : ∀ members : List (String × Json),
    memberTexts (finiteMembers members) = memberTexts members
  | [] => rfl
  | (key, value) :: members => by
    rw [finiteMembers, memberTexts, memberTexts, texts_finite value,
      memberTexts_finiteMembers members]

end

end Json

namespace Script

/-! ## Strings of printed data -/

/-- The string literals of a row of lexemes. -/
def stringsOf (ls : List Lexeme) : List Lexeme :=
  ls.filter (·.kind == .string)

@[simp] theorem stringsOf_append (as bs : List Lexeme) :
    stringsOf (as ++ bs) = stringsOf as ++ stringsOf bs :=
  List.filter_append ..

@[simp] theorem stringsOf_codeChar_cons (c : Char) (as : List Lexeme) :
    stringsOf (codeChar c :: as) = stringsOf as := rfl

@[simp] theorem stringsOf_stringLiteral_cons (s : String) (as : List Lexeme) :
    stringsOf (stringLiteral s :: as) = stringLiteral s :: stringsOf as := rfl

@[simp] theorem stringsOf_map_codeChar (cs : List Char) : stringsOf (cs.map codeChar) = [] := by
  simp [stringsOf]

mutual

/-- The strings among the atoms of a value are the literals of its texts. -/
theorem stringsOf_dataAtoms : ∀ j : Json, stringsOf (dataAtoms j) = j.texts.map stringLiteral
  | .null | .bool _ | .int _ | .float _ => by simp [dataAtoms, Json.texts]
  | .str s => rfl
  | .arr items => by
    rw [dataAtoms, Json.texts, stringsOf_codeChar_cons, stringsOf_append,
      stringsOf_itemAtoms items [] rfl]
    simp [stringsOf]
  | .obj members => by
    rw [dataAtoms, Json.texts, stringsOf_codeChar_cons, stringsOf_append,
      stringsOf_memberAtoms members [] rfl]
    simp [stringsOf]

theorem stringsOf_itemAtoms : ∀ (items : List Json) (separator : List Lexeme),
    stringsOf separator = [] →
    stringsOf (itemAtoms separator items) = (Json.itemTexts items).map stringLiteral
  | [], _, _ => rfl
  | item :: items, separator, h => by
    rw [itemAtoms, Json.itemTexts, stringsOf_append, stringsOf_append, h, stringsOf_dataAtoms item,
      stringsOf_itemAtoms items [codeChar ','] rfl, List.map_append, List.nil_append]

theorem stringsOf_memberAtoms : ∀ (members : List (String × Json)) (separator : List Lexeme),
    stringsOf separator = [] →
    stringsOf (memberAtoms separator members) = (Json.memberTexts members).map stringLiteral
  | [], _, _ => rfl
  | (key, value) :: members, separator, h => by
    rw [memberAtoms, Json.memberTexts, stringsOf_append, stringsOf_append, h, List.nil_append,
      stringsOf_stringLiteral_cons, stringsOf_codeChar_cons, stringsOf_dataAtoms value,
      stringsOf_memberAtoms members [codeChar ','] rfl, List.map_cons, List.map_append]
    rfl

end

/-- Printed data is scanned as code and strings. The strings are the literals of its texts, in
order, and the brackets in its code are balanced. -/
theorem scan_write (j : Json) : ∃ segments, scan j.write = .ok segments ∧
    (∀ s ∈ segments, s.kind = .code ∨ s.kind = .string) ∧
    (segments.filter (·.kind == .string)).map (·.text) = j.texts.map (fun s => (Json.str s).write) ∧
    unbalanced? [] (codeBrackets segments) = none := by
  have hinert := areInert_dataAtoms j
  obtain ⟨ls, hscan, hatoms⟩ :=
    scan_script (reads_of_steady (fun a ha => (hinert.atoms a ha).steady) .start)
  rw [script_dataAtoms] at hscan
  refine ⟨locate 0 ls, hscan, ?_, ?_, ?_⟩
  · intro s hs
    by_cases hcode : s.kind = .code
    · exact .inl hcode
    -- What is no code is an atom of its own.
    obtain ⟨before, a, behind, hsplit, rfl⟩ := exists_of_mem_locate (mem_locate_atoms hs hcode)
    have ha : a ∈ dataAtoms j := by
      rw [← hatoms, hsplit]
      exact List.mem_append_right _ (.head _)
    rcases hinert.atoms a ha with ⟨text, rfl⟩ | ⟨c, rfl, -⟩
    · exact .inr rfl
    · exact absurd rfl hcode
  · have hstrings := map_lexeme_locate (p := (· == .string)) rfl 0 ls
    rw [hatoms] at hstrings
    calc ((locate 0 ls).filter (·.kind == .string)).map (·.text)
        = (((locate 0 ls).filter (·.kind == .string)).map Segment.lexeme).map (·.text) := by
          rw [List.map_map]
          rfl
      _ = (stringsOf (dataAtoms j)).map (·.text) := congrArg (List.map (·.text)) hstrings
      _ = j.texts.map (fun s => (Json.str s).write) := by
          rw [stringsOf_dataAtoms, List.map_map]
          rfl
  · rw [unbalanced?_codeBrackets_eq_none_iff, ← codeOf_atoms, hatoms]
    exact hinert.brackets []

end Script

namespace Template

/-- What `tojs` prints of a value, in a template or anywhere else, is a script of code and strings.
It has one string for each string and each key of an object in the value, in order, and each is the
printed form of that text. The brackets in its code are balanced, and it is accepted as a script. -/
theorem scan_tojs (value : Json) : ∃ text segments,
    applyFilter "tojs" (.ofJson value) [] = .ok (.str text) ∧
    (∀ (engine : Engine) (data : Json), data.get? "x" = some value →
      engine.render "{{ x | tojs }}" data = .ok text) ∧
    Script.scan text.toList = .ok segments ∧
    (∀ s ∈ segments, s.kind = .code ∨ s.kind = .string) ∧
    (segments.filter (·.kind == .string)).map (·.text)
      = value.texts.map (fun s => (Json.str s).write) ∧
    Script.Balanced (Script.wordOf (Script.codeBrackets segments)) ∧
    Script.checkBrackets text.toList = .ok () := by
  obtain ⟨segments, hscan, hkinds, hstrings, hbrackets⟩ := Script.scan_write value.finite
  have htext : value.finite.compact.toList = value.finite.write := String.toList_ofList
  rw [← htext] at hscan
  have hrow := Script.isBracketRow_codeBrackets hscan
  have hbs : ∀ b ∈ Script.codeBrackets segments, Script.isBracket b.char = true :=
    fun b hb => ((hrow.mem_iff b).mp hb).1
  refine ⟨value.finite.compact, segments, applyFilter_tojs (toJson?_ofJson value), ?_, hscan,
    hkinds, ?_, (Script.unbalanced?_nil_eq_none_iff hbs).mp hbrackets, ?_⟩
  · intro engine data hdata
    rw [Dialect.Engine.render_of_compile (compile_tojs anonymous)]
    exact renderRoot_tojs engine.templates anonymous hdata
  · rw [hstrings, Json.texts_finite]
  · exact (Script.checkBrackets_iff_of_scan hscan).mpr hbrackets

/-- Quotes, slashes, openings of comments, newlines and brackets in data stay in their literals. -/
example : Script.scan (Json.obj [("]/*", .arr [.str "\"//\n", .int (-1)])]).write = .ok [
    ⟨.code, 0, ['{']⟩, ⟨.string, 1, "\"]/*\"".toList⟩, ⟨.code, 6, [':', '[']⟩,
    ⟨.string, 8, "\"\\\"//\\n\"".toList⟩, ⟨.code, 16, [',', '-', '1', ']', '}']⟩] := by
  decide +kernel

end Template

end LocaleScript
