import LocaleScript.SourceMap.Document
import LocaleScript.Proofs.Json.RoundTrip

/-!
# Source maps as documents

A source map that was written reads back. Its fields stand in the document once each, the texts of
the sources not at all if there are none, and none of their values is a number but the version
(`render_isDocument`).
-/

namespace LocaleScript

namespace SourceMap

theorem mapM_text?_map_str (texts : List String) :
    (texts.map Json.str).mapM text? = some texts := by
  induction texts with
  | nil => rfl
  | cons text texts ih =>
    rw [List.map_cons, List.mapM_cons, ih]
    rfl

theorem texts?_ofStrings (texts : List String) : texts? (.ofStrings texts) = some texts :=
  mapM_text?_map_str texts

theorem version?_toNat (version : UInt8) : version? (.int version.toNat) = some version := by
  have hlt := version.toNat_lt
  have hrange : 0 ≤ (version.toNat : Int) ∧ (version.toNat : Int) < 256 := by omega
  simp only [version?, hrange, and_self, reduceIte, Int.toNat_natCast, Nat.toUInt8_eq,
    UInt8.ofNat_toNat]

theorem ofValues?_eq (m : SourceMap) {sourcesContent : Json}
    (h : texts? sourcesContent = some m.sourcesContent) :
    ofValues? (.int m.version.toNat) (.str m.file) (.str m.sourceRoot) (.ofStrings m.sources)
      sourcesContent (.ofStrings m.names) (.str m.mappings) = some m := by
  unfold ofValues?
  rw [version?_toNat, texts?_ofStrings, texts?_ofStrings, h]
  rfl

/-- A document holds what it was written from. -/
theorem ofJson?_toJson (m : SourceMap) : ofJson? m.toJson = some m := by
  -- The texts of the sources are no member of the document if there are none.
  cases hcontent : m.sourcesContent with
  | nil =>
    have hnone : texts? (.arr []) = some m.sourcesContent := by
      rw [hcontent]
      rfl
    have hvalues := ofValues?_eq m hnone
    simp [ofJson?, toJson, hcontent, fieldNames, List.lookup_cons, hvalues]
  | cons content contents =>
    have hsome : texts? (.ofStrings (content :: contents)) = some m.sourcesContent := by
      rw [hcontent]
      exact texts?_ofStrings _
    have hvalues := ofValues?_eq m hsome
    simp [ofJson?, toJson, hcontent, fieldNames, List.lookup_cons, hvalues]

/-- The members of a document are fields, and doubles occur in none. -/
theorem exists_toJson_eq_obj (m : SourceMap) :
    ∃ members, m.toJson = .obj members ∧ Json.IsExact (.obj members) ∧
      ∀ member ∈ members, fieldNames.contains member.1 = true := by
  have hversion : Json.IsExact (.int m.version.toNat) := by
    have hlt := m.version.toNat_lt
    have hsigned : Json.signedLimit = 9223372036854775808 := rfl
    have hunsigned : Json.unsignedLimit = 18446744073709551616 := rfl
    unfold Json.IsExact
    omega
  refine ⟨_, rfl, ?_, ?_⟩
  · split
    · exact ⟨hversion, trivial, trivial, Json.isExact_ofStrings _, Json.isExact_ofStrings _,
        trivial, trivial⟩
    · exact ⟨hversion, trivial, trivial, Json.isExact_ofStrings _, Json.isExact_ofStrings _,
        Json.isExact_ofStrings _, trivial, trivial⟩
  · split <;> simp [fieldNames]

/-- The text of a document reads back. -/
theorem parse?_render (m : SourceMap) : parse? m.render = some m := by
  obtain ⟨members, hmembers, hexact, hfields⟩ := exists_toJson_eq_obj m
  have hread := ofJson?_toJson m
  rw [parse?, render, hmembers, Json.parseWanted_compact hexact hfields, Option.bind_some,
    ← hmembers, hread]

/-- The fields of the document of a source map, in order. -/
def writtenFields (m : SourceMap) : List String :=
  fieldNames.filter fun field => field ≠ "sourcesContent" || !m.sourcesContent.isEmpty

theorem map_fst_eq_writtenFields {m : SourceMap} {members : List (String × Json)}
    (h : m.toJson = .obj members) : members.map (·.1) = m.writtenFields := by
  obtain rfl := Json.obj.inj h
  unfold writtenFields
  split
  · next hnone => simp [fieldNames, hnone]
  · next hsome => simp [fieldNames, hsome]

/-- The text of every source map is an object of JSON with its fields in order, and reads back as
the source map. -/
theorem render_isDocument (m : SourceMap) :
    ∃ members, Json.parse m.render = some (.obj members) ∧
      members.map (·.1) = m.writtenFields ∧ parse? m.render = some m := by
  obtain ⟨members, hmembers, hexact, -⟩ := exists_toJson_eq_obj m
  refine ⟨members, ?_, map_fst_eq_writtenFields hmembers, parse?_render m⟩
  rw [render, hmembers, Json.parse_compact hexact]

end SourceMap

end LocaleScript
