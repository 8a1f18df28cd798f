import LocaleScript.Proofs.Text.Position
import LocaleScript.Script.Error

/-!
# Positions of faults

A fault at a boundary of a script is reported with a line and a column, and these name the boundary
again: no two boundaries have one position, and positions are in the order of the offsets
(`position_identifies_byte`). Offsets behind the script are reported as its end.
-/

namespace LocaleScript.Script

open Text

theorem SourceError.atByte?_of_byteLength_le {source : List Char} {beyond : Nat}
    (h : byteLength source ≤ beyond) (reason : String) :
    atByte? source beyond reason = some ⟨.after source, reason⟩ := by
  have hboundary : isBoundary beyond source = true := by
    rw [isBoundary, decide_eq_true h, Bool.true_or]
  rw [atByte?, if_pos hboundary, atByte, Position.atByte, takeBytes_of_byteLength_le h]

/-- The position of a fault identifies its byte. Each boundary of a script has a position; what is
found for a position, by skipping lines and then characters of one line, is the boundary that has
it. So different boundaries have different positions, a boundary further behind has a later one, and
every offset behind the script has the position of its end. -/
theorem position_identifies_byte (source : List Char) (reason : String) :
    (∀ offset, offset ≤ byteLength source → isBoundary offset source = true →
      SourceError.atByte? source offset reason = some ⟨.atByte source offset, reason⟩) ∧
    (∀ (p : Position) offset, p.byte? source = some offset ↔
      offset ≤ byteLength source ∧ isBoundary offset source = true ∧ p = .atByte source offset) ∧
    (∀ offset later, offset < later → later ≤ byteLength source →
      isBoundary offset source = true → isBoundary later source = true →
      (Position.atByte source offset).Precedes (.atByte source later)) ∧
    (∀ offset other, offset ≤ byteLength source → other ≤ byteLength source →
      isBoundary offset source = true → isBoundary other source = true → offset ≠ other →
      Position.atByte source offset ≠ .atByte source other) ∧
    ∀ beyond, byteLength source ≤ beyond →
      SourceError.atByte? source beyond reason = some ⟨.after source, reason⟩ := by
  have horder : ∀ offset later, offset < later → later ≤ byteLength source →
      isBoundary offset source = true → isBoundary later source = true →
      (Position.atByte source offset).Precedes (.atByte source later) := by
    intro offset later hlt hle hoffset hlater
    obtain ⟨before, behind, hsource, rfl⟩ := (isBoundary_iff (by omega)).mp hoffset
    obtain ⟨before', behind', rfl, rfl⟩ := (isBoundary_iff hle).mp hlater
    obtain ⟨gap, rfl⟩ := exists_append_of_byteLength_le hsource.symm (Nat.le_of_lt hlt)
    have hgap : gap ≠ [] := by
      rintro rfl
      rw [List.append_nil] at hlt
      exact Nat.lt_irrefl _ hlt
    rw [atByte_append, hsource, atByte_append]
    exact precedes_after before hgap
  refine ⟨fun offset _ hboundary => ?_, fun p offset => ?_, horder, ?_, fun beyond hbeyond => ?_⟩
  · rw [SourceError.atByte?, if_pos hboundary, SourceError.atByte]
  · rw [byte?_eq_some_iff]
    constructor
    · rintro ⟨before, behind, rfl, rfl, rfl⟩
      have hle : byteLength before ≤ byteLength (before ++ behind) := by
        rw [byteLength_append]
        exact Nat.le_add_right _ _
      exact ⟨hle, isBoundary_append before behind, (atByte_append before behind).symm⟩
    · rintro ⟨hle, hboundary, rfl⟩
      obtain ⟨before, behind, rfl, rfl⟩ := (isBoundary_iff hle).mp hboundary
      exact ⟨before, behind, rfl, rfl, atByte_append before behind⟩
  · intro offset other hle hle' hoffset hother hne
    rcases Nat.lt_or_gt_of_ne hne with hlt | hlt
    · exact (horder offset other hlt hle' hoffset hother).ne
    · exact (horder other offset hlt hle hother hoffset).ne.symm
  · exact SourceError.atByte?_of_byteLength_le hbeyond reason

/-- Behind a newline and a character of two bytes, at the end of a script, and behind it. -/
theorem position_identifies_byte_twoBytes :
    let source := ['a', '\n', 'é', '(']
    (Position.atByte source 4 = ⟨2, 2⟩ ∧ (⟨2, 2⟩ : Position).byte? source = some 4) ∧
    (Position.atByte source 1).Precedes (.atByte source 2) ∧
    Position.atByte source 4 ≠ .atByte source 5 ∧
    SourceError.atByte? source 4 "unclosed" = some ⟨⟨2, 2⟩, "unclosed"⟩ ∧
    SourceError.atByte? source 9 "unclosed" = some ⟨.after source, "unclosed"⟩ := by
  intro source
  obtain ⟨hfault, hfound, horder, hdistinct, hbeyond⟩ := position_identifies_byte source "unclosed"
  have hposition : Position.atByte source 4 = ⟨2, 2⟩ := by decide
  refine ⟨⟨hposition, (hfound ⟨2, 2⟩ 4).mpr ⟨by decide, by decide, hposition.symm⟩⟩, ?_, ?_, ?_, ?_⟩
  · exact horder 1 2 (by decide) (by decide) (by decide) (by decide)
  · exact hdistinct 4 5 (by decide) (by decide) (by decide) (by decide) (by decide)
  · exact (hfault 4 (by decide) (by decide)).trans (by rw [hposition])
  · exact hbeyond 9 (by decide)

end LocaleScript.Script
