import LocaleScript.Proofs.Script.Passage
import LocaleScript.Proofs.Template.Outline

/-!
# Outlines as passages

An outline is read beforehand, run of characters by run of characters. Data stands anywhere between
them, an included template only at the beginning of a line inside a function scope, and rows that
stand once for each locale have to lead back to the place where they begin. What is found holds of
the text whatever the data are (`leads_of_pastOutline`).
-/

namespace LocaleScript.Script

open Template

/-- The place of an included template: a function scope in parentheses is open. -/
def Stand.inside : Stand := ⟨some .start, ['{', '(']⟩

/-- The runs of characters of a row: the first one, and the others behind what stands before
them. -/
def runs : List Symbol → List Char × List (Symbol × List Char)
  | [] => ([], [])
  | .char c :: row =>
    match runs row with
    | (cs, behind) => (c :: cs, behind)
  | symbol :: row =>
    match runs row with
    | (cs, behind) => ([], (symbol, cs) :: behind)

/-- The place behind a symbol. -/
def Stand.pastSymbol (s : Stand) : Symbol → Option Stand
  | .char _ => none
  | .json _ => some ⟨none, s.opened⟩
  | .part => if s = .inside then some s else none

/-- The place behind runs of characters with a symbol before each of them, and their block
comments. -/
def Stand.pastRuns (s : Stand) : List (Symbol × List Char) → Option (Stand × List (List Char))
  | [] => some (s, [])
  | (symbol, cs) :: behind =>
    match (s.pastSymbol symbol).bind (·.past cs) with
    | none => none
    | some (s', comments) => (s'.pastRuns behind).map fun (s'', others) => (s'', comments ++ others)

/-- The place behind a row, and its block comments. -/
def Stand.pastRow (s : Stand) (row : List Symbol) : Option (Stand × List (List Char)) :=
  match runs row with
  | (cs, behind) =>
    match s.past cs with
    | none => none
    | some (s', comments) => (s'.pastRuns behind).map fun (s'', others) => (s'', comments ++ others)

/-- The place behind an outline, and its block comments. -/
def Stand.pastOutline (s : Stand) : Outline → Option (Stand × List (List Char))
  | [] => some (s, [])
  | ⟨each, row⟩ :: o =>
    match s.pastRow row with
    | none => none
    | some (s', comments) =>
      if each then if s' = s ∧ comments = [] then s.pastOutline o else none
      else (s'.pastOutline o).map fun (s'', others) => (s'', comments ++ others)

/-- The text of runs of characters with a symbol before each of them. -/
def writeRuns (d : Data) (behind : List (Symbol × List Char)) : List Char :=
  behind.flatMap fun (symbol, cs) => symbol.write d ++ cs

theorem writeRow_eq_runs (d : Data) (row : List Symbol) :
    writeRow d row = (runs row).1 ++ writeRuns d (runs row).2 := by
  induction row with
  | nil => rfl
  | cons symbol row ih =>
    rw [writeRow_cons, ih]
    cases symbol with
    | char c => rfl
    | json | part =>
      rw [← List.append_assoc]
      rfl

section

variable {d : Data} (hpart : Leads .inside .inside [] d.part)

include hpart

theorem leads_of_pastSymbol {s s' : Stand} {symbol : Symbol} (h : s.pastSymbol symbol = some s') :
    Leads s s' [] (symbol.write d) := by
  cases symbol with
  | char c => cases h
  | json datum =>
    rw [← Option.some.inj h]
    exact leads_data (d.value datum).finite s
  | part =>
    rw [Stand.pastSymbol] at h
    split at h
    · next hs =>
      rw [← Option.some.inj h, hs]
      exact hpart
    · cases h

theorem leads_of_pastRuns {s s' : Stand} {behind : List (Symbol × List Char)}
    {comments : List (List Char)} (h : s.pastRuns behind = some (s', comments)) :
    Leads s s' comments (writeRuns d behind) := by
  induction behind generalizing s comments with
  | nil =>
    obtain ⟨rfl, rfl⟩ := Prod.mk.inj (Option.some.inj h)
    exact leads_nil s
  | cons run behind ih =>
    obtain ⟨symbol, cs⟩ := run
    rw [Stand.pastRuns] at h
    split at h
    · cases h
    · next s₁ comments₁ hpast =>
      obtain ⟨s₀, hsymbol, hpast⟩ := Option.bind_eq_some_iff.mp hpast
      obtain ⟨⟨s₂, others⟩, hrest, hpair⟩ := Option.map_eq_some_iff.mp h
      obtain ⟨rfl, rfl⟩ := Prod.mk.inj hpair
      exact ((leads_of_pastSymbol hpart hsymbol).append (leads_of_past hpast)).append (ih hrest)

theorem leads_of_pastRow {s s' : Stand} {row : List Symbol}
    {comments : List (List Char)} (h : s.pastRow row = some (s', comments)) :
    Leads s s' comments (writeRow d row) := by
  unfold Stand.pastRow at h
  dsimp only at h
  split at h
  · cases h
  · next s₁ comments₁ hpast =>
    obtain ⟨⟨s₂, others⟩, hrest, hpair⟩ := Option.map_eq_some_iff.mp h
    obtain ⟨rfl, rfl⟩ := Prod.mk.inj hpair
    rw [writeRow_eq_runs]
    exact (leads_of_past hpast).append (leads_of_pastRuns hpart hrest)

/-- An outline that can be read beforehand leads on, whatever the data are. -/
theorem leads_of_pastOutline {s s' : Stand} {o : Outline}
    {comments : List (List Char)} (h : s.pastOutline o = some (s', comments)) :
    Leads s s' comments (o.write d) := by
  induction o generalizing s comments with
  | nil =>
    obtain ⟨rfl, rfl⟩ := Prod.mk.inj (Option.some.inj h)
    exact leads_nil s
  | cons stretch o ih =>
    obtain ⟨each, row⟩ := stretch
    rw [Stand.pastOutline] at h
    split at h
    · cases h
    · next s₁ comments₁ hrow =>
      cases each with
      | true =>
        simp only [reduceIte] at h
        split at h
        · next hback =>
          obtain ⟨rfl, rfl⟩ := hback
          exact (leads_flatMap d.resources fun resource _ =>
            leads_of_pastRow (d := d.round resource) hpart hrow).append (ih h)
        · cases h
      | false =>
        obtain ⟨⟨s₂, others⟩, hrest, hpair⟩ := Option.map_eq_some_iff.mp h
        obtain ⟨rfl, rfl⟩ := Prod.mk.inj hpair
        exact (leads_of_pastRow hpart hrow).append (ih hrest)

end

end LocaleScript.Script
