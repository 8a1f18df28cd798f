import LocaleScript.Bundle
import Mathlib.Data.List.Forall2

/-!
# Assembling bundles

A selected feature is unknown to the registry, or it fails, or its text goes into the bundle
(`assemble_unknown`, `assemble_failed`, `assemble_written`). What a whole selection does follows by
induction: the bundle gets a fragment for each name that the registry knows (`fragments_assemble`),
up to the first that fails (`assemble_appends_known`), and nothing hangs on the other names, on the
flag for source maps or on how a writer behaves for other locales (`assemble_filter_contains`,
`assemble_withSourceMap`, `assemble_congr`).
-/

namespace LocaleScript.Bundle

open Build Feature

variable {registry : Registry} {env : Environment} {name : String} {selection : List String}
  {bundle next : Bundle}

/-! ## One feature -/

theorem assemble_unknown (hget : registry.get? name = none) :
    assemble registry env (name :: selection) bundle = assemble registry env selection bundle := by
  rw [assemble, hget]

section

variable {write : Writer} (hget : registry.get? name = some write)
include hget

theorem assemble_failed {e : BuildError} (hwrite : write env bundle.locale = .error e) :
    assemble registry env (name :: selection) bundle = (bundle, .error e) := by
  rw [assemble, hget]
  simp only [hwrite]

theorem assemble_written {text : String} (hwrite : write env bundle.locale = .ok text) :
    assemble registry env (name :: selection) bundle
      = assemble registry env selection (bundle.push ⟨name, text⟩) := by
  rw [assemble, hget]
  simp only [hwrite]

theorem filter_contains_known :
    (name :: selection).filter registry.contains = name :: selection.filter registry.contains :=
  List.filter_cons_of_pos (by rw [Table.contains_eq_isSome, hget]; rfl)

end

theorem filter_contains_unknown (hget : registry.get? name = none) :
    (name :: selection).filter registry.contains = selection.filter registry.contains :=
  List.filter_cons_of_neg (by simp [Table.contains_eq_isSome, hget])

/-- A feature is unknown, or it fails, or it is written. -/
theorem assemble_cases (registry : Registry) (env : Environment) (name : String)
    (locale : Option String) :
    registry.get? name = none ∨ ∃ write, registry.get? name = some write ∧
      ((∃ e, write env locale = .error e) ∨ ∃ text, write env locale = .ok text) := by
  cases hget : registry.get? name with
  | none => exact .inl rfl
  | some write =>
    refine .inr ⟨write, rfl, ?_⟩
    cases write env locale with
    | error e => exact .inl ⟨e, rfl⟩
    | ok text => exact .inr ⟨text, rfl⟩

/-- A feature of a selection that was assembled is unknown, or it was written. -/
theorem of_assemble_cons (h : assemble registry env (name :: selection) bundle = (next, .ok ())) :
    registry.get? name = none ∧ assemble registry env selection bundle = (next, .ok ()) ∨
      ∃ write text, registry.get? name = some write ∧ write env bundle.locale = .ok text ∧
        assemble registry env selection (bundle.push ⟨name, text⟩) = (next, .ok ()) := by
  obtain hget | ⟨write, hget, ⟨e, hwrite⟩ | ⟨text, hwrite⟩⟩ :=
    assemble_cases registry env name bundle.locale
  · rw [assemble_unknown hget] at h
    exact .inl ⟨hget, h⟩
  · rw [assemble_failed hget hwrite] at h
    cases (Prod.mk.inj h).2
  · rw [assemble_written hget hwrite] at h
    exact .inr ⟨write, text, hget, hwrite, h⟩

/-! ## A selection -/

/-- What can be written feature by feature can be assembled. -/
theorem exists_assemble (h : ∀ name ∈ selection, ∀ write, registry.get? name = some write →
      ∃ text, write env bundle.locale = .ok text) :
    ∃ next, assemble registry env selection bundle = (next, .ok ()) := by
  induction selection generalizing bundle with
  | nil => exact ⟨bundle, rfl⟩
  | cons name selection ih =>
    have hrest := fun name hname => h name (.tail _ hname)
    cases hget : registry.get? name with
    | none =>
      rw [assemble_unknown hget]
      exact ih hrest
    | some write =>
      obtain ⟨text, htext⟩ := h name (.head _) write hget
      rw [assemble_written hget htext]
      exact ih hrest

/-- The fragment is what the registry writes under a name for a locale. -/
def Writes (registry : Registry) (env : Environment) (locale : Option String) (name : String)
    (fragment : Fragment) : Prop :=
  fragment.name = name ∧ ∃ write, registry.get? name = some write ∧
    write env locale = .ok fragment.text

/-- A bundle gets a fragment for each selected feature that the registry has, in order. -/
theorem fragments_assemble (h : assemble registry env selection bundle = (next, .ok ())) :
    ∃ added, next.fragments = bundle.fragments ++ added ∧
      List.Forall₂ (Writes registry env bundle.locale) (selection.filter registry.contains)
        added := by
  induction selection generalizing bundle with
  | nil =>
    obtain ⟨rfl, -⟩ := Prod.mk.inj h
    exact ⟨[], (List.append_nil _).symm, .nil⟩
  | cons name selection ih =>
    obtain ⟨hget, h⟩ | ⟨write, text, hget, htext, h⟩ := of_assemble_cons h
    · rw [filter_contains_unknown hget]
      exact ih h
    · obtain ⟨added, hadded, hall⟩ := ih h
      rw [filter_contains_known hget]
      refine ⟨⟨name, text⟩ :: added, ?_, .cons ⟨rfl, write, hget, htext⟩ hall⟩
      rw [hadded, push, List.append_assoc, List.singleton_append]

theorem features_assemble (h : assemble registry env selection bundle = (next, .ok ())) :
    next.features = bundle.features ++ selection.filter registry.contains := by
  obtain ⟨added, hadded, hall⟩ := fragments_assemble h
  have hnames : added.map (·.name) = selection.filter registry.contains := by
    refine List.forall₂_eq_eq_eq ▸ (List.forall₂_map_left_iff.mpr ?_)
    exact hall.flip.imp fun _ _ hfragment => hfragment.1
  rw [features, hadded, List.map_append, hnames]
  rfl

/-! ## Up to the first failure -/

/-- A selection fails at a feature that fails, and what is in front of it was assembled. -/
theorem exists_of_assemble_error {e : BuildError}
    (h : assemble registry env selection bundle = (next, .error e)) :
    ∃ before name behind write, selection = before ++ name :: behind ∧
      assemble registry env before bundle = (next, .ok ()) ∧
      registry.get? name = some write ∧ write env bundle.locale = .error e := by
  induction selection generalizing bundle with
  | nil => cases (Prod.mk.inj h).2
  | cons name selection ih =>
    obtain hget | ⟨write, hget, ⟨e', hwrite⟩ | ⟨text, hwrite⟩⟩ :=
      assemble_cases registry env name bundle.locale
    · rw [assemble_unknown hget] at h
      obtain ⟨before, name', behind, write, rfl, hbefore, hrest⟩ := ih h
      refine ⟨name :: before, name', behind, write, rfl, ?_, hrest⟩
      rw [assemble_unknown hget, hbefore]
    · rw [assemble_failed hget hwrite] at h
      obtain ⟨rfl, he⟩ := Prod.mk.inj h
      obtain rfl := Except.error.inj he
      exact ⟨[], name, selection, write, rfl, rfl, hget, hwrite⟩
    · rw [assemble_written hget hwrite] at h
      obtain ⟨before, name', behind, write', rfl, hbefore, hrest⟩ := ih h
      refine ⟨name :: before, name', behind, write', rfl, ?_, hrest⟩
      rw [assemble_written hget hwrite, hbefore]

/-- Assembling writes the selected features that the registry knows behind the fragments that were
there, in order and as often as they are selected. It stops at the first feature that fails and
keeps what was written before. Selections may be assembled one after the other, and nothing but the
fragments changes. -/
theorem assemble_appends_known {outcome : Except BuildError Unit}
    (h : assemble registry env selection bundle = (next, outcome)) :
    (outcome = .ok () → ∃ added, next.fragments = bundle.fragments ++ added ∧
      List.Forall₂ (Writes registry env bundle.locale) (selection.filter registry.contains) added) ∧
    (∀ e, outcome = .error e → ∃ before name behind write added,
      selection = before ++ name :: behind ∧ registry.get? name = some write ∧
      write env bundle.locale = .error e ∧ next.fragments = bundle.fragments ++ added ∧
      List.Forall₂ (Writes registry env bundle.locale) (before.filter registry.contains) added) ∧
    (∀ second, assemble registry env (selection ++ second) bundle
      = match assemble registry env selection bundle with
        | (next, .error e) => (next, .error e)
        | (next, .ok ()) => assemble registry env second next) ∧
    next.kind = bundle.kind ∧ next.locale = bundle.locale ∧ next.sourceMap = bundle.sourceMap := by
  refine ⟨?_, ?_, ?_, ?_⟩
  · rintro rfl
    exact fragments_assemble h
  · rintro e rfl
    obtain ⟨before, name, behind, write, hselection, hbefore, hget, hwrite⟩ :=
      exists_of_assemble_error h
    obtain ⟨added, hadded, hall⟩ := fragments_assemble hbefore
    exact ⟨before, name, behind, write, added, hselection, hget, hwrite, hadded, hall⟩
  · intro second
    exact assemble_append registry env selection second bundle
  · have hframe := assemble_frame registry env selection bundle
    rwa [h] at hframe

/-- A name that is unknown, a feature selected twice, and one that fails. -/
theorem assemble_appends_known_failing :
    let registry : Registry := .ofList [("range", fun _ _ => .ok "range;"),
      ("lists", fun _ locale => .error (.missingData (locale.getD "") "lists"))]
    let env : Environment := ⟨fun _ _ => .ok "", Locale.Store.empty.source, true⟩
    let bundle : Bundle := ⟨.implementation, some "fr", true, [⟨"token", "token;"⟩]⟩
    let next : Bundle := ⟨.implementation, some "fr", true,
      [⟨"token", "token;"⟩, ⟨"range", "range;"⟩, ⟨"range", "range;"⟩]⟩
    let selection := ["range", "colours", "range", "lists", "range"]
    assemble registry env selection bundle = (next, .error (.missingData "fr" "lists")) ∧
      ∃ before name behind write added, selection = before ++ name :: behind ∧
        registry.get? name = some write ∧
        write env bundle.locale = .error (.missingData "fr" "lists") ∧
        next.fragments = bundle.fragments ++ added ∧
        List.Forall₂ (Writes registry env bundle.locale) (before.filter registry.contains)
          added := by
  intro registry env bundle next selection
  have h : assemble registry env selection bundle
      = (next, .error (.missingData "fr" "lists")) := by
    rfl
  exact ⟨h, (assemble_appends_known h).2.1 _ rfl⟩

/-! ## What does not matter -/

/-- The flag for source maps does not matter to the features. -/
theorem assemble_withSourceMap (registry : Registry) (env : Environment) (flag : Bool)
    (selection : List String) (bundle : Bundle) :
    assemble registry env selection { bundle with sourceMap := flag }
      = ({ (assemble registry env selection bundle).1 with sourceMap := flag },
          (assemble registry env selection bundle).2) := by
  induction selection generalizing bundle with
  | nil => rfl
  | cons name selection ih =>
    obtain hget | ⟨write, hget, ⟨e, hwrite⟩ | ⟨text, hwrite⟩⟩ :=
      assemble_cases registry env name bundle.locale
    · rw [assemble_unknown hget, assemble_unknown hget, ih]
    -- Writers are given the locale of the bundle and nothing else of it.
    · have hflagged : write env ({ bundle with sourceMap := flag } : Bundle).locale = .error e :=
        hwrite
      rw [assemble_failed hget hflagged, assemble_failed hget hwrite]
    · have hflagged : write env ({ bundle with sourceMap := flag } : Bundle).locale = .ok text :=
        hwrite
      rw [assemble_written hget hflagged, assemble_written hget hwrite, ← ih]
      rfl

/-- Only the names count that the registry knows. -/
theorem assemble_filter_contains (registry : Registry) (env : Environment) (selection : List String)
    (bundle : Bundle) :
    assemble registry env (selection.filter registry.contains) bundle
      = assemble registry env selection bundle := by
  induction selection generalizing bundle with
  | nil => rfl
  | cons name selection ih =>
    obtain hget | ⟨write, hget, ⟨e, hwrite⟩ | ⟨text, hwrite⟩⟩ :=
      assemble_cases registry env name bundle.locale
    · rw [filter_contains_unknown hget, assemble_unknown hget, ih]
    · rw [filter_contains_known hget, assemble_failed hget hwrite, assemble_failed hget hwrite]
    · rw [filter_contains_known hget, assemble_written hget hwrite, assemble_written hget hwrite,
        ih]

/-- Only what writers do for the locale of the bundle matters. -/
theorem assemble_congr {env' : Environment} {bundle : Bundle}
    (h : ∀ name ∈ selection, ∀ write, registry.get? name = some write →
      write env bundle.locale = write env' bundle.locale) :
    assemble registry env selection bundle = assemble registry env' selection bundle := by
  induction selection generalizing bundle with
  | nil => rfl
  | cons name selection ih =>
    have hrest := fun name hname => h name (.tail _ hname)
    obtain hget | ⟨write, hget, hwritten⟩ := assemble_cases registry env name bundle.locale
    · rw [assemble_unknown hget, assemble_unknown hget, ih hrest]
    · have hsame := h name (.head _) write hget
      obtain ⟨e, hwrite⟩ | ⟨text, hwrite⟩ := hwritten
      · rw [assemble_failed hget hwrite, assemble_failed hget (hsame ▸ hwrite)]
      · rw [assemble_written hget hwrite, assemble_written hget (hsame ▸ hwrite)]
        exact ih hrest

end LocaleScript.Bundle
