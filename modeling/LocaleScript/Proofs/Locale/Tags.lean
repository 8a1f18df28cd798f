import Mathlib.Data.List.Induction
import LocaleScript.Locale.Store

/-!
# Tags of locales

A locale is published under the tag that was set for it, else under its alias, else under its own
tag in lower case. Among the tags that were set, and among the aliases, no two locales have the
same. All other pairs can meet: a tag that was set may be an alias, either may be a locale in lower
case, and two locales may differ in letter case only. `externalTag_eq_iff_meets` says that locales
share a tag in these four ways and in no other.
-/

namespace LocaleScript.Locale

/-! ## Stores as they are built -/

/-- A change to a store. -/
inductive Change where
  | insert (locale category : String) (data : Json)
  | setTag (locale tag : String)

/-- The locale that a change sets a tag for, with the tag. -/
def Change.tag? : Change → Option (String × String)
  | .insert .. => none
  | .setTag locale tag => some (locale, tag)

/-- The tags that were set, in order. -/
def tagsSet (changes : List Change) : List (String × String) :=
  changes.filterMap Change.tag?

section

variable (changes : List Change) (locale category tag : String) (data : Json)

@[simp] theorem tagsSet_insert :
    tagsSet (changes ++ [.insert locale category data]) = tagsSet changes := by
  simp [tagsSet, Change.tag?]

@[simp] theorem tagsSet_setTag :
    tagsSet (changes ++ [.setTag locale tag]) = tagsSet changes ++ [(locale, tag)] := by
  simp [tagsSet, Change.tag?]

end

/-- The changes never set one tag for two locales. -/
def SetApart (changes : List Change) : Prop :=
  ∀ a b tag, .setTag a tag ∈ changes → .setTag b tag ∈ changes → a = b

namespace Store

def apply (store : Store) : Change → Store
  | .insert locale category data => store.insert locale category data
  | .setTag locale tag => store.setExternalTag locale tag

/-- The store that changes make, one after the other. -/
def ofChanges (changes : List Change) : Store :=
  changes.foldl apply empty

theorem ofChanges_concat (changes : List Change) (c : Change) :
    ofChanges (changes ++ [c]) = (ofChanges changes).apply c := by
  simp [ofChanges]

/-- The tags of a store are those that were set, one after the other. -/
theorem tags_ofChanges (changes : List Change) :
    (ofChanges changes).tags = .ofList (tagsSet changes) := by
  induction changes using List.reverseRecOn with
  | nil => rfl
  | append_singleton changes c ih =>
    rw [ofChanges_concat]
    cases c with
    | insert locale category data =>
      rw [tagsSet_insert, ← ih]
      rfl
    | setTag locale tag =>
      rw [tagsSet_setTag, Table.ofList_append_singleton, ← ih]
      rfl

variable {store : Store} {changes : List Change} {locale tag : String}

/-- A tag that a store has was set by a change. -/
theorem mem_of_get?_tags_ofChanges (h : (ofChanges changes).tags.get? locale = some tag) :
    .setTag locale tag ∈ changes := by
  rw [tags_ofChanges] at h
  obtain ⟨c, hc, htag⟩ := List.mem_filterMap.mp (Table.mem_of_get?_ofList h)
  cases c with
  | insert other category data => cases htag
  | setTag other tag' =>
    cases htag
    exact hc

/-! ## Where a tag comes from -/

theorem externalTag_of_set (h : store.tags.get? locale = some tag) :
    store.externalTag locale = tag := by
  simp only [externalTag, h]

section

variable (hset : store.tags.get? locale = none)
include hset

theorem externalTag_of_alias (h : aliases.lookup locale = some tag) :
    store.externalTag locale = tag := by
  simp only [externalTag, hset, h, Option.getD_some]

theorem externalTag_of_none (h : aliases.lookup locale = none) :
    store.externalTag locale = Text.lower locale := by
  simp only [externalTag, hset, h, Option.getD_none]

end

/-- A tag was set, or it is an alias, or it is the locale in lower case. -/
theorem externalTag_cases (store : Store) (locale : String) :
    store.tags.get? locale = some (store.externalTag locale) ∨
    (store.tags.get? locale = none ∧ aliases.lookup locale = some (store.externalTag locale)) ∨
    (store.tags.get? locale = none ∧ aliases.lookup locale = none ∧
      store.externalTag locale = Text.lower locale) := by
  cases hset : store.tags.get? locale with
  | some tag =>
    rw [externalTag_of_set hset]
    exact .inl rfl
  | none =>
    cases halias : aliases.lookup locale with
    | some tag =>
      rw [externalTag_of_alias hset halias]
      exact .inr (.inl ⟨rfl, rfl⟩)
    | none => exact .inr (.inr ⟨rfl, rfl, externalTag_of_none hset halias⟩)

/-- No two locales have the same alias. -/
theorem eq_of_lookup_aliases {a b tag : String} (ha : aliases.lookup a = some tag)
    (hb : aliases.lookup b = some tag) : a = b := by
  have hinj : ∀ p ∈ aliases, ∀ q ∈ aliases, p.2 = q.2 → p.1 = q.1 := by decide
  obtain ⟨before, behind, hbefore, -⟩ := List.lookup_eq_some_iff.mp ha
  obtain ⟨before', behind', hbefore', -⟩ := List.lookup_eq_some_iff.mp hb
  refine hinj (a, tag) ?_ (b, tag) ?_ rfl
  · rw [hbefore]
    exact List.mem_append_right _ (.head _)
  · rw [hbefore']
    exact List.mem_append_right _ (.head _)

/-! ## How tags meet -/

/-- The first locale is published under the tag of the second one, though nobody set it for both. -/
inductive Meets (store : Store) (a b : String) : Prop where
  /-- The tag set for the one is the alias of the other. -/
  | setAlias {tag : String} (ha : store.tags.get? a = some tag) (hb : store.tags.get? b = none)
      (halias : aliases.lookup b = some tag)
  /-- The tag set for the one is the other in lower case. -/
  | setLower (ha : store.tags.get? a = some (Text.lower b)) (hb : store.tags.get? b = none)
      (hnone : aliases.lookup b = none)
  /-- The alias of the one is the other in lower case. -/
  | aliasLower (ha : store.tags.get? a = none) (hb : store.tags.get? b = none)
      (halias : aliases.lookup a = some (Text.lower b)) (hnone : aliases.lookup b = none)
  /-- They are the same in lower case. -/
  | lowerLower (ha : store.tags.get? a = none) (hb : store.tags.get? b = none)
      (hnone : aliases.lookup a = none) (hnone' : aliases.lookup b = none)
      (hlower : Text.lower a = Text.lower b)

theorem Meets.externalTag_eq {a b : String} (h : store.Meets a b) :
    store.externalTag a = store.externalTag b := by
  cases h with
  | setAlias ha hb halias => rw [externalTag_of_set ha, externalTag_of_alias hb halias]
  | setLower ha hb hnone => rw [externalTag_of_set ha, externalTag_of_none hb hnone]
  | aliasLower ha hb halias hnone =>
    rw [externalTag_of_alias ha halias, externalTag_of_none hb hnone]
  | lowerLower ha hb hnone hnone' hlower =>
    rw [externalTag_of_none ha hnone, externalTag_of_none hb hnone', hlower]

/-- Two locales share a tag only where they meet, if no tag was set for both. -/
theorem externalTag_eq_iff_meets {a b : String} (hne : a ≠ b)
    (hset : ∀ tag, store.tags.get? a = some tag → store.tags.get? b ≠ some tag) :
    store.externalTag a = store.externalTag b ↔ store.Meets a b ∨ store.Meets b a := by
  constructor
  · intro h
    obtain ha | ⟨ha, ha'⟩ | ⟨ha, ha', hlower⟩ := store.externalTag_cases a
    · obtain hb | ⟨hb, hb'⟩ | ⟨hb, hb', hlower'⟩ := store.externalTag_cases b
      · exact absurd (h ▸ hb) (hset _ ha)
      · exact .inl (.setAlias ha hb (h ▸ hb'))
      · exact .inl (.setLower (hlower' ▸ h ▸ ha) hb hb')
    · obtain hb | ⟨hb, hb'⟩ | ⟨hb, hb', hlower'⟩ := store.externalTag_cases b
      · exact .inr (.setAlias hb ha (h ▸ ha'))
      · exact absurd (eq_of_lookup_aliases ha' (h ▸ hb')) hne
      · exact .inl (.aliasLower ha hb (hlower' ▸ h ▸ ha') hb')
    · obtain hb | ⟨hb, hb'⟩ | ⟨hb, hb', hlower'⟩ := store.externalTag_cases b
      · exact .inr (.setLower (hlower ▸ h ▸ hb) ha ha')
      · exact .inr (.aliasLower hb ha (hlower ▸ h ▸ hb') ha')
      · exact .inl (.lowerLower ha hb ha' hb' (hlower ▸ hlower' ▸ h))
  · rintro (h | h)
    · exact h.externalTag_eq
    · exact h.externalTag_eq.symm

end Store

end LocaleScript.Locale
