import Mathlib.Data.List.Induction
import LocaleScript.Feature.Catalog

/-!
# The data of features

A feature is written with the data of its category that the store has, of every locale, or of the
locale of the script alone (`of_resources`, `get?_resources`), in the order of the locales
(`entries_resources`). Only where it asks for the data of one locale can there be none
(`resources_eq_error_iff`).
-/

namespace LocaleScript.Feature

open LocaleScript.Locale

theorem mem_of_get?_registryOf {entries : List Entry} {name : String} {write : Writer}
    (h : (registryOf entries).get? name = some write) :
    ∃ entry ∈ entries, entry.name = name ∧ entry.writer = write := by
  obtain ⟨entry, hentry, heq⟩ := List.mem_map.mp (Table.mem_of_get?_ofList h)
  exact ⟨entry, hentry, Prod.mk.inj heq⟩

/-- Features without a name in common are all found under their names. -/
theorem get?_registryOf {entries : List Entry} (hnodup : (entries.map (·.name)).Nodup)
    {entry : Entry}
    (hentry : entry ∈ entries) : (registryOf entries).get? entry.name = some entry.writer := by
  have hkeys : ((entries.map fun entry => (entry.name, entry.writer)).map (·.1)).Nodup := by
    rwa [List.map_map]
  rw [registryOf, ← Table.mem_entries_iff (Table.nodup_keys_ofList _), Table.entries_ofList hkeys]
  exact List.mem_map.mpr ⟨entry, hentry, rfl⟩

/-- No feature of the library has the name of another one, and no helper has. -/
theorem nodup_names :
    (libraryEntries.map (·.name)).Nodup ∧ (helperEntries.map (·.name)).Nodup := by
  decide

theorem mem_supported {store : Store} {tag category : String} {data : Json}
    (h : store.get? tag category = some data) : tag ∈ store.supported := by
  have hcontains : store.locales.contains tag = true := by
    rw [Table.contains_eq_isSome]
    unfold Store.get? at h
    cases hlocale : store.locales.get? tag with
    | none =>
      rw [hlocale] at h
      cases h
    | some categories => rfl
  exact List.contains_iff_mem.mp hcontains

/-- A key with what a function gives it. -/
def paired {α : Type} (f : String → Option α) (key : String) : Option (String × α) :=
  (f key).map fun value => (key, value)

section

variable {α : Type} (f : String → Option α)

theorem get?_ofList_paired (keys : List String) (key : String) :
    (Table.ofList (keys.filterMap (paired f))).get? key = if key ∈ keys then f key else none := by
  induction keys using List.reverseRecOn with
  | nil => rfl
  | append_singleton keys last ih =>
    rw [List.filterMap_append]
    cases hlast : f last with
    | none =>
      rw [List.filterMap_cons_none (by rw [paired, hlast]; rfl), List.filterMap_nil,
        List.append_nil, ih]
      by_cases hkey : key = last
      · rw [hkey, hlast, ite_self, ite_self]
      · simp only [List.mem_append, List.mem_singleton, hkey, or_false]
    | some value =>
      rw [List.filterMap_cons_some (by rw [paired, hlast]; rfl), List.filterMap_nil,
        Table.ofList_append_singleton, Table.get?_insert, ih]
      by_cases hkey : key = last
      · rw [hkey, if_pos rfl, if_pos (List.mem_append_right _ (.head _)), hlast]
      · simp only [List.mem_append, List.mem_singleton, hkey, or_false, if_false]

/-- A key that is given twice counts once, where it was given first. -/
theorem entries_ofList_paired (keys : List String) :
    (Table.ofList (keys.filterMap (paired f))).entries = keys.eraseDups.filterMap (paired f) := by
  induction keys using List.reverseRecOn with
  | nil => rfl
  | append_singleton keys last ih =>
    have hget := get?_ofList_paired f keys last
    rw [List.filterMap_append, List.eraseDups_append, List.filterMap_append, ← ih]
    cases hlast : f last with
    | none => by_cases hmem : last ∈ keys <;> simp [List.removeAll, hmem, paired, hlast]
    | some value =>
      have hpair : [last].filterMap (paired f) = [(last, value)] :=
        List.filterMap_cons_some (by rw [paired, hlast]; rfl)
      rw [hpair, Table.ofList_append_singleton]
      by_cases hmem : last ∈ keys
      · have hrest : [last].removeAll keys = [] := by simp [List.removeAll, hmem]
        rw [if_pos hmem, hlast] at hget
        rw [Table.insert_of_get? hget, hrest, List.eraseDups_nil, List.filterMap_nil,
          List.append_nil]
      · have hrest : [last].removeAll keys = [last] := by simp [List.removeAll, hmem]
        rw [if_neg hmem] at hget
        rw [Table.entries_insert_of_get? hget, hrest, List.eraseDups_cons, List.filter_nil,
          List.eraseDups_nil, hpair]

end

theorem get?_allResources (source : Source) (tag category : String) :
    (allResources source category).get? tag
      = if tag ∈ source.locales then source.get? tag category else none :=
  get?_ofList_paired (source.get? · category) source.locales tag

/-- The data of a category of every locale that has it. A locale that is listed twice counts
once. -/
def ofEveryLocale (source : Source) (category : String) : List (String × Json) :=
  source.locales.eraseDups.filterMap fun tag =>
    (source.get? tag category).map fun data => (tag, data)

/-- All resources of a category stand in the order of the locales. -/
theorem entries_allResources (source : Source) (category : String) :
    (allResources source category).entries = ofEveryLocale source category :=
  entries_ofList_paired (source.get? · category) source.locales

/-- All resources of a category are what the store has of it. -/
theorem get?_allResources_store (store : Store) (tag category : String) :
    (allResources store.source category).get? tag = store.get? tag category := by
  rw [get?_allResources]
  cases hdata : store.get? tag category with
  | some data => exact (if_pos (mem_supported hdata)).trans hdata
  | none =>
    split
    · exact hdata
    · rfl

/-- The data that a binding selects: of the locale of the script alone, or of every locale. -/
def selected (source : Source) (locale : Option String) : Binding → List (String × Json)
  | .code => []
  | .ofAll category => ofEveryLocale source category
  | .ofLocale category =>
    match locale with
    | none => ofEveryLocale source category
    | some tag => ((source.get? tag category).map fun data => (tag, data)).toList

/-- The script is for one locale, the feature has the data of that locale alone, and the tag is
another one. -/
def Binding.Omits (binding : Binding) (locale : Option String) (tag : String) : Prop :=
  ∃ own category, locale = some own ∧ binding = .ofLocale category ∧ tag ≠ own

theorem not_omits_ofAll (category : String) (locale : Option String) (tag : String) :
    ¬(Binding.ofAll category).Omits locale tag := by
  rintro ⟨own, category', -, hbinding, -⟩
  cases hbinding

section

variable {source : Source} {locale : Option String} {binding : Binding} {table : Table Json}
  (h : resources source locale binding = .ok table)

include h

/-- A feature has no data, or those of its category of every locale, or those of the locale of the
script alone. -/
theorem of_resources :
    (binding = .code ∧ table = .empty) ∨
    (∃ category, binding.category? = some category ∧ (∀ tag, ¬binding.Omits locale tag) ∧
      table = allResources source category) ∨
    ∃ own category data, locale = some own ∧ binding = .ofLocale category ∧
      source.get? own category = some data ∧ table = .ofList [(own, data)] := by
  unfold resources at h
  split at h
  · exact .inl ⟨rfl, (Except.ok.inj h).symm⟩
  · exact .inr (.inl ⟨_, rfl, not_omits_ofAll _ _, (Except.ok.inj h).symm⟩)
  · split at h
    · refine .inr (.inl ⟨_, rfl, ?_, (Except.ok.inj h).symm⟩)
      rintro tag ⟨own, -, hlocale, -⟩
      cases hlocale
    · split at h
      · next hdata => exact .inr (.inr ⟨_, _, _, rfl, rfl, hdata, (Except.ok.inj h).symm⟩)
      · cases h

theorem nodup_keys_resources : table.keys.Nodup := by
  obtain ⟨-, rfl⟩ | ⟨category, -, -, rfl⟩ | ⟨own, category, data, -, -, -, rfl⟩ := of_resources h
  · exact List.nodup_nil
  · exact Table.nodup_keys_ofList _
  · exact Table.nodup_keys_ofList _

/-- A feature has the data that its binding selects, in their order. -/
theorem entries_resources : table.entries = selected source locale binding := by
  unfold resources at h
  split at h
  · rw [← Except.ok.inj h]
    rfl
  · rw [← Except.ok.inj h]
    exact entries_allResources source _
  · split at h
    · rw [← Except.ok.inj h]
      exact entries_allResources source _
    · split at h
      · next hdata =>
        rw [← Except.ok.inj h, selected, hdata]
        rfl
      · cases h

/-- A feature has nothing but what there is of its category. -/
theorem get?_of_mem_resources {category tag : String} {data : Json}
    (hcategory : binding.category? = some category) (hmem : (tag, data) ∈ table.entries) :
    source.get? tag category = some data := by
  have hget := (Table.mem_entries_iff (nodup_keys_resources h)).mp hmem
  obtain ⟨rfl, -⟩ | ⟨category', hcategory', -, rfl⟩ | ⟨own, category', data', -, rfl, hdata, rfl⟩ :=
    of_resources h
  · cases hcategory
  · obtain rfl := Option.some.inj (hcategory'.symm.trans hcategory)
    rw [get?_allResources] at hget
    split at hget
    · exact hget
    · cases hget
  · obtain rfl := Option.some.inj hcategory
    obtain ⟨rfl, rfl⟩ := Prod.mk.inj (List.mem_singleton.mp (Table.mem_of_get?_ofList hget))
    exact hdata

end

/-- Data can be missing only where a feature has the data of one locale alone. -/
theorem resources_eq_error_iff {source : Source} {locale : Option String} {binding : Binding}
    {e : Build.BuildError} : resources source locale binding = .error e ↔
      ∃ tag category, locale = some tag ∧ binding = .ofLocale category ∧
        source.get? tag category = none ∧ e = .missingData tag category := by
  constructor
  · intro h
    unfold resources at h
    split at h
    · cases h
    · cases h
    · next category =>
      split at h
      · cases h
      · next tag =>
        split at h
        · cases h
        · next hget => exact ⟨tag, category, rfl, rfl, hget, (Except.error.inj h).symm⟩
  · rintro ⟨tag, category, rfl, rfl, hget, rfl⟩
    rw [resources]
    simp only [hget]

section

variable {store : Store} {locale : Option String} {binding : Binding} {table : Table Json}
  (h : resources store.source locale binding = .ok table)

include h

theorem get?_resources_of_omits {tag : String} (homits : binding.Omits locale tag) :
    table.get? tag = none := by
  obtain ⟨own, category, rfl, rfl, hne⟩ := homits
  obtain ⟨hcode, -⟩ | ⟨-, -, hall, -⟩ | ⟨own', category', data, hlocale, -, -, rfl⟩ :=
    of_resources h
  · cases hcode
  · exact absurd ⟨own, category, rfl, rfl, hne⟩ (hall tag)
  · obtain rfl := Option.some.inj hlocale
    rw [Table.get?_ofList, List.reverse_singleton, List.lookup_cons, beq_false_of_ne hne]
    rfl

/-- A feature has what the store has of its category, but for the locales that are left out. -/
theorem get?_resources {category tag : String} (hcategory : binding.category? = some category)
    (homits : ¬binding.Omits locale tag) : table.get? tag = store.get? tag category := by
  obtain ⟨rfl, -⟩ | ⟨category', hcategory', -, rfl⟩ |
      ⟨own, category', data, rfl, rfl, hdata, rfl⟩ :=
    of_resources h
  · cases hcategory
  · obtain rfl := Option.some.inj (hcategory'.symm.trans hcategory)
    exact get?_allResources_store store tag category'
  · obtain rfl := Option.some.inj hcategory
    obtain rfl : tag = own := Decidable.byContradiction fun hne => homits ⟨own, _, rfl, rfl, hne⟩
    rw [Table.get?_ofList, List.reverse_singleton, List.lookup_cons, beq_self_eq_true]
    exact hdata.symm

end

end LocaleScript.Feature
