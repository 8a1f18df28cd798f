import Mathlib.Data.List.Nodup
import Mathlib.Data.List.Induction
import LocaleScript.Proofs.Locale.Tags

/-!
# What a store keeps of its history

A store is built by changes, which insert data and set tags in any order. Its answers can be read
off the changes: of what was inserted under a locale and a category, and of the tags that were set
for a locale, the last counts; locales and categories are listed in the order in which they first
came in (`InFirstOrder`). `answers_ofChanges` says so for every history.

One more change is one more entry of one of two lists, the insertions or the tags that were set, so
each answer is an induction from the back. The order of a list of names is kept by the step that a
table makes (`InFirstOrder.push`), at both levels alike.
-/

namespace LocaleScript.Locale

/-! ## Names in the order of their first coming -/

/-- The names listed are those that were given, each once, in the order in which they were first
given. -/
structure InFirstOrder (given listed : List String) : Prop where
  nodup : listed.Nodup
  mem_iff : ∀ name, name ∈ listed ↔ name ∈ given
  ordered : listed.Pairwise fun first second => given.idxOf first < given.idxOf second

theorem inFirstOrder_nil : InFirstOrder [] [] :=
  ⟨.nil, fun _ => .rfl, .nil⟩

/-- A name that is given once more keeps its place, and a new one goes behind the others. -/
theorem InFirstOrder.push {given listed : List String} (h : InFirstOrder given listed)
    (name : String) :
    InFirstOrder (given ++ [name]) (if name ∈ listed then listed else listed ++ [name]) := by
  have hplace : ∀ first ∈ listed, (given ++ [name]).idxOf first = given.idxOf first := by
    intro first hfirst
    exact List.idxOf_append_of_mem ((h.mem_iff first).mp hfirst)
  have hordered : listed.Pairwise fun first second =>
      (given ++ [name]).idxOf first < (given ++ [name]).idxOf second := by
    refine h.ordered.imp_of_mem ?_
    intro first second hfirst hsecond hlt
    rwa [hplace first hfirst, hplace second hsecond]
  by_cases hname : name ∈ listed
  · rw [if_pos hname]
    refine ⟨h.nodup, fun other => ?_, hordered⟩
    rw [h.mem_iff other, List.mem_append, List.mem_singleton]
    constructor
    · exact .inl
    · rintro (hother | rfl)
      · exact hother
      · exact (h.mem_iff other).mp hname
  · rw [if_neg hname]
    refine ⟨?_, fun other => by simp [h.mem_iff other], ?_⟩
    · rw [← List.concat_eq_append]
      exact h.nodup.concat hname
    · refine List.pairwise_append.mpr ⟨hordered, List.pairwise_singleton _ _, ?_⟩
      intro first hfirst last hlast
      obtain rfl := List.mem_singleton.mp hlast
      have hnew : last ∉ given := fun hmem => hname ((h.mem_iff last).mpr hmem)
      have hold := List.idxOf_lt_length_of_mem ((h.mem_iff first).mp hfirst)
      rw [hplace first hfirst, List.idxOf_append, if_neg hnew]
      omega

/-! ## Histories -/

/-- What a change inserts: the locale and the category with the data. -/
def Change.insertion? : Change → Option ((String × String) × Json)
  | .insert locale category data => some ((locale, category), data)
  | .setTag .. => none

/-- What was inserted, in order. -/
def insertions (changes : List Change) : List ((String × String) × Json) :=
  changes.filterMap Change.insertion?

/-- The locales that something was inserted for, each as often as that was done. -/
def localesGiven (changes : List Change) : List String :=
  (insertions changes).map (·.1.1)

/-- The categories that were inserted for a locale, each as often as that was done. -/
def categoriesGiven (locale : String) (changes : List Change) : List String :=
  ((insertions changes).filter (·.1.1 = locale)).map (·.1.2)

section

variable (changes : List Change) (locale category tag : String) (data : Json)

@[simp] theorem insertions_insert : insertions (changes ++ [.insert locale category data])
    = insertions changes ++ [((locale, category), data)] := by
  simp [insertions, Change.insertion?]

@[simp] theorem insertions_setTag :
    insertions (changes ++ [.setTag locale tag]) = insertions changes := by
  simp [insertions, Change.insertion?]

end

namespace Store

/-! ## Answers -/

/-- The data inserted last under a locale and a category is found there. -/
theorem get?_ofChanges (changes : List Change) (locale category : String) :
    (ofChanges changes).get? locale category
      = (insertions changes).reverse.lookup (locale, category) := by
  induction changes using List.reverseRecOn with
  | nil => rfl
  | append_singleton changes c ih =>
    rw [ofChanges_concat]
    cases c with
    | insert other otherCategory data =>
      rw [insertions_insert, List.reverse_concat, Table.lookup_cons_ite, ← ih, apply, get?_insert]
      simp only [Prod.mk.injEq]
    | setTag other tag =>
      rw [insertions_setTag, ← ih]
      rfl

/-- The locales stand in the order in which something was first inserted for them. -/
theorem supported_ofChanges (changes : List Change) :
    InFirstOrder (localesGiven changes) (ofChanges changes).supported := by
  induction changes using List.reverseRecOn with
  | nil => exact inFirstOrder_nil
  | append_singleton changes c ih =>
    unfold localesGiven at ih ⊢
    rw [ofChanges_concat]
    cases c with
    | insert locale category data =>
      rw [insertions_insert, List.map_append, apply, supported_insert]
      exact ih.push locale
    | setTag locale tag =>
      rw [insertions_setTag]
      exact ih

/-- The categories of a locale stand in the order in which they were first inserted for it. -/
theorem categories_ofChanges (changes : List Change) (locale : String) :
    InFirstOrder (categoriesGiven locale changes) ((ofChanges changes).categories locale) := by
  induction changes using List.reverseRecOn with
  | nil => exact inFirstOrder_nil
  | append_singleton changes c ih =>
    unfold categoriesGiven at ih ⊢
    rw [ofChanges_concat]
    cases c with
    | insert other category data =>
      rw [insertions_insert, List.filter_append, List.map_append, apply, categories_insert]
      by_cases h : locale = other
      · subst h
        simpa using ih.push category
      · have hnone : [((other, category), data)].filter (·.1.1 = locale) = [] := by
          simp [Ne.symm h]
        rw [if_neg h, hnone, List.map_nil, List.append_nil]
        exact ih
    | setTag other tag =>
      rw [insertions_setTag]
      exact ih

/-- A store answers by its history. The data of a locale and a category is what was inserted there
last. Every locale that something was inserted for is listed once, in the order of the first
insertions, and so is every category of a locale. A locale is published under the tag that was set
for it last, else under its alias, else in lower case. Neither of the two kinds of changes has a
part in the answers of the other. -/
theorem answers_ofChanges (changes : List Change) :
    let store := ofChanges changes
    (∀ locale category,
      store.get? locale category = (insertions changes).reverse.lookup (locale, category)) ∧
    InFirstOrder (localesGiven changes) store.supported ∧
    (∀ locale, InFirstOrder (categoriesGiven locale changes) (store.categories locale)) ∧
    (∀ locale, store.externalTag locale = match (tagsSet changes).reverse.lookup locale with
      | some tag => tag
      | none => match aliases.lookup locale with
        | some tag => tag
        | none => Text.lower locale) ∧
    (∀ locale category data,
      (store.insert locale category data).externalTag = store.externalTag) ∧
    ∀ locale tag, (store.setExternalTag locale tag).get? = store.get? ∧
      (store.setExternalTag locale tag).supported = store.supported ∧
      (store.setExternalTag locale tag).categories = store.categories := by
  intro store
  refine ⟨get?_ofChanges changes, supported_ofChanges changes, categories_ofChanges changes, ?_,
    fun _ _ _ => rfl, fun _ _ => ⟨rfl, rfl, rfl⟩⟩
  intro locale
  rw [← Table.get?_ofList, ← tags_ofChanges]
  cases hset : store.tags.get? locale with
  | some tag => exact externalTag_of_set hset
  | none =>
    cases halias : aliases.lookup locale with
    | some tag => exact externalTag_of_alias hset halias
    | none => exact externalTag_of_none hset halias

/-- A locale that comes back keeps its place, and so does a category whose data is replaced. -/
example :
    let store := ofChanges [.insert "zh" "b" .null, .setTag "en" "e", .insert "en" "a" .null,
      .insert "zh" "a" .null, .insert "zh" "b" (.int 1)]
    store.supported = ["zh", "en"] ∧ store.categories "zh" = ["b", "a"] ∧
      store.get? "zh" "b" = some (.int 1) ∧ store.externalTag "zh" = "zh-cn" ∧
      store.externalTag "en" = "e" :=
  ⟨rfl, rfl, rfl, rfl, rfl⟩

end Store

end LocaleScript.Locale
