import LocaleScript.Table
import LocaleScript.Json.Value
import LocaleScript.Text.Case

/-!
# Stores of locale data

A store holds data of locales by category, and the tags under which locales are published. Locales
and categories stand in the order in which they first came in; a later insertion replaces the data
and keeps the place.
-/

namespace LocaleScript.Locale

/-- The locales that are published under a tag of their own, with that tag. -/
def aliases : List (String × String) :=
  [("zh", "zh-cn"), ("zh-Hant", "zh-tw"), ("ms", "msa"), ("nb", "no"), ("en-GB", "en-gb")]

/-- What a build reads of locales. -/
structure Source where
  /-- The data of a category of a locale. -/
  get? : String → String → Option Json
  /-- The locales that there is data for. -/
  locales : List String
  /-- The tag that a locale is published under. -/
  externalTag : String → String

/-- Data of locales by category, and the tags that were set for locales. -/
structure Store where
  locales : Table (Table Json)
  tags : Table String
deriving Repr

namespace Store

/-- The store without data. -/
def empty : Store := ⟨.empty, .empty⟩

/-- Sets the data of a category of a locale. -/
def insert (store : Store) (locale category : String) (data : Json) : Store :=
  let categories := (store.locales.get? locale).getD .empty
  { store with locales := store.locales.insert locale (categories.insert category data) }

/-- Sets the tag that a locale is published under. -/
def setExternalTag (store : Store) (locale tag : String) : Store :=
  { store with tags := store.tags.insert locale tag }

/-- The data of a category of a locale. -/
def get? (store : Store) (locale category : String) : Option Json :=
  (store.locales.get? locale).bind (·.get? category)

/-- The locales in order. -/
def supported (store : Store) : List String :=
  store.locales.keys

/-- The categories of a locale in order. -/
def categories (store : Store) (locale : String) : List String :=
  (store.locales.get? locale).elim [] Table.keys

/-- The tag that a locale is published under: the one that was set for it, else its alias, else its
own tag in lower case. -/
def externalTag (store : Store) (locale : String) : String :=
  match store.tags.get? locale with
  | some tag => tag
  | none => (aliases.lookup locale).getD (Text.lower locale)

/-- The last data inserted under a locale and a category is what is found there. -/
@[simp] theorem get?_insert (store : Store) (locale category other otherCategory : String)
    (data : Json) :
    (store.insert locale category data).get? other otherCategory
      = if other = locale ∧ otherCategory = category then some data
        else store.get? other otherCategory := by
  unfold get? insert
  rw [Table.get?_insert]
  by_cases hl : other = locale
  · subst hl
    simp only [reduceIte, Option.bind_some, Table.get?_insert, true_and]
    split
    · rfl
    · cases store.locales.get? other <;> simp
  · simp [hl]

/-- A locale keeps the place of its first insertion. -/
theorem supported_insert (store : Store) (locale category : String) (data : Json) :
    (store.insert locale category data).supported
      = if locale ∈ store.supported then store.supported else store.supported ++ [locale] :=
  Table.keys_insert ..

/-- A category keeps the place of its first insertion, and other locales keep their categories. -/
theorem categories_insert (store : Store) (locale category other : String) (data : Json) :
    (store.insert locale category data).categories other
      = if other = locale then
          if category ∈ store.categories other then store.categories other
          else store.categories other ++ [category]
        else store.categories other := by
  unfold categories insert
  rw [Table.get?_insert]
  by_cases h : other = locale
  · subst h
    simp only [reduceIte, Option.elim_some, Table.keys_insert]
    cases store.locales.get? other <;> rfl
  · simp [h]

/-- Data does not change tags. -/
@[simp] theorem externalTag_insert (store : Store) (locale category other : String) (data : Json) :
    (store.insert locale category data).externalTag other = store.externalTag other := rfl

/-- Tags do not change data. -/
@[simp] theorem get?_setExternalTag (store : Store) (locale tag other category : String) :
    (store.setExternalTag locale tag).get? other category = store.get? other category := rfl

/-- A locale is published under the last tag that was set for it. -/
@[simp] theorem externalTag_setExternalTag (store : Store) (locale tag other : String) :
    (store.setExternalTag locale tag).externalTag other
      = if other = locale then tag else store.externalTag other := by
  unfold externalTag setExternalTag
  rw [Table.get?_insert]
  by_cases h : other = locale <;> simp [h]

/-- The store as a build reads it. -/
def source (store : Store) : Source where
  get? := store.get?
  locales := store.supported
  externalTag := store.externalTag

end Store

end LocaleScript.Locale
