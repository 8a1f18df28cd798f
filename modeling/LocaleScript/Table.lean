/-!
# Tables in order of insertion

A table maps texts to values and remembers the order in which its keys first came in. Inserting a
key that is there already replaces the value and keeps the place. The view is `entries`; the lemmas
say what `insert` does to `get?` and to `keys`.
-/

namespace LocaleScript

/-- A map from texts to values in the order of the first insertions. -/
structure Table (α : Type) where
  entries : List (String × α)
deriving Repr, BEq

namespace Table

variable {α : Type}

/-- The table without entries. -/
def empty : Table α := ⟨[]⟩

instance : Inhabited (Table α) := ⟨empty⟩
instance : EmptyCollection (Table α) := ⟨empty⟩

/-- The value under a key. -/
def get? (t : Table α) (key : String) : Option α :=
  t.entries.lookup key

/-- Replaces the value of the first entry with this key, or adds an entry behind the others. -/
def place (key : String) (value : α) : List (String × α) → List (String × α)
  | [] => [(key, value)]
  | (k, v) :: rest => if key = k then (k, value) :: rest else (k, v) :: place key value rest

/-- Sets the value of a key; a new key goes behind the others. -/
def insert (t : Table α) (key : String) (value : α) : Table α :=
  ⟨place key value t.entries⟩

/-- The keys in order of first insertion. -/
def keys (t : Table α) : List String :=
  t.entries.map (·.1)

/-- The key has a value. -/
def contains (t : Table α) (key : String) : Bool :=
  t.keys.contains key

/-- Number of keys. -/
def size (t : Table α) : Nat :=
  t.entries.length

/-- Inserts the pairs one after the other into an empty table. -/
def ofList (pairs : List (String × α)) : Table α :=
  pairs.foldl (fun t (k, v) => t.insert k v) empty

/-- Of the pairs with a key, the first one counts. -/
theorem lookup_cons_ite {β γ : Type} [BEq β] [LawfulBEq β] [DecidableEq β] (key other : β)
    (value : γ)
    (es : List (β × γ)) :
    ((key, value) :: es).lookup other = if other = key then some value else es.lookup other := by
  rw [List.lookup_cons]
  by_cases h : other = key
  · rw [if_pos h, beq_iff_eq.mpr h]
  · rw [if_neg h, beq_false_of_ne h]

@[simp] theorem get?_empty (key : String) : (empty : Table α).get? key = none := rfl

@[simp] theorem keys_empty : (empty : Table α).keys = [] := rfl

theorem lookup_place (key other : String) (value : α) (es : List (String × α)) :
    (place key value es).lookup other = if other = key then some value else es.lookup other := by
  induction es with
  | nil => exact lookup_cons_ite key other value []
  | cons e es ih =>
    obtain ⟨k, v⟩ := e
    rw [place]
    by_cases hk : key = k
    · subst hk
      simp only [reduceIte, lookup_cons_ite]
      split <;> rfl
    · simp only [hk, reduceIte, lookup_cons_ite, ih]
      by_cases h : other = k
      · simp [h, Ne.symm hk]
      · simp [h]

/-- The last value inserted under a key is the one found there. -/
@[simp] theorem get?_insert (t : Table α) (key other : String) (value : α) :
    (t.insert key value).get? other = if other = key then some value else t.get? other :=
  lookup_place key other value t.entries

theorem map_fst_place (key : String) (value : α) (es : List (String × α)) :
    (place key value es).map (·.1)
      = if key ∈ es.map (·.1) then es.map (·.1) else es.map (·.1) ++ [key] := by
  induction es with
  | nil => simp [place]
  | cons e es ih =>
    obtain ⟨k, v⟩ := e
    by_cases hk : key = k
    · simp [place, hk]
    · simp only [place, hk, reduceIte, List.map_cons, ih, List.mem_cons, false_or]
      split <;> simp

/-- Of the pairs that a table is made of, the last one with a key counts. -/
theorem get?_ofList (pairs : List (String × α)) (key : String) :
    (ofList pairs).get? key = pairs.reverse.lookup key := by
  have hfold (pairs : List (String × α)) (t : Table α) :
      (pairs.foldl (fun t (k, v) => t.insert k v) t).get? key
        = (pairs.reverse.lookup key).or (t.get? key) := by
    induction pairs generalizing t with
    | nil => rfl
    | cons pair pairs ih =>
      obtain ⟨k, v⟩ := pair
      rw [List.foldl_cons, ih, get?_insert, List.reverse_cons, List.lookup_append, Option.or_assoc,
        lookup_cons_ite]
      congr 1
      split <;> rfl
  rw [ofList, hfold, get?_empty, Option.or_none]

/-- What is found in a table of pairs is one of them. -/
theorem mem_of_get?_ofList {pairs : List (String × α)} {key : String} {value : α}
    (h : (ofList pairs).get? key = some value) : (key, value) ∈ pairs := by
  rw [get?_ofList] at h
  obtain ⟨before, behind, hpairs, -⟩ := List.lookup_eq_some_iff.mp h
  exact List.mem_reverse.mp (hpairs ▸ List.mem_append_right _ (.head _))

theorem contains_eq_isSome (t : Table α) (key : String) : t.contains key = (t.get? key).isSome := by
  unfold contains keys get?
  induction t.entries with
  | nil => rfl
  | cons e es ih =>
    obtain ⟨k, v⟩ := e
    rw [List.map_cons, List.contains_cons, ih, lookup_cons_ite]
    by_cases h : key = k <;> simp [h]

/-- A key keeps the place of its first insertion. -/
theorem keys_insert (t : Table α) (key : String) (value : α) :
    (t.insert key value).keys = if key ∈ t.keys then t.keys else t.keys ++ [key] :=
  map_fst_place key value t.entries

/-- No key stands twice. -/
theorem nodup_keys_insert {t : Table α} (h : t.keys.Nodup) (key : String) (value : α) :
    (t.insert key value).keys.Nodup := by
  rw [keys_insert]
  split
  · exact h
  · next hk =>
    refine List.nodup_append.mpr ⟨h, by simp, ?_⟩
    intro a ha b hb hab
    simp only [List.mem_singleton] at hb
    exact hk (hb ▸ hab ▸ ha)

theorem nodup_keys_ofList (pairs : List (String × α)) : (ofList pairs).keys.Nodup := by
  have hfold (t : Table α) (h : t.keys.Nodup) :
      (pairs.foldl (fun t (k, v) => t.insert k v) t).keys.Nodup := by
    induction pairs generalizing t with
    | nil => exact h
    | cons pair pairs ih => exact ih _ (nodup_keys_insert h ..)
  exact hfold empty List.nodup_nil

theorem place_of_not_mem {key : String} {es : List (String × α)} (h : key ∉ es.map (·.1))
    (value : α) :
    place key value es = es ++ [(key, value)] := by
  induction es with
  | nil => rfl
  | cons e es ih =>
    rw [List.map_cons, List.mem_cons, not_or] at h
    rw [place, if_neg h.1, ih h.2, List.cons_append]

theorem place_of_lookup {key : String} {value : α} {es : List (String × α)}
    (h : es.lookup key = some value) : place key value es = es := by
  induction es with
  | nil => cases h
  | cons e es ih =>
    rw [lookup_cons_ite] at h
    rw [place]
    by_cases hkey : key = e.1
    · rw [if_pos hkey] at h
      rw [if_pos hkey, ← Option.some.inj h]
    · rw [if_neg hkey] at h
      rw [if_neg hkey, ih h]

/-- A value that is there already changes nothing. -/
theorem insert_of_get? {t : Table α} {key : String} {value : α} (h : t.get? key = some value) :
    t.insert key value = t :=
  congrArg mk (place_of_lookup h)

/-- A new key goes behind the others. -/
theorem entries_insert_of_get? {t : Table α} {key : String} (h : t.get? key = none) (value : α) :
    (t.insert key value).entries = t.entries ++ [(key, value)] := by
  refine place_of_not_mem (fun hmem => ?_) value
  have hcontains : t.contains key = true := List.contains_iff_mem.mpr hmem
  rw [contains_eq_isSome, h] at hcontains
  cases hcontains

/-- Pairs without a key in common make up a table as they stand. -/
theorem entries_ofList {pairs : List (String × α)} (h : (pairs.map (·.1)).Nodup) :
    (ofList pairs).entries = pairs := by
  have hfold (pairs : List (String × α)) (t : Table α)
      (h : ((t.entries ++ pairs).map (·.1)).Nodup) :
      (pairs.foldl (fun t (k, v) => t.insert k v) t).entries = t.entries ++ pairs := by
    induction pairs generalizing t with
    | nil => exact (List.append_nil _).symm
    | cons pair pairs ih =>
      have hkey : pair.1 ∉ t.entries.map (·.1) := fun hmem => by
        rw [List.map_append] at h
        exact (List.nodup_append.mp h).2.2 _ hmem _ (.head _) rfl
      have hentries : (t.insert pair.1 pair.2).entries = t.entries ++ [pair] :=
        place_of_not_mem hkey pair.2
      rw [List.append_cons, ← hentries] at h ⊢
      exact ih _ h
  exact hfold pairs empty h

theorem ofList_append_singleton (pairs : List (String × α)) (key : String) (value : α) :
    ofList (pairs ++ [(key, value)]) = (ofList pairs).insert key value :=
  List.foldl_append

/-- Where no key stands twice, what stands under a key is what is found there. -/
theorem mem_entries_iff {t : Table α} (h : t.keys.Nodup) {key : String} {value : α} :
    (key, value) ∈ t.entries ↔ t.get? key = some value := by
  constructor
  · intro hmem
    obtain ⟨before, behind, hentries⟩ := List.append_of_mem hmem
    have hbefore : ∀ entry ∈ before, key ≠ entry.1 := by
      rintro entry hentry rfl
      rw [keys, hentries, List.map_append, List.map_cons] at h
      exact (List.nodup_append.mp h).2.2 _ (List.mem_map_of_mem hentry) _ (.head _) rfl
    exact List.lookup_eq_some_iff.mpr ⟨before, behind, hentries, fun entry hentry =>
      by simpa using hbefore entry hentry⟩
  · intro hget
    obtain ⟨before, behind, hentries, -⟩ := List.lookup_eq_some_iff.mp hget
    exact hentries ▸ List.mem_append_right _ (.head _)

end Table

end LocaleScript
