import LocaleScript.Template.Dialect

/-!
# Loading a library

A library of built-in sources has an entry for each source under its full name and one under its
name without extension, and no others (`mem_addBuiltin`). An engine of any dialect loads a library
if each of its sources compiles; under a name that stands for one source only it then has what that
source is compiled to (`get?_of_ofLibrary`).
-/

namespace LocaleScript.Template

/-! ## Entries -/

theorem mem_placeSorted {name source : String} {entries : List (String × String)}
    {entry : String × String} (h : entry ∈ placeSorted name source entries) :
    entry = (name, source) ∨ entry ∈ entries := by
  induction entries with
  | nil => exact .inl (List.mem_singleton.mp h)
  | cons first rest ih =>
    obtain ⟨n, s⟩ := first
    rw [placeSorted] at h
    split at h
    · exact List.mem_cons.mp h
    split at h
    · rcases List.mem_cons.mp h with h | h
      · exact .inl h
      · exact .inr (.tail _ h)
    · rcases List.mem_cons.mp h with rfl | h
      · exact .inr (.head _)
      · exact (ih h).imp_right (.tail _)

theorem mem_keys_placeSorted {name source key : String} {entries : List (String × String)} :
    key ∈ (placeSorted name source entries).map (·.1) ↔ key = name ∨ key ∈ entries.map (·.1) := by
  induction entries with
  | nil => simp [placeSorted]
  | cons first rest ih =>
    obtain ⟨n, s⟩ := first
    rw [placeSorted]
    split
    · simp
    split
    · next hn => simp [hn]
    · rw [List.map_cons, List.mem_cons, ih, List.map_cons, List.mem_cons]
      exact or_left_comm

/-- Only what stands under the name changes. -/
theorem lookup_placeSorted (name source other : String) (entries : List (String × String)) :
    (placeSorted name source entries).lookup other
      = if other = name then some source else entries.lookup other := by
  induction entries with
  | nil => exact Table.lookup_cons_ite name other source []
  | cons first rest ih =>
    obtain ⟨n, s⟩ := first
    rw [placeSorted]
    split
    · exact Table.lookup_cons_ite ..
    split
    · next hn =>
      subst hn
      simp only [Table.lookup_cons_ite]
      split <;> rfl
    · next hn =>
      simp only [Table.lookup_cons_ite, ih]
      by_cases h : other = n
      · subst h
        simp [Ne.symm hn]
      · simp [h]

theorem lookup_placeSorted_self (name source : String) (entries : List (String × String)) :
    (placeSorted name source entries).lookup name = some source := by
  rw [lookup_placeSorted, if_pos rfl]

theorem lookup_placeSorted_of_ne {name other : String} (h : other ≠ name) (source : String)
    (entries : List (String × String)) :
    (placeSorted name source entries).lookup other = entries.lookup other := by
  rw [lookup_placeSorted, if_neg h]

/-- An entry of a library is one of its sources, under its full name or under the name without
extension. -/
theorem mem_addBuiltin {taken : List String} {builtin sources : List (String × String)}
    {entry : String × String} (h : entry ∈ Library.addBuiltin taken builtin sources) :
    entry ∈ builtin ∨ ∃ source ∈ sources, entry.2 = source.2 ∧
      (entry.1 = source.1 ∨ entry.1 = stripExtension source.1 extensions) := by
  induction sources generalizing taken builtin with
  | nil => exact .inl h
  | cons first rest ih =>
    obtain ⟨name, source⟩ := first
    have hfirst (hadd : entry ∈ placeSorted name source builtin) :
        entry ∈ builtin ∨ ∃ other ∈ (name, source) :: rest, entry.2 = other.2 ∧
          (entry.1 = other.1 ∨ entry.1 = stripExtension other.1 extensions) := by
      rcases mem_placeSorted hadd with rfl | hadd
      · exact .inr ⟨_, .head _, rfl, .inl rfl⟩
      · exact .inl hadd
    rw [Library.addBuiltin] at h
    split at h
    · rcases ih h with h | ⟨other, hother, hentry⟩
      · exact hfirst h
      · exact .inr ⟨other, .tail _ hother, hentry⟩
    · rcases ih h with h | ⟨other, hother, hentry⟩
      · rcases mem_placeSorted h with rfl | h
        · exact .inr ⟨_, .head _, rfl, .inr rfl⟩
        · exact hfirst h
      · exact .inr ⟨other, .tail _ hother, hentry⟩

/-- No name is lost. -/
theorem mem_keys_addBuiltin_of_mem {taken : List String} {builtin sources : List (String × String)}
    {key : String} (h : key ∈ builtin.map (·.1)) :
    key ∈ (Library.addBuiltin taken builtin sources).map (·.1) := by
  induction sources generalizing taken builtin with
  | nil => exact h
  | cons first rest ih =>
    have hfull : key ∈ (placeSorted first.1 first.2 builtin).map (·.1) :=
      mem_keys_placeSorted.mpr (.inr h)
    rw [Library.addBuiltin]
    split
    · exact ih hfull
    · exact ih (mem_keys_placeSorted.mpr (.inr hfull))

/-- Every source has an entry under its name without extension. -/
theorem stripExtension_mem_keys_addBuiltin {taken : List String}
    {builtin sources : List (String × String)} (htaken : ∀ base ∈ taken, base ∈ builtin.map (·.1))
    {source : String × String} (h : source ∈ sources) :
    stripExtension source.1 extensions
      ∈ (Library.addBuiltin taken builtin sources).map (·.1) := by
  induction sources generalizing taken builtin with
  | nil => cases h
  | cons first rest ih =>
    rw [Library.addBuiltin]
    have htaken' : ∀ base ∈ taken, base ∈ (placeSorted first.1 first.2 builtin).map (·.1) :=
      fun base hbase => mem_keys_placeSorted.mpr (.inr (htaken base hbase))
    split
    · next hcontains =>
      rcases List.mem_cons.mp h with rfl | h
      · exact mem_keys_addBuiltin_of_mem (htaken' _ (List.contains_iff_mem.mp hcontains))
      · exact ih htaken' h
    · rcases List.mem_cons.mp h with rfl | h
      · exact mem_keys_addBuiltin_of_mem (mem_keys_placeSorted.mpr (.inl rfl))
      · refine ih ?_ h
        intro base hbase
        rcases List.mem_cons.mp hbase with rfl | hbase
        · exact mem_keys_placeSorted.mpr (.inl rfl)
        · exact mem_keys_placeSorted.mpr (.inr (htaken' base hbase))

theorem entries_ofBuiltin (sources : List (String × String)) :
    (Library.ofBuiltin sources).entries = Library.addBuiltin [] [] (Library.byRank sources) := by
  unfold Library.entries Library.ofBuiltin
  simp

/-! ## Engines -/

namespace Dialect.Engine

variable {τ : Type} {dialect : Dialect τ}

/-- The first source of those that load compiles. -/
theorem of_addAll_cons {first : String × String} {rest : List (String × String)}
    {engine loaded : dialect.Engine} (h : engine.addAll (first :: rest) = .ok loaded) :
    ∃ template, dialect.compile first.1 first.2 = .ok template ∧
      addAll ⟨engine.templates.insert first.1 template⟩ rest = .ok loaded := by
  rw [addAll_cons] at h
  cases hcompile : dialect.compile first.1 first.2 with
  | error e =>
    rw [add, hcompile] at h
    cases h
  | ok template =>
    rw [add_of_compile hcompile] at h
    exact ⟨template, rfl, h⟩

theorem exists_compile_of_addAll {entries : List (String × String)} {engine loaded : dialect.Engine}
    (h : engine.addAll entries = .ok loaded) {entry : String × String} (hentry : entry ∈ entries) :
    ∃ template, dialect.compile entry.1 entry.2 = .ok template := by
  induction entries generalizing engine with
  | nil => cases hentry
  | cons first rest ih =>
    obtain ⟨template, hcompile, hrest⟩ := of_addAll_cons h
    rcases List.mem_cons.mp hentry with rfl | hentry
    · exact ⟨template, hcompile⟩
    · exact ih hrest hentry

theorem exists_addAll {entries : List (String × String)}
    (h : ∀ entry ∈ entries, ∃ template, dialect.compile entry.1 entry.2 = .ok template)
    (engine : dialect.Engine) : ∃ loaded, engine.addAll entries = .ok loaded := by
  induction entries generalizing engine with
  | nil => exact ⟨engine, rfl⟩
  | cons first rest ih =>
    obtain ⟨template, hcompile⟩ := h first (.head _)
    obtain ⟨loaded, hrest⟩ := ih (fun entry hentry => h entry (.tail _ hentry))
      ⟨engine.templates.insert first.1 template⟩
    refine ⟨loaded, ?_⟩
    rw [addAll_cons, add_of_compile hcompile]
    exact hrest

/-- A library loads exactly if all its sources compile. -/
theorem exists_ofLibrary_iff {library : Library} :
    (∃ loaded : dialect.Engine, ofLibrary library = .ok loaded) ↔
      ∀ entry ∈ library.entries, ∃ template, dialect.compile entry.1 entry.2 = .ok template :=
  ⟨fun ⟨_, h⟩ _ hentry => exists_compile_of_addAll h hentry, fun h => exists_addAll h empty⟩

/-- What is loaded under a name that stands for one source only. -/
theorem get?_addAll {entries : List (String × String)} {engine loaded : dialect.Engine}
    (h : engine.addAll entries = .ok loaded) {name source : String}
    (honly : ∀ entry ∈ entries, entry.1 = name → entry.2 = source) :
    loaded.templates.get? name
      = if name ∈ entries.map (·.1) then (dialect.compile name source).toOption
        else engine.templates.get? name := by
  induction entries generalizing engine with
  | nil =>
    obtain rfl := Except.ok.inj h
    rfl
  | cons first rest ih =>
    obtain ⟨template, hcompile, hrest⟩ := of_addAll_cons h
    rw [ih hrest fun entry hentry => honly entry (.tail _ hentry), List.map_cons,
      Table.get?_insert]
    by_cases hname : name = first.1
    · rw [← honly first (.head _) hname.symm, hname, hcompile]
      simp [Except.toOption]
    · simp only [hname, reduceIte, List.mem_cons, false_or]

theorem get?_of_ofLibrary {library : Library} {loaded : dialect.Engine}
    (h : ofLibrary library = .ok loaded) {name source : String}
    (hmem : name ∈ library.entries.map (·.1))
    (honly : ∀ entry ∈ library.entries, entry.1 = name → entry.2 = source) :
    loaded.templates.get? name = (dialect.compile name source).toOption := by
  rw [get?_addAll h honly, if_pos hmem]

/-- What a library of built-in sources has under the name of a source without its extension. -/
theorem get?_of_ofBuiltin {sources : List (String × String)} {loaded : dialect.Engine}
    (h : ofLibrary (.ofBuiltin sources) = .ok loaded) {source : String × String}
    (hmem : source ∈ sources)
    (honly : ∀ other ∈ sources, other.1 = stripExtension source.1 extensions ∨
      stripExtension other.1 extensions = stripExtension source.1 extensions →
        other.2 = source.2) :
    loaded.templates.get? (stripExtension source.1 extensions)
      = (dialect.compile (stripExtension source.1 extensions) source.2).toOption := by
  refine get?_of_ofLibrary h ?_ fun entry hentry hname => ?_
  · rw [entries_ofBuiltin]
    exact stripExtension_mem_keys_addBuiltin (fun _ h => absurd h List.not_mem_nil)
      (Library.mem_byRank.mpr hmem)
  · rw [entries_ofBuiltin] at hentry
    rcases mem_addBuiltin hentry with hentry | ⟨other, hother, htext, hfull⟩
    · cases hentry
    · rw [htext]
      exact honly other (Library.mem_byRank.mp hother) (hname ▸ hfull.imp Eq.symm Eq.symm)

end Dialect.Engine

end LocaleScript.Template
