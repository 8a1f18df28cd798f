import Mathlib.Data.String.Basic
import LocaleScript.Template.Engine
import LocaleScript.Proofs.Template.Loading

/-!
# The views of a library

A library holds built-in and added sources, each sorted by name, and an added source stands before a
built-in one of the same name. Sources are set one at a time, and each step keeps them sorted
(`Sorted.add`), so after any additions no name stands twice among the entries, and what is listed
under a name is what is found there (`Sorted.mem_entries_iff`). A loaded engine, whatever its
dialect, has the template of what is found (`get?_of_ofLibrary_of_sorted`), hence built-in sources
that others shadow need not compile.
-/

namespace LocaleScript.Template

/-! ## Sorted sources -/

/-- The names stand in order, none of them twice. -/
def SortedByName (entries : List (String × String)) : Prop :=
  entries.Pairwise fun first second => first.1 < second.1

theorem sortedByName_placeSorted {entries : List (String × String)} (h : SortedByName entries)
    (name source : String) : SortedByName (placeSorted name source entries) := by
  induction entries with
  | nil => exact List.pairwise_singleton _ _
  | cons first rest ih =>
    obtain ⟨n, s⟩ := first
    obtain ⟨hfirst, hrest⟩ := List.pairwise_cons.mp h
    rw [placeSorted]
    split
    · next hlt =>
      refine List.pairwise_cons.mpr ⟨fun entry hentry => ?_, h⟩
      rcases List.mem_cons.mp hentry with rfl | hentry
      · exact hlt
      · exact lt_trans hlt (hfirst entry hentry)
    split
    · next hn =>
      subst hn
      exact List.pairwise_cons.mpr ⟨hfirst, hrest⟩
    · next hlt hn =>
      refine List.pairwise_cons.mpr ⟨fun entry hentry => ?_, ih hrest⟩
      rcases mem_placeSorted hentry with rfl | hentry
      · exact lt_of_le_of_ne (not_lt.mp hlt) (Ne.symm hn)
      · exact hfirst entry hentry

theorem SortedByName.nodup {entries : List (String × String)} (h : SortedByName entries) :
    (entries.map (·.1)).Nodup :=
  List.pairwise_map.mpr (h.imp fun hlt => ne_of_lt hlt)

theorem SortedByName.mem_iff {entries : List (String × String)} (h : SortedByName entries)
    {name source : String} : (name, source) ∈ entries ↔ entries.lookup name = some source :=
  Table.mem_entries_iff (t := ⟨entries⟩) h.nodup

namespace Library

theorem sortedByName_addBuiltin {taken : List String} {builtin : List (String × String)}
    (h : SortedByName builtin) (sources : List (String × String)) :
    SortedByName (addBuiltin taken builtin sources) := by
  induction sources generalizing taken builtin with
  | nil => exact h
  | cons first rest ih =>
    have hfull := sortedByName_placeSorted h first.1 first.2
    rw [addBuiltin]
    split
    · exact ih hfull
    · exact ih (sortedByName_placeSorted hfull _ _)

/-- Both the built-in and the added sources are sorted. -/
structure Sorted (library : Library) : Prop where
  builtin : SortedByName library.builtin
  added : SortedByName library.added

theorem sorted_empty : Sorted empty :=
  ⟨List.Pairwise.nil, List.Pairwise.nil⟩

theorem sorted_ofBuiltin (sources : List (String × String)) : Sorted (ofBuiltin sources) :=
  ⟨sortedByName_addBuiltin List.Pairwise.nil _, List.Pairwise.nil⟩

theorem Sorted.add {library : Library} (h : Sorted library) (name source : String) :
    Sorted (library.add name source) :=
  ⟨h.builtin, sortedByName_placeSorted h.added name source⟩

theorem get?_add (library : Library) (name source other : String) :
    (library.add name source).get? other
      = if other = name then some source else library.get? other := by
  unfold get? Library.add
  rw [lookup_placeSorted]
  split <;> rfl

/-! ## Additions -/

/-- Adds sources in turn. -/
def addAll (library : Library) (additions : List (String × String)) : Library :=
  additions.foldl (fun library (name, source) => library.add name source) library

theorem Sorted.addAll {library : Library} (h : Sorted library)
    (additions : List (String × String)) : Sorted (library.addAll additions) := by
  induction additions generalizing library with
  | nil => exact h
  | cons first rest ih => exact ih (h.add first.1 first.2)

/-- What was added last under a name is found there. -/
theorem get?_addAll (library : Library) (additions : List (String × String)) (name : String) :
    (library.addAll additions).get? name
      = (additions.reverse.lookup name).or (library.get? name) := by
  induction additions generalizing library with
  | nil => rfl
  | cons first rest ih =>
    obtain ⟨added, source⟩ := first
    have hstep : library.addAll ((added, source) :: rest)
        = (library.add added source).addAll rest := rfl
    rw [hstep, ih, get?_add, List.reverse_cons, List.lookup_append, Option.or_assoc,
      Table.lookup_cons_ite]
    congr 1
    split <;> rfl

/-! ## Entries -/

theorem get_eq_ok_iff {library : Library} {name source : String} :
    library.get name = .ok source ↔ library.get? name = some source := by
  rw [get]
  cases library.get? name with
  | none => exact ⟨nofun, nofun⟩
  | some found => rw [Except.ok.injEq, Option.some.injEq]

theorem get_eq_error_iff {library : Library} {name : String} {e : RenderError} :
    library.get name = .error e ↔ library.get? name = none ∧ e = .unregistered name := by
  rw [get]
  cases library.get? name with
  | none => simp [eq_comm]
  | some found => simp

theorem Sorted.mem_entries_iff {library : Library} (h : Sorted library) {name source : String} :
    (name, source) ∈ library.entries ↔ library.get? name = some source := by
  rw [entries, List.mem_append, List.mem_filter, h.builtin.mem_iff, h.added.mem_iff, get?]
  cases library.added.lookup name <;> simp

theorem Sorted.nodup_names {library : Library} (h : Sorted library) : library.names.Nodup := by
  have hbuiltin : ((library.builtin.filter fun entry =>
      (library.added.lookup entry.1).isNone).map (·.1)).Nodup :=
    h.builtin.nodup.sublist (List.filter_sublist.map _)
  rw [names, entries, List.map_append]
  refine List.nodup_append.mpr ⟨hbuiltin, h.added.nodup, ?_⟩
  rintro name hname _ hadded rfl
  obtain ⟨entry, hentry, rfl⟩ := List.mem_map.mp hname
  obtain ⟨⟨_, source⟩, hsource, rfl⟩ := List.mem_map.mp hadded
  have hnone := (List.mem_filter.mp hentry).2
  rw [h.added.mem_iff.mp hsource] at hnone
  cases hnone

theorem isEmpty_iff (library : Library) : library.isEmpty = true ↔ library.size = 0 := by
  rw [isEmpty, size, entries, Bool.and_eq_true, List.isEmpty_iff, List.isEmpty_iff,
    List.length_eq_zero_iff, List.append_eq_nil_iff]
  refine and_congr_left fun hadded => ?_
  simp [hadded]

end Library

/-! ## Engines -/

namespace Dialect.Engine

variable {τ : Type} {dialect : Dialect τ}

/-- The engine answers to the names of a library, and with the sources that the library has. -/
structure Serves (engine : dialect.Engine) (library : Library) : Prop where
  has_iff : ∀ name, engine.has name = true ↔ ∃ source, library.get name = .ok source
  /-- A name is rendered as a template of this name and this source is in the engine. -/
  renderNamed : ∀ name source, library.get name = .ok source →
    ∃ template, dialect.compile name source = .ok template ∧
      ∀ data, engine.renderNamed name data = dialect.render engine.templates name template data
  /-- A template of this name and this source is what the engine has there. -/
  add : ∀ name source, library.get name = .ok source → engine.add name source = .ok engine
  missing : ∀ name e, library.get name = .error e →
    ∀ data, engine.renderNamed name data = .error (.unknownTemplate name)

theorem get?_of_ofLibrary_of_sorted {library : Library} (hsorted : library.Sorted)
    {engine : dialect.Engine} (h : ofLibrary library = .ok engine) (name : String) :
    engine.templates.get? name
      = (library.get? name).bind fun source => (dialect.compile name source).toOption := by
  cases hget : library.get? name with
  | some source =>
    have hentry := hsorted.mem_entries_iff.mpr hget
    refine get?_of_ofLibrary h (List.mem_map_of_mem hentry) fun entry hentry' hname => ?_
    have hget' : library.get? entry.1 = some entry.2 := hsorted.mem_entries_iff.mp hentry'
    rw [hname, hget] at hget'
    exact (Option.some.inj hget').symm
  | none =>
    have hnot (source : String) : (name, source) ∉ library.entries := fun hentry => by
      rw [hsorted.mem_entries_iff, hget] at hentry
      cases hentry
    have honly : ∀ entry ∈ library.entries, entry.1 = name → entry.2 = "" := by
      rintro ⟨_, source⟩ hentry rfl
      exact absurd hentry (hnot source)
    rw [get?_addAll h honly, if_neg]
    · rfl
    · rintro hname
      obtain ⟨⟨_, source⟩, hentry, rfl⟩ := List.mem_map.mp hname
      exact hnot source hentry

section

variable {library : Library} (hsorted : library.Sorted) {engine : dialect.Engine}
  (h : ofLibrary library = .ok engine)

include hsorted h

/-- What is found in the library was compiled and is there. -/
theorem exists_get?_of_get {name source : String} (hget : library.get name = .ok source) :
    ∃ template, dialect.compile name source = .ok template ∧
      engine.templates.get? name = some template := by
  rw [Library.get_eq_ok_iff] at hget
  obtain ⟨template, hcompile⟩ :=
    exists_ofLibrary_iff.mp ⟨engine, h⟩ _ (hsorted.mem_entries_iff.mpr hget)
  refine ⟨template, hcompile, ?_⟩
  rw [get?_of_ofLibrary_of_sorted hsorted h, hget, Option.bind_some, hcompile]
  rfl

theorem has_iff_of_ofLibrary (name : String) :
    engine.has name = true ↔ ∃ source, library.get name = .ok source := by
  rw [has, Table.contains_eq_isSome]
  constructor
  · intro hsome
    rw [get?_of_ofLibrary_of_sorted hsorted h] at hsome
    cases hget : library.get? name with
    | none =>
      rw [hget] at hsome
      cases hsome
    | some source => exact ⟨source, Library.get_eq_ok_iff.mpr hget⟩
  · rintro ⟨source, hget⟩
    obtain ⟨template, -, hget⟩ := exists_get?_of_get hsorted h hget
    rw [hget]
    rfl

theorem serves_of_ofLibrary : engine.Serves library where
  has_iff := has_iff_of_ofLibrary hsorted h
  renderNamed name source hget := by
    obtain ⟨template, hcompile, hget⟩ := exists_get?_of_get hsorted h hget
    exact ⟨template, hcompile, renderNamed_of_get? hget⟩
  add name source hget := by
    obtain ⟨template, hcompile, hget⟩ := exists_get?_of_get hsorted h hget
    rw [add_of_compile hcompile, Table.insert_of_get? hget]
  missing name e hget data := by
    rw [Engine.renderNamed, get?_of_ofLibrary_of_sorted hsorted h,
      (Library.get_eq_error_iff.mp hget).1]
    rfl

end

end Dialect.Engine

/-- All views of a library agree, whatever was added to it. Each name is listed once, with the
source that is found under it: the one that was added last, or the built-in one. An engine of any
dialect loads the library exactly if the sources that are found compile, and then serves them. -/
theorem Library.views_agree {base : Library}
    (hbase : base = empty ∨ ∃ sources, base = ofBuiltin sources)
    (additions : List (String × String)) :
    let library := base.addAll additions
    (library.entries.map (·.1)).Nodup ∧
    (∀ name source, (name, source) ∈ library.entries ↔ library.get name = .ok source) ∧
    (∀ name, library.get name = match additions.reverse.lookup name with
      | some source => .ok source
      | none => base.get name) ∧
    library.names = library.entries.map (·.1) ∧
    library.size = library.entries.length ∧
    (library.isEmpty = true ↔ library.size = 0) ∧
    ∀ {τ : Type} (dialect : Dialect τ),
      ((∃ engine : dialect.Engine, Dialect.Engine.ofLibrary library = .ok engine) ↔
        ∀ name source, library.get name = .ok source →
          ∃ template, dialect.compile name source = .ok template) ∧
      ∀ engine : dialect.Engine, Dialect.Engine.ofLibrary library = .ok engine →
        engine.Serves library := by
  intro library
  have hsorted : library.Sorted := by
    rcases hbase with rfl | ⟨sources, rfl⟩
    · exact sorted_empty.addAll additions
    · exact (sorted_ofBuiltin sources).addAll additions
  have hentries {name source : String} :
      (name, source) ∈ library.entries ↔ library.get name = .ok source :=
    hsorted.mem_entries_iff.trans get_eq_ok_iff.symm
  refine ⟨hsorted.nodup_names, fun _ _ => hentries, fun name => ?_, rfl, rfl, isEmpty_iff library,
    fun dialect => ⟨?_, fun _ => Dialect.Engine.serves_of_ofLibrary hsorted⟩⟩
  · have hget : library.get? name = _ := get?_addAll base additions name
    rw [get, hget]
    cases additions.reverse.lookup name <;> rfl
  · rw [Dialect.Engine.exists_ofLibrary_iff, Prod.forall]
    exact forall₂_congr fun _ _ => imp_congr_left hentries

theorem Library.views_agree_shadowed :
    let library := (ofBuiltin [("a.jinja", "\x7b\x7b broken"), ("b.j2", "b")]).addAll
      [("a", "one"), ("a", "two"), ("a.jinja", "full")]
    (library.entries.map (·.1)).Nodup ∧ library.get "a" = .ok "two" ∧
      library.get "b" = .ok "b" ∧
      ∃ engine, Engine.ofLibrary library = .ok engine ∧ engine.Serves library := by
  intro library
  obtain ⟨hnodup, hentries, hget, -, -, -, hengines⟩ :=
    views_agree (.inr ⟨[("a.jinja", "\x7b\x7b broken"), ("b.j2", "b")], rfl⟩)
      [("a", "one"), ("a", "two"), ("a.jinja", "full")]
  obtain ⟨hloads, hserves⟩ := hengines Tree.dialect
  have hlist : library.entries
      = [("b", "b"), ("b.j2", "b"), ("a", "two"), ("a.jinja", "full")] := rfl
  have hparse : ∀ entry ∈ library.entries, ∃ tree, Tree.parse? entry.2 = some tree := by
    rw [hlist]
    simp only [List.forall_mem_cons]
    exact ⟨⟨_, rfl⟩, ⟨_, rfl⟩, ⟨_, rfl⟩, ⟨_, rfl⟩, nofun⟩
  obtain ⟨engine, hengine⟩ := hloads.mpr fun name source hsource => by
    obtain ⟨tree, htree⟩ := hparse _ ((hentries name source).mpr hsource)
    exact ⟨tree, Tree.compile_of_parse? htree name⟩
  exact ⟨hnodup, hget "a", hget "b", engine, hengine, hserves engine hengine⟩

end LocaleScript.Template
