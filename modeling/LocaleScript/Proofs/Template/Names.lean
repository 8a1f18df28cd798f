import Mathlib.Data.List.Nodup
import LocaleScript.Proofs.Template.Extensions
import LocaleScript.Proofs.Template.Loading

/-!
# What stands under the names of built-in sources

Each built-in source is added under its full name and, if it is the first with its base, under its
base. Both kinds of names share one list, so what is found depends on the order of adding.

* A base that is no full name is given away once, to the source that is added first. This is the one
  with the first extension, in whatever order the sources are listed (`get_ofBuiltin_base`).
* A full name is lost if it is the base of a source that is added later, and of none before
  (`Displaces`); otherwise the source is found there (`get_ofBuiltin_full_iff`).

For full names the order of adding is cut behind the source (`CutBehind`): in front of the cut
stands what can take the base before, behind it what can be written over the source.
-/

namespace LocaleScript.Template

namespace Library

variable {taken : List String} {builtin sources : List (String × String)} {base : String}

/-! ## Names that are no full names -/

theorem lookup_addBuiltin_of_taken (hbase : base ∉ sources.map (·.1)) (h : base ∈ taken) :
    (addBuiltin taken builtin sources).lookup base = builtin.lookup base := by
  induction sources generalizing taken builtin with
  | nil => rfl
  | cons first rest ih =>
    rw [List.map_cons, List.mem_cons, not_or] at hbase
    have hfull := lookup_placeSorted_of_ne hbase.1 first.2 builtin
    rw [addBuiltin]
    split
    · rw [ih hbase.2 h, hfull]
    · next hcontains =>
      have hne : base ≠ stripExtension first.1 extensions := by
        rintro rfl
        exact hcontains (List.contains_iff_mem.mpr h)
      rw [ih hbase.2 (.tail _ h), lookup_placeSorted_of_ne hne, hfull]

/-- The first source with this base is the one that is found. -/
theorem lookup_addBuiltin_of_not_taken (hbase : base ∉ sources.map (·.1)) (h : base ∉ taken) :
    (addBuiltin taken builtin sources).lookup base
      = ((sources.find? (stripExtension ·.1 extensions = base)).map (·.2)).or
          (builtin.lookup base) := by
  induction sources generalizing taken builtin with
  | nil => rfl
  | cons first rest ih =>
    rw [List.map_cons, List.mem_cons, not_or] at hbase
    have hfull := lookup_placeSorted_of_ne hbase.1 first.2 builtin
    rw [addBuiltin, List.find?_cons]
    by_cases hfirst : stripExtension first.1 extensions = base
    · have hcontains : ¬taken.contains (stripExtension first.1 extensions) = true :=
        fun hcontains => h (hfirst ▸ List.contains_iff_mem.mp hcontains)
      rw [if_neg hcontains, lookup_addBuiltin_of_taken hbase.2 (hfirst ▸ .head _),
        decide_eq_true hfirst, hfirst, lookup_placeSorted_self]
      rfl
    · have hne : base ≠ stripExtension first.1 extensions := Ne.symm hfirst
      have htaken : base ∉ stripExtension first.1 extensions :: taken := by
        rintro (_ | ⟨_, hmem⟩)
        · exact hfirst rfl
        · exact h hmem
      rw [decide_eq_false hfirst]
      dsimp only
      split
      · rw [ih hbase.2 h, hfull]
      · rw [ih hbase.2 htaken, lookup_placeSorted_of_ne hne, hfull]

/-- Of the sources with this base, the one whose extension comes first. -/
structure Preferred (sources : List (String × String)) (base : String)
    (source : String × String) : Prop where
  mem : source ∈ sources
  base_eq : stripExtension source.1 extensions = base
  first : ∀ rival ∈ sources, stripExtension rival.1 extensions = base → rival ≠ source →
    rank source.1 < rank rival.1

theorem Preferred.unique {source other : String × String} (h : Preferred sources base source)
    (h' : Preferred sources base other) : source = other := by
  by_contra hne
  have hlt := h.first other h'.mem h'.base_eq (Ne.symm hne)
  exact Nat.lt_asymm hlt (h'.first source h.mem h.base_eq hne)

theorem Preferred.of_perm {listed : List (String × String)} (hperm : listed.Perm sources)
    {source : String × String} (h : Preferred listed base source) :
    Preferred sources base source where
  mem := hperm.subset h.mem
  base_eq := h.base_eq
  first := fun rival hrival => h.first rival (hperm.symm.subset hrival)

/-- The order of adding puts the preferred source first. -/
theorem preferred_of_find?_byRank (hnames : (sources.map (·.1)).Nodup) {source : String × String}
    (h : (byRank sources).find? (stripExtension ·.1 extensions = base) = some source) :
    Preferred sources base source := by
  have hmem : source ∈ sources := mem_byRank.mp (List.mem_of_find?_eq_some h)
  have hfound := List.find?_some h
  have hbase : stripExtension source.1 extensions = base := of_decide_eq_true hfound
  refine ⟨hmem, hbase, fun rival hrival hrivalBase hne => ?_⟩
  have hbefore : AddedBefore sources source rival :=
    rel_of_find?_eq_some (pairwise_byRank sources) h (mem_byRank.mpr hrival)
      (decide_eq_true hrivalBase) hne
  rcases hbefore with hlt | ⟨hrank, -⟩
  · exact hlt
  · have hname := eq_of_rank_of_stripExtension hrank (hbase.trans hrivalBase.symm)
    exact absurd (List.inj_on_of_nodup_map hnames hrival hmem hname.symm) hne

theorem get?_ofBuiltin (sources : List (String × String)) (name : String) :
    (ofBuiltin sources).get? name = (addBuiltin [] [] (byRank sources)).lookup name := rfl

/-- A name that is no full name is the base of sources, of which the preferred one is found, or
nothing is found. -/
theorem get_ofBuiltin_of_not_mem (hnames : (sources.map (·.1)).Nodup)
    (hbase : base ∉ sources.map (·.1)) :
    (∃ source, Preferred sources base source ∧ (ofBuiltin sources).get base = .ok source.2) ∨
    (∀ source ∈ sources, stripExtension source.1 extensions ≠ base) ∧
      (ofBuiltin sources).get base = .error (.unregistered base) := by
  have hbyRank : base ∉ (byRank sources).map (·.1) := fun h => by
    obtain ⟨source, hsource, rfl⟩ := List.mem_map.mp h
    exact hbase (List.mem_map_of_mem (mem_byRank.mp hsource))
  have hlookup : (addBuiltin [] [] (byRank sources)).lookup base = _ :=
    lookup_addBuiltin_of_not_taken hbyRank List.not_mem_nil
  rw [← get?_ofBuiltin] at hlookup
  cases hfind : (byRank sources).find? (stripExtension ·.1 extensions = base) with
  | some source =>
    refine .inl ⟨source, preferred_of_find?_byRank hnames hfind, ?_⟩
    rw [get, hlookup, hfind]
    rfl
  | none =>
    refine .inr ⟨fun source hsource hstrip => ?_, ?_⟩
    · exact List.find?_eq_none.mp hfind source (mem_byRank.mpr hsource) (decide_eq_true hstrip)
    · rw [get, hlookup, hfind]
      rfl

/-- Under a name that is no full name stands the source with this base whose extension comes first,
in whatever order the sources are listed; without such a source nothing is found. -/
theorem get_ofBuiltin_base (hnames : (sources.map (·.1)).Nodup)
    (hbase : base ∉ sources.map (·.1)) :
    ((∃ source ∈ sources, stripExtension source.1 extensions = base) →
      ∃ source, Preferred sources base source ∧ (ofBuiltin sources).get base = .ok source.2) ∧
    ((∀ source ∈ sources, stripExtension source.1 extensions ≠ base) →
      (ofBuiltin sources).get base = .error (.unregistered base)) ∧
    ∀ listed, listed.Perm sources →
      (ofBuiltin listed).get base = (ofBuiltin sources).get base := by
  refine ⟨fun ⟨source, hsource, hstrip⟩ => ?_, fun hnone => ?_, fun listed hperm => ?_⟩
  · rcases get_ofBuiltin_of_not_mem hnames hbase with h | ⟨hnone, -⟩
    · exact h
    · exact absurd hstrip (hnone source hsource)
  · rcases get_ofBuiltin_of_not_mem hnames hbase with ⟨source, hpreferred, -⟩ | ⟨-, h⟩
    · exact absurd hpreferred.base_eq (hnone source hpreferred.mem)
    · exact h
  · have hkeys := hperm.map Prod.fst
    have hlisted := get_ofBuiltin_of_not_mem (hkeys.nodup_iff.mpr hnames)
      (fun h => hbase (hkeys.subset h))
    rcases hlisted with ⟨source, hpreferred, hget⟩ | ⟨hnone, hget⟩ <;>
      rcases get_ofBuiltin_of_not_mem hnames hbase with ⟨other, hother, hget'⟩ | ⟨hnone', hget'⟩
    · rw [hget, hget', (hpreferred.of_perm hperm).unique hother]
    · exact absurd hpreferred.base_eq (hnone' source (hperm.subset hpreferred.mem))
    · exact absurd hother.base_eq (hnone other (hperm.symm.subset hother.mem))
    · rw [hget, hget']

theorem get_ofBuiltin_base_second :
    let sources := [("a.j2", "third"), ("a.jinja2", "second"), ("a.jinja.j2", "nested")]
    (sources.map (·.1)).Nodup ∧ "a" ∉ sources.map (·.1) ∧
      (ofBuiltin sources).get "a" = .ok "second" ∧
      (ofBuiltin sources.reverse).get "a" = .ok "second" := by
  intro sources
  have hnames : (sources.map (·.1)).Nodup := by decide
  have hbase : "a" ∉ sources.map (·.1) := by decide
  obtain ⟨hfound, -, hlisted⟩ := get_ofBuiltin_base hnames hbase
  obtain ⟨source, hpreferred, hget⟩ := hfound ⟨("a.jinja2", "second"), by decide, by decide⟩
  have hsecond : Preferred sources "a" ("a.jinja2", "second") :=
    ⟨by decide, by decide, by decide⟩
  rw [hpreferred.unique hsecond] at hget
  exact ⟨hnames, hbase, hget, (hlisted _ (List.reverse_perm _)).trans hget⟩

/-! ## Full names -/

/-- Sources are added in turn; the bases of those in front are taken for those behind. -/
theorem addBuiltin_append (taken : List String) (builtin front back : List (String × String)) :
    ∃ taken', addBuiltin taken builtin (front ++ back)
        = addBuiltin taken' (addBuiltin taken builtin front) back ∧
      ∀ base, base ∈ taken' ↔
        base ∈ taken ∨ ∃ source ∈ front, stripExtension source.1 extensions = base := by
  induction front generalizing taken builtin with
  | nil => exact ⟨taken, rfl, fun base => by simp⟩
  | cons first rest ih =>
    rw [List.cons_append, addBuiltin, addBuiltin]
    split
    · next hcontains =>
      obtain ⟨taken', happend, htaken⟩ := ih taken (placeSorted first.1 first.2 builtin)
      refine ⟨taken', happend, fun base => ?_⟩
      have hfirst : stripExtension first.1 extensions = base → base ∈ taken := fun h =>
        h ▸ List.contains_iff_mem.mp hcontains
      rw [htaken, List.exists_mem_cons_iff, ← or_assoc, or_iff_left_of_imp hfirst]
    · obtain ⟨taken', happend, htaken⟩ := ih (stripExtension first.1 extensions :: taken)
        (placeSorted (stripExtension first.1 extensions) first.2
          (placeSorted first.1 first.2 builtin))
      refine ⟨taken', happend, fun base => ?_⟩
      rw [htaken, List.exists_mem_cons_iff, List.mem_cons, ← or_assoc, or_comm (a := base = _),
        eq_comm (a := base)]

/-- What was added last stands under its full name. -/
theorem lookup_addBuiltin_concat (taken : List String) (builtin front : List (String × String))
    (source : String × String) :
    (addBuiltin taken builtin (front ++ [source])).lookup source.1 = some source.2 := by
  obtain ⟨taken', happend, -⟩ := addBuiltin_append taken builtin front [source]
  rw [happend, addBuiltin]
  split
  · rw [addBuiltin, lookup_placeSorted_self]
  · rw [addBuiltin, lookup_placeSorted, lookup_placeSorted_self, ite_self]

/-- What is added behind a source changes what stands under its full name only if a source behind
has this name as its base and no source before has. -/
theorem lookup_addBuiltin_full {front back : List (String × String)} {source : String × String}
    (hback : source.1 ∉ back.map (·.1)) :
    (addBuiltin [] [] (front ++ source :: back)).lookup source.1
      = if ∃ other ∈ front ++ [source], stripExtension other.1 extensions = source.1 then
          some source.2
        else ((back.find? (stripExtension ·.1 extensions = source.1)).map (·.2)).or
          (some source.2) := by
  obtain ⟨taken, happend, htaken⟩ := addBuiltin_append [] [] (front ++ [source]) back
  have hfull := lookup_addBuiltin_concat [] [] front source
  rw [List.append_cons, happend]
  split
  · next h =>
    rw [lookup_addBuiltin_of_taken hback ((htaken source.1).mpr (.inr h)), hfull]
  · next h =>
    have hnot : source.1 ∉ taken := fun hmem =>
      h (((htaken source.1).mp hmem).resolve_left List.not_mem_nil)
    rw [lookup_addBuiltin_of_not_taken hback hnot, hfull]

/-- `other` is written over `source`: the full name of `source` is the base of `other`, which is
added later, and `other` is the first to be added of the sources with this base. -/
structure Displaces (sources : List (String × String)) (other source : String × String) : Prop where
  mem : other ∈ sources
  base_eq : stripExtension other.1 extensions = source.1
  later : AddedBefore sources source other
  first : ∀ rival ∈ sources, stripExtension rival.1 extensions = source.1 → rival ≠ other →
    AddedBefore sources other rival

theorem Displaces.unique (hnames : (sources.map (·.1)).Nodup) {source other rival : String × String}
    (h : Displaces sources other source) (h' : Displaces sources rival source) : other = rival := by
  by_contra hne
  have hbefore := h.first rival h'.mem h'.base_eq (Ne.symm hne)
  exact hbefore.asymm (List.Nodup.of_map _ hnames) (h'.first other h.mem h.base_eq hne)

/-- The order of adding, cut behind a source. -/
structure CutBehind (sources : List (String × String)) (source : String × String)
    (front back : List (String × String)) : Prop where
  byRank_eq : byRank sources = front ++ source :: back
  name_not_mem : source.1 ∉ back.map (·.1)
  front_not_later : ∀ other ∈ front ++ [source], ¬AddedBefore sources source other
  front_before_back : ∀ first ∈ front ++ [source], ∀ second ∈ back,
    AddedBefore sources first second
  ordered : back.Pairwise (AddedBefore sources)

theorem exists_cutBehind (hnames : (sources.map (·.1)).Nodup) {source : String × String}
    (h : source ∈ sources) : ∃ front back, CutBehind sources source front back := by
  have hasymm {first second : String × String} (hbefore : AddedBefore sources first second) :=
    hbefore.asymm (List.Nodup.of_map _ hnames)
  obtain ⟨front, back, hsplit⟩ := List.append_of_mem (mem_byRank.mpr h)
  obtain ⟨hfront, hback, hacross⟩ :=
    List.pairwise_append.mp (List.append_cons .. ▸ hsplit ▸ pairwise_byRank sources)
  have hsource : source ∈ front ++ [source] := List.mem_append_right _ (.head _)
  refine ⟨front, back, hsplit, fun hmem => ?_, fun other hother hbefore => ?_, hacross, hback⟩
  · obtain ⟨other, hother, hname⟩ := List.mem_map.mp hmem
    have hotherMem : other ∈ sources :=
      mem_byRank.mp (hsplit ▸ List.mem_append_right _ (.tail _ hother))
    obtain rfl := List.inj_on_of_nodup_map hnames hotherMem h hname
    exact hasymm (hacross _ hsource _ hother) (hacross _ hsource _ hother)
  · rcases List.mem_append.mp hother with hotherFront | hotherSource
    · exact hasymm hbefore ((List.pairwise_append.mp hfront).2.2 _ hotherFront _ (.head _))
    · obtain rfl := List.mem_singleton.mp hotherSource
      exact hasymm hbefore hbefore

namespace CutBehind

variable {source : String × String} {front back : List (String × String)}

theorem mem_iff (h : CutBehind sources source front back) {other : String × String} :
    other ∈ sources ↔ other ∈ front ++ [source] ∨ other ∈ back := by
  rw [← mem_byRank, h.byRank_eq, List.append_cons, List.mem_append]

/-- A source behind the cut is written over the one at the cut if it is the first of all with the
name as its base. -/
theorem displaces_iff (h : CutBehind sources source front back) (hnodup : sources.Nodup)
    {other : String × String} :
    Displaces sources other source ↔
      (∀ rival ∈ front ++ [source], stripExtension rival.1 extensions ≠ source.1) ∧
      back.find? (stripExtension ·.1 extensions = source.1) = some other := by
  constructor
  · intro hother
    have hback : other ∈ back :=
      (h.mem_iff.mp hother.mem).resolve_left fun hfront =>
        h.front_not_later other hfront hother.later
    have hno (rival : String × String) (hrival : rival ∈ sources)
        (hbefore : AddedBefore sources rival other) :
        stripExtension rival.1 extensions ≠ source.1 := fun hbase => by
      by_cases hne : rival = other
      · exact hbefore.asymm hnodup (hne ▸ hbefore)
      · exact hbefore.asymm hnodup (hother.first rival hrival hbase hne)
    refine ⟨fun rival hrival => hno rival (h.mem_iff.mpr (.inl hrival))
      (h.front_before_back rival hrival other hback), ?_⟩
    obtain ⟨before, behind, rfl⟩ := List.append_of_mem hback
    refine List.find?_eq_some_iff_append.mpr
      ⟨decide_eq_true hother.base_eq, before, behind, rfl, fun rival hrival => ?_⟩
    have hrivalMem := h.mem_iff.mpr (.inr (List.mem_append_left _ hrival))
    have hbefore := (List.pairwise_append.mp h.ordered).2.2 rival hrival other (.head _)
    simpa using hno rival hrivalMem hbefore
  · rintro ⟨hfront, hfind⟩
    have hback := List.mem_of_find?_eq_some hfind
    have hfound := List.find?_some hfind
    refine ⟨h.mem_iff.mpr (.inr hback), of_decide_eq_true hfound,
      h.front_before_back source (List.mem_append_right _ (.head _)) other hback,
      fun rival hrival hrivalBase hne => ?_⟩
    have hrivalBack : rival ∈ back :=
      (h.mem_iff.mp hrival).resolve_left fun hrivalFront => hfront rival hrivalFront hrivalBase
    exact rel_of_find?_eq_some h.ordered hfind hrivalBack (decide_eq_true hrivalBase) hne

end CutBehind

/-- Under the full name of a source stands the source, unless another one is written over it. -/
theorem get_ofBuiltin_of_mem (hnames : (sources.map (·.1)).Nodup) {source : String × String}
    (h : source ∈ sources) :
    (∃ other, Displaces sources other source ∧
      (ofBuiltin sources).get source.1 = .ok other.2) ∨
    (∀ other, ¬Displaces sources other source) ∧
      (ofBuiltin sources).get source.1 = .ok source.2 := by
  obtain ⟨front, back, hcut⟩ := exists_cutBehind hnames h
  have hdisplaces {other : String × String} : Displaces sources other source ↔ _ :=
    hcut.displaces_iff (List.Nodup.of_map _ hnames)
  have hlookup : (addBuiltin [] [] (front ++ source :: back)).lookup source.1 = _ :=
    lookup_addBuiltin_full hcut.name_not_mem
  rw [← hcut.byRank_eq, ← get?_ofBuiltin] at hlookup
  split at hlookup
  · next hfirst =>
    obtain ⟨rival, hrival, hbase⟩ := hfirst
    refine .inr ⟨fun other hother => (hdisplaces.mp hother).1 rival hrival hbase, ?_⟩
    rw [get, hlookup]
  · next hfirst =>
    cases hfind : back.find? (stripExtension ·.1 extensions = source.1) with
    | none =>
      rw [hfind] at hlookup
      refine .inr ⟨fun other hother => ?_, by rw [get, hlookup]; rfl⟩
      exact Option.some_ne_none _ ((hdisplaces.mp hother).2.symm.trans hfind)
    | some other =>
      rw [hfind] at hlookup
      refine .inl ⟨other, hdisplaces.mpr ⟨fun rival hrival hbase => ?_, hfind⟩, ?_⟩
      · exact hfirst ⟨rival, hrival, hbase⟩
      · rw [get, hlookup]
        rfl

/-- A source is found under its full name exactly if no source with other contents is written over
it; one that is written over it is found in its place. -/
theorem get_ofBuiltin_full_iff (hnames : (sources.map (·.1)).Nodup) {source : String × String}
    (h : source ∈ sources) :
    ((ofBuiltin sources).get source.1 = .ok source.2 ↔
      ∀ other, Displaces sources other source → other.2 = source.2) ∧
    ∀ other, Displaces sources other source → (ofBuiltin sources).get source.1 = .ok other.2 := by
  have hdisplaced (other : String × String) (hother : Displaces sources other source) :
      (ofBuiltin sources).get source.1 = .ok other.2 := by
    rcases get_ofBuiltin_of_mem hnames h with ⟨rival, hrival, hget⟩ | ⟨hnone, -⟩
    · rw [hother.unique hnames hrival, hget]
    · exact absurd hother (hnone other)
  refine ⟨⟨fun hget other hother => ?_, fun hsame => ?_⟩, hdisplaced⟩
  · exact Except.ok.inj ((hdisplaced other hother).symm.trans hget)
  · rcases get_ofBuiltin_of_mem hnames h with ⟨other, hother, hget⟩ | ⟨-, hget⟩
    · rw [hget, hsame other hother]
    · exact hget

theorem get_ofBuiltin_full_iff_nested :
    let sources := [("a.jinja.j2", "nested"), ("a.jinja", "full"), ("a.j2", "last")]
    (sources.map (·.1)).Nodup ∧ ("a.jinja", "full") ∈ sources ∧
      (ofBuiltin sources).get "a.jinja" = .ok "nested" ∧
      (ofBuiltin sources).get "a.j2" = .ok "last" := by
  intro sources
  have hnames : (sources.map (·.1)).Nodup := by decide
  have hmem : ("a.jinja", "full") ∈ sources := by decide
  have hdisplaces : Displaces sources ("a.jinja.j2", "nested") ("a.jinja", "full") :=
    ⟨by decide, by decide, .inl (by decide), by decide⟩
  refine ⟨hnames, hmem, (get_ofBuiltin_full_iff hnames hmem).2 _ hdisplaces, ?_⟩
  refine (get_ofBuiltin_full_iff hnames (show ("a.j2", "last") ∈ sources by decide)).1.mpr ?_
  rintro other ⟨hother, hbase, -⟩
  have hnone : ∀ other ∈ sources, stripExtension other.1 extensions ≠ "a.j2" := by decide
  exact absurd hbase (hnone other hother)

/-- The second source takes the full name of the first. -/
theorem get_ofBuiltin_displaced : ¬∀ sources : List (String × String), (sources.map (·.1)).Nodup →
    ∀ source ∈ sources, (ofBuiltin sources).get source.1 = .ok source.2 := by
  intro h
  have hfull : (ofBuiltin [("a.jinja", "full"), ("a.jinja.j2", "other")]).get "a.jinja"
      = .ok "full" := h _ (by decide) ("a.jinja", "full") (.head _)
  have hother : (ofBuiltin [("a.jinja", "full"), ("a.jinja.j2", "other")]).get "a.jinja"
      = .ok "other" := rfl
  rw [hother] at hfull
  exact absurd (Except.ok.inj hfull) (by decide)

end Library

end LocaleScript.Template
