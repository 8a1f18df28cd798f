import LocaleScript.Template.Library

/-!
# Extensions of names

A name ends in one known extension at most, since none of them ends in another. So a name either is
a base with the extension that gives it its rank (`rank_append`, `stripExtension_append`), or it has
no known extension, is its own base and has the last rank (`Plain`).

Built-in sources are added in the order `AddedBefore`, and `byRank` puts them in it
(`pairwise_byRank`).
-/

namespace LocaleScript.Template

/-! ## Endings -/

theorem endsIn_iff {ending name : String} :
    endsIn ending name = true ↔ ∃ base, name = base ++ ending := by
  rw [endsIn, List.isSuffixOf_iff_suffix]
  constructor
  · rintro ⟨base, hname⟩
    refine ⟨String.ofList base, String.toList_inj.mp ?_⟩
    rw [String.toList_append, String.toList_ofList, hname]
  · rintro ⟨base, rfl⟩
    exact ⟨base.toList, (String.toList_append ..).symm⟩

theorem endsIn_append (base ending : String) : endsIn ending (base ++ ending) = true :=
  endsIn_iff.mpr ⟨base, rfl⟩

/-- No extension ends in another one. -/
theorem eq_of_endsIn {name first second : String} (hfirst : first ∈ extensions)
    (hsecond : second ∈ extensions) (h : endsIn first name = true)
    (h' : endsIn second name = true) : first = second := by
  have hall : ∀ e ∈ extensions, ∀ f ∈ extensions, e.toList <:+ f.toList → e = f := by decide
  rw [endsIn, List.isSuffixOf_iff_suffix] at h h'
  rcases List.suffix_or_suffix_of_suffix h h' with hsuffix | hsuffix
  · exact hall first hfirst second hsecond hsuffix
  · exact (hall second hsecond first hfirst hsuffix).symm

/-- The name has no known extension. -/
def Plain (name : String) : Prop :=
  ∀ extension ∈ extensions, endsIn extension name = false

/-- A name is a base with a known extension, or has none. -/
theorem exists_base_or_plain (name : String) :
    (∃ base, ∃ extension ∈ extensions, name = base ++ extension) ∨ Plain name := by
  by_cases h : ∃ extension ∈ extensions, endsIn extension name = true
  · obtain ⟨extension, hextension, hend⟩ := h
    obtain ⟨base, hname⟩ := endsIn_iff.mp hend
    exact .inl ⟨base, extension, hextension, hname⟩
  · refine .inr fun extension hextension => Bool.eq_false_iff.mpr fun hend => h ?_
    exact ⟨extension, hextension, hend⟩

/-! ## Bases -/

theorem stripExtension_append {extension : String} (h : extension ∈ extensions) (base : String) :
    stripExtension (base ++ extension) extensions = base := by
  have hend := endsIn_append base extension
  obtain ⟨found, hfound⟩ : ∃ found,
      extensions.find? (fun ending => endsIn ending (base ++ extension)) = some found :=
    Option.isSome_iff_exists.mp (List.find?_isSome.mpr ⟨extension, h, hend⟩)
  have hfoundEnd : endsIn found (base ++ extension) = true :=
    List.find?_some (p := fun ending => endsIn ending (base ++ extension)) hfound
  obtain rfl := eq_of_endsIn (List.mem_of_find?_eq_some hfound) h hfoundEnd hend
  have hlength : (base ++ found).length - found.length = base.toList.length := by
    rw [String.length_append, Nat.add_sub_cancel, String.length_toList]
  rw [stripExtension, hfound]
  dsimp only
  rw [hlength, String.toList_append, List.take_left, String.ofList_toList]

theorem Plain.stripExtension {name : String} (h : Plain name) :
    stripExtension name extensions = name := by
  have hnone : extensions.find? (fun ending => endsIn ending name) = none :=
    List.find?_eq_none.mpr fun extension hextension => Bool.eq_false_iff.mp (h extension hextension)
  rw [Template.stripExtension, hnone]

/-! ## Ranks -/

namespace Library

theorem rank_append {i : Nat} {extension : String} (h : extensions[i]? = some extension)
    (base : String) : rank (base ++ extension) = i := by
  obtain ⟨hlt, hi⟩ := List.getElem?_eq_some_iff.mp h
  have hfind : extensionRank? (base ++ extension) extensions = some i := by
    refine List.findIdx?_eq_some_iff_getElem.mpr ⟨hlt, hi ▸ endsIn_append base extension, ?_⟩
    intro j hj hend
    have hsame := eq_of_endsIn (List.getElem_mem _) (List.getElem_mem hlt) hend
      (hi ▸ endsIn_append base extension)
    have hnodup : extensions.Nodup := by decide
    exact Nat.ne_of_lt hj ((List.getElem_inj hnodup).mp hsame)
  rw [rank, hfind, Option.getD_some]

theorem rank_of_plain {name : String} (h : Plain name) : rank name = extensions.length := by
  have hnone : extensionRank? name extensions = none := List.findIdx?_eq_none_iff.mpr h
  rw [rank, hnone, Option.getD_none]

/-- A name is made up of its base and its rank. -/
theorem eq_of_rank_of_stripExtension {first second : String} (hrank : rank first = rank second)
    (h : stripExtension first extensions = stripExtension second extensions) : first = second := by
  have hne {base extension plain : String} (hextension : extension ∈ extensions)
      (hplain : Plain plain) : rank (base ++ extension) ≠ rank plain := by
    obtain ⟨i, hi⟩ := List.mem_iff_getElem?.mp hextension
    rw [rank_append hi, rank_of_plain hplain]
    exact Nat.ne_of_lt (List.getElem?_eq_some_iff.mp hi).1
  rcases exists_base_or_plain first with ⟨base, extension, hextension, rfl⟩ | hfirst <;>
    rcases exists_base_or_plain second with ⟨base', extension', hextension', rfl⟩ | hsecond
  · obtain ⟨i, hi⟩ := List.mem_iff_getElem?.mp hextension
    obtain ⟨j, hj⟩ := List.mem_iff_getElem?.mp hextension'
    rw [rank_append hi, rank_append hj] at hrank
    rw [stripExtension_append hextension, stripExtension_append hextension'] at h
    rw [h, Option.some.inj (hi.symm.trans (hrank ▸ hj))]
  · exact absurd hrank (hne hextension hsecond)
  · exact absurd hrank.symm (hne hextension' hfirst)
  · rwa [hfirst.stripExtension, hsecond.stripExtension] at h

/-! ## The order of adding -/

/-- Of two built-in sources, the first is added before the second: it has the lesser rank, or it has
the same rank and is listed first. -/
def AddedBefore (sources : List (String × String)) (first second : String × String) : Prop :=
  rank first.1 < rank second.1 ∨
    rank first.1 = rank second.1 ∧ [first, second].Sublist sources

instance (sources : List (String × String)) (first second : String × String) :
    Decidable (AddedBefore sources first second) :=
  inferInstanceAs (Decidable (_ ∨ _))

theorem pairwise_byRank (sources : List (String × String)) :
    (byRank sources).Pairwise (AddedBefore sources) := by
  refine List.pairwise_flatMap.mpr ⟨fun r _ => ?_, List.pairwise_lt_range.imp fun hlt => ?_⟩
  · refine List.pairwise_iff_forall_sublist.mpr fun {first second} hsublist => ?_
    have hrank {source : String × String} (h : source ∈ [first, second]) : rank source.1 = r :=
      of_decide_eq_true (List.mem_filter.mp (hsublist.subset h)).2
    exact .inr ⟨(hrank (.head _)).trans (hrank (.tail _ (.head _))).symm,
      hsublist.trans List.filter_sublist⟩
  · intro first hfirst second hsecond
    have hone := of_decide_eq_true (List.mem_filter.mp hfirst).2
    have htwo := of_decide_eq_true (List.mem_filter.mp hsecond).2
    exact .inl (hone ▸ htwo ▸ hlt)

/-- In an ordered list, what is found stands before all else that has the property. -/
theorem rel_of_find?_eq_some {α : Type} {R : α → α → Prop} {p : α → Bool} {items : List α}
    (hordered : items.Pairwise R) {found rival : α} (hfind : items.find? p = some found)
    (hrival : rival ∈ items) (hp : p rival = true) (hne : rival ≠ found) : R found rival := by
  obtain ⟨-, before, behind, rfl, hbefore⟩ := List.find?_eq_some_iff_append.mp hfind
  have hbehind : rival ∈ behind := by
    rcases List.mem_append.mp hrival with hrival | hrival
    · exact absurd hp (by simpa using hbefore rival hrival)
    · exact (List.mem_cons.mp hrival).resolve_left hne
  exact List.rel_of_pairwise_cons (List.pairwise_append.mp hordered).2.1 hbehind

theorem not_sublist_swap {α : Type} {items : List α} (hnodup : items.Nodup) {first second : α}
    (h : [first, second].Sublist items) : ¬[second, first].Sublist items := by
  intro hswap
  induction items with
  | nil => cases h
  | cons item items ih =>
    obtain ⟨hitem, hnodup⟩ := List.nodup_cons.mp hnodup
    cases h with
    | cons _ h =>
      cases hswap with
      | cons _ hswap => exact ih hnodup h hswap
      | cons_cons _ hswap => exact hitem (h.subset (.tail _ (.head _)))
    | cons_cons _ h =>
      cases hswap with
      | cons _ hswap => exact hitem (hswap.subset (.tail _ (.head _)))
      | cons_cons _ hswap => exact hitem (h.subset (.head _))

theorem AddedBefore.asymm {sources : List (String × String)} (hnodup : sources.Nodup)
    {first second : String × String} (h : AddedBefore sources first second) :
    ¬AddedBefore sources second first := by
  rintro (hlt | ⟨hrank, hsecond⟩)
  · rcases h with h | ⟨h, -⟩
    · exact Nat.lt_asymm h hlt
    · exact Nat.ne_of_lt hlt h.symm
  · rcases h with h | ⟨-, hfirst⟩
    · exact Nat.ne_of_lt h hrank.symm
    · exact not_sublist_swap hnodup hfirst hsecond

end Library

end LocaleScript.Template
