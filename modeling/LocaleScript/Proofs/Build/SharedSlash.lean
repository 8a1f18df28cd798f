import LocaleScript.Proofs.Build.LineMap
import LocaleScript.Proofs.Build.Substitution

/-!
# Markers that share a slash

Markers are replaced from left to right, and none that begins within another. Two markers can only
overlap in a slash that ends the one and begins the other. The first is replaced then, and the last
slash of the replacement goes on as the second marker. No other marker comes into being: a marker
has no slash but at its ends, so where the replacement meets the text, a new one would need the
slash of the marker that was there before. So no marker is left unless one that is replaced shares
its slash with another (`markerFree_substitute_iff`), and a second pass changes nothing exactly
then.
-/

namespace LocaleScript.Build

open Script

namespace ModuleMarker

/-! ## Texts without markers -/

/-- No marker stands in the text. -/
def MarkerFree (cs : List Char) : Prop :=
  ∀ before text behind, cs = before ++ text ++ behind → ¬IsMarker text

/-- A text has no marker if its two parts have none and no marker lies across. -/
theorem markerFree_append_iff {as bs : List Char} :
    MarkerFree (as ++ bs) ↔ MarkerFree as ∧ MarkerFree bs ∧ Apart as bs := by
  constructor
  · intro h
    refine ⟨fun before text behind has => ?_, fun before text behind hbs => ?_, ?_⟩
    · exact h before text (behind ++ bs) (by rw [has, List.append_assoc])
    · exact h (as ++ before) text behind (by simp only [hbs, List.append_assoc])
    · rintro before x y behind rfl rfl - -
      exact h before (x ++ y) behind (by simp only [List.append_assoc])
  · rintro ⟨has, hbs, hapart⟩ before text behind hcs hmarker
    rw [List.append_assoc] at hcs
    rcases List.append_eq_append_iff.mp hcs with ⟨x, -, hright⟩ | ⟨x, hleft, hx⟩
    · exact hbs x text behind (by rw [hright, List.append_assoc]) hmarker
    rcases List.append_eq_append_iff.mp hx with ⟨y, rfl, -⟩ | ⟨y, rfl, hright⟩
    · exact has before text y (by rw [hleft, List.append_assoc]) hmarker
    · -- The marker begins in the first part and ends in the second.
      cases x with
      | nil => exact hbs [] y behind hright hmarker
      | cons c x =>
        cases y with
        | nil =>
          rw [List.append_nil] at hmarker
          exact has before _ [] (by rw [hleft, List.append_nil]) hmarker
        | cons d y =>
          exact hapart before _ _ behind hleft hright (List.cons_ne_nil _ _)
            (List.cons_ne_nil _ _) hmarker

/-- Every marker of a text begins with a mark or behind the beginning of one. -/
theorem exists_mark_le (start : Nat) (before behind : List Char) {text : List Char}
    (h : IsMarker text) :
    ∃ m ∈ marks start (before ++ text ++ behind), m.start ≤ start + Text.byteLength before := by
  induction before generalizing start with
  | nil =>
    rw [List.nil_append, marks_marker start h]
    exact ⟨_, .head _, Nat.le_refl _⟩
  | cons c before ih =>
    rw [List.cons_append, List.cons_append]
    cases hmarker : marker? (c :: (before ++ text ++ behind)) with
    | none =>
      obtain ⟨m, hm, hle⟩ := ih (start + c.utf8Size)
      rw [marks_cons hmarker]
      exact ⟨m, hm, by rw [Text.byteLength_cons]; omega⟩
    | some rest =>
      obtain ⟨text', htext', hcs⟩ := marker?_eq_some_iff.mp hmarker
      rw [hcs, marks_marker start htext']
      exact ⟨_, .head _, Nat.le_add_right _ _⟩

theorem markerFree_of_marks_eq_nil {start : Nat} {cs : List Char} (h : marks start cs = []) :
    MarkerFree cs := by
  intro before text behind hcs hmarker
  obtain ⟨m, hm, -⟩ := exists_mark_le start before behind hmarker
  rw [← hcs, h] at hm
  cases hm

/-! ## The slashes of a marker -/

/-- A text without slashes in front of a slash is all there is in front of the first one. -/
theorem eq_of_append_slash {as bs cs ds : List Char} (has : '/' ∉ as) (hbs : '/' ∉ bs)
    (h : as ++ '/' :: cs = bs ++ '/' :: ds) : as = bs := by
  obtain ⟨x, rfl, hx⟩ := Text.exists_append_of_not_mem has h
  cases x with
  | nil => exact (List.append_nil as).symm
  | cons c x =>
    obtain ⟨rfl, -⟩ := List.cons.inj hx
    exact absurd (List.mem_append_right as (.head x)) hbs

/-- The text goes on as a marker that a slash in front of it begins. -/
def EndsMarker (cs : List Char) : Prop :=
  ∃ tail behind, cs = tail ++ behind ∧ IsMarker ('/' :: tail)

theorem endsMarker_iff {cs : List Char} :
    EndsMarker cs ↔ ∃ mid behind, cs = mid ++ '/' :: behind ∧ '/' ∉ mid ∧
      IsMarker ('/' :: (mid ++ ['/'])) := by
  constructor
  · rintro ⟨tail, behind, rfl, hmarker⟩
    obtain ⟨mid, htail, hmid⟩ := hmarker.exists_between
    obtain rfl := (List.cons.inj htail).2
    exact ⟨mid, behind, by rw [List.append_assoc]; rfl, hmid, hmarker⟩
  · rintro ⟨mid, behind, rfl, -, hmarker⟩
    exact ⟨mid ++ ['/'], behind, by rw [List.append_assoc]; rfl, hmarker⟩

/-! ## The replacement among its neighbours -/

theorem replacement_eq_cons : ∃ cs, replacement.toList = '/' :: '*' :: '-' :: cs := by
  rw [replacement_toList, firstComment_eq]
  exact ⟨_, rfl⟩

theorem replacement_eq_concat : ∃ cs, replacement.toList = cs ++ ['/'] := by
  refine ⟨replacement.toList.dropLast, ?_⟩
  rw [replacement_toList, firstComment_eq, secondComment_eq]
  rfl

/-- A marker has a character that the replacement lacks. -/
theorem markerFree_replacement : MarkerFree replacement.toList := by
  intro before text behind hcs hmarker
  obtain ⟨inner, rfl, -⟩ := hmarker.inner
  have habsent : '<' ∉ replacement.toList := by
    rw [replacement_toList, firstComment_eq, secondComment_eq]
    decide
  exact habsent (by rw [hcs]; simp)

/-- A marker across the beginning of the replacement ends with its first slash. -/
theorem apart_of_apart_slash {before : List Char} (h : Apart before ['/']) (cs : List Char) :
    Apart before (replacement.toList ++ cs) := by
  obtain ⟨tail, hreplacement⟩ := replacement_eq_cons
  rintro before' x y behind hx hy hne hne' hmarker
  cases y with
  | nil => exact hne' rfl
  | cons c y =>
    rw [hreplacement] at hy
    obtain ⟨rfl, -⟩ := List.cons.inj hy
    rcases hmarker.slash rfl with rfl | rfl
    · exact hne rfl
    · exact h before' x ['/'] [] hx rfl hne hne' hmarker

/-- A marker across the end of the replacement begins with its last slash. -/
theorem apart_replacement_iff {cs : List Char} :
    Apart replacement.toList cs ↔ ¬EndsMarker cs := by
  obtain ⟨init, hinit⟩ := replacement_eq_concat
  rw [hinit]
  constructor
  · rintro h ⟨tail, behind, rfl, hmarker⟩
    refine h init ['/'] tail behind rfl rfl (List.cons_ne_nil _ _) ?_ hmarker
    rintro rfl
    obtain ⟨mid, hmid, -⟩ := hmarker.exists_between
    simp at hmid
  · rintro h before x y behind hx rfl hne hne' hmarker
    obtain ⟨x', rfl⟩ : ∃ x', x = x' ++ ['/'] := by
      rcases List.eq_nil_or_concat x with rfl | ⟨x', c, rfl⟩
      · exact absurd rfl hne
      · rw [List.concat_eq_append, ← List.append_assoc] at hx
        obtain ⟨-, hc⟩ := List.append_inj' hx rfl
        exact ⟨x', by rw [List.concat_eq_append, ← hc]⟩
    rw [List.append_assoc, List.singleton_append] at hmarker
    rcases hmarker.slash rfl with rfl | rfl
    · exact h ⟨y, behind, rfl, hmarker⟩
    · exact hne' rfl

theorem head?_substitute (cs : List Char) : (substitute cs).head? = cs.head? := by
  rcases marks_cases 0 cs with ⟨-, hsub⟩ | ⟨before, text, rest, hcs, htext, -, hsub⟩
  · rw [hsub]
  · obtain ⟨tail, hreplacement⟩ := replacement_eq_cons
    obtain ⟨mid, rfl, -⟩ := htext.exists_between
    rw [hsub, hcs, hreplacement]
    cases before <;> rfl

/-- Whether a text goes on as a marker depends on its first slash and what is in front, and markers
leave both alone. -/
theorem endsMarker_substitute_iff (cs : List Char) :
    EndsMarker (substitute cs) ↔ EndsMarker cs := by
  by_cases hslash : '/' ∈ cs
  · obtain ⟨front, rest, rfl, hfront⟩ := List.eq_append_cons_of_mem hslash
    obtain ⟨rest', hrest'⟩ : ∃ rest', substitute ('/' :: rest) = '/' :: rest' :=
      List.head?_eq_some_iff.mp (head?_substitute _)
    have hsub : substitute (front ++ '/' :: rest) = front ++ '/' :: rest' := by
      rw [substitute_append (apart_of_slash_not_mem_left hfront _),
        substitute_of_slash_not_mem hfront, hrest']
    rw [hsub, endsMarker_iff, endsMarker_iff]
    constructor
    · rintro ⟨mid, behind, hcs, hmid, hmarker⟩
      obtain rfl := eq_of_append_slash hfront hmid hcs
      exact ⟨front, rest, rfl, hfront, hmarker⟩
    · rintro ⟨mid, behind, hcs, hmid, hmarker⟩
      obtain rfl := eq_of_append_slash hfront hmid hcs
      exact ⟨front, rest', rfl, hfront, hmarker⟩
  · rw [substitute_of_slash_not_mem hslash]

/-! ## What a pass leaves -/

/-- Some marker that is replaced in a text, which begins at a byte offset, shares its last slash
with another one. -/
def SharesSlash (start : Nat) (cs : List Char) : Prop :=
  ∃ before text rest, cs = before ++ text ++ rest ∧
    ⟨start + Text.byteLength before, text⟩ ∈ marks start cs ∧ EndsMarker rest

/-- The front of a text up to its first marker has no marker, not even one that ends with the slash
of the marker. -/
theorem markerFree_front {start : Nat} {before text rest : List Char} (htext : IsMarker text)
    (hmarks : marks start (before ++ text ++ rest) = ⟨start + Text.byteLength before, text⟩
      :: marks (start + Text.byteLength (before ++ text)) rest) :
    MarkerFree (before ++ ['/']) := by
  intro before' text' behind' hfront hmarker
  obtain ⟨mid, rfl, -⟩ := htext.exists_between
  obtain ⟨m, hm, hle⟩ := exists_mark_le start before' (behind' ++ (mid ++ ['/']) ++ rest) hmarker
  have hcs : before' ++ text' ++ (behind' ++ (mid ++ ['/']) ++ rest)
      = before ++ '/' :: (mid ++ ['/']) ++ rest := by
    simp only [← List.append_assoc, ← hfront]
    simp
  rw [hcs, hmarks] at hm
  have hge : start + Text.byteLength before ≤ m.start := by
    rcases List.mem_cons.mp hm with rfl | hm
    · exact Nat.le_refl _
    · have hlater := start_le_of_mem_marks hm
      rw [Text.byteLength_append] at hlater
      omega
  -- Only a slash is left for the marker.
  have hlength := congrArg Text.byteLength hfront
  obtain ⟨mid', rfl, -⟩ := hmarker.exists_between
  have hslash : Text.byteLength ['/'] = 1 := rfl
  have hone : '/'.utf8Size = 1 := rfl
  simp only [Text.byteLength_append, Text.byteLength_cons, hslash, hone] at hlength
  omega

theorem sharesSlash_iff {start : Nat} {before text rest : List Char} (htext : IsMarker text)
    (hmarks : marks start (before ++ text ++ rest) = ⟨start + Text.byteLength before, text⟩
      :: marks (start + Text.byteLength (before ++ text)) rest) :
    SharesSlash start (before ++ text ++ rest)
      ↔ EndsMarker rest ∨ SharesSlash (start + Text.byteLength (before ++ text)) rest := by
  constructor
  · rintro ⟨before', text', rest', hcs, hmem, hends⟩
    rw [hmarks] at hmem
    rcases List.mem_cons.mp hmem with heq | hmem
    · obtain ⟨hstart, rfl⟩ := Mark.mk.inj heq
      rw [List.append_assoc, List.append_assoc] at hcs
      obtain ⟨rfl, hbehind⟩ := Text.append_inj_of_byteLength hcs (by omega)
      obtain rfl := List.append_cancel_left hbehind
      exact .inl hends
    · -- The other markers begin behind the first.
      have hle : start + Text.byteLength (before ++ text) ≤ start + Text.byteLength before' :=
        start_le_of_mem_marks hmem
      rw [List.append_assoc before'] at hcs
      obtain ⟨gap, rfl⟩ := Text.exists_append_of_byteLength_le hcs (by omega)
      rw [Text.byteLength_append (before ++ text), ← Nat.add_assoc] at hmem
      rw [List.append_assoc (before ++ text)] at hcs
      refine .inr ⟨gap, text', rest', ?_, hmem, hends⟩
      rw [List.append_cancel_left hcs, List.append_assoc]
  · rintro (hends | ⟨before', text', rest', rfl, hmem, hends⟩)
    · exact ⟨before, text, rest, rfl, by rw [hmarks]; exact .head _, hends⟩
    · refine ⟨before ++ text ++ before', text', rest', by simp only [List.append_assoc], ?_, hends⟩
      rw [hmarks, Text.byteLength_append (before ++ text), ← Nat.add_assoc]
      exact .tail _ hmem

/-- A pass leaves no marker unless one that it replaces shares its slash with another. -/
theorem markerFree_substitute_iff (start : Nat) (cs : List Char) :
    MarkerFree (substitute cs) ↔ ¬SharesSlash start cs := by
  induction hn : cs.length using Nat.strongRecOn generalizing start cs with
  | ind n ih =>
    rcases marks_cases start cs with ⟨hmarks, hsub⟩ | ⟨before, text, rest, rfl, htext, hmarks, hsub⟩
    · rw [hsub]
      refine iff_of_true (markerFree_of_marks_eq_nil hmarks) ?_
      rintro ⟨before, text, rest, -, hmem, -⟩
      rw [hmarks] at hmem
      cases hmem
    · have hshorter : rest.length < n := by
        have hpos := List.length_pos_iff.mpr htext.ne_nil
        rw [← hn, List.length_append, List.length_append]
        omega
      obtain ⟨hfront, -, hslash⟩ := markerFree_append_iff.mp (markerFree_front htext hmarks)
      have hapart := apart_of_apart_slash hslash (substitute rest)
      rw [hsub, List.append_assoc, markerFree_append_iff, markerFree_append_iff,
        apart_replacement_iff, endsMarker_substitute_iff, sharesSlash_iff htext hmarks,
        ih rest.length hshorter _ rest rfl]
      constructor
      · rintro ⟨-, ⟨-, hrest, hends⟩, -⟩ (hends' | hrest')
        · exact hends hends'
        · exact hrest hrest'
      · intro hnone
        exact ⟨hfront, ⟨markerFree_replacement, fun hrest => hnone (.inr hrest),
          fun hends => hnone (.inl hends)⟩, hapart⟩

/-- A pass changes nothing exactly in a text without markers. -/
theorem substitute_eq_self_iff {cs : List Char} : substitute cs = cs ↔ MarkerFree cs := by
  refine ⟨fun hself => ?_, substitute_eq_self⟩
  rcases marks_cases 0 cs with ⟨hmarks, -⟩ | ⟨before, text, rest, hcs, htext, -, hsub⟩
  · exact markerFree_of_marks_eq_nil hmarks
  · obtain ⟨tail, hreplacement⟩ := replacement_eq_cons
    obtain ⟨inner, rfl, -⟩ := htext.inner
    rw [hsub, hreplacement, hcs, List.append_assoc, List.append_assoc] at hself
    have hbehind := List.append_cancel_left hself
    simp at hbehind

end ModuleMarker

/-! ## The transform -/

open ModuleMarker

/-- Putting in the module definition changes nothing exactly in code without markers. -/
theorem apply_moduleDefinition_eq_self_iff (file : Compiled) :
    Transform.moduleDefinition.apply file = .ok file ↔ MarkerFree file.code.toList := by
  rw [← substitute_eq_self_iff]
  constructor
  · intro hself
    have hcode := congrArg (fun file => file.code.toList) (Except.ok.inj hself)
    simpa only [String.toList_ofList] using hcode
  · intro hself
    simp only [Transform.moduleDefinition, hself, String.ofList_toList]

/-- Putting in the module definition leaves the source map alone. It leaves no marker, and doing it
again changes nothing, exactly if no marker that is replaced shares its last slash with another. -/
theorem moduleDefinition_complete_iff (file : Compiled) :
    ∃ file', Transform.moduleDefinition.apply file = .ok file' ∧ file'.map = file.map ∧
      (MarkerFree file'.code.toList ↔ ¬SharesSlash 0 file.code.toList) ∧
      (Transform.moduleDefinition.apply file' = .ok file' ↔ ¬SharesSlash 0 file.code.toList) := by
  have hfree := markerFree_substitute_iff 0 file.code.toList
  refine ⟨{ file with code := String.ofList (substitute file.code.toList) }, rfl, rfl, ?_, ?_⟩
  · rw [String.toList_ofList]
    exact hfree
  · rw [apply_moduleDefinition_eq_self_iff, String.toList_ofList]
    exact hfree

/-- Two markers in a string share a slash: the replacement of the first goes on as the second. -/
theorem moduleDefinition_sharedSlash :
    ∃ compiled file', wrap "'/*<<module_def>> */*<<module_def>> */'" ⟨true, false, ""⟩
        = .ok compiled ∧
      Transform.moduleDefinition.apply compiled = .ok file' ∧ ¬MarkerFree file'.code.toList ∧
      Transform.moduleDefinition.apply file' ≠ .ok file' := by
  have hclosed : closeLastLine "'/*<<module_def>> */*<<module_def>> */'"
      = "'/*<<module_def>> */*<<module_def>> */'\n" := by
    decide +kernel
  have hsub : substitute "'/*<<module_def>> */*<<module_def>> */'\n".toList
      = "'/*-module-*/\n/*_lib/twitter_cldr_*/*<<module_def>> */'\n".toList := by decide +kernel
  have hmarker : IsMarker "/*<<module_def>> */".toList :=
    ⟨[' '], List.cons_ne_nil _ _, List.forall_mem_singleton.mpr rfl, by decide +kernel⟩
  have hleft : ¬MarkerFree (String.ofList (substitute
      (closeLastLine "'/*<<module_def>> */*<<module_def>> */'").toList)).toList := by
    intro hfree
    rw [String.toList_ofList, hclosed, hsub] at hfree
    exact hfree "'/*-module-*/\n/*_lib/twitter_cldr_*".toList _ "'\n".toList (by decide +kernel)
      hmarker
  refine ⟨_, _, wrap_bare (by decide +kernel) "", rfl, hleft, ?_⟩
  rw [ne_eq, apply_moduleDefinition_eq_self_iff]
  exact hleft

end LocaleScript.Build
