import LocaleScript.Text.Blank

/-!
# The marker of the module definition

A bundle carries a marker comment where the host puts its module definition. `substitute` replaces
every marker by the comments that the host looks for. The replacement holds no marker, and neither
does what stands between the markers.

## Termination

A marker is not empty, so what stands behind it is shorter (`length_lt_of_marker?`).
-/

namespace LocaleScript.Build.ModuleMarker

/-- How a marker begins; blanks, at least one, stand between its two ends. -/
def opening : List Char := "/*<<module_def>>".toList

/-- How a marker ends. -/
def closing : List Char := "*/".toList

/-- The comments that take the place of a marker. -/
def replacement : String := "/*-module-*/\n/*_lib/twitter_cldr_*/"

/-- How the comments of the replacement begin behind their slash and star. -/
def commentStarts : List String := ["-module-", "_lib/"]

/-- What stands behind a beginning, if the text begins so. -/
def behind? : List Char → List Char → Option (List Char)
  | [], cs => some cs
  | _ :: _, [] => none
  | p :: ps, c :: cs => if p = c then behind? ps cs else none

/-- What stands behind the marker that the text begins with. -/
def marker? (cs : List Char) : Option (List Char) :=
  match behind? opening cs with
  | some (blank :: rest) =>
    if Text.isBlank blank then behind? closing (rest.dropWhile Text.isBlank) else none
  | _ => none

/-- A text is a beginning and what stands behind it. -/
theorem eq_append_of_behind? {start cs rest : List Char} (h : behind? start cs = some rest) :
    cs = start ++ rest := by
  induction start generalizing cs with
  | nil => simpa [behind?] using h
  | cons p ps ih =>
    cases cs with
    | nil => simp [behind?] at h
    | cons c cs =>
      simp only [behind?] at h
      split at h
      · next hp => rw [hp, ih h, List.cons_append]
      · cases h

theorem length_lt_of_marker? {cs rest : List Char} (h : marker? cs = some rest) :
    rest.length < cs.length := by
  simp only [marker?] at h
  split at h
  · next blank behind hopening =>
    split at h
    · have hcs := congrArg List.length (eq_append_of_behind? hopening)
      have hrest := congrArg List.length (eq_append_of_behind? h)
      have hdrop := (List.dropWhile_sublist Text.isBlank (l := behind)).length_le
      simp only [List.length_append, List.length_cons] at hcs hrest
      omega
    · cases h
  · cases h

/-- The text with every marker replaced, from left to right. -/
def substitute : List Char → List Char
  | [] => []
  | c :: cs =>
    match h : marker? (c :: cs) with
    | some rest =>
      have : rest.length < (c :: cs).length := length_lt_of_marker? h
      replacement.toList ++ substitute rest
    | none => c :: substitute cs
termination_by cs => cs.length
decreasing_by
  · exact this
  · exact Nat.lt_succ_self _

end LocaleScript.Build.ModuleMarker
