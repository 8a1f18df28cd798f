import LocaleScript.Template.Error

/-!
# Libraries of template sources

A library holds sources under names: built-in ones, each under its full name and, if it has a known
extension, under the name without it, and others that were added and stand before the built-in ones.
Where built-in sources differ in the extension only, the short name belongs to the first extension.
Names come out in order, the built-in ones first.
-/

namespace LocaleScript.Template

/-- The known extensions, the preferred first. -/
def extensions : List String := [".jinja", ".jinja2", ".j2"]

/-- The text ends in the given way. -/
def endsIn (ending text : String) : Bool :=
  ending.toList.isSuffixOf text.toList

/-- The place of the first extension that a name ends in. -/
def extensionRank? (name : String) (extensions : List String) : Option Nat :=
  extensions.findIdx? fun ending => endsIn ending name

/-- The name without the first extension that it ends in. -/
def stripExtension (name : String) (extensions : List String) : String :=
  match extensions.find? fun ending => endsIn ending name with
  | some ending => String.ofList (name.toList.take (name.length - ending.length))
  | none => name

/-- Sets the source under a name in a list sorted by name. -/
def placeSorted (name source : String) : List (String × String) → List (String × String)
  | [] => [(name, source)]
  | (n, s) :: rest =>
    if name < n then (name, source) :: (n, s) :: rest
    else if name = n then (name, source) :: rest
    else (n, s) :: placeSorted name source rest

/-- Sources of templates under names. -/
structure Library where
  /-- Built-in sources, sorted by name. -/
  builtin : List (String × String)
  /-- Added sources, sorted by name. -/
  added : List (String × String)
deriving Repr

namespace Library

/-- The library without sources. -/
def empty : Library := ⟨[], []⟩

/-- Adds built-in sources in turn: each under its full name, and under the name without extension
unless that name was given away before. -/
def addBuiltin (taken : List String) (builtin : List (String × String)) :
    List (String × String) → List (String × String)
  | [] => builtin
  | (name, source) :: rest =>
    let base := stripExtension name extensions
    let full := placeSorted name source builtin
    if taken.contains base then addBuiltin taken full rest
    else addBuiltin (base :: taken) (placeSorted base source full) rest

/-- The rank by which built-in sources are added: known extensions in their order, then the rest. -/
def rank (name : String) : Nat :=
  (extensionRank? name extensions).getD extensions.length

/-- The sources by rank, those of the same rank in the given order. -/
def byRank (sources : List (String × String)) : List (String × String) :=
  (List.range (extensions.length + 1)).flatMap fun r => sources.filter (rank ·.1 = r)

/-- The library of built-in sources, preferred extensions first. -/
def ofBuiltin (sources : List (String × String)) : Library :=
  ⟨addBuiltin [] [] (byRank sources), []⟩

/-- No name has a rank past the known extensions. -/
theorem rank_le (name : String) : rank name ≤ extensions.length := by
  unfold rank extensionRank?
  cases h : extensions.findIdx? fun ending => endsIn ending name with
  | none => simp
  | some i =>
    rw [List.findIdx?_eq_some_iff_getElem] at h
    obtain ⟨hlt, _⟩ := h
    exact Nat.le_of_lt hlt

/-- Ordering by rank loses no source and brings none in. -/
theorem mem_byRank {sources : List (String × String)} {source : String × String} :
    source ∈ byRank sources ↔ source ∈ sources := by
  simp only [byRank, List.mem_flatMap, List.mem_range, List.mem_filter, decide_eq_true_eq]
  constructor
  · rintro ⟨_, _, h, _⟩
    exact h
  · intro h
    exact ⟨rank source.1, Nat.lt_succ_of_le (rank_le source.1), h, rfl⟩

/-- Adds a source, in place of any other of this name. -/
def add (library : Library) (name source : String) : Library :=
  { library with added := placeSorted name source library.added }

/-- The source under a name. -/
def get? (library : Library) (name : String) : Option String :=
  (library.added.lookup name).or (library.builtin.lookup name)

/-- The source under a name, or the error that there is none. -/
def get (library : Library) (name : String) : Except RenderError String :=
  match library.get? name with
  | some source => .ok source
  | none => .error (.unregistered name)

/-- The sources under their names: the built-in ones that no added one replaces, then the added. -/
def entries (library : Library) : List (String × String) :=
  library.builtin.filter (fun entry => (library.added.lookup entry.1).isNone) ++ library.added

/-- The names in order. -/
def names (library : Library) : List String :=
  library.entries.map (·.1)

/-- The number of names. -/
def size (library : Library) : Nat :=
  library.entries.length

/-- The library has no sources. -/
def isEmpty (library : Library) : Bool :=
  library.builtin.isEmpty && library.added.isEmpty

/-- What a lookup says about a name that is not there. -/
def missingMessage (name : String) : String :=
  "Template not found: \"" ++ name ++ "\""

end Library

end LocaleScript.Template
