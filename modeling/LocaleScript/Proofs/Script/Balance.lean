import LocaleScript.Proofs.Script.Nesting
import Mathlib.Data.List.Induction

/-!
# Balanced brackets

Balanced words are given by a grammar: the empty word, and a balanced word between an opening
bracket and its closing one with a balanced word behind it. The stack of open brackets (`nest`)
decides the grammar: a row of brackets leaves it empty exactly if it is balanced
(`nest_eq_some_nil_iff`), and the stack runs dry exactly where no balanced word goes on
(`isSome_nest_iff`).

What lies between both is the shape of a row that leaves brackets open: balanced words with one open
bracket between any two of them (`Leaves`).
-/

namespace LocaleScript.Script

/-! ## The grammar -/

/-- The words whose brackets are balanced. -/
inductive Balanced : List Char → Prop where
  | nil : Balanced []
  | enclose {opener closer : Char} {inner rest : List Char}
      (pair : (opener, closer) ∈ bracketPairs) (hinner : Balanced inner) (hrest : Balanced rest) :
      Balanced (opener :: (inner ++ closer :: rest))

/-- The word is the beginning of a balanced one. -/
def Continues (word : List Char) : Prop :=
  ∃ rest, Balanced (word ++ rest)

/-! ## Balanced words -/

theorem Balanced.append {u v : List Char} (hu : Balanced u) (hv : Balanced v) :
    Balanced (u ++ v) := by
  induction hu with
  | nil => exact hv
  | enclose pair hinner _ _ ih =>
    rw [List.cons_append, List.append_assoc, List.cons_append]
    exact .enclose pair hinner ih

/-- A balanced word leaves the stack as it was. -/
theorem Balanced.nest {w : List Char} (h : Balanced w) (opened : List Char) :
    nest opened w = some opened := by
  induction h generalizing opened with
  | nil => rfl
  | @enclose opener closer inner rest pair _ _ ihinner ihrest =>
    rw [nest_opener (of_mem_bracketPairs pair).1, nest_append, ihinner, Option.bind_some,
      nest_closer pair, ihrest]

/-- In a balanced word, each opening bracket is closed behind a balanced word. -/
theorem Balanced.exists_closer {w : List Char} (h : Balanced w) {before : List Char} {o : Char}
    {behind : List Char} (hw : w = before ++ o :: behind) (ho : isOpener o = true) :
    ∃ inner closer rest, behind = inner ++ closer :: rest ∧ (o, closer) ∈ bracketPairs ∧
      Balanced inner := by
  induction h generalizing before behind with
  | nil => exact absurd hw.symm (List.append_ne_nil_of_right_ne_nil _ (List.cons_ne_nil _ _))
  | @enclose opener closer inner rest pair hinner hrest ihinner ihrest =>
    cases before with
    | nil =>
      obtain ⟨rfl, rfl⟩ := List.cons.inj hw
      exact ⟨inner, closer, rest, rfl, pair, hinner⟩
    | cons c before =>
      have htail := (List.cons.inj hw).2
      rcases List.append_eq_append_iff.mp htail with ⟨mid, hbefore, hmid⟩ | ⟨mid, hinner', hmid⟩
      · cases mid with
        | nil =>
          -- The bracket would be the closing one of the pair.
          obtain ⟨rfl, -⟩ := List.cons.inj hmid
          rw [(of_mem_bracketPairs pair).2.2] at ho
          cases ho
        | cons d mid => exact ihrest (List.cons.inj hmid).2
      · cases mid with
        | nil =>
          obtain ⟨rfl, -⟩ := List.cons.inj hmid
          rw [(of_mem_bracketPairs pair).2.2] at ho
          cases ho
        | cons d mid =>
          obtain ⟨rfl, hbehind⟩ := List.cons.inj hmid
          obtain ⟨inner', closer', rest', rfl, hpair, hbalanced⟩ := ihinner hinner'
          refine ⟨inner', closer', rest' ++ closer :: rest, ?_, hpair, hbalanced⟩
          rw [hbehind]
          exact List.append_assoc ..

/-! ## Rows that leave brackets open -/

/-- The word is made of balanced words with these brackets between them, the last one first. -/
inductive Leaves : List Char → List Char → Prop where
  | balanced {w : List Char} (h : Balanced w) : Leaves w []
  | opened {w inner left : List Char} {o : Char} (h : Leaves w left) (ho : isOpener o = true)
      (hinner : Balanced inner) : Leaves (w ++ o :: inner) (o :: left)

theorem Leaves.append {w left v : List Char} (h : Leaves w left) (hv : Balanced v) :
    Leaves (w ++ v) left := by
  cases h with
  | balanced h => exact .balanced (h.append hv)
  | opened h ho hinner =>
    rw [List.append_assoc, List.cons_append]
    exact .opened h ho (hinner.append hv)

/-- What a row of brackets leaves on the stack is what it leaves open. -/
theorem leaves_of_nest {w left : List Char} (hw : ∀ c ∈ w, isBracket c = true)
    (h : nest [] w = some left) : Leaves w left := by
  -- Induction from the back: the last bracket acts on the stack that the others leave.
  induction w using List.reverseRecOn generalizing left with
  | nil =>
    rw [← Option.some.inj h]
    exact .balanced .nil
  | append_singleton w c ih =>
    have hbefore := fun c hc => hw c (List.mem_append_left _ hc)
    rw [nest_append] at h
    obtain ⟨stack, hstack, hlast⟩ := Option.bind_eq_some_iff.mp h
    rcases isBracket_cases (hw c (List.mem_append_right _ (.head _))) with hopener | ⟨o, pair⟩
    · rw [nest_opener hopener] at hlast
      rw [← Option.some.inj hlast]
      exact .opened (ih hbefore hstack) hopener .nil
    · cases stack with
      | nil =>
        rw [nest_closer_nil pair] at hlast
        cases hlast
      | cons top stack =>
        by_cases htop : top = o
        · subst htop
          rw [nest_closer pair] at hlast
          obtain rfl := Option.some.inj hlast
          cases ih hbefore hstack with
          | opened hleaves _ hinner =>
            rw [List.append_assoc, List.cons_append]
            exact hleaves.append (.enclose pair hinner .nil)
        · rw [nest_closer_ne pair htop] at hlast
          cases hlast

/-! ## The stack decides the grammar -/

/-- The grammar generates the rows of brackets that leave the stack empty. -/
theorem nest_eq_some_nil_iff {w : List Char} (hw : ∀ c ∈ w, isBracket c = true) :
    nest [] w = some [] ↔ Balanced w := by
  constructor
  · intro h
    cases leaves_of_nest hw h with
    | balanced h => exact h
  · exact fun h => h.nest []

/-- What is open can be closed, behind any balanced word. -/
theorem Leaves.exists_rest {w left : List Char} (h : Leaves w left) :
    ∃ rest, ∀ inner, Balanced inner → Balanced (w ++ (inner ++ rest)) := by
  induction h with
  | balanced h =>
    refine ⟨[], fun inner hinner => ?_⟩
    rw [List.append_nil]
    exact h.append hinner
  | @opened w before left o _ ho hbefore ih =>
    obtain ⟨rest, hrest⟩ := ih
    obtain ⟨closer, pair⟩ := exists_pair_of_isOpener ho
    refine ⟨closer :: rest, fun inner hinner => ?_⟩
    have henclosed := hrest _ (.enclose pair (hbefore.append hinner) .nil)
    simpa only [List.append_assoc, List.cons_append, List.nil_append] using henclosed

/-- The stack runs dry where no balanced word goes on. -/
theorem isSome_nest_iff {w : List Char} (hw : ∀ c ∈ w, isBracket c = true) :
    (nest [] w).isSome = true ↔ Continues w := by
  constructor
  · intro h
    obtain ⟨left, hleft⟩ := Option.isSome_iff_exists.mp h
    obtain ⟨rest, hrest⟩ := (leaves_of_nest hw hleft).exists_rest
    exact ⟨rest, hrest [] .nil⟩
  · rintro ⟨rest, hrest⟩
    have hnest := hrest.nest []
    rw [nest_append] at hnest
    obtain ⟨left, hleft, -⟩ := Option.bind_eq_some_iff.mp hnest
    rw [hleft]
    rfl

end LocaleScript.Script
