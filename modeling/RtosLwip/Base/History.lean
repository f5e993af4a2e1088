import Mathlib.Data.List.Basic

/-!
# Histories

A history is a list with its newest element first, so what an element is the
head of is its past. A property of histories that relates each element to its
past is kept as long as the new elements are related to theirs.

## Main definitions

* `EachPast`: Every element is related to its past.

## Theorems

* `eachPast_iff`: The same, for every place the history can be cut at.
-/

namespace RtosLwip

variable {α : Type*}

/-- Every element satisfies `p` together with its past. -/
def EachPast (p : α → List α → Prop) : List α → Prop
  | [] => True
  | e :: past => p e past ∧ EachPast p past

instance decidableEachPast (p : α → List α → Prop) [∀ e past, Decidable (p e past)] :
    ∀ history, Decidable (EachPast p history)
  | [] => .isTrue trivial
  | e :: past =>
    have := decidableEachPast p past
    inferInstanceAs (Decidable (p e past ∧ EachPast p past))

theorem eachPast_iff (p : α → List α → Prop) (history : List α) :
    EachPast p history ↔ ∀ newer e past, history = newer ++ e :: past → p e past := by
  induction history with
  | nil =>
      refine iff_of_true trivial fun newer e past h => ?_
      exact absurd h.symm (List.append_ne_nil_of_right_ne_nil newer (List.cons_ne_nil e past))
  | cons x rest ih =>
      constructor
      · intro h newer e past heq
        cases newer with
        | nil =>
            rw [List.nil_append, List.cons.injEq] at heq
            rw [← heq.1, ← heq.2]
            exact h.1
        | cons y newer =>
            rw [List.cons_append, List.cons.injEq] at heq
            exact ih.mp h.2 newer e past heq.2
      · intro h
        refine ⟨h [] x rest rfl, ih.mpr fun newer e past heq => ?_⟩
        exact h (x :: newer) e past (by rw [heq, List.cons_append])

end RtosLwip
