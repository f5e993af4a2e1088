import Mathlib.Data.List.Basic

/-!
# Scanning a List for a Better Element

The loop that keeps one element of a list and replaces it whenever the next one
satisfies a test against it. Nothing is asked of the test: it need not be an
order, so the last element kept need not be related to those kept before.

What is left is that the result is one of the elements, and that either nothing
was ever replaced or the result has replaced an element.

## Main definitions

* `scan`: The element kept at the end.

## Theorems

* `scan_mem`: The result is the first element or one of the others.
* `scan_eq_or_replaces`: Nothing was replaced, or the result replaced something.
* `scan_eq_of_forall_not`: Nothing is replaced where the test always fails.
-/

namespace RtosLwip

variable {α : Type*} (test : α → α → Prop) [DecidableRel test]

/-- Keep `a`, and replace what is kept by each element that passes the test
    against it. -/
def scan (a : α) (l : List α) : α :=
  l.foldl (fun kept x => if test x kept then x else kept) a

theorem scan_cons (a x : α) (l : List α) :
    scan test a (x :: l) = scan test (if test x a then x else a) l := rfl

theorem scan_mem (a : α) (l : List α) : scan test a l ∈ a :: l := by
  induction l generalizing a with
  | nil => exact List.mem_cons_self
  | cons x rest ih =>
      rw [scan_cons]
      rcases List.mem_cons.mp (ih (if test x a then x else a)) with h | h
      · rw [h]
        split
        · exact List.mem_cons_of_mem _ List.mem_cons_self
        · exact List.mem_cons_self
      · exact List.mem_cons_of_mem _ (List.mem_cons_of_mem _ h)

/-- Nothing was ever replaced, or the result has replaced an element. -/
theorem scan_eq_or_replaces (a : α) (l : List α) :
    (scan test a l = a ∧ ∀ x ∈ l, ¬ test x a) ∨ ∃ b ∈ a :: l, test (scan test a l) b := by
  induction l generalizing a with
  | nil => exact Or.inl ⟨rfl, fun x hx => absurd hx List.not_mem_nil⟩
  | cons x rest ih =>
      rw [scan_cons]
      by_cases hx : test x a
      · rw [if_pos hx]
        -- `x` is kept from here on, unless it is itself replaced
        rcases ih x with ⟨heq, -⟩ | ⟨b, hb, htest⟩
        · exact Or.inr ⟨a, List.mem_cons_self, by rw [heq]; exact hx⟩
        · exact Or.inr ⟨b, List.mem_cons_of_mem _ hb, htest⟩
      · rw [if_neg hx]
        rcases ih a with ⟨heq, hnone⟩ | ⟨b, hb, htest⟩
        · refine Or.inl ⟨heq, fun y hy => ?_⟩
          rcases List.mem_cons.mp hy with rfl | hy
          · exact hx
          · exact hnone y hy
        · refine Or.inr ⟨b, ?_, htest⟩
          rcases List.mem_cons.mp hb with rfl | hb
          · exact List.mem_cons_self
          · exact List.mem_cons_of_mem _ (List.mem_cons_of_mem _ hb)

theorem scan_eq_of_forall_not (a : α) (l : List α) (h : ∀ x ∈ l, ¬ test x a) :
    scan test a l = a := by
  induction l with
  | nil => rfl
  | cons x rest ih =>
      rw [scan_cons, if_neg (h x List.mem_cons_self)]
      exact ih fun y hy => h y (List.mem_cons_of_mem _ hy)

end RtosLwip
