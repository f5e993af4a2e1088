import Mathlib.Data.List.Basic
import Mathlib.Logic.Function.Basic

/-!
# Linked Lists

Cells that lead to one another. `Linked next p xs e` says that whoever follows
`next` from `p` on meets the cells `xs` and then comes to `e`, which is where the
list ends: a null pointer, an end marker, or any other cell that is known.

The lemmas are those that a program which changes links needs: a list is cut where
the link changes, the parts do not see the change, and are put together again.

## Main definitions

* `Linked`: The cells met between two of them.

## Theorems

* `linked_append`: A list in two parts.
* `linked_congr`: Links that are not followed do not matter.
* `linked_retarget`: The last of the links leads somewhere else.
-/

namespace RtosLwip

variable {ι : Type*}

/-- Whoever follows `next` from `p` on meets `xs`, and then `e`. -/
def Linked (next : ι → ι) : ι → List ι → ι → Prop
  | p, [], e => p = e
  | p, x :: xs, e => p = x ∧ Linked next (next x) xs e

@[simp] theorem linked_nil {next : ι → ι} {p e : ι} : Linked next p [] e ↔ p = e := Iff.rfl

@[simp] theorem linked_cons {next : ι → ι} {p x e : ι} {xs : List ι} :
    Linked next p (x :: xs) e ↔ p = x ∧ Linked next (next x) xs e := Iff.rfl

theorem linked_append {next : ι → ι} {p e : ι} {xs ys : List ι} :
    Linked next p (xs ++ ys) e ↔ ∃ m, Linked next p xs m ∧ Linked next m ys e := by
  induction xs generalizing p with
  | nil =>
      constructor
      · intro h
        exact ⟨p, rfl, h⟩
      · rintro ⟨m, rfl, h⟩
        exact h
  | cons x xs ih =>
      rw [List.cons_append, linked_cons, ih]
      constructor
      · rintro ⟨hp, m, hxs, hys⟩
        exact ⟨m, ⟨hp, hxs⟩, hys⟩
      · rintro ⟨m, ⟨hp, hxs⟩, hys⟩
        exact ⟨hp, m, hxs, hys⟩

/-- Links that are not followed do not matter. -/
theorem linked_congr {next next' : ι → ι} {p e : ι} {xs : List ι}
    (h : ∀ x ∈ xs, next' x = next x) : Linked next' p xs e ↔ Linked next p xs e := by
  induction xs generalizing p with
  | nil => exact Iff.rfl
  | cons x xs ih =>
      rw [linked_cons, linked_cons, h x List.mem_cons_self,
        ih fun y hy => h y (List.mem_cons_of_mem x hy)]

/-- The last cell leads to the end. -/
theorem linked_last {next : ι → ι} {q m : ι} {xs : List ι} (h : Linked next (next q) xs m) :
    next (xs.getLastD q) = m := by
  induction xs generalizing q with
  | nil => exact h
  | cons x xs ih =>
      rw [List.getLastD_cons]
      exact ih h.2

/-- The link of the last cell leads somewhere else, and the links in front of it stay. -/
theorem linked_retarget {next next' : ι → ι} {q m a : ι} {xs : List ι}
    (h : Linked next (next q) xs m) (hnodup : (q :: xs).Nodup)
    (hlast : next' (xs.getLastD q) = a)
    (hsame : ∀ x ∈ q :: xs, x ≠ xs.getLastD q → next' x = next x) :
    Linked next' (next' q) xs a := by
  induction xs generalizing q with
  | nil => exact hlast
  | cons x xs ih =>
      rw [List.getLastD_cons] at hlast hsame
      rw [linked_cons] at h
      rcases List.nodup_cons.mp hnodup with ⟨hq, hxs⟩
      -- the last one is among the others, so it is not the first
      have hlastmem : xs.getLastD x ∈ x :: xs := List.getLastD_mem_cons
      have hne : q ≠ xs.getLastD x := fun heq => hq (heq ▸ hlastmem)
      refine ⟨(hsame q List.mem_cons_self hne).trans h.1, ?_⟩
      exact ih h.2 hxs hlast fun y hy => hsame y (List.mem_cons_of_mem q hy)

end RtosLwip
