import Mathlib.Data.List.Basic

/-!
# Channels that Lose and Duplicate

A channel is a queue, its oldest message first. It keeps the order of its
messages, but it may lose any of them, and it may deliver any of them twice.

Neither makes up a message, and neither breaks an order of the messages that
holds between a message and itself. That is all an invariant about what is
under way needs to know: it says something about each message, and that the
messages are in order.

## Main definitions

* `Fault`: A message is lost or comes twice.
* `Fault.apply`: What is left of the queue.

## Theorems

* `Fault.mem_of_mem_apply`: No message is made up.
* `Fault.pairwise_apply`: An order of the messages is kept.
-/

namespace RtosLwip

/-- What happens to the message at a place of the queue. -/
inductive Fault where
  | lose (i : Nat)
  | duplicate (i : Nat)
  deriving DecidableEq, Repr

namespace Fault

variable {α : Type*} {queue : List α}

/-- The queue behind a fault. A place that is not there is no fault. -/
def apply : Fault → List α → List α
  | lose i, queue => queue.eraseIdx i
  | duplicate i, queue => queue.take (i + 1) ++ queue.drop i

theorem mem_of_mem_apply (f : Fault) {x : α} (h : x ∈ f.apply queue) : x ∈ queue := by
  cases f with
  | lose i => exact List.mem_of_mem_eraseIdx h
  | duplicate i =>
      rcases List.mem_append.mp h with hfront | hback
      · exact List.mem_of_mem_take hfront
      · exact List.mem_of_mem_drop hback

theorem pairwise_apply (f : Fault) {r : α → α → Prop} (hrefl : ∀ x, r x x)
    (h : queue.Pairwise r) : (f.apply queue).Pairwise r := by
  cases f with
  | lose i => exact h.sublist (List.eraseIdx_sublist queue i)
  | duplicate i =>
      refine List.pairwise_append.mpr ⟨h.sublist (List.take_sublist _ _),
        h.sublist (List.drop_sublist _ _), fun x hx y hy => ?_⟩
      -- the two halves meet in the message at the place itself
      rcases List.mem_take_iff_getElem.mp hx with ⟨j, hj, rfl⟩
      rcases List.mem_drop_iff_getElem.mp hy with ⟨k, hk, rfl⟩
      rcases Nat.lt_or_ge j (i + k) with hlt | hge
      · exact List.pairwise_iff_getElem.mp h j (i + k) _ _ hlt
      · have hsame : j = i + k := by omega
        simp only [hsame]
        exact hrefl _

end Fault

end RtosLwip
