import Mathlib.Data.List.Nodup
import RtosLwip.Base.Linked

/-!
# Circular Lists with Links in Both Directions

Cells around a mark, each with a link to the next one and a link to the one before.
Forwards from the mark they are met in their order, and backwards in the other, and
either way the mark comes again.

One cell is put in by four changes of links, and taken out by two. What either does to
the links in one direction is a fact about singly linked lists, and the other direction
is the same fact about the reversed list.

## Main definitions

* `Circular`: The cells around a mark.

## Theorems

* `Circular.next_getLastD`, `Circular.prev_headD`: The two cells at a place lead to each other.
* `Circular.insert`: A cell is put in at a place.
* `Circular.remove`: A cell is taken out.
* `Circular.congr`: Links of other cells do not matter.
-/

namespace RtosLwip

variable {ι : Type*}

theorem getLastD_reverse (xs : List ι) (d : ι) : xs.reverse.getLastD d = xs.headD d := by
  cases xs with
  | nil => rfl
  | cons x xs => simp

theorem headD_mem_cons (xs : List ι) (d : ι) : xs.headD d ∈ d :: xs := by
  cases xs with
  | nil => exact List.mem_cons_self
  | cons x xs => exact List.mem_cons_of_mem d List.mem_cons_self

/-- The cells behind a place begin where the link in front of it leads. -/
theorem linked_headD {next : ι → ι} {p e : ι} {xs : List ι} (h : Linked next p xs e) :
    xs.headD e = p := by
  cases xs with
  | nil => exact h.symm
  | cons x xs => exact h.1.symm

section Links

variable [DecidableEq ι] {next : ι → ι} {m y : ι} {a b : List ι}

/-- A cell is put in between two others. -/
theorem linked_insert (h : Linked next (next m) (a ++ b) m) (hnodup : (m :: (a ++ b)).Nodup)
    (hy : y ∉ m :: (a ++ b)) :
    Linked (Function.update (Function.update next y (b.headD m)) (a.getLastD m) y)
      (Function.update (Function.update next y (b.headD m)) (a.getLastD m) y m)
      (a ++ y :: b) m := by
  obtain ⟨k, ha, hb⟩ := linked_append.mp h
  obtain rfl := linked_headD hb
  have hlast : a.getLastD m ∈ m :: a := List.getLastD_mem_cons
  have hylast : y ≠ a.getLastD m := by
    rintro rfl
    exact hy (List.mem_cons.mpr ((List.mem_cons.mp hlast).imp id (List.mem_append_left b)))
  have hmove : ∀ x ∈ m :: (a ++ b), x ≠ a.getLastD m →
      Function.update (Function.update next y (b.headD m)) (a.getLastD m) y x = next x := by
    intro x hx hne
    rw [Function.update_of_ne hne, Function.update_of_ne]
    rintro rfl
    exact hy hx
  refine linked_append.mpr ⟨y, ?_, rfl, ?_⟩
  · refine linked_retarget ha (hnodup.sublist ?_) (Function.update_self _ _ _) fun x hx hne => ?_
    · exact (List.sublist_append_left a b).cons_cons m
    · exact hmove x (List.mem_cons.mpr ((List.mem_cons.mp hx).imp id (List.mem_append_left b))) hne
  · rw [Function.update_of_ne hylast, Function.update_self]
    refine (linked_congr fun x hx => hmove x ?_ ?_).mpr hb
    · exact List.mem_cons_of_mem m (List.mem_append_right a hx)
    · -- the cells behind the place are not in front of it
      rintro rfl
      rcases List.mem_cons.mp hlast with heq | hmem
      · exact (List.nodup_cons.mp hnodup).1 (List.mem_append_right a (heq ▸ hx))
      · exact List.disjoint_of_nodup_append (List.nodup_cons.mp hnodup).2 hmem hx

/-- A cell is taken out. -/
theorem linked_remove (h : Linked next (next m) (a ++ y :: b) m)
    (hnodup : (m :: (a ++ y :: b)).Nodup) :
    Linked (Function.update next (a.getLastD m) (b.headD m))
      (Function.update next (a.getLastD m) (b.headD m) m) (a ++ b) m := by
  obtain ⟨k, ha, hk, hb⟩ := linked_append.mp h
  have hhead := linked_headD hb
  have hlast : a.getLastD m ∈ m :: a := List.getLastD_mem_cons
  refine linked_append.mpr ⟨next y, ?_, ?_⟩
  · refine linked_retarget ha (hnodup.sublist ?_) ?_ fun x hx hne => Function.update_of_ne hne _ _
    · exact (List.sublist_append_left a (y :: b)).cons_cons m
    · rw [Function.update_self, hhead]
  · have hstay : ∀ x ∈ b, Function.update next (a.getLastD m) (b.headD m) x = next x := by
      intro x hx
      refine Function.update_of_ne ?_ _ _
      rintro rfl
      rcases List.mem_cons.mp hlast with heq | hmem
      · exact (List.nodup_cons.mp hnodup).1
          (List.mem_append_right a (List.mem_cons_of_mem y (heq ▸ hx)))
      · exact List.disjoint_of_nodup_append (List.nodup_cons.mp hnodup).2 hmem
          (List.mem_cons_of_mem y hx)
    exact (linked_congr hstay).mpr hb

end Links

/-- The cells around a mark. -/
structure Circular (next prev : ι → ι) (m : ι) (xs : List ι) : Prop where
  forward : Linked next (next m) xs m
  backward : Linked prev (prev m) xs.reverse m

namespace Circular

variable {next prev : ι → ι} {m y : ι} {a b xs : List ι}

/-- Links of other cells do not matter. -/
theorem congr {next' prev' : ι → ι} (h : Circular next prev m xs)
    (hnext : ∀ x ∈ m :: xs, next' x = next x) (hprev : ∀ x ∈ m :: xs, prev' x = prev x) :
    Circular next' prev' m xs := by
  constructor
  · rw [hnext m List.mem_cons_self]
    exact (linked_congr fun x hx => hnext x (List.mem_cons_of_mem m hx)).mpr h.forward
  · rw [hprev m List.mem_cons_self]
    refine (linked_congr fun x hx => hprev x ?_).mpr h.backward
    exact List.mem_cons_of_mem m (List.mem_reverse.mp hx)

/-- The cell in front of a place leads to the one behind it. -/
theorem next_getLastD (h : Circular next prev m (a ++ b)) : next (a.getLastD m) = b.headD m := by
  obtain ⟨k, ha, hb⟩ := linked_append.mp h.forward
  rw [linked_headD hb]
  exact linked_last ha

/-- The cell behind a place leads back to the one in front of it. -/
theorem prev_headD (h : Circular next prev m (a ++ b)) : prev (b.headD m) = a.getLastD m := by
  have hback := h.backward
  rw [List.reverse_append] at hback
  obtain ⟨k, hb, ha⟩ := linked_append.mp hback
  have hlast := linked_last hb
  have hhead := linked_headD ha
  rw [getLastD_reverse] at hlast
  rw [hlast, ← hhead, ← getLastD_reverse, List.reverse_reverse]

theorem nodup_reverse (h : (m :: xs).Nodup) : (m :: xs.reverse).Nodup := by
  rw [List.nodup_cons] at h ⊢
  rwa [List.mem_reverse, List.nodup_reverse]

variable [DecidableEq ι]

/-- A cell is put in at a place. -/
theorem insert (h : Circular next prev m (a ++ b)) (hnodup : (m :: (a ++ b)).Nodup)
    (hy : y ∉ m :: (a ++ b)) :
    Circular (Function.update (Function.update next y (b.headD m)) (a.getLastD m) y)
      (Function.update (Function.update prev y (a.getLastD m)) (b.headD m) y) m
      (a ++ y :: b) := by
  constructor
  · exact linked_insert h.forward hnodup hy
  · have hback := h.backward
    have hrev := nodup_reverse hnodup
    rw [List.reverse_append] at hback hrev
    have hy' : y ∉ m :: (b.reverse ++ a.reverse) := by
      rwa [← List.reverse_append, List.mem_cons, List.mem_reverse, ← List.mem_cons]
    have hlinked := linked_insert hback hrev hy'
    rw [getLastD_reverse, ← getLastD_reverse a.reverse, List.reverse_reverse] at hlinked
    rw [List.reverse_append, List.reverse_cons, List.append_assoc, List.singleton_append]
    exact hlinked

/-- A cell is taken out. -/
theorem remove (h : Circular next prev m (a ++ y :: b)) (hnodup : (m :: (a ++ y :: b)).Nodup) :
    Circular (Function.update next (a.getLastD m) (b.headD m))
      (Function.update prev (b.headD m) (a.getLastD m)) m (a ++ b) := by
  constructor
  · exact linked_remove h.forward hnodup
  · have hback := h.backward
    have hrev := nodup_reverse hnodup
    rw [List.reverse_append, List.reverse_cons, List.append_assoc, List.singleton_append]
      at hback hrev
    have hlinked := linked_remove hback hrev
    rw [getLastD_reverse, ← getLastD_reverse a.reverse, List.reverse_reverse] at hlinked
    rw [List.reverse_append]
    exact hlinked

end Circular

end RtosLwip
