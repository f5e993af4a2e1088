import Mathlib.Data.List.Pairwise
import Mathlib.Tactic.Tauto

/-!
# Extents

Runs of places, each from a start on, and the two things that an allocator does
with its free ones. `insert` puts an extent back among the free ones, which are
kept in the order of their starts, and joins it to a neighbour that it touches.
`carve` takes one away from the first free extent that is large enough, and
leaves what is not needed of it, if that is more than a least size.

A `Ledger` says what is true of the free extents and of those that were given
away: none has a place in common with another one, no free one touches another
free one, and between them they have all places there are. Both operations keep
the ledger. When everything was given back, there is one free extent only, and it
has all the places.

## Main definitions

* `Extent`, `Extent.stop`, `Extent.Apart`, `Extent.Within`: Runs of places.
* `Extent.total`: How many places the extents of a list have.
* `Extent.Gapped`: Free extents in their order, none of which touches the next.
* `Extent.insert`, `Extent.carve`: The two operations.
* `Extent.Ledger`: What is free and what was given away.

## Theorems

* `Extent.forall_mem_insert`: What joining keeps, `insert` keeps.
* `Extent.gapped_insert`, `Extent.total_insert`: `insert` keeps the order.
* `Extent.carve_eq_none_iff`, `Extent.carve_spec`: What `carve` finds.
* `Extent.Ledger.carve`, `Extent.Ledger.insert`: The operations keep the ledger.
* `Extent.Ledger.all_free`: The ledger when nothing is given away.
-/

namespace RtosLwip

/-- A run of places. -/
@[ext]
structure Extent where
  start : Nat
  size : Nat
  deriving DecidableEq

namespace Extent

/-- The place behind the last one. -/
def stop (x : Extent) : Nat := x.start + x.size

/-- Two extents that have no place in common. -/
def Apart (x y : Extent) : Prop := x.stop ≤ y.start ∨ y.stop ≤ x.start

instance (x y : Extent) : Decidable (x.Apart y) :=
  inferInstanceAs (Decidable (_ ∨ _))

/-- All places of the extent are from `lo` on and before `hi`. -/
def Within (lo hi : Nat) (x : Extent) : Prop := lo ≤ x.start ∧ x.stop ≤ hi

/-- How many places there are in all. -/
def total : List Extent → Nat
  | [] => 0
  | x :: xs => x.size + total xs

/-- In the order of their starts, with a gap between any two. -/
def Gapped (xs : List Extent) : Prop := xs.Pairwise fun x y => x.stop < y.start

/-- Two extents of which the second starts where the first stops. -/
def join (x y : Extent) : Extent := ⟨x.start, x.size + y.size⟩

/-- An extent in front of others, joined to the first of them if it touches it. -/
def pushFront (x : Extent) : List Extent → List Extent
  | [] => [x]
  | y :: ys => if x.stop = y.start then x.join y :: ys else x :: y :: ys

/-- An extent goes to its place among others, joined to those that it touches. -/
def insert (x : Extent) : List Extent → List Extent
  | [] => [x]
  | y :: ys =>
    if y.start < x.start then
      if y.stop = x.start then pushFront (y.join x) ys else y :: insert x ys
    else
      pushFront x (y :: ys)

/-- `n` places of an extent, and the rest of it. -/
def split (n : Nat) (x : Extent) : Extent × Extent := (⟨x.start, n⟩, ⟨x.start + n, x.size - n⟩)

/-- `n` places, or a few more, of the first extent that has as many. What is left of it stays,
    if it is more than `least`. -/
def carve (n least : Nat) : List Extent → Option (Extent × List Extent)
  | [] => none
  | x :: xs =>
    if x.size < n then (carve n least xs).map fun r => (r.1, x :: r.2)
    else if least < x.size - n then some ((x.split n).1, (x.split n).2 :: xs)
    else some (x, xs)

@[simp] theorem start_join (x y : Extent) : (x.join y).start = x.start := rfl
@[simp] theorem size_join (x y : Extent) : (x.join y).size = x.size + y.size := rfl

theorem stop_join (x y : Extent) (h : x.stop = y.start) : (x.join y).stop = y.stop := by
  simp only [stop, join] at h ⊢
  omega

@[simp] theorem total_nil : total [] = 0 := rfl

@[simp] theorem total_cons (x : Extent) (xs : List Extent) :
    total (x :: xs) = x.size + total xs := rfl

@[simp] theorem total_append (xs ys : List Extent) : total (xs ++ ys) = total xs + total ys := by
  induction xs with
  | nil => simp
  | cons x xs ih => rw [List.cons_append, total_cons, total_cons, ih, Nat.add_assoc]

theorem total_perm {xs ys : List Extent} (h : xs.Perm ys) : total xs = total ys := by
  induction h with
  | nil => rfl
  | cons x _ ih => rw [total_cons, total_cons, ih]
  | swap x y l =>
      simp only [total_cons]
      omega
  | trans _ _ ih₁ ih₂ => exact ih₁.trans ih₂

theorem Apart.symm {x y : Extent} (h : x.Apart y) : y.Apart x := Or.symm h

/-- Of two free extents one is behind the other, with a gap. -/
theorem Gapped.sep {x y : Extent} {xs : List Extent} (h : Gapped xs) (hx : x ∈ xs) (hy : y ∈ xs)
    (hne : x ≠ y) : x.stop < y.start ∨ y.stop < x.start := by
  induction xs with
  | nil => exact absurd hx List.not_mem_nil
  | cons z zs ih =>
      rcases List.pairwise_cons.mp h with ⟨hz, hzs⟩
      rcases List.mem_cons.mp hx with rfl | hx'
      · exact .inl (hz y ((List.mem_cons.mp hy).resolve_left (Ne.symm hne)))
      · rcases List.mem_cons.mp hy with rfl | hy'
        · exact .inr (hz x hx')
        · exact ih hzs hx' hy'

theorem size_le_total {x : Extent} {xs : List Extent} (hx : x ∈ xs) : x.size ≤ total xs := by
  induction xs with
  | nil => exact absurd hx List.not_mem_nil
  | cons y ys ih =>
      rw [total_cons]
      rcases List.mem_cons.mp hx with rfl | hmem
      · omega
      · have := ih hmem
        omega

theorem length_le_total {xs : List Extent} (h : ∀ x ∈ xs, 0 < x.size) : xs.length ≤ total xs := by
  induction xs with
  | nil => exact Nat.le_refl 0
  | cons x xs ih =>
      have hx := h x List.mem_cons_self
      have hxs := ih fun y hy => h y (List.mem_cons_of_mem x hy)
      rw [List.length_cons, total_cons]
      omega

/-! ### Putting an extent in -/

/-- What holds of all of the extents, and of two that touch if it holds of each, holds of all
    when one was put in front. -/
theorem forall_mem_pushFront {P : Extent → Prop}
    (hjoin : ∀ x y, P x → P y → x.stop = y.start → P (x.join y)) {x : Extent}
    {xs : List Extent} (hx : P x) (hxs : ∀ y ∈ xs, P y) : ∀ y ∈ pushFront x xs, P y := by
  intro z hz
  cases xs with
  | nil => rwa [List.mem_singleton.mp hz]
  | cons y ys =>
      have hy : P y := hxs y List.mem_cons_self
      rw [pushFront] at hz
      split at hz
      case isTrue htouch =>
        rcases List.mem_cons.mp hz with rfl | hmem
        · exact hjoin x y hx hy htouch
        · exact hxs z (List.mem_cons_of_mem y hmem)
      case isFalse =>
        rcases List.mem_cons.mp hz with rfl | hmem
        · exact hx
        · exact hxs z hmem

/-- The same when one was put in. -/
theorem forall_mem_insert {P : Extent → Prop}
    (hjoin : ∀ x y, P x → P y → x.stop = y.start → P (x.join y)) {x : Extent}
    {xs : List Extent} (hx : P x) (hxs : ∀ y ∈ xs, P y) : ∀ y ∈ insert x xs, P y := by
  induction xs with
  | nil =>
      intro z hz
      rwa [List.mem_singleton.mp hz]
  | cons y ys ih =>
      have hy : P y := hxs y List.mem_cons_self
      have hys : ∀ z ∈ ys, P z := fun z hz => hxs z (List.mem_cons_of_mem y hz)
      rw [insert]
      split
      case isTrue =>
        split
        case isTrue htouch => exact forall_mem_pushFront hjoin (hjoin y x hy hx htouch) hys
        case isFalse =>
          intro z hz
          rcases List.mem_cons.mp hz with rfl | hmem
          · exact hy
          · exact ih hys z hmem
      case isFalse => exact forall_mem_pushFront hjoin hx hxs

/-- No place is lost when an extent is put in front. -/
theorem exists_mem_pushFront {x y : Extent} {xs : List Extent} (hy : y = x ∨ y ∈ xs) {a : Nat}
    (ha : y.start ≤ a ∧ a < y.stop) : ∃ z ∈ pushFront x xs, z.start ≤ a ∧ a < z.stop := by
  cases xs with
  | nil =>
      rcases hy with rfl | hmem
      · exact ⟨y, List.mem_cons_self, ha⟩
      · exact absurd hmem List.not_mem_nil
  | cons z zs =>
      rw [pushFront]
      split
      case isTrue htouch =>
        by_cases hz : y = x ∨ y = z
        · refine ⟨x.join z, List.mem_cons_self, ?_⟩
          simp only [join, stop] at htouch ha ⊢
          rcases hz with rfl | rfl
          · omega
          · omega
        · refine ⟨y, List.mem_cons_of_mem _ ?_, ha⟩
          rw [List.mem_cons] at hy
          tauto
      case isFalse => exact ⟨y, List.mem_cons.mpr hy, ha⟩

/-- No place is lost when an extent is put in. -/
theorem exists_mem_insert {x y : Extent} {xs : List Extent} (hy : y = x ∨ y ∈ xs) {a : Nat}
    (ha : y.start ≤ a ∧ a < y.stop) : ∃ z ∈ insert x xs, z.start ≤ a ∧ a < z.stop := by
  induction xs with
  | nil =>
      rcases hy with rfl | hmem
      · exact ⟨y, List.mem_cons_self, ha⟩
      · exact absurd hmem List.not_mem_nil
  | cons z zs ih =>
      rw [insert]
      split
      case isTrue =>
        split
        case isTrue htouch =>
          by_cases hz : y = x ∨ y = z
          · refine exists_mem_pushFront (.inl rfl) ?_
            simp only [join, stop] at htouch ha ⊢
            rcases hz with rfl | rfl
            · omega
            · omega
          · refine exists_mem_pushFront (y := y) (.inr ?_) ha
            rw [List.mem_cons] at hy
            tauto
        case isFalse =>
          by_cases hz : y = z
          · exact ⟨y, hz ▸ List.mem_cons_self, ha⟩
          · obtain ⟨w, hw, hin⟩ := ih (by rw [List.mem_cons] at hy; tauto)
            exact ⟨w, List.mem_cons_of_mem z hw, hin⟩
      case isFalse => exact exists_mem_pushFront hy ha

theorem total_pushFront (x : Extent) (xs : List Extent) :
    total (pushFront x xs) = x.size + total xs := by
  cases xs with
  | nil => rfl
  | cons y ys =>
      rw [pushFront]
      split
      · rw [total_cons, total_cons, size_join]
        omega
      · rw [total_cons]

theorem total_insert (x : Extent) (xs : List Extent) :
    total (insert x xs) = x.size + total xs := by
  induction xs with
  | nil => rfl
  | cons y ys ih =>
      rw [insert]
      split
      · split
        · rw [total_pushFront, total_cons, size_join]
          omega
        · rw [total_cons, ih, total_cons]
          omega
      · exact total_pushFront x (y :: ys)

/-- An extent goes in behind those that stop before it. -/
theorem insert_append {x : Extent} {pre : List Extent} (hpre : ∀ y ∈ pre, y.stop < x.start)
    (xs : List Extent) : insert x (pre ++ xs) = pre ++ insert x xs := by
  induction pre with
  | nil => rfl
  | cons y ys ih =>
      have hy := hpre y List.mem_cons_self
      have hstart : y.start < x.start := Nat.lt_of_le_of_lt (Nat.le_add_right _ _) hy
      rw [List.cons_append, insert, if_pos hstart, if_neg (Nat.ne_of_lt hy),
        ih fun z hz => hpre z (List.mem_cons_of_mem y hz), List.cons_append]

/-- An extent goes in front of those that start behind it. -/
theorem insert_front {x : Extent} {xs : List Extent} (hxs : ∀ y ∈ xs, x.start ≤ y.start) :
    insert x xs = pushFront x xs := by
  cases xs with
  | nil => rfl
  | cons y ys => rw [insert, if_neg (Nat.not_lt.mpr (hxs y List.mem_cons_self))]

/-- An extent is joined to one that it starts behind, and that to what is behind both. -/
theorem insert_join {x y : Extent} (hy : 0 < y.size) (htouch : y.stop = x.start)
    (xs : List Extent) : insert x (y :: xs) = pushFront (y.join x) xs := by
  have hlt : y.start < x.start := by
    simp only [stop] at htouch
    omega
  rw [insert, if_pos hlt, if_pos htouch]

/-- Those that start before a place come before the others. -/
theorem Gapped.exists_cut {xs : List Extent} (h : Gapped xs) (a : Nat) :
    ∃ pre suf, xs = pre ++ suf ∧ (∀ y ∈ pre, y.start < a) ∧ ∀ y ∈ suf, a ≤ y.start := by
  induction xs with
  | nil => exact ⟨[], [], rfl, List.forall_mem_nil _, List.forall_mem_nil _⟩
  | cons x xs ih =>
      rcases List.pairwise_cons.mp h with ⟨hx, hxs⟩
      by_cases ha : x.start < a
      · obtain ⟨pre, suf, rfl, hpre, hsuf⟩ := ih hxs
        exact ⟨x :: pre, suf, rfl, List.forall_mem_cons.mpr ⟨ha, hpre⟩, hsuf⟩
      · -- the others start behind the first
        refine ⟨[], x :: xs, rfl, List.forall_mem_nil _, List.forall_mem_cons.mpr ⟨by omega, ?_⟩⟩
        intro y hy
        have := hx y hy
        simp only [stop] at this
        omega

/-- An extent that touches neither neighbour goes in between them. -/
theorem pushFront_of_gap {x : Extent} {xs : List Extent} (hxs : ∀ y ∈ xs, x.stop < y.start) :
    pushFront x xs = x :: xs := by
  cases xs with
  | nil => rfl
  | cons y ys => rw [pushFront, if_neg (Nat.ne_of_lt (hxs y List.mem_cons_self))]

theorem gapped_pushFront {x : Extent} {xs : List Extent} (hxs : Gapped xs)
    (hle : ∀ y ∈ xs, x.stop ≤ y.start) : Gapped (pushFront x xs) := by
  cases xs with
  | nil => exact List.pairwise_singleton _ _
  | cons y ys =>
      rcases List.pairwise_cons.mp hxs with ⟨hy, hys⟩
      rw [pushFront]
      split
      case isTrue htouch =>
        refine List.pairwise_cons.mpr ⟨fun z hz => ?_, hys⟩
        rw [stop_join x y htouch]
        exact hy z hz
      case isFalse htouch =>
        -- the first is behind `x` with a gap, and the others are behind the first
        have hfirst : x.stop < y.start := by
          have := hle y List.mem_cons_self
          omega
        refine List.pairwise_cons.mpr ⟨fun z hz => ?_, hxs⟩
        rcases List.mem_cons.mp hz with rfl | hmem
        · exact hfirst
        · have hz' := hy z hmem
          simp only [stop] at hz' hfirst ⊢
          omega

/-- The order is kept, and two that touch are always joined. -/
theorem gapped_insert {x : Extent} {xs : List Extent} (hxs : Gapped xs) (hx : 0 < x.size)
    (hpos : ∀ y ∈ xs, 0 < y.size) (hapart : ∀ y ∈ xs, x.Apart y) : Gapped (insert x xs) := by
  induction xs with
  | nil => exact List.pairwise_singleton _ _
  | cons y ys ih =>
      rcases List.pairwise_cons.mp hxs with ⟨hy, hys⟩
      have hy0 : 0 < y.size := hpos y List.mem_cons_self
      have hys0 : ∀ z ∈ ys, 0 < z.size := fun z hz => hpos z (List.mem_cons_of_mem y hz)
      have hapart' : ∀ z ∈ ys, x.Apart z := fun z hz => hapart z (List.mem_cons_of_mem y hz)
      rw [insert]
      split
      case isTrue hlt =>
        have hyx : y.stop ≤ x.start := by
          rcases hapart y List.mem_cons_self with h | h
          · simp only [stop] at h ⊢
            omega
          · exact h
        split
        case isTrue htouch =>
          refine gapped_pushFront hys fun z hz => ?_
          rw [stop_join y x htouch]
          -- what is behind `y` cannot be in front of `x`
          rcases hapart' z hz with h | h
          · exact h
          · have := hy z hz
            simp only [stop] at this h htouch
            omega
        case isFalse htouch =>
          refine List.pairwise_cons.mpr ⟨?_, ih hys hys0 hapart'⟩
          -- a gap behind `y` is kept by joining
          refine forall_mem_insert (fun a b ha _ _ => ha) ?_ hy
          omega
      case isFalse hge =>
        refine gapped_pushFront hxs fun z hz => ?_
        have hxy : x.stop ≤ y.start := by
          rcases hapart y List.mem_cons_self with h | h
          · exact h
          · simp only [stop] at h
            omega
        rcases List.mem_cons.mp hz with rfl | hmem
        · exact hxy
        · have := hy z hmem
          simp only [stop] at this hxy ⊢
          omega

/-! ### Taking an extent away -/

/-- There is none to take away exactly if all are too small. -/
theorem carve_eq_none_iff {n least : Nat} {xs : List Extent} :
    carve n least xs = none ↔ ∀ x ∈ xs, x.size < n := by
  induction xs with
  | nil => simp [carve]
  | cons x xs ih =>
      rw [carve, List.forall_mem_cons]
      by_cases hx : x.size < n
      · rw [if_pos hx, Option.map_eq_none_iff, ih]
        exact ⟨fun h => ⟨hx, h⟩, fun h => h.2⟩
      · rw [if_neg hx]
        refine iff_of_false ?_ fun h => hx h.1
        split <;> exact Option.some_ne_none _

/-- What is left of an extent of which `n` places were taken, as a list. -/
def remainder (n least : Nat) (x : Extent) : List Extent :=
  if least < x.size - n then [(x.split n).2] else []

/-- What is taken of an extent. -/
def taken (n least : Nat) (x : Extent) : Extent :=
  if least < x.size - n then (x.split n).1 else x

@[simp] theorem start_taken (n least : Nat) (x : Extent) : (taken n least x).start = x.start := by
  unfold taken
  split <;> rfl

theorem le_size_taken {n : Nat} (least : Nat) {x : Extent} (hn : n ≤ x.size) :
    n ≤ (taken n least x).size := by
  unfold taken
  split
  · exact Nat.le_refl _
  · exact hn

/-- No more than the least size is taken without need. -/
theorem size_taken_le_add {n least : Nat} {x : Extent} : (taken n least x).size ≤ n + least := by
  unfold taken
  split
  · exact Nat.le_add_right _ _
  · omega

/-- The first that is large enough is the one that is taken from. -/
theorem carve_append {n : Nat} (least : Nat) {pre : List Extent} (hpre : ∀ y ∈ pre, y.size < n)
    {x : Extent} (hx : n ≤ x.size) (xs : List Extent) :
    carve n least (pre ++ x :: xs) =
      some (taken n least x, pre ++ (remainder n least x ++ xs)) := by
  induction pre with
  | nil =>
      rw [List.nil_append, List.nil_append, carve, if_neg (Nat.not_lt.mpr hx), taken, remainder]
      split <;> rfl
  | cons y ys ih =>
      rw [List.cons_append, carve, if_pos (hpre y List.mem_cons_self),
        ih fun z hz => hpre z (List.mem_cons_of_mem y hz)]
      rfl

/-- What `carve` finds, and what it leaves. -/
theorem carve_spec {n least : Nat} {xs rest : List Extent} {b : Extent}
    (h : carve n least xs = some (b, rest)) :
    ∃ pre x suf, xs = pre ++ x :: suf ∧ (∀ y ∈ pre, y.size < n) ∧ n ≤ x.size ∧
      b = taken n least x ∧ rest = pre ++ (remainder n least x ++ suf) := by
  induction xs generalizing b rest with
  | nil => exact absurd h.symm (Option.some_ne_none _)
  | cons x xs ih =>
      by_cases hx : x.size < n
      · rw [carve, if_pos hx, Option.map_eq_some_iff] at h
        obtain ⟨⟨b', rest'⟩, hcarve, heq⟩ := h
        obtain ⟨pre, y, suf, rfl, hpre, hy, hb, hrest⟩ := ih hcarve
        rw [Prod.mk.injEq] at heq
        refine ⟨x :: pre, y, suf, rfl, ?_, hy, heq.1 ▸ hb, ?_⟩
        · exact List.forall_mem_cons.mpr ⟨hx, hpre⟩
        · rw [← heq.2, hrest, List.cons_append]
      · have hn : n ≤ x.size := Nat.le_of_not_lt hx
        have hfirst := carve_append least (List.forall_mem_nil _) hn xs
        rw [List.nil_append, List.nil_append, h, Option.some_inj, Prod.mk.injEq] at hfirst
        exact ⟨[], x, xs, rfl, List.forall_mem_nil _, hn, hfirst⟩

/-- What is taken and what is left have the places of the whole, and those only. -/
theorem taken_remainder {n : Nat} (least : Nat) {x : Extent} (hn : n ≤ x.size) :
    (remainder n least x = [] ∧ taken n least x = x) ∨
      ∃ r, remainder n least x = [r] ∧ r.start = (taken n least x).stop ∧ r.stop = x.stop ∧
        least < r.size ∧ (taken n least x).size + r.size = x.size := by
  by_cases h : least < x.size - n
  · refine .inr ⟨(x.split n).2, if_pos h, ?_⟩
    rw [taken, if_pos h]
    have hsum : n + (x.size - n) = x.size := Nat.add_sub_cancel' hn
    refine ⟨rfl, ?_, h, hsum⟩
    simp only [split, stop]
    omega
  · exact .inl ⟨if_neg h, if_neg h⟩

/-! ### What is free and what was given away -/

/-- The free extents and those given away, of the places from `lo` on and before `hi`. -/
structure Ledger (lo hi : Nat) (free live : List Extent) : Prop where
  gapped : Gapped free
  positive : ∀ x ∈ free ++ live, 0 < x.size
  within : ∀ x ∈ free ++ live, x.Within lo hi
  apart : ∀ x ∈ free, ∀ y ∈ live, x.Apart y
  live_apart : live.Pairwise Apart
  total : total free + total live = hi - lo
  cover : ∀ a, lo ≤ a → a < hi → ∃ x ∈ free ++ live, x.start ≤ a ∧ a < x.stop

namespace Ledger

variable {lo hi : Nat} {free live : List Extent}

theorem within_free (h : Ledger lo hi free live) {x : Extent} (hx : x ∈ free) : x.Within lo hi :=
  h.within x (List.mem_append_left live hx)

theorem within_live (h : Ledger lo hi free live) {x : Extent} (hx : x ∈ live) : x.Within lo hi :=
  h.within x (List.mem_append_right free hx)

theorem positive_free (h : Ledger lo hi free live) {x : Extent} (hx : x ∈ free) : 0 < x.size :=
  h.positive x (List.mem_append_left live hx)

theorem positive_live (h : Ledger lo hi free live) {x : Extent} (hx : x ∈ live) : 0 < x.size :=
  h.positive x (List.mem_append_right free hx)

/-- At the start everything is free. -/
theorem single (hlt : lo < hi) : Ledger lo hi [⟨lo, hi - lo⟩] [] where
  gapped := List.pairwise_singleton _ _
  positive := by
    intro x hx
    rw [List.mem_singleton.mp hx]
    exact Nat.sub_pos_of_lt hlt
  within := by
    intro x hx
    rw [List.mem_singleton.mp hx]
    simp only [Within, stop]
    omega
  apart := fun _ _ y hy => absurd hy List.not_mem_nil
  live_apart := List.Pairwise.nil
  total := by simp
  cover := by
    intro a hlo hhi
    refine ⟨_, List.mem_singleton_self _, hlo, ?_⟩
    simp only [stop]
    omega

/-- The order in which extents were given away does not matter. -/
theorem perm {live' : List Extent} (h : Ledger lo hi free live) (hperm : live'.Perm live) :
    Ledger lo hi free live' where
  gapped := h.gapped
  positive x hx := h.positive x ((hperm.append_left free).subset hx)
  within x hx := h.within x ((hperm.append_left free).subset hx)
  apart x hx y hy := h.apart x hx y (hperm.subset hy)
  live_apart := (hperm.pairwise_iff Apart.symm).mpr h.live_apart
  total := by
    rw [← h.total, total_perm hperm]
  cover a hlo hhi := by
    obtain ⟨x, hx, hin⟩ := h.cover a hlo hhi
    exact ⟨x, (hperm.append_left free).symm.subset hx, hin⟩

/-- A free extent is given away as a whole. -/
theorem give {pre suf : List Extent} {x : Extent} (h : Ledger lo hi (pre ++ x :: suf) live) :
    Ledger lo hi (pre ++ suf) (x :: live) := by
  have hxmem : x ∈ pre ++ x :: suf := List.mem_append_right pre List.mem_cons_self
  have hgap := List.pairwise_append.mp h.gapped
  have hgap' := List.pairwise_cons.mp hgap.2.1
  have hsub : ∀ y ∈ pre ++ suf, y ∈ pre ++ x :: suf := by
    intro y hy
    rw [List.mem_append] at hy ⊢
    exact hy.imp_right fun hs => List.mem_cons_of_mem x hs
  have hall : ∀ y, y ∈ (pre ++ suf) ++ x :: live ↔ y ∈ (pre ++ x :: suf) ++ live := by
    intro y
    simp only [List.mem_append, List.mem_cons]
    tauto
  refine ⟨?_, fun y hy => h.positive y ((hall y).mp hy), fun y hy => h.within y ((hall y).mp hy),
    ?_, List.pairwise_cons.mpr ⟨fun y hy => h.apart x hxmem y hy, h.live_apart⟩, ?_, ?_⟩
  · exact List.pairwise_append.mpr ⟨hgap.1, hgap'.2, fun y hy z hz =>
      hgap.2.2 y hy z (List.mem_cons_of_mem x hz)⟩
  · intro y hy z hz
    rcases List.mem_cons.mp hz with rfl | hl
    · -- the other free ones have a gap to the one that goes
      rcases List.mem_append.mp hy with hp | hs
      · exact .inl (Nat.le_of_lt (hgap.2.2 y hp z List.mem_cons_self))
      · exact .inr (Nat.le_of_lt (hgap'.1 y hs))
    · exact h.apart y (hsub y hy) z hl
  · have := h.total
    simp only [total_append, total_cons] at this ⊢
    omega
  · intro a hlo hhi
    obtain ⟨y, hy, hin⟩ := h.cover a hlo hhi
    exact ⟨y, (hall y).mpr hy, hin⟩

/-- An extent that was given away is cut in two, and the second part is free again, in front of
    the free ones behind it. -/
theorem cut {pre suf : List Extent} {x b r : Extent}
    (h : Ledger lo hi (pre ++ suf) (x :: live)) (hb : b.start = x.start) (hr : r.start = b.stop)
    (hstop : r.stop = x.stop) (hb0 : 0 < b.size) (hr0 : 0 < r.size)
    (hpre : ∀ y ∈ pre, y.stop < x.start) (hsuf : ∀ y ∈ suf, x.stop < y.start) :
    Ledger lo hi (pre ++ r :: suf) (b :: live) := by
  have hgap := List.pairwise_append.mp h.gapped
  have hxin := h.within_live List.mem_cons_self
  have hrest := List.pairwise_cons.mp h.live_apart
  simp only [Within, stop] at hr hstop hxin
  -- an extent apart from the whole is apart from both parts
  have hapart : ∀ y, x.Apart y → b.Apart y ∧ r.Apart y := by
    intro y hy
    simp only [Apart, stop] at hy ⊢
    omega
  have hparts : ∀ y ∈ (pre ++ r :: suf) ++ b :: live,
      y = r ∨ y = b ∨ y ∈ (pre ++ suf) ++ x :: live := by
    intro y hy
    simp only [List.mem_append, List.mem_cons] at hy ⊢
    tauto
  refine ⟨?_, ?_, ?_, ?_, ?_, ?_, ?_⟩
  · refine List.pairwise_append.mpr ⟨hgap.1, List.pairwise_cons.mpr ⟨?_, hgap.2.1⟩, ?_⟩
    · intro y hy
      have := hsuf y hy
      simp only [stop] at this ⊢
      omega
    · intro y hy z hz
      rcases List.mem_cons.mp hz with rfl | hs
      · have := hpre y hy
        omega
      · exact hgap.2.2 y hy z hs
  · intro y hy
    rcases hparts y hy with rfl | rfl | hmem
    · exact hr0
    · exact hb0
    · exact h.positive y hmem
  · intro y hy
    rcases hparts y hy with rfl | rfl | hmem
    · simp only [Within, stop]
      omega
    · simp only [Within, stop]
      omega
    · exact h.within y hmem
  · intro y hy z hz
    have hcases : y = r ∨ y ∈ pre ++ suf := by
      simp only [List.mem_append, List.mem_cons] at hy ⊢
      tauto
    rcases hcases with rfl | hmem
    · rcases List.mem_cons.mp hz with rfl | hl
      · simp only [Apart, stop]
        omega
      · exact (hapart z (hrest.1 z hl)).2
    · rcases List.mem_cons.mp hz with rfl | hl
      · exact (hapart y (h.apart y hmem x List.mem_cons_self).symm).1.symm
      · exact h.apart y hmem z (List.mem_cons_of_mem x hl)
  · exact List.pairwise_cons.mpr ⟨fun y hy => (hapart y (hrest.1 y hy)).1, hrest.2⟩
  · have := h.total
    simp only [total_append, total_cons] at this ⊢
    omega
  · intro a hlo hhi
    obtain ⟨y, hy, hin⟩ := h.cover a hlo hhi
    by_cases hyx : y = x
    · -- a place of the extent that was cut is in one of the two parts
      subst hyx
      by_cases ha : a < r.start
      · exact ⟨b, by simp, by omega, by simp only [stop]; omega⟩
      · exact ⟨r, by simp, by omega, by simp only [stop] at hin ⊢; omega⟩
    · refine ⟨y, ?_, hin⟩
      simp only [List.mem_append, List.mem_cons] at hy ⊢
      tauto

/-- What is taken away from a free extent goes to those given away. -/
theorem carve {n least : Nat} {b : Extent} {rest : List Extent} (h : Ledger lo hi free live)
    (hn : 0 < n) (hcarve : Extent.carve n least free = some (b, rest)) :
    Ledger lo hi rest (b :: live) := by
  obtain ⟨pre, x, suf, rfl, hpre, hx, rfl, rfl⟩ := carve_spec hcarve
  have hsmall := le_size_taken least hx
  have hgap := List.pairwise_append.mp h.gapped
  rcases taken_remainder least hx with ⟨hrem, htak⟩ | ⟨r, hrem, hstart, hstop, hr, hsize⟩
  · rw [hrem, htak, List.nil_append]
    exact h.give
  · rw [hrem, List.singleton_append]
    exact h.give.cut (start_taken n least x) hstart hstop (by omega) (by omega)
      (fun y hy => hgap.2.2 y hy x List.mem_cons_self) (List.pairwise_cons.mp hgap.2.1).1

/-- What is given back goes to the free ones. -/
theorem insert {x : Extent} (h : Ledger lo hi free (x :: live)) :
    Ledger lo hi (Extent.insert x free) live := by
  have hx : x ∈ x :: live := List.mem_cons_self
  have hxpos := h.positive_live hx
  have hsub : ∀ y ∈ live, y ∈ x :: live := fun y hy => List.mem_cons_of_mem x hy
  have hrest := List.pairwise_cons.mp h.live_apart
  refine ⟨?_, ?_, ?_, ?_, hrest.2, ?_, ?_⟩
  · exact gapped_insert h.gapped hxpos (fun y hy => h.positive_free hy)
      fun y hy => (h.apart y hy x hx).symm
  · intro y hy
    rcases List.mem_append.mp hy with hf | hl
    · refine forall_mem_insert (P := fun z => 0 < z.size) ?_ hxpos
        (fun z hz => h.positive_free hz) y hf
      intro a b ha _ _
      rw [size_join]
      omega
    · exact h.positive_live (hsub y hl)
  · intro y hy
    rcases List.mem_append.mp hy with hf | hl
    · refine forall_mem_insert (P := Within lo hi) ?_ (h.within_live hx)
        (fun z hz => h.within_free hz) y hf
      intro a b ha hb htouch
      refine ⟨ha.1, ?_⟩
      rw [stop_join a b htouch]
      exact hb.2
    · exact h.within_live (hsub y hl)
  · intro y hy z hz
    -- nothing fits in between two extents that touch
    have hzpos := h.positive_live (hsub z hz)
    refine forall_mem_insert (P := fun y => y.Apart z) ?_ (hrest.1 z hz)
      (fun y hy => h.apart y hy z (hsub z hz)) y hy
    intro a b ha hb htouch
    simp only [Apart, stop, join] at ha hb htouch ⊢
    omega
  · have := h.total
    rw [total_insert]
    rw [total_cons] at this
    omega
  · intro a hlo hhi
    obtain ⟨y, hy, hin⟩ := h.cover a hlo hhi
    simp only [List.mem_append, List.mem_cons] at hy
    -- a place of the extent, or of a free one, is in one of the new free ones
    by_cases hfree : y = x ∨ y ∈ free
    · obtain ⟨z, hz, hzin⟩ := exists_mem_insert hfree hin
      exact ⟨z, List.mem_append_left live hz, hzin⟩
    · refine ⟨y, List.mem_append_right _ ?_, hin⟩
      tauto

/-- A stretch of places none of which was given away is in one free extent. -/
theorem free_of_apart {z : Extent} (h : Ledger lo hi free live) (hz : 0 < z.size)
    (hin : z.Within lo hi) (hapart : ∀ y ∈ live, z.Apart y) :
    ∃ x ∈ free, x.start ≤ z.start ∧ z.stop ≤ x.stop := by
  -- no place of the stretch is in an extent that was given away
  have hnot : ∀ a y, z.start ≤ a → a < z.stop → y ∈ live → y.start ≤ a → a < y.stop → False := by
    intro a y h1 h2 hy h3 h4
    rcases hapart y hy with h | h
    · omega
    · omega
  simp only [Within, stop] at hin
  have hfirst : z.start < z.stop := by
    simp only [stop]
    omega
  obtain ⟨x, hx, hx1, hx2⟩ := h.cover z.start hin.1 (by omega)
  rcases List.mem_append.mp hx with hf | hl
  · refine ⟨x, hf, hx1, ?_⟩
    by_contra hlt
    -- the place behind the free extent belongs to another one, which it would touch
    have hstop : x.stop < z.stop := Nat.lt_of_not_le hlt
    have hz' : z.stop ≤ hi := hin.2
    obtain ⟨y, hy, hy1, hy2⟩ := h.cover x.stop (by omega) (by omega)
    rcases List.mem_append.mp hy with hyf | hyl
    · have hne : x ≠ y := by
        rintro rfl
        omega
      rcases h.gapped.sep hf hyf hne with hgap | hgap
      · omega
      · omega
    · exact hnot x.stop y (by omega) hstop hyl hy1 hy2
  · exact (hnot z.start x (Nat.le_refl _) hfirst hl hx1 hx2).elim

end Ledger

/-- Free extents with gaps between them do not have all places, unless there is one only. -/
theorem total_le_of_gapped {lo hi : Nat} {x : Extent} {xs : List Extent}
    (hgap : Gapped (x :: xs)) (hin : ∀ y ∈ x :: xs, y.Within lo hi) :
    total (x :: xs) + xs.length ≤ hi - x.start := by
  induction xs generalizing x with
  | nil =>
      have := hin x List.mem_cons_self
      simp only [Within, stop] at this
      simp only [total_cons, total_nil, List.length_nil]
      omega
  | cons y ys ih =>
      rcases List.pairwise_cons.mp hgap with ⟨hx, hys⟩
      have hrest := ih hys fun z hz => hin z (List.mem_cons_of_mem x hz)
      have hgap' := hx y List.mem_cons_self
      have hy := hin y (List.mem_cons_of_mem x List.mem_cons_self)
      simp only [stop, Within] at hgap' hy
      rw [total_cons, List.length_cons]
      omega

/-- Nothing is given away exactly if there is one free extent, with all the places. -/
theorem Ledger.all_free {lo hi : Nat} {free : List Extent} (h : Ledger lo hi free [])
    (hlt : lo < hi) : free = [⟨lo, hi - lo⟩] := by
  have htotal := h.total
  rw [total_nil, Nat.add_zero] at htotal
  cases free with
  | nil =>
      rw [total_nil] at htotal
      omega
  | cons x xs =>
      have hx := h.within_free List.mem_cons_self
      have hle := total_le_of_gapped h.gapped fun y hy => h.within_free hy
      simp only [Within, stop] at hx
      rw [htotal] at hle
      have hnil : xs = [] := List.length_eq_zero_iff.mp (by omega)
      subst hnil
      simp only [total_cons, total_nil] at htotal
      have hstart : x.start = lo := by omega
      have hsize : x.size = hi - lo := by omega
      exact congrArg (fun x => [x]) (Extent.ext hstart hsize)

end Extent

end RtosLwip
