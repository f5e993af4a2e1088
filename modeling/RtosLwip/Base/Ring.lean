import Mathlib.Data.List.Basic
import Mathlib.Logic.Function.Basic

/-!
# Rings

A ring of `n` places, filled at its head and emptied at its tail. The two are
equal when nothing is in it, so of the `n` places one always stays free.

The head and the tail are places, and a place has an entry whether or not it is
in use. What the ring holds is told by `contents`: the entries behind the tail,
up to the head. The operations are described by what they do to the contents, and
nothing else about a ring is ever needed.

## Main definitions

* `Ring`: The places, with the head and the tail.
* `Ring.put`, `Ring.get`, `Ring.clear`, `Ring.drain`: The operations.
* `Ring.contents`: What the ring holds, the oldest entry first.

## Theorems

* `Ring.length_contents_lt`: One place stays free.
* `Ring.put_spec`: An entry goes to the end of the contents, unless they are full.
* `Ring.get_spec`: An entry comes from the front of the contents.
* `Ring.drain_spec`: Everything comes out, in its order.
-/

namespace RtosLwip

/-- A ring of `n` places. -/
structure Ring (α : Type*) (n : Nat) where
  head : Fin n
  tail : Fin n
  slot : Fin n → α

namespace Ring

variable {α : Type*} {n : Nat}

/-- The place behind a place. -/
def next (i : Fin n) : Fin n := ⟨(i + 1) % n, Nat.mod_lt _ i.pos⟩

/-- An entry goes in at the head, if there is room. -/
def put (r : Ring α n) (x : α) : Bool × Ring α n :=
  if next r.head ≠ r.tail then
    (true, { r with head := next r.head, slot := Function.update r.slot (next r.head) x })
  else
    (false, r)

/-- An entry comes out at the tail, if there is one. -/
def get (r : Ring α n) : Option α × Ring α n :=
  if r.tail ≠ r.head then
    (some (r.slot (next r.tail)), { r with tail := next r.tail })
  else
    (none, r)

/-- The head and the tail go to the first place. -/
def clear (r : Ring α n) : Ring α n :=
  { r with head := ⟨0, r.head.pos⟩, tail := ⟨0, r.head.pos⟩ }

/-- Entries come out until there are none, at most as many as the fuel. -/
def drainLoop : Nat → Ring α n → List α × Ring α n
  | 0, r => ([], r)
  | fuel + 1, r =>
    match r.get with
    | (none, r) => ([], r)
    | (some x, r) => (x :: (drainLoop fuel r).1, (drainLoop fuel r).2)

/-- Everything comes out. -/
def drain (r : Ring α n) : List α × Ring α n := drainLoop n r

/-- How many entries there are between the tail and the head. -/
def count (r : Ring α n) : Nat := (r.head + n - r.tail) % n

/-- The entry `i` places behind the one that comes out next. -/
def nth (r : Ring α n) (i : Nat) : α :=
  r.slot ⟨(r.tail + 1 + i) % n, Nat.mod_lt _ r.tail.pos⟩

/-- What the ring holds, the oldest entry first. -/
def contents (r : Ring α n) : List α := (List.range r.count).map r.nth

@[simp] theorem length_contents (r : Ring α n) : r.contents.length = r.count := by
  rw [contents, List.length_map, List.length_range]

/-- One place stays free. -/
theorem length_contents_lt (r : Ring α n) : r.contents.length < n := by
  rw [length_contents]
  exact Nat.mod_lt _ r.head.pos

/-- A remainder of a number that goes around the ring at most once. -/
theorem mod_eq_ite {x : Nat} (hx : x < 2 * n) : x % n = if x < n then x else x - n := by
  split
  case isTrue h => exact Nat.mod_eq_of_lt h
  case isFalse h =>
    rw [Nat.mod_eq_sub_mod (Nat.le_of_not_lt h)]
    exact Nat.mod_eq_of_lt (by omega)

theorem next_eq_iff {i j : Fin n} : next i = j ↔ (i.val + 1) % n = j := Fin.ext_iff

/-- Nothing is in the ring exactly if the head and the tail meet. -/
theorem count_eq_zero_iff (r : Ring α n) : r.count = 0 ↔ r.tail = r.head := by
  have hhead := r.head.isLt
  have htail := r.tail.isLt
  rw [count, mod_eq_ite (by omega), Fin.ext_iff]
  split <;> omega

theorem contents_eq_nil_iff (r : Ring α n) : r.contents = [] ↔ r.tail = r.head := by
  rw [← count_eq_zero_iff, ← length_contents, List.length_eq_zero_iff]

@[simp] theorem contents_clear (r : Ring α n) : r.clear.contents = [] :=
  (contents_eq_nil_iff _).mpr rfl

/-- The head goes on by one place, so there is one entry more, unless the head comes upon
    the tail. -/
theorem count_next_head (r : Ring α n) (h : next r.head ≠ r.tail) (slot : Fin n → α) :
    ({ r with head := next r.head, slot := slot } : Ring α n).count = r.count + 1 := by
  have hhead := r.head.isLt
  have htail := r.tail.isLt
  rw [Ne, next_eq_iff] at h
  have hnext : (r.head.val + 1) % n = if r.head.val + 1 < n then r.head.val + 1
      else r.head.val + 1 - n := mod_eq_ite (by omega)
  change ((r.head.val + 1) % n + n - r.tail) % n = (r.head + n - r.tail) % n + 1
  rw [hnext] at h ⊢
  -- neither the head nor the tail may be on the other side of the end of the ring
  split at h
  case isTrue hend =>
    rw [if_pos hend, mod_eq_ite (by omega), mod_eq_ite (x := r.head + n - r.tail) (by omega)]
    split <;> split <;> omega
  case isFalse hend =>
    rw [if_neg hend, mod_eq_ite (by omega), mod_eq_ite (x := r.head + n - r.tail) (by omega)]
    split <;> split <;> omega

/-- There is no room exactly if all places but one are taken. -/
theorem count_of_full (r : Ring α n) (h : next r.head = r.tail) : r.count + 1 = n := by
  have hhead := r.head.isLt
  have htail := r.tail.isLt
  rw [next_eq_iff, mod_eq_ite (by omega)] at h
  rw [count, mod_eq_ite (by omega)]
  split at h <;> split <;> omega

/-- The place at the head is the last one of those in use. -/
theorem place_eq_head_iff (r : Ring α n) {i : Nat} (hi : i ≤ r.count)
    (h : next r.head ≠ r.tail) :
    (r.tail.val + 1 + i) % n = (r.head.val + 1) % n ↔ i = r.count := by
  have hhead := r.head.isLt
  have htail := r.tail.isLt
  have hcount := count_next_head r h r.slot
  have hlt := length_contents_lt ({ r with head := next r.head } : Ring α n)
  rw [length_contents, hcount] at hlt
  have hc : r.count = if r.head.val + n - r.tail < n then r.head.val + n - r.tail
      else r.head.val + n - r.tail - n := mod_eq_ite (by omega)
  rw [mod_eq_ite (x := r.tail.val + 1 + i) (by omega),
    mod_eq_ite (x := r.head.val + 1) (by omega)]
  split at hc <;> split <;> split <;> omega

/-- An entry goes to the end of the contents, or there is no room for it. -/
theorem put_spec (r : Ring α n) (x : α) :
    (r.contents.length + 1 < n ∧ (r.put x).1 = true ∧
      (r.put x).2.contents = r.contents ++ [x]) ∨
    (r.contents.length + 1 = n ∧ r.put x = (false, r)) := by
  by_cases h : next r.head = r.tail
  · refine .inr ⟨?_, if_neg (not_not.mpr h)⟩
    rw [length_contents]
    exact count_of_full r h
  · have hput : r.put x =
        (true, { r with head := next r.head, slot := Function.update r.slot (next r.head) x }) :=
      if_pos h
    have hcount := count_next_head r h (Function.update r.slot (next r.head) x)
    have hlt := length_contents_lt (r.put x).2
    rw [hput, length_contents, hcount] at hlt
    refine .inl ⟨?_, by rw [hput], ?_⟩
    · rwa [length_contents]
    · rw [hput, contents, hcount, List.range_succ, List.map_append]
      congr 1
      · -- the entries that were there are at other places
        refine List.map_congr_left fun i hi => ?_
        have hi' : i < r.count := List.mem_range.mp hi
        refine Function.update_of_ne (fun heq => ?_) x r.slot
        have := (place_eq_head_iff r (Nat.le_of_lt hi') h).mp (Fin.val_eq_of_eq heq)
        omega
      · have hplace := (place_eq_head_iff r (Nat.le_refl r.count) h).mpr rfl
        rw [List.map_cons, List.map_nil, nth]
        congr 1
        change Function.update r.slot (next r.head) x ⟨(r.tail + 1 + r.count) % n, _⟩ = x
        rw [Fin.ext (a := ⟨(r.tail.val + 1 + r.count) % n, Nat.mod_lt _ r.tail.pos⟩)
          (b := next r.head) hplace]
        exact Function.update_self _ _ _

/-- The tail goes on by one place, so there is one entry less. -/
theorem count_next_tail (r : Ring α n) (h : r.tail ≠ r.head) :
    r.count = ({ r with tail := next r.tail } : Ring α n).count + 1 := by
  have hhead := r.head.isLt
  have htail := r.tail.isLt
  rw [Ne, Fin.ext_iff] at h
  have hnext : (r.tail.val + 1) % n = if r.tail.val + 1 < n then r.tail.val + 1
      else r.tail.val + 1 - n := mod_eq_ite (by omega)
  change (r.head + n - r.tail) % n = (r.head + n - (r.tail.val + 1) % n) % n + 1
  rw [hnext]
  split
  case isTrue hend =>
    rw [mod_eq_ite (by omega), mod_eq_ite (x := r.head + n - (r.tail.val + 1)) (by omega)]
    split <;> split <;> omega
  case isFalse hend =>
    rw [mod_eq_ite (by omega),
      mod_eq_ite (x := r.head + n - (r.tail.val + 1 - n)) (by omega)]
    split <;> split <;> omega

/-- An entry comes from the front of the contents. -/
theorem get_spec (r : Ring α n) :
    r.get.1 = r.contents.head? ∧ r.get.2.contents = r.contents.tail := by
  by_cases h : r.tail = r.head
  · have hget : r.get = (none, r) := if_neg (not_not.mpr h)
    rw [hget, (contents_eq_nil_iff r).mpr h]
    exact ⟨rfl, rfl⟩
  · have hget : r.get = (some (r.slot (next r.tail)), { r with tail := next r.tail }) := if_pos h
    have hcontents : r.contents = r.slot (next r.tail) ::
        ({ r with tail := next r.tail } : Ring α n).contents := by
      rw [contents, count_next_tail r h, List.range_succ_eq_map, List.map_cons, List.map_map]
      congr 1
      refine List.map_congr_left fun i _ => congrArg r.slot (Fin.ext ?_)
      change (r.tail + 1 + (i + 1)) % n = ((r.tail.val + 1) % n + 1 + i) % n
      rw [Nat.add_assoc ((r.tail.val + 1) % n), Nat.mod_add_mod, Nat.add_comm 1 i]
    rw [hget, hcontents]
    exact ⟨rfl, rfl⟩

theorem drainLoop_spec (fuel : Nat) (r : Ring α n) (h : r.contents.length ≤ fuel) :
    (drainLoop fuel r).1 = r.contents ∧ (drainLoop fuel r).2.contents = [] := by
  induction fuel generalizing r with
  | zero =>
      have hnil : r.contents = [] := List.length_eq_zero_iff.mp (Nat.le_zero.mp h)
      exact ⟨hnil.symm, hnil⟩
  | succ fuel ih =>
      rcases get_spec r with ⟨hfirst, hrest⟩
      rcases hget : r.get with ⟨_ | x, r'⟩
      · rw [hget] at hfirst hrest
        have hnil : r.contents = [] := List.head?_eq_none_iff.mp hfirst.symm
        rw [drainLoop, hget]
        exact ⟨hnil.symm, hrest.trans (by rw [hnil, List.tail_nil])⟩
      · rw [hget] at hfirst hrest
        have hcons : r.contents = x :: r'.contents := by
          rw [hrest, List.cons_head?_tail hfirst.symm]
        rw [hcons, List.length_cons] at h
        rcases ih r' (by omega) with ⟨hall, hnone⟩
        rw [drainLoop, hget, hcons]
        exact ⟨congrArg (x :: ·) hall, hnone⟩

/-- Everything comes out, in its order. -/
theorem drain_spec (r : Ring α n) : r.drain.1 = r.contents ∧ r.drain.2.contents = [] :=
  drainLoop_spec n r (Nat.le_of_lt (length_contents_lt r))

end Ring

end RtosLwip
