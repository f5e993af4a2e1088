import Mathlib.Data.List.Basic

/-!
# Copying within a Buffer

`memcpy` between two places of one buffer. C says what it does where the places
do not overlap, and leaves it open where they do, so a copy is any function that
keeps to the rule: `Memcpy` carries it together with what holds of every such
function that stays within its destination. What has to hold of a program is
then stated for all of them.

## Main definitions

* `Memcpy`: A function that copies as C wants it.
* `Memcpy.place`: A buffer with a part of it computed anew.
* `Memcpy.moving`: The copy that overlapping places do not disturb.
* `Memcpy.clearing`: A copy that writes zeros where the places overlap.

## Theorems

* `Memcpy.getElem?_place_inside`, `Memcpy.getElem?_place_outside`: What stands in
  such a buffer.
* `Memcpy.take_copy`: What stands before the destination is left.
-/

namespace RtosLwip

/-- `memcpy` within a buffer: the destination, the source and the length. -/
structure Memcpy where
  copy : List UInt8 → Nat → Nat → Nat → List UInt8
  length_copy : ∀ mem dst src n, (copy mem dst src n).length = mem.length
  outside : ∀ mem dst src n i, i < dst ∨ dst + n ≤ i → (copy mem dst src n)[i]? = mem[i]?
  copied : ∀ mem dst src n i, dst + n ≤ mem.length → src + n ≤ mem.length →
    src + n ≤ dst ∨ dst + n ≤ src → i < n → (copy mem dst src n)[dst + i]? = mem[src + i]?

namespace Memcpy

/-- The buffer with `n` bytes from `dst` on computed from their index. -/
def place (mem : List UInt8) (dst n : Nat) (f : Nat → UInt8) : List UInt8 :=
  mem.mapIdx fun i b => if dst ≤ i ∧ i < dst + n then f (i - dst) else b

theorem getElem?_place (mem : List UInt8) (dst n : Nat) (f : Nat → UInt8) (i : Nat) :
    (place mem dst n f)[i]? =
      mem[i]?.map fun b => if dst ≤ i ∧ i < dst + n then f (i - dst) else b := by
  rw [place, List.getElem?_mapIdx]

theorem getElem?_place_outside (mem : List UInt8) {dst n : Nat} (f : Nat → UInt8) {i : Nat}
    (h : i < dst ∨ dst + n ≤ i) : (place mem dst n f)[i]? = mem[i]? := by
  rw [getElem?_place]
  simp only [show ¬ (dst ≤ i ∧ i < dst + n) by omega, if_false, Option.map_id']

theorem getElem?_place_inside (mem : List UInt8) {dst n : Nat} (f : Nat → UInt8) {i : Nat}
    (hmem : dst + n ≤ mem.length) (h : i < n) : (place mem dst n f)[dst + i]? = some (f i) := by
  rw [getElem?_place, List.getElem?_eq_getElem (by omega), Option.map_some,
    if_pos ⟨Nat.le_add_right _ _, by omega⟩, Nat.add_sub_cancel_left]

/-- `memmove`: the source is read before anything is written. -/
def moving : Memcpy where
  copy mem dst src n := place mem dst n fun i => mem.getD (src + i) 0
  length_copy _ _ _ _ := List.length_mapIdx
  outside mem _ _ _ _ h := getElem?_place_outside mem _ h
  copied mem dst src n i hdst hsrc _ h := by
    rw [getElem?_place_inside mem _ hdst h, List.getD_eq_getElem?_getD,
      List.getElem?_eq_getElem (by omega), Option.getD_some]

/-- A copy that leaves zeros where the places overlap. -/
def clearing : Memcpy where
  copy mem dst src n :=
    if src + n ≤ dst ∨ dst + n ≤ src then moving.copy mem dst src n
    else place mem dst n fun _ => 0
  length_copy mem dst src n := by
    split
    · exact moving.length_copy mem dst src n
    · exact List.length_mapIdx
  outside mem dst src n i h := by
    split
    · exact moving.outside mem dst src n i h
    · exact getElem?_place_outside mem _ h
  copied mem dst src n i hdst hsrc hdisjoint h := by
    rw [if_pos hdisjoint]
    exact moving.copied mem dst src n i hdst hsrc hdisjoint h

/-- What stands before the destination is left. -/
theorem take_copy (m : Memcpy) (mem : List UInt8) (dst src n : Nat) :
    (m.copy mem dst src n).take dst = mem.take dst := by
  refine List.ext_getElem? fun i => ?_
  rw [List.getElem?_take, List.getElem?_take]
  split
  · exact m.outside mem dst src n i (.inl ‹_›)
  · rfl

end Memcpy

end RtosLwip
