import Mathlib.Data.List.Basic
import Mathlib.Logic.Function.Basic

/-!
# The Registers of a Device

A device that is configured through numbered registers: a value is written to
consecutive registers, one after the other, and read back the same way.

Two values get into each other's way only where their registers overlap, so a
list of values whose registers are apart from each other can be read back after
all of them were written, and whatever is apart from all of them is left alone.

## Main definitions

* `writeAt`, `readAt`: Consecutive registers.
* `Apart`: Two values have no register in common.
* `writeAll`: One value after the other.

## Theorems

* `readAt_writeAt_self`, `readAt_writeAt_other`: What a write does.
* `readAt_writeAll_self`, `readAt_writeAll_other`: What a list of writes does.
-/

namespace RtosLwip

namespace Registers

variable {α : Type*}

/-- Write to consecutive registers. -/
def writeAt (address : Nat) : List α → (Nat → α) → Nat → α
  | [], regs => regs
  | b :: rest, regs => writeAt (address + 1) rest (Function.update regs address b)

/-- Read from consecutive registers. -/
def readAt (address size : Nat) (regs : Nat → α) : List α :=
  (List.range size).map fun i => regs (address + i)

@[simp] theorem length_readAt (address size : Nat) (regs : Nat → α) :
    (readAt address size regs).length = size := by
  rw [readAt, List.length_map, List.length_range]

theorem writeAt_other (bytes : List α) (address k : Nat) (regs : Nat → α)
    (h : k < address ∨ address + bytes.length ≤ k) : writeAt address bytes regs k = regs k := by
  induction bytes generalizing address regs with
  | nil => rfl
  | cons b rest ih =>
      rw [List.length_cons] at h
      rw [writeAt, ih _ _ (by omega), Function.update_of_ne (by omega)]

theorem writeAt_self (bytes : List α) (address i : Nat) (regs : Nat → α) (h : i < bytes.length) :
    writeAt address bytes regs (address + i) = bytes[i] := by
  induction bytes generalizing address i regs with
  | nil => exact absurd h (Nat.not_lt_zero i)
  | cons b rest ih =>
      cases i with
      | zero => rw [writeAt, writeAt_other _ _ _ _ (by omega), Nat.add_zero, Function.update_self,
          List.getElem_cons_zero]
      | succ i =>
          have hi : i < rest.length := Nat.lt_of_succ_lt_succ h
          rw [writeAt, show address + (i + 1) = address + 1 + i by omega, ih _ _ _ hi,
            List.getElem_cons_succ]

/-- What was written is read back. -/
theorem readAt_writeAt_self (bytes : List α) (address : Nat) (regs : Nat → α) :
    readAt address bytes.length (writeAt address bytes regs) = bytes := by
  refine List.ext_getElem (length_readAt _ _ _) fun i _ h => ?_
  simp only [readAt, List.getElem_map, List.getElem_range, writeAt_self _ _ _ _ h]

/-- Registers apart from the written ones are as before. -/
theorem readAt_writeAt_other (bytes : List α) (address b n : Nat) (regs : Nat → α)
    (h : b + n ≤ address ∨ address + bytes.length ≤ b) :
    readAt b n (writeAt address bytes regs) = readAt b n regs := by
  refine List.map_congr_left fun i hi => ?_
  have hi' := List.mem_range.mp hi
  exact writeAt_other _ _ _ _ (by omega)

/-- Two values, with their addresses, have no register in common. -/
def Apart (v w : Nat × List α) : Prop :=
  v.1 + v.2.length ≤ w.1 ∨ w.1 + w.2.length ≤ v.1

/-- Write one value after the other. -/
def writeAll (values : List (Nat × List α)) (regs : Nat → α) : Nat → α :=
  values.foldl (fun regs v => writeAt v.1 v.2 regs) regs

theorem readAt_writeAll_other (values : List (Nat × List α)) (b n : Nat) (regs : Nat → α)
    (h : ∀ v ∈ values, b + n ≤ v.1 ∨ v.1 + v.2.length ≤ b) :
    readAt b n (writeAll values regs) = readAt b n regs := by
  induction values generalizing regs with
  | nil => rfl
  | cons v rest ih =>
      rw [writeAll, List.foldl_cons, ← writeAll,
        ih _ fun w hw => h w (List.mem_cons_of_mem _ hw)]
      exact readAt_writeAt_other _ _ _ _ _ (h v List.mem_cons_self)

/-- Values that are apart from each other are all read back. -/
theorem readAt_writeAll_self {values : List (Nat × List α)} (hapart : values.Pairwise Apart)
    {v : Nat × List α} (hv : v ∈ values) (regs : Nat → α) :
    readAt v.1 v.2.length (writeAll values regs) = v.2 := by
  induction values generalizing regs with
  | nil => exact absurd hv List.not_mem_nil
  | cons w rest ih =>
      rcases List.pairwise_cons.mp hapart with ⟨hw, hrest⟩
      rw [writeAll, List.foldl_cons, ← writeAll]
      rcases List.mem_cons.mp hv with rfl | hmem
      · -- the values behind it leave it alone
        rw [readAt_writeAll_other _ _ _ _ fun u hu => hw u hu]
        exact readAt_writeAt_self _ _ _
      · exact ih hrest hmem _

end Registers

end RtosLwip
