import Mathlib.Data.List.Basic

/-!
# Cutting a Stream into Blocks

A stream of elements that arrives in pieces and leaves in blocks of a fixed
size. How it was cut into pieces does not matter: the blocks of what has
arrived, followed by the blocks of what was left over together with the next
piece, are the blocks of everything.

## Main definitions

* `blocks`: The full blocks of a list.
* `leftover`: What stands behind the last full block.

## Theorems

* `blocks_append`, `leftover_append`: A stream can be cut anywhere.
* `flatten_blocks`: The blocks and the leftover are the list.
* `flatten_blocks_eq_take`: The blocks are a beginning of the list.
-/

namespace RtosLwip

variable {α : Type*}

/-- The full blocks of `n` elements. -/
def blocks (n : Nat) (l : List α) : List (List α) :=
  (List.range (l.length / n)).map fun j => (l.drop (n * j)).take n

/-- What stands behind the last full block. -/
def leftover (n : Nat) (l : List α) : List α := l.drop (n * (l.length / n))

section

variable {n : Nat}

theorem blocks_of_lt {l : List α} (h : l.length < n) : blocks n l = [] := by
  rw [blocks, Nat.div_eq_of_lt h]
  rfl

theorem leftover_of_lt {l : List α} (h : l.length < n) : leftover n l = l := by
  rw [leftover, Nat.div_eq_of_lt h, Nat.mul_zero, List.drop_zero]

theorem length_of_mem_blocks {l b : List α} (h : b ∈ blocks n l) : b.length = n := by
  rcases List.mem_map.mp h with ⟨j, hj, rfl⟩
  have hj := List.mem_range.mp hj
  have hmul : n * (j + 1) ≤ l.length := by
    calc n * (j + 1) ≤ n * (l.length / n) := Nat.mul_le_mul_left n hj
      _ ≤ l.length := Nat.mul_div_le l.length n
  rw [Nat.mul_add, Nat.mul_one] at hmul
  rw [List.length_take, List.length_drop]
  omega

theorem length_leftover (l : List α) : (leftover n l).length = l.length % n := by
  have := Nat.div_add_mod l.length n
  rw [leftover, List.length_drop]
  omega

theorem length_leftover_lt (h : 0 < n) (l : List α) : (leftover n l).length < n := by
  rw [length_leftover]
  exact Nat.mod_lt _ h

/-- A first block and the blocks behind it. -/
theorem blocks_block_append (h : 0 < n) {b : List α} (hb : b.length = n) (l : List α) :
    blocks n (b ++ l) = b :: blocks n l := by
  have hdiv : (b ++ l).length / n = l.length / n + 1 := by
    rw [List.length_append, hb, Nat.add_comm, Nat.add_div_right _ h]
  rw [blocks, blocks, hdiv, List.range_succ_eq_map, List.map_cons, List.map_map]
  refine congrArg₂ _ ?_ (List.map_congr_left fun j _ => ?_)
  · rw [Nat.mul_zero, List.drop_zero, ← hb, List.take_left]
  · have hmul : n * (j + 1) = b.length + n * j := by
      rw [Nat.mul_add, Nat.mul_one, hb, Nat.add_comm]
    simp only [Function.comp_apply, Nat.succ_eq_add_one]
    rw [hmul, List.drop_length_add_append]

theorem leftover_block_append (h : 0 < n) {b : List α} (hb : b.length = n) (l : List α) :
    leftover n (b ++ l) = leftover n l := by
  have hmul : n * ((b ++ l).length / n) = b.length + n * (l.length / n) := by
    rw [List.length_append, hb, Nat.add_comm, Nat.add_div_right _ h, Nat.mul_succ, Nat.add_comm]
  rw [leftover, leftover, hmul, List.drop_length_add_append]

/-- The blocks and the leftover are the list. -/
theorem flatten_blocks (h : 0 < n) (l : List α) : (blocks n l).flatten ++ leftover n l = l := by
  induction hk : l.length / n generalizing l with
  | zero =>
      have hlt : l.length < n := by
        rcases Nat.div_eq_zero_iff.mp hk with hz | hlt
        · omega
        · exact hlt
      rw [blocks_of_lt hlt, leftover_of_lt hlt, List.flatten_nil, List.nil_append]
  | succ k ih =>
      have hle : n ≤ l.length := by
        by_contra hlt
        rw [Nat.div_eq_of_lt (by omega)] at hk
        omega
      have hb : (l.take n).length = n := List.length_take_of_le hle
      have hrest : (l.drop n).length / n = k := by
        rw [List.length_drop, Nat.div_eq_sub_div h hle] at *
        omega
      conv_lhs => rw [← List.take_append_drop n l]
      rw [blocks_block_append h hb, leftover_block_append h hb, List.flatten_cons,
        List.append_assoc, ih (l.drop n) hrest, List.take_append_drop]

theorem blocks_flatten_append (h : 0 < n) (bs : List (List α)) (hbs : ∀ b ∈ bs, b.length = n)
    (l : List α) : blocks n (bs.flatten ++ l) = bs ++ blocks n l := by
  induction bs with
  | nil => rfl
  | cons b bs ih =>
      rw [List.flatten_cons, List.append_assoc,
        blocks_block_append h (hbs b List.mem_cons_self),
        ih fun b' hb' => hbs b' (List.mem_cons_of_mem b hb'), List.cons_append]

theorem leftover_flatten_append (h : 0 < n) (bs : List (List α)) (hbs : ∀ b ∈ bs, b.length = n)
    (l : List α) : leftover n (bs.flatten ++ l) = leftover n l := by
  induction bs with
  | nil => rfl
  | cons b bs ih =>
      rw [List.flatten_cons, List.append_assoc,
        leftover_block_append h (hbs b List.mem_cons_self),
        ih fun b' hb' => hbs b' (List.mem_cons_of_mem b hb')]

/-- The blocks of a stream, wherever it is cut. -/
theorem blocks_append (h : 0 < n) (x y : List α) :
    blocks n (x ++ y) = blocks n x ++ blocks n (leftover n x ++ y) := by
  conv_lhs => rw [← flatten_blocks h x, List.append_assoc]
  exact blocks_flatten_append h _ (fun b hb => length_of_mem_blocks hb) _

/-- The leftover of a stream, wherever it is cut. -/
theorem leftover_append (h : 0 < n) (x y : List α) :
    leftover n (x ++ y) = leftover n (leftover n x ++ y) := by
  conv_lhs => rw [← flatten_blocks h x, List.append_assoc]
  exact leftover_flatten_append h _ (fun b hb => length_of_mem_blocks hb) _

/-- The blocks are a beginning of the list. -/
theorem flatten_blocks_eq_take (h : 0 < n) (l : List α) :
    (blocks n l).flatten = l.take (n * (l.length / n)) := by
  have hall := flatten_blocks h l
  conv at hall => rhs; rw [← List.take_append_drop (n * (l.length / n)) l]
  exact List.append_cancel_right hall

end

end RtosLwip
