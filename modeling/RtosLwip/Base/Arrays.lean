import RtosLwip.Base.Strings
import Mathlib.Data.List.Basic

/-!
# Arrays of Fixed Size

An array of the source, `char a[n]` or `char a[n][m]`, as the code writes it. A write
that would reach past the end has no result, so a sequence of writes that has one has
stayed inside. Memory that was only allocated is the same with bytes that are not there
until they are written.

## Main definitions

* `Buf`, `Buf.write`: An array, and some bytes written into it one behind the other.
* `Buf.text`: The text in an array, if its NUL is inside.
* `Rows`, `Rows.write`: An array of arrays, and bytes written into one of its rows.
* `Fresh`, `Fresh.write`: Memory that has been allocated, and bytes written into it.

## Theorems

* `Buf.exists_write`, `Rows.exists_write`: What a write inside the array leaves.
* `Buf.write_append`: Two writes one behind the other are one.
* `Fresh.write_next`: A write right behind what has been written.
-/

namespace RtosLwip

variable {n m : Nat}

/-- An array of `n` bytes. -/
abbrev Buf (n : Nat) := Vector UInt8 n

namespace Buf

/-- The array with `bytes` from place `i` on. -/
def write (b : Buf n) (i : Nat) (bytes : List UInt8) : Option (Buf n) :=
  if h : i + bytes.length ≤ n then
    some ⟨(b.toList.take i ++ bytes ++ b.toList.drop (i + bytes.length)).toArray, by
      simp only [List.size_toArray, List.length_append, List.length_take, List.length_drop,
        Vector.length_toList]
      omega⟩
  else
    none

/-- The text that the array holds. Without a NUL it would be read past the end. -/
def text (b : Buf n) : Option (List UInt8) := if 0 ∈ b.toList then some (cstr b.toList) else none

theorem text_eq_some_iff {b : Buf n} {s : List UInt8} : b.text = some s ↔ IsText b.toList s := by
  unfold text IsText
  split
  next h => rw [Option.some.injEq, and_iff_right h]
  next h => exact ⟨nofun, fun hs => absurd hs.1 h⟩

theorem write_eq_none (b : Buf n) {i : Nat} {bytes : List UInt8} (h : n < i + bytes.length) :
    b.write i bytes = none :=
  dif_neg (by omega)

theorem exists_write (b : Buf n) {i : Nat} {bytes : List UInt8} (h : i + bytes.length ≤ n) :
    ∃ b', b.write i bytes = some b' ∧
      b'.toList = b.toList.take i ++ bytes ++ b.toList.drop (i + bytes.length) :=
  ⟨_, dif_pos h, List.toList_toArray⟩

theorem toList_of_write {b b' : Buf n} {i : Nat} {bytes : List UInt8}
    (h : b.write i bytes = some b') :
    i + bytes.length ≤ n ∧
      b'.toList = b.toList.take i ++ bytes ++ b.toList.drop (i + bytes.length) := by
  by_cases hin : i + bytes.length ≤ n
  · rcases exists_write b hin with ⟨b₁, hwrite, hlist⟩
    rw [hwrite, Option.some.injEq] at h
    exact ⟨hin, h ▸ hlist⟩
  · rw [write_eq_none b (by omega)] at h
    exact absurd h nofun

theorem write_nil (b : Buf n) {i : Nat} (h : i ≤ n) : b.write i [] = some b := by
  rcases exists_write b (show i + ([] : List UInt8).length ≤ n from h) with ⟨b', hwrite, hlist⟩
  rw [List.append_nil, List.length_nil, Nat.add_zero, List.take_append_drop] at hlist
  rw [hwrite, Vector.toList_inj.mp hlist]

/-- Two writes one behind the other are one. -/
theorem write_append (b : Buf n) (i : Nat) (x y : List UInt8) :
    (b.write i x).bind (·.write (i + x.length) y) = b.write i (x ++ y) := by
  have hlen : (x ++ y).length = x.length + y.length := List.length_append
  by_cases h : i + (x.length + y.length) ≤ n
  · rcases exists_write b (show i + x.length ≤ n by omega) with ⟨b₁, h₁, hlist₁⟩
    rcases exists_write b₁ (show i + x.length + y.length ≤ n by omega) with ⟨b₂, h₂, hlist₂⟩
    rcases exists_write b (show i + (x ++ y).length ≤ n by omega) with ⟨b₃, h₃, hlist₃⟩
    have hfront : (b.toList.take i ++ x).length = i + x.length := by
      rw [List.length_append, List.length_take, Vector.length_toList]
      omega
    have hback : b₁.toList.drop (i + x.length + y.length) =
        b.toList.drop (i + (x ++ y).length) := by
      rw [hlist₁, ← List.drop_drop, List.drop_left' hfront, List.drop_drop, hlen, Nat.add_assoc]
    rw [h₁, Option.bind_some, h₂, h₃, Option.some.injEq, ← Vector.toList_inj, hlist₂, hlist₃,
      hback, hlist₁, List.take_left' hfront, List.append_assoc _ x y]
  · have hnone : b.write i (x ++ y) = none := write_eq_none b (by omega)
    rw [hnone]
    by_cases hx : i + x.length ≤ n
    · rcases exists_write b hx with ⟨b₁, h₁, -⟩
      rw [h₁, Option.bind_some, write_eq_none b₁ (by omega)]
    · have hfirst : b.write i x = none := write_eq_none b (by omega)
      rw [hfirst, Option.bind_none]

end Buf

/-- An array of `n` arrays of `m` bytes. -/
abbrev Rows (n m : Nat) := Vector (Buf m) n

namespace Rows

/-- The bytes of row `i`. -/
def row (t : Rows n m) (i : Nat) : List UInt8 := if h : i < n then t[i].toList else []

/-- The array with `bytes` in row `i`, from place `j` on. -/
def write (t : Rows n m) (i j : Nat) (bytes : List UInt8) : Option (Rows n m) :=
  if h : i < n then (t[i].write j bytes).map fun row => t.set i row else none

theorem row_of_le (t : Rows n m) {i : Nat} (h : n ≤ i) : t.row i = [] :=
  dif_neg (Nat.not_lt.mpr h)

/-- There is no row behind the last, and no room behind the end of a row. -/
theorem write_eq_none (t : Rows n m) {i j : Nat} {bytes : List UInt8}
    (h : n ≤ i ∨ m < j + bytes.length) : t.write i j bytes = none := by
  unfold write
  split
  next hi => rw [Buf.write_eq_none _ (h.resolve_left (Nat.not_le.mpr hi)), Option.map_none]
  next => rfl

/-- Bytes inside a row take the place of those that were there. -/
theorem exists_write (t : Rows n m) {i j : Nat} (hi : i < n) {bytes : List UInt8}
    (hj : j + bytes.length ≤ m) :
    ∃ t', t.write i j bytes = some t' ∧
      t'.row i = (t.row i).take j ++ bytes ++ (t.row i).drop (j + bytes.length) ∧
      ∀ k, k ≠ i → t'.row k = t.row k := by
  rcases Buf.exists_write t[i] hj with ⟨b, hwrite, hlist⟩
  refine ⟨t.set i b, ?_, ?_, fun k hk => ?_⟩
  · rw [write, dif_pos hi, hwrite, Option.map_some]
  · rw [row, dif_pos hi, row, dif_pos hi, Vector.getElem_set_self, hlist]
  · by_cases hkn : k < n
    · rw [row, dif_pos hkn, row, dif_pos hkn, Vector.getElem_set_ne _ _ (Ne.symm hk)]
    · rw [row_of_le _ (Nat.le_of_not_lt hkn), row_of_le _ (Nat.le_of_not_lt hkn)]

end Rows

/-- Allocated memory. A byte is there as soon as it has been written. -/
abbrev Fresh := List (Option UInt8)

namespace Fresh

/-- Memory of a size, with nothing in it. -/
def alloc (size : Nat) : Fresh := List.replicate size none

/-- The memory with `bytes` from place `i` on. -/
def write (p : Fresh) (i : Nat) (bytes : List UInt8) : Option Fresh :=
  if i + bytes.length ≤ p.length then
    some (p.take i ++ bytes.map some ++ p.drop (i + bytes.length))
  else
    none

/-- A write right behind what has been written leaves less that has not been. -/
theorem write_next {written bytes : List UInt8} {left : Nat} (h : bytes.length ≤ left) :
    Fresh.write (written.map some ++ alloc left) written.length bytes =
      some ((written ++ bytes).map some ++ alloc (left - bytes.length)) := by
  have hlen : (written.map some).length = written.length := List.length_map _
  unfold write alloc
  rw [if_pos (by rw [List.length_append, hlen, List.length_replicate]; omega),
    List.take_left' hlen, List.drop_append, List.drop_of_length_le (by omega), hlen,
    Nat.add_sub_cancel_left, List.drop_replicate, List.nil_append, List.map_append]

end Fresh

end RtosLwip
