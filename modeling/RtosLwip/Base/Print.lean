import Mathlib.Data.List.GetD
import RtosLwip.Base.Text

/-!
# Printing into Memory

`snprintf` as C has it: the text is cut to what fits below a size, a NUL follows
what was written, and the length that is returned is that of the whole text.
A sequence of such prints, each behind the one before, is how a long text is put
together in a buffer. The room of a print is an unsigned difference, so behind
the end of the buffer it wraps around and limits nothing any more; the memory is
therefore a function of the address, and what a print does outside the buffer
can be told.

## Main definitions

* `store`: Bytes written one behind the other.
* `load`: Bytes read one behind the other.
* `snprintf`: One print.
* `room`: The size that is left behind an index.
* `prints`: Prints one behind the other.

## Theorems

* `load_append`, `load_store`, `load_store_of_le`: Reading behind writing.
* `snprintf_below`, `snprintf_above`, `snprintf_apply`: What a print writes.
* `prints_below`: Nothing below the first of the prints is written.
* `prints_index`: The index counts what the prints would need.
* `load_prints`: Prints that fit stand one behind the other.
-/

namespace RtosLwip

namespace Print

/-- The bytes at `n` addresses from `address` on. -/
def load (mem : Nat → UInt8) (address n : Nat) : List UInt8 :=
  (List.range n).map fun i => mem (address + i)

/-- Write bytes one behind the other. -/
def store (mem : Nat → UInt8) (address : Nat) (bytes : List UInt8) : Nat → UInt8 := fun i =>
  if address ≤ i then bytes.getD (i - address) (mem i) else mem i

/-- `snprintf` of a text that is formatted already. -/
def snprintf (mem : Nat → UInt8) (str size : Nat) (text : List UInt8) : Nat → UInt8 :=
  if size = 0 then mem else store mem str (text.take (size - 1) ++ [0])

/-- `size - index`, of `unsigned int`. -/
def room (size index : Nat) : Nat := (((size : Int) - index) % 2 ^ 32).toNat

/-- Prints one behind the other: each `index += snprintf(data + index, size - index, text)`. -/
def prints (data size : Nat) :
    Nat → List (List UInt8) → (Nat → UInt8) → (Nat → UInt8) × Nat
  | index, [], mem => (mem, index)
  | index, text :: texts, mem =>
      prints data size (index + text.length) texts
        (snprintf mem (data + index) (room size index) text)

variable (mem : Nat → UInt8) (address : Nat)

@[simp] theorem length_load (n : Nat) : (load mem address n).length = n := by
  rw [load, List.length_map, List.length_range]

theorem load_append (n m : Nat) :
    load mem address (n + m) = load mem address n ++ load mem (address + n) m := by
  simp only [load, List.range_add, List.map_append, List.map_map, Function.comp_def,
    Nat.add_assoc]

theorem take_load (n m : Nat) : (load mem address (n + m)).take n = load mem address n := by
  rw [load_append, List.take_left' (length_load _ _ _)]

theorem drop_load (n m : Nat) : (load mem address (n + m)).drop n = load mem (address + n) m := by
  rw [load_append, List.drop_left' (length_load _ _ _)]

theorem getElem_load {n i : Nat} (h : i < (load mem address n).length) :
    (load mem address n)[i] = mem (address + i) := by
  simp only [load, List.getElem_map, List.getElem_range]

/-- Memory that agrees at the addresses is read alike. -/
theorem load_congr {mem mem' : Nat → UInt8} {address n : Nat}
    (h : ∀ i, address ≤ i → i < address + n → mem i = mem' i) :
    load mem address n = load mem' address n := by
  refine List.map_congr_left fun i hi => h _ (Nat.le_add_right _ _) ?_
  rw [List.mem_range] at hi
  omega

theorem store_below (bytes : List UInt8) {i : Nat} (h : i < address) :
    store mem address bytes i = mem i := by
  rw [store, if_neg (by omega)]

theorem store_above (bytes : List UInt8) {i : Nat} (h : address + bytes.length ≤ i) :
    store mem address bytes i = mem i := by
  rw [store]
  split
  · exact List.getD_eq_default _ _ (by omega)
  · rfl

/-- What was written is read back, also the beginning of it. -/
theorem load_store {bytes rest : List UInt8} :
    load (store mem address (bytes ++ rest)) address bytes.length = bytes := by
  refine List.ext_getElem (length_load _ _ _) fun i hi hi' => ?_
  rw [getElem_load, store, if_pos (Nat.le_add_right _ _), Nat.add_sub_cancel_left,
    List.getD_append _ _ _ _ hi', List.getD_eq_getElem _ _ hi']

/-- What is written behind the place is not read there. -/
theorem load_store_of_le (bytes : List UInt8) {place n : Nat} (h : place + n ≤ address) :
    load (store mem address bytes) place n = load mem place n :=
  load_congr fun _ _ hi => store_below _ _ _ (by omega)

theorem snprintf_below (size : Nat) (text : List UInt8) {i : Nat} (h : i < address) :
    snprintf mem address size text i = mem i := by
  unfold snprintf
  split
  · rfl
  · exact store_below _ _ _ h

/-- A print ends within its size. -/
theorem snprintf_above (size : Nat) (text : List UInt8) {i : Nat} (h : address + size ≤ i) :
    snprintf mem address size text i = mem i := by
  unfold snprintf
  split
  · rfl
  · refine store_above _ _ _ ?_
    rw [List.length_append, List.length_take, List.length_singleton]
    omega

/-- A character of a print that is not cut off. -/
theorem snprintf_apply {size i : Nat} {text : List UInt8} (hi : i < text.length)
    (hsize : i + 1 < size) : snprintf mem address size text (address + i) = text[i] := by
  have hcut : i < (text.take (size - 1)).length := by
    rw [List.length_take]
    omega
  rw [snprintf, if_neg (by omega), store, if_pos (Nat.le_add_right _ _),
    Nat.add_sub_cancel_left, List.getD_append _ _ _ _ hcut, List.getD_eq_getElem _ _ hcut,
    List.getElem_take]

/-- A print that fits is read back. -/
theorem load_snprintf {size : Nat} {text : List UInt8} (h : text.length < size) :
    load (snprintf mem address size text) address text.length = text := by
  refine List.ext_getElem (length_load _ _ _) fun i hi hi' => ?_
  rw [getElem_load, snprintf_apply _ _ hi' (by omega)]

theorem snprintf_of_lt {size : Nat} {text : List UInt8} (h : text.length < size) :
    snprintf mem address size text = store mem address (text ++ [0]) := by
  rw [snprintf, if_neg (by omega), List.take_of_length_le (by omega)]

/-- Printing over a part of what is in memory leaves what is on both sides of it. -/
theorem load_snprintf_within {size k n : Nat} {text : List UInt8} (hsize : text.length < size)
    (hwithin : k + text.length + 1 ≤ n) :
    load (snprintf mem (address + k) size text) address n =
      (load mem address n).take k ++ (text ++ [0]) ++
        (load mem address n).drop (k + text.length + 1) := by
  rcases Nat.exists_eq_add_of_le hwithin with ⟨m, rfl⟩
  have hbytes : (text ++ [0]).length = text.length + 1 := List.length_append
  have hread : load (store mem (address + k) (text ++ [0] ++ [])) (address + k)
      (text ++ [0]).length = text ++ [0] := load_store _ _
  rw [List.append_nil, hbytes] at hread
  have hbehind : load (store mem (address + k) (text ++ [0])) (address + (k + text.length + 1)) m =
      load mem (address + (k + text.length + 1)) m :=
    load_congr fun i hi _ => store_above _ _ _ (by omega)
  have htake : (load mem address (k + text.length + 1 + m)).take k = load mem address k := by
    rw [Nat.add_assoc k, Nat.add_assoc k, take_load]
  rw [snprintf_of_lt _ _ hsize, htake, drop_load, load_append, hbehind, Nat.add_assoc k,
    load_append, hread, load_store_of_le _ _ _ (Nat.le_refl _)]

section Prints

variable (data size : Nat)

theorem room_of_le {index : Nat} (hsize : size < 2 ^ 32) (h : index ≤ size) :
    room size index = size - index := by
  unfold room
  omega

theorem prints_below {index i : Nat} (texts : List (List UInt8)) (h : i < data + index) :
    (prints data size index texts mem).1 i = mem i := by
  induction texts generalizing index mem with
  | nil => rfl
  | cons text texts ih =>
      rw [prints, ih _ (by omega)]
      exact snprintf_below _ _ _ _ h

/-- The index counts the whole texts, however much of them was written. -/
theorem prints_index (index : Nat) (texts : List (List UInt8)) :
    (prints data size index texts mem).2 = index + texts.flatten.length := by
  induction texts generalizing index mem with
  | nil => rfl
  | cons text texts ih => rw [prints, ih, List.flatten_cons, List.length_append, Nat.add_assoc]

/-- Prints that fit stand one behind the other. -/
theorem load_prints (index : Nat) (texts : List (List UInt8)) (hsize : size < 2 ^ 32)
    (hfit : index + texts.flatten.length < size) :
    load (prints data size index texts mem).1 (data + index) texts.flatten.length =
      texts.flatten := by
  induction texts generalizing index mem with
  | nil => rfl
  | cons text texts ih =>
      rw [List.flatten_cons, List.length_append] at hfit ⊢
      rw [prints, load_append]
      -- The first text is not touched by the prints behind it.
      have hfirst : load (prints data size (index + text.length) texts
          (snprintf mem (data + index) (room size index) text)).1 (data + index) text.length =
          text := by
        rw [load_congr fun i _ hi => prints_below _ _ _ texts (by omega),
          load_snprintf _ _ (by rw [room_of_le size hsize (by omega)]; omega)]
      rw [hfirst, Nat.add_assoc data, ih _ _ (by omega)]

end Prints

end Print

end RtosLwip
