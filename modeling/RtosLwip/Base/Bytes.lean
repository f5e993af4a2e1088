import Mathlib.Data.List.Basic

/-!
# Buffers of Bytes

Loads and stores of big-endian values in a buffer of bytes. A store behind the
end of the buffer does nothing, and a load there gives zero; the lengths are
hypotheses of the rules for reading back what was written, and of no others.

The rules come in two kinds. `load32_store32_self` and its like read back what
was written, and `load16_store8_ne` and its like step over a store that does not
overlap. `Agree` compares two buffers at some of their places: storing the same
value into both makes them agree there as well, so what a sequence of stores
leaves to the old contents can be read off its `Agree`.

## Main definitions

* `load8`, `load16`, `load32`: The value at an offset.
* `store8`, `store16`, `store32`, `storeBytes`, `memset0`: Writing.
* `Agree`: Two buffers of one length with the same bytes at some places.

## Theorems

* `load16_store16_self`, `load32_store32_self`, `load8_storeBytes_add`: What was
  written is read back.
* `load8_store8_ne` and its like: A store leaves the other places alone.
* `Agree.store8` and its like: Storing into two buffers.
* `Agree.take_eq`: Buffers that agree below a bound.
-/

namespace RtosLwip

/-- The byte at an offset. -/
def load8 (buf : List UInt8) (off : Nat) : UInt8 := buf.getD off 0

/-- The big-endian 16-bit value at an offset. -/
def load16 (buf : List UInt8) (off : Nat) : UInt16 :=
  (load8 buf off).toUInt16 <<< 8 ||| (load8 buf (off + 1)).toUInt16

/-- The big-endian 32-bit value at an offset. -/
def load32 (buf : List UInt8) (off : Nat) : UInt32 :=
  (load16 buf off).toUInt32 <<< 16 ||| (load16 buf (off + 2)).toUInt32

/-- Write a byte. -/
def store8 (off : Nat) (v : UInt8) (buf : List UInt8) : List UInt8 := buf.set off v

/-- Write a 16-bit value, big-endian. -/
def store16 (off : Nat) (v : UInt16) (buf : List UInt8) : List UInt8 :=
  store8 (off + 1) v.toUInt8 (store8 off (v >>> 8).toUInt8 buf)

/-- Write a 32-bit value, big-endian. -/
def store32 (off : Nat) (v : UInt32) (buf : List UInt8) : List UInt8 :=
  store16 (off + 2) v.toUInt16 (store16 off (v >>> 16).toUInt16 buf)

/-- Write bytes one behind the other. -/
def storeBytes (off : Nat) (bytes : List UInt8) (buf : List UInt8) : List UInt8 :=
  match bytes with
  | [] => buf
  | b :: rest => storeBytes (off + 1) rest (store8 off b buf)

/-- `memset` with zero. -/
def memset0 (off n : Nat) (buf : List UInt8) : List UInt8 :=
  storeBytes off (List.replicate n 0) buf

section Lengths

variable (buf : List UInt8)

@[simp] theorem length_store8 (off : Nat) (v : UInt8) : (store8 off v buf).length = buf.length :=
  List.length_set

@[simp] theorem length_store16 (off : Nat) (v : UInt16) :
    (store16 off v buf).length = buf.length := by
  simp only [store16, length_store8]

@[simp] theorem length_store32 (off : Nat) (v : UInt32) :
    (store32 off v buf).length = buf.length := by
  simp only [store32, length_store16]

@[simp] theorem length_storeBytes (off : Nat) (bytes : List UInt8) :
    (storeBytes off bytes buf).length = buf.length := by
  induction bytes generalizing off buf with
  | nil => rfl
  | cons b rest ih => rw [storeBytes, ih, length_store8]

@[simp] theorem length_memset0 (off n : Nat) : (memset0 off n buf).length = buf.length :=
  length_storeBytes buf off _

end Lengths

/-- The two halves of a 16-bit value. -/
theorem join16 (v : UInt16) : (v >>> 8).toUInt8.toUInt16 <<< 8 ||| v.toUInt8.toUInt16 = v := by
  have h := v.toNat_lt
  have h8 : UInt16.toNat 8 % 16 = 8 := rfl
  apply UInt16.toNat_inj.mp
  simp only [UInt16.toNat_or, UInt16.toNat_shiftLeft, UInt8.toNat_toUInt16, UInt16.toNat_toUInt8,
    UInt16.toNat_shiftRight, h8]
  have hhigh : v.toNat >>> 8 % 2 ^ 8 = v.toNat >>> 8 :=
    Nat.mod_eq_of_lt (by rw [Nat.shiftRight_eq_div_pow]; omega)
  have hshift : (v.toNat >>> 8) <<< 8 % 2 ^ 16 = (v.toNat >>> 8) <<< 8 :=
    Nat.mod_eq_of_lt (by rw [Nat.shiftRight_eq_div_pow, Nat.shiftLeft_eq]; omega)
  rw [hhigh, hshift, ← Nat.shiftLeft_add_eq_or_of_lt (Nat.mod_lt _ (by decide)),
    Nat.shiftRight_eq_div_pow, Nat.shiftLeft_eq]
  omega

/-- The two halves of a 32-bit value. -/
theorem join32 (v : UInt32) :
    (v >>> 16).toUInt16.toUInt32 <<< 16 ||| v.toUInt16.toUInt32 = v := by
  have h := v.toNat_lt
  have h16 : UInt32.toNat 16 % 32 = 16 := rfl
  apply UInt32.toNat_inj.mp
  simp only [UInt32.toNat_or, UInt32.toNat_shiftLeft, UInt16.toNat_toUInt32, UInt32.toNat_toUInt16,
    UInt32.toNat_shiftRight, h16]
  have hhigh : v.toNat >>> 16 % 2 ^ 16 = v.toNat >>> 16 :=
    Nat.mod_eq_of_lt (by rw [Nat.shiftRight_eq_div_pow]; omega)
  have hshift : (v.toNat >>> 16) <<< 16 % 2 ^ 32 = (v.toNat >>> 16) <<< 16 :=
    Nat.mod_eq_of_lt (by rw [Nat.shiftRight_eq_div_pow, Nat.shiftLeft_eq]; omega)
  rw [hhigh, hshift, ← Nat.shiftLeft_add_eq_or_of_lt (Nat.mod_lt _ (by decide)),
    Nat.shiftRight_eq_div_pow, Nat.shiftLeft_eq]
  omega

/-- The two halves of a signed 64-bit value, of which the higher carries the
    sign. -/
theorem join64 (x : Int64) :
    ((x >>> 32).toInt32.toUInt32.toUInt64 <<< 32 + x.toInt32.toUInt32.toUInt64).toInt64 = x := by
  -- the halves do not overlap, so that nothing is carried
  have hadd : (x >>> 32).toInt32.toUInt32.toUInt64 <<< 32 + x.toInt32.toUInt32.toUInt64
      = (x >>> 32).toInt32.toUInt32.toUInt64 <<< 32 ||| x.toInt32.toUInt32.toUInt64 := by
    apply UInt64.toBitVec_inj.mp
    rw [UInt64.toBitVec_add, UInt64.toBitVec_or]
    apply BitVec.add_eq_or_of_and_eq_zero
    apply BitVec.eq_of_getLsbD_eq
    intro i hi
    by_cases h : i < 32
    · simp [h, hi]
    · simp [h, hi, BitVec.getLsbD_signExtend]
  rw [hadd]
  apply Int64.toBitVec_inj.mp
  apply BitVec.eq_of_getLsbD_eq
  intro i hi
  by_cases h : i < 32
  · simp [h, hi, BitVec.getElem_signExtend, BitVec.getLsbD_signExtend]
  · have hword : i - 32 < 32 := by omega
    have hlt : i - 32 < 64 := by omega
    have hback : 32 + (i - 32) = i := by omega
    simp [h, hi, hword, hlt, hback, BitVec.getLsbD_signExtend, BitVec.getElem_signExtend,
      BitVec.getElem_sshiftRight]

theorem load8_of_length_le {buf : List UInt8} {k : Nat} (h : buf.length ≤ k) : load8 buf k = 0 := by
  rw [load8, List.getD_eq_getElem?_getD, List.getElem?_eq_none h, Option.getD_none]

theorem load8_store8_self (buf : List UInt8) (off : Nat) (v : UInt8) (h : off < buf.length) :
    load8 (store8 off v buf) off = v := by
  simp only [load8, store8, List.getD_eq_getElem?_getD, List.getElem?_set_self h, Option.getD_some]

theorem load8_store8_ne (buf : List UInt8) (off k : Nat) (v : UInt8) (h : k ≠ off) :
    load8 (store8 off v buf) k = load8 buf k := by
  simp only [load8, store8, List.getD_eq_getElem?_getD, List.getElem?_set_ne h.symm]

theorem load8_store16_ne (buf : List UInt8) (off k : Nat) (v : UInt16) (h : k < off ∨ off + 2 ≤ k) :
    load8 (store16 off v buf) k = load8 buf k := by
  rw [store16, load8_store8_ne _ _ _ _ (by omega), load8_store8_ne _ _ _ _ (by omega)]

theorem load8_store32_ne (buf : List UInt8) (off k : Nat) (v : UInt32) (h : k < off ∨ off + 4 ≤ k) :
    load8 (store32 off v buf) k = load8 buf k := by
  rw [store32, load8_store16_ne _ _ _ _ (by omega), load8_store16_ne _ _ _ _ (by omega)]

theorem load16_store16_self (buf : List UInt8) (off : Nat) (v : UInt16)
    (h : off + 1 < buf.length) : load16 (store16 off v buf) off = v := by
  have hhigh : load8 (store16 off v buf) off = (v >>> 8).toUInt8 := by
    rw [store16, load8_store8_ne _ _ _ _ (by omega), load8_store8_self _ _ _ (by omega)]
  have hlow : load8 (store16 off v buf) (off + 1) = v.toUInt8 :=
    load8_store8_self _ _ _ (by rwa [length_store8])
  rw [load16, hhigh, hlow, join16]

theorem load8_storeBytes_ne (buf bytes : List UInt8) (off k : Nat)
    (h : k < off ∨ off + bytes.length ≤ k) :
    load8 (storeBytes off bytes buf) k = load8 buf k := by
  induction bytes generalizing off buf with
  | nil => rfl
  | cons b rest ih =>
      simp only [List.length_cons] at h
      rw [storeBytes, ih _ _ (by omega), load8_store8_ne _ _ _ _ (by omega)]

theorem load8_storeBytes_add (buf bytes : List UInt8) (off k : Nat)
    (hk : k < bytes.length) (h : off + k < buf.length) :
    load8 (storeBytes off bytes buf) (off + k) = bytes.getD k 0 := by
  induction bytes generalizing off buf k with
  | nil => exact absurd hk (Nat.not_lt_zero k)
  | cons b rest ih =>
      rw [storeBytes]
      cases k with
      | zero =>
          rw [Nat.add_zero, load8_storeBytes_ne _ _ _ _ (by omega)]
          exact load8_store8_self _ _ _ h
      | succ k =>
          have hoff : off + (k + 1) = off + 1 + k := by omega
          rw [List.length_cons] at hk
          rw [hoff, ih _ _ _ (by omega) (by rw [length_store8]; omega)]
          rfl

theorem load8_memset0_ne (buf : List UInt8) (off n k : Nat) (h : k < off ∨ off + n ≤ k) :
    load8 (memset0 off n buf) k = load8 buf k :=
  load8_storeBytes_ne _ _ _ _ (by rwa [List.length_replicate])

theorem load8_memset0_self (buf : List UInt8) (off n k : Nat) (h : off ≤ k ∧ k < off + n) :
    load8 (memset0 off n buf) k = 0 := by
  by_cases hk : k < buf.length
  · have hadd : k = off + (k - off) := by omega
    have hzeros : k - off < (List.replicate n (0 : UInt8)).length := by
      rw [List.length_replicate]
      omega
    rw [memset0, hadd, load8_storeBytes_add _ _ _ _ hzeros (by omega),
      List.getD_eq_getElem?_getD, List.getElem?_replicate_of_lt (by omega), Option.getD_some]
  · exact load8_of_length_le (by rw [length_memset0]; omega)

section Words

variable {buf buf' : List UInt8} {k : Nat}

theorem load16_congr (h : ∀ j, k ≤ j → j < k + 2 → load8 buf j = load8 buf' j) :
    load16 buf k = load16 buf' k := by
  rw [load16, load16, h k (by omega) (by omega), h (k + 1) (by omega) (by omega)]

theorem load32_congr (h : ∀ j, k ≤ j → j < k + 4 → load8 buf j = load8 buf' j) :
    load32 buf k = load32 buf' k := by
  rw [load32, load32, load16_congr fun j _ _ => h j (by omega) (by omega),
    load16_congr (k := k + 2) fun j _ _ => h j (by omega) (by omega)]

variable (buf) (off : Nat)

theorem load16_store8_ne (v : UInt8) (h : off < k ∨ k + 2 ≤ off) :
    load16 (store8 off v buf) k = load16 buf k :=
  load16_congr fun _ _ _ => load8_store8_ne _ _ _ _ (by omega)

theorem load16_store16_ne (v : UInt16) (h : off + 2 ≤ k ∨ k + 2 ≤ off) :
    load16 (store16 off v buf) k = load16 buf k :=
  load16_congr fun _ _ _ => load8_store16_ne _ _ _ _ (by omega)

theorem load16_store32_ne (v : UInt32) (h : off + 4 ≤ k ∨ k + 2 ≤ off) :
    load16 (store32 off v buf) k = load16 buf k :=
  load16_congr fun _ _ _ => load8_store32_ne _ _ _ _ (by omega)

theorem load16_storeBytes_ne (bytes : List UInt8) (h : off + bytes.length ≤ k ∨ k + 2 ≤ off) :
    load16 (storeBytes off bytes buf) k = load16 buf k :=
  load16_congr fun _ _ _ => load8_storeBytes_ne _ _ _ _ (by omega)

theorem load16_memset0_ne (n : Nat) (h : off + n ≤ k ∨ k + 2 ≤ off) :
    load16 (memset0 off n buf) k = load16 buf k :=
  load16_congr fun _ _ _ => load8_memset0_ne _ _ _ _ (by omega)

theorem load16_memset0_self (n : Nat) (h : off ≤ k ∧ k + 2 ≤ off + n) :
    load16 (memset0 off n buf) k = 0 := by
  rw [load16, load8_memset0_self _ _ _ _ (by omega), load8_memset0_self _ _ _ _ (by omega)]
  rfl

theorem load32_store8_ne (v : UInt8) (h : off < k ∨ k + 4 ≤ off) :
    load32 (store8 off v buf) k = load32 buf k :=
  load32_congr fun _ _ _ => load8_store8_ne _ _ _ _ (by omega)

theorem load32_store16_ne (v : UInt16) (h : off + 2 ≤ k ∨ k + 4 ≤ off) :
    load32 (store16 off v buf) k = load32 buf k :=
  load32_congr fun _ _ _ => load8_store16_ne _ _ _ _ (by omega)

theorem load32_store32_ne (v : UInt32) (h : off + 4 ≤ k ∨ k + 4 ≤ off) :
    load32 (store32 off v buf) k = load32 buf k :=
  load32_congr fun _ _ _ => load8_store32_ne _ _ _ _ (by omega)

theorem load32_storeBytes_ne (bytes : List UInt8) (h : off + bytes.length ≤ k ∨ k + 4 ≤ off) :
    load32 (storeBytes off bytes buf) k = load32 buf k :=
  load32_congr fun _ _ _ => load8_storeBytes_ne _ _ _ _ (by omega)

theorem load32_memset0_ne (n : Nat) (h : off + n ≤ k ∨ k + 4 ≤ off) :
    load32 (memset0 off n buf) k = load32 buf k :=
  load32_congr fun _ _ _ => load8_memset0_ne _ _ _ _ (by omega)

theorem load32_memset0_self (n : Nat) (h : off ≤ k ∧ k + 4 ≤ off + n) :
    load32 (memset0 off n buf) k = 0 := by
  rw [load32, load16_memset0_self _ _ _ (by omega), load16_memset0_self _ _ _ (by omega)]
  rfl

theorem load32_store32_self (v : UInt32) (h : off + 3 < buf.length) :
    load32 (store32 off v buf) off = v := by
  have hhigh : load16 (store32 off v buf) off = (v >>> 16).toUInt16 := by
    rw [store32, load16_store16_ne _ _ _ (by omega), load16_store16_self _ _ _ (by omega)]
  have hlow : load16 (store32 off v buf) (off + 2) = v.toUInt16 :=
    load16_store16_self _ _ _ (by rw [length_store16]; omega)
  rw [load32, hhigh, hlow, join32]

end Words

theorem load8_take (buf : List UInt8) (n k : Nat) (h : k < n) :
    load8 (buf.take n) k = load8 buf k := by
  simp only [load8, List.getD_eq_getElem?_getD, List.getElem?_take_of_lt h]

theorem getElem?_eq_load8 {buf : List UInt8} {k : Nat} (h : k < buf.length) :
    buf[k]? = some (load8 buf k) := by
  rw [load8, List.getD_eq_getElem?_getD, List.getElem?_eq_getElem h, Option.getD_some]

/-- Two buffers of one length that have the same bytes at some places. -/
def Agree (K : Nat → Prop) (a b : List UInt8) : Prop :=
  a.length = b.length ∧ ∀ k, K k → load8 a k = load8 b k

namespace Agree

variable {K : Nat → Prop} {a b : List UInt8}

theorem mono {K' : Nat → Prop} (h : Agree K a b) (hK : ∀ k, K' k → K k) : Agree K' a b :=
  ⟨h.1, fun k hk => h.2 k (hK k hk)⟩

/-- Storing the same byte into both buffers. -/
theorem store8 (h : Agree K a b) (off : Nat) (v : UInt8) :
    Agree (fun k => K k ∨ k = off) (store8 off v a) (store8 off v b) := by
  refine ⟨by rw [length_store8, length_store8, h.1], fun k hk => ?_⟩
  by_cases heq : k = off
  · subst heq
    by_cases hlt : k < a.length
    · rw [load8_store8_self _ _ _ hlt, load8_store8_self _ _ _ (by rwa [← h.1])]
    · rw [RtosLwip.store8, RtosLwip.store8, List.set_eq_of_length_le (by omega),
        List.set_eq_of_length_le (by rw [← h.1]; omega), load8_of_length_le (by omega),
        load8_of_length_le (by rw [← h.1]; omega)]
  · rw [load8_store8_ne _ _ _ _ heq, load8_store8_ne _ _ _ _ heq]
    exact h.2 k (hk.resolve_right heq)

theorem store16 (h : Agree K a b) (off : Nat) (v : UInt16) :
    Agree (fun k => K k ∨ off ≤ k ∧ k < off + 2) (store16 off v a) (store16 off v b) :=
  ((h.store8 off _).store8 (off + 1) _).mono fun k hk => by
    rw [or_assoc]
    exact hk.imp_right fun _ => by omega

theorem store32 (h : Agree K a b) (off : Nat) (v : UInt32) :
    Agree (fun k => K k ∨ off ≤ k ∧ k < off + 4) (store32 off v a) (store32 off v b) :=
  ((h.store16 off _).store16 (off + 2) _).mono fun k hk => by
    rw [or_assoc]
    exact hk.imp_right fun _ => by omega

theorem storeBytes (h : Agree K a b) (off : Nat) (bytes : List UInt8) :
    Agree (fun k => K k ∨ off ≤ k ∧ k < off + bytes.length) (storeBytes off bytes a)
      (storeBytes off bytes b) := by
  induction bytes generalizing K a b off with
  | nil =>
      refine h.mono fun k hk => hk.resolve_right ?_
      simp only [List.length_nil]
      omega
  | cons v rest ih =>
      refine (ih (h.store8 off v) (off + 1)).mono fun k hk => ?_
      rw [or_assoc]
      refine hk.imp_right fun hin => ?_
      simp only [List.length_cons] at hin
      omega

theorem memset0 (h : Agree K a b) (off n : Nat) :
    Agree (fun k => K k ∨ off ≤ k ∧ k < off + n) (memset0 off n a) (memset0 off n b) :=
  (h.storeBytes off _).mono fun k hk => by rwa [List.length_replicate]

/-- Buffers that agree below a bound begin with the same bytes. -/
theorem take_eq {n : Nat} (h : Agree K a b) (hK : ∀ k, k < n → K k) : a.take n = b.take n := by
  apply List.ext_getElem?
  intro k
  by_cases hk : k < n ∧ k < a.length
  · rw [List.getElem?_take_of_lt hk.1, List.getElem?_take_of_lt hk.1, getElem?_eq_load8 hk.2,
      getElem?_eq_load8 (by rw [← h.1]; exact hk.2), h.2 k (hK k hk.1)]
  · rw [List.getElem?_eq_none (by rw [List.length_take]; omega),
      List.getElem?_eq_none (by rw [List.length_take, ← h.1]; omega)]

/-- Buffers that agree from a place on end with the same bytes. -/
theorem drop_eq {n : Nat} (h : Agree K a b) (hK : ∀ k, n ≤ k → K k) : a.drop n = b.drop n := by
  apply List.ext_getElem?
  intro k
  rw [List.getElem?_drop, List.getElem?_drop]
  by_cases hk : n + k < a.length
  · rw [getElem?_eq_load8 hk, getElem?_eq_load8 (by rwa [← h.1]), h.2 _ (hK _ (by omega))]
  · rw [List.getElem?_eq_none (by omega), List.getElem?_eq_none (by rw [← h.1]; omega)]

end Agree

end RtosLwip
