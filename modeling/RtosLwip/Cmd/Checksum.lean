import Mathlib.FieldTheory.Separable
import Mathlib.Tactic.ReduceModChar
import RtosLwip.Base.Crc
import RtosLwip.Cmd.Responses

/-!
# The Checksum of a Frame

The checksum of a frame is the CRC-32 of Ethernet: the remainder of a polynomial
division, started with ones and inverted at the end. `cmnMuxCRC32b` computes it bit by
bit in a register that is turned around.

A byte is fetched as a `char` and widened to 32 bits. On the board `char` is unsigned.
In the simulator it is signed, so that a byte of the upper half sets the upper 24 bits of
the register as well. What this adds to the remainder is a power of a polynomial that
has a coefficient for each byte of the upper half, up to a factor that has nothing in
common with the generator. The generator has no square factor, so the two checksums are
the same if and only if the generator divides that polynomial.

## Main definitions

* `ieeePoly`, `IsCrc32`: The checksum as the remainder of a division.
* `cmnMuxCRC32bSigned`: The function where `char` is signed.
* `upperBits`: The bytes of the upper half.

## Theorems

* `isCrc32_cmnMuxCRC32b`: The function is the checksum where `char` is unsigned.
* `sameOnBoth_iff`: When it is the same where it is signed.
* `sameOnBoth_iff_of_short`: A short message must have no byte of the upper half.
-/

namespace RtosLwip

namespace Cmd

open Polynomial

/-- `cmnMuxCRC32b`, one byte, where `char` is signed. -/
def crcByteSigned (crc : UInt32) (b : UInt8) : UInt32 :=
  crcBit^[8] (crc ^^^ b.toInt8.toInt32.toUInt32)

/-- `cmnMuxCRC32b` where `char` is signed. -/
def cmnMuxCRC32bSigned (message : List UInt8) : UInt32 :=
  ~~~ message.foldl crcByteSigned 0xFFFFFFFF

/-! ### The checksum as a remainder -/

/-- The generator of the checksum. -/
noncomputable def ieeePoly : (ZMod 2)[X] :=
  X ^ 32 + X ^ 26 + X ^ 23 + X ^ 22 + X ^ 16 + X ^ 12 + X ^ 11 + X ^ 10 + X ^ 8 + X ^ 7 + X ^ 5 +
    X ^ 4 + X ^ 2 + X + 1

/-- The bits of a message in the order in which they are sent. -/
def messageBits (message : List UInt8) : List Bool :=
  message.flatMap fun b => regBits b.toBitVec

/-- The complement of the checksum is the remainder of the message, with 32 zeros behind it
    and its first 32 bits inverted. The lowest bit of it belongs to the highest power. -/
def IsCrc32 (message : List UInt8) (v : UInt32) : Prop :=
  regPoly (~~~ v).toBitVec =
    (X ^ 32 * bitPoly (messageBits message) +
      X ^ (8 * message.length) * bitPoly (List.replicate 32 true)) %ₘ ieeePoly

/-- The constant of the program is the generator without its leading power. -/
theorem crcGen_eq : crcGen 0xEDB88320#32 = ieeePoly := by
  have hbits : regBits 0xEDB88320#32 = [false, false, false, false, false, true, false, false,
      true, true, false, false, false, false, false, true, false, false, false, true, true, true,
      false, true, true, false, true, true, false, true, true, true] := by decide
  rw [crcGen, regPoly, hbits]
  simp [bitPoly, ieeePoly]
  ring

theorem crcBit_toBitVec (crc : UInt32) :
    (crcBit crc).toBitVec = crcShift 0xEDB88320#32 crc.toBitVec := by
  have hlow : (crc &&& 1).toBitVec =
      BitVec.setWidth 32 (BitVec.ofBool (crc.toBitVec.getLsbD 0)) := by
    rw [UInt32.toBitVec_and]
    exact BitVec.and_one_eq_setWidth_ofBool_getLsbD
  unfold crcBit crcShift
  cases hbit : crc.toBitVec.getLsbD 0 with
  | false =>
      rw [hbit] at hlow
      have hzero : crc &&& 1 = 0 := UInt32.toBitVec_inj.mp hlow
      rw [hzero]
      simp
  | true =>
      rw [hbit] at hlow
      have hone : crc &&& 1 = 1 := UInt32.toBitVec_inj.mp hlow
      rw [hone]
      simp

theorem crcBit_iterate_toBitVec (k : Nat) (crc : UInt32) :
    (crcBit^[k] crc).toBitVec = (crcShift 0xEDB88320#32)^[k] crc.toBitVec := by
  induction k generalizing crc with
  | zero => rfl
  | succ k ih =>
      rw [Function.iterate_succ_apply, Function.iterate_succ_apply, ih, crcBit_toBitVec]

/-- The register after a message, whichever way its bytes are widened. -/
theorem foldl_toBitVec (extend : UInt8 → UInt32) (message : List UInt8) (start : UInt32) :
    (message.foldl (fun crc b => crcBit^[8] (crc ^^^ extend b)) start).toBitVec =
      message.foldl (fun r b => (crcShift 0xEDB88320#32)^[8] (r ^^^ (extend b).toBitVec))
        start.toBitVec := by
  induction message generalizing start with
  | nil => rfl
  | cons b message ih =>
      rw [List.foldl_cons, List.foldl_cons, ih, crcBit_iterate_toBitVec, UInt32.toBitVec_xor]

/-- The residue of the register after a message. -/
theorem mk_foldl (extend : UInt8 → UInt32) (message : List UInt8) :
    AdjoinRoot.mk ieeePoly (regPoly
        (message.foldl (fun crc b => crcBit^[8] (crc ^^^ extend b)) 0xFFFFFFFF).toBitVec) =
      AdjoinRoot.mk ieeePoly (feedPoly 8 (fun b => (extend b).toBitVec)
        (bitPoly (List.replicate 32 true)) message) := by
  have hones : regPoly (0xFFFFFFFF : UInt32).toBitVec = bitPoly (List.replicate 32 true) := by
    rw [regPoly]
    exact congrArg bitPoly (by decide)
  rw [foldl_toBitVec, ← crcGen_eq]
  exact mk_crcRun _ 8 _ message _ _ (congrArg _ hones)

theorem messageBits_cons (b : UInt8) (message : List UInt8) :
    bitPoly (messageBits (b :: message)) =
      regPoly b.toBitVec * X ^ (8 * message.length) + bitPoly (messageBits message) := by
  have hlen : (messageBits message).length = 8 * message.length := by
    induction message with
    | nil => rfl
    | cons c message ih =>
        simp only [messageBits, List.flatMap_cons, List.length_append, length_regBits,
          List.length_cons] at ih ⊢
        omega
  rw [messageBits, List.flatMap_cons, bitPoly_append]
  exact congrArg (fun n => regPoly b.toBitVec * X ^ n + bitPoly (messageBits message)) hlen

/-- With bytes that are widened by zeros, the message is 32 places up. -/
theorem feedPoly_unsigned (message : List UInt8) (p : (ZMod 2)[X]) :
    feedPoly 8 (fun b : UInt8 => b.toUInt32.toBitVec) p message =
      X ^ (8 * message.length) * p + X ^ 32 * bitPoly (messageBits message) := by
  induction message generalizing p with
  | nil => simp [feedPoly, messageBits, bitPoly]
  | cons b message ih =>
      have hwide : regPoly b.toUInt32.toBitVec = X ^ 24 * regPoly b.toBitVec :=
        regPoly_setWidth (by decide) b.toBitVec
      have hstep : feedPoly 8 (fun b : UInt8 => b.toUInt32.toBitVec) p (b :: message) =
          feedPoly 8 (fun b : UInt8 => b.toUInt32.toBitVec)
            (X ^ 8 * (p + regPoly b.toUInt32.toBitVec)) message := rfl
      rw [hstep, ih, hwide, messageBits_cons, List.length_cons]
      ring

/-- Where `char` is unsigned, the function is the checksum. -/
theorem isCrc32_cmnMuxCRC32b (message : List UInt8) :
    IsCrc32 message (cmnMuxCRC32b message) := by
  have hdone : ~~~ cmnMuxCRC32b message = message.foldl crcByte 0xFFFFFFFF := by
    rw [cmnMuxCRC32b, UInt32.not_not]
  rw [IsCrc32, hdone, ← crcGen_eq, regPoly_eq_modByMonic_iff, crcGen_eq]
  have hresidue := mk_foldl UInt8.toUInt32 message
  rw [feedPoly_unsigned, add_comm] at hresidue
  exact hresidue

/-! ### Signed bytes -/

/-- The bytes of the upper half. -/
def upperBits (message : List UInt8) : List Bool := message.map fun b => b.toBitVec.msb

/-- With bytes that are widened by their sign, each byte of the upper half adds 24 bits. -/
theorem feedPoly_signed (message : List UInt8) (p : (ZMod 2)[X]) :
    feedPoly 8 (fun b : UInt8 => b.toInt8.toInt32.toUInt32.toBitVec) p message =
      X ^ (8 * message.length) * p + X ^ 32 * bitPoly (messageBits message) +
        X ^ 8 * bitPoly (List.replicate 24 true) * bitPoly (upperBits message) ^ 8 := by
  induction message generalizing p with
  | nil => simp [feedPoly, messageBits, upperBits, bitPoly]
  | cons b message ih =>
      have hwide : regPoly b.toInt8.toInt32.toUInt32.toBitVec =
          X ^ 24 * regPoly b.toBitVec + bitPoly (List.replicate 24 b.toBitVec.msb) :=
        regPoly_signExtend (by decide) b.toBitVec
      have hstep : feedPoly 8 (fun b : UInt8 => b.toInt8.toInt32.toUInt32.toBitVec) p
          (b :: message) = feedPoly 8 (fun b : UInt8 => b.toInt8.toInt32.toUInt32.toBitVec)
            (X ^ 8 * (p + regPoly b.toInt8.toInt32.toUInt32.toBitVec)) message := rfl
      have hupper : bitPoly (upperBits (b :: message)) =
          (if b.toBitVec.msb then X ^ message.length else 0) + bitPoly (upperBits message) := by
        rw [upperBits, List.map_cons, bitPoly, List.length_map]
        rfl
      -- the eighth power of a sum is the sum of the eighth powers
      have hpow : ∀ a b : (ZMod 2)[X], (a + b) ^ 8 = a ^ 8 + b ^ 8 := fun a b =>
        add_pow_char_pow a b 2 3
      rw [hstep, ih, hwide, messageBits_cons, hupper, hpow, List.length_cons]
      cases b.toBitVec.msb with
      | false =>
          rw [bitPoly_replicate_false]
          simp only [Bool.false_eq_true, if_false]
          ring
      | true =>
          simp only [if_true]
          ring

/-! ### What the generator divides -/

theorem derivative_ieeePoly :
    derivative ieeePoly = X ^ 22 + X ^ 10 + X ^ 6 + X ^ 4 + 1 := by
  simp only [ieeePoly, derivative_add, derivative_X_pow, derivative_X, derivative_one,
    Nat.cast_ofNat, Nat.reduceSub]
  reduce_mod_char
  simp

/-- The generator has no square factor: it has nothing in common with its derivative. -/
theorem squarefree_ieeePoly : Squarefree ieeePoly := by
  have hseparable : ieeePoly.Separable := by
    refine ⟨X ^ 16 + X ^ 14 + X ^ 12 + X ^ 10, X ^ 26 + X ^ 24 + X ^ 22 + X ^ 18 + X ^ 17 +
      X ^ 15 + X ^ 14 + X ^ 13 + X ^ 11 + X ^ 8 + X ^ 6 + X ^ 4 + 1, ?_⟩
    rw [derivative_ieeePoly, ieeePoly]
    ring_nf
    reduce_mod_char
  exact hseparable.squarefree

theorem isCoprime_ieeePoly : IsCoprime ieeePoly (X ^ 4 + X) := by
  refine ⟨X ^ 3 + X + 1, X ^ 31 + X ^ 29 + X ^ 26 + X ^ 25 + X ^ 22 + X ^ 21 + X ^ 20 + X ^ 19 +
    X ^ 17 + X ^ 16 + X ^ 15 + X ^ 14 + X ^ 10 + X ^ 5 + X ^ 4, ?_⟩
  rw [ieeePoly]
  ring_nf
  reduce_mod_char

/-- A run of ones is a geometric sum. -/
theorem bitPoly_replicate_true (n : Nat) :
    bitPoly (List.replicate n true) * (X + 1) = X ^ n + 1 := by
  induction n with
  | zero =>
      simp only [List.replicate_zero, bitPoly, zero_mul, pow_zero]
      exact (add_self_zmod2 1).symm
  | succ n ih =>
      have hself := add_self_zmod2 (X ^ n)
      rw [List.replicate_succ, bitPoly, List.length_replicate, if_pos rfl, add_mul, ih]
      linear_combination hself

/-- What the signs add is divided by the generator if and only if the polynomial of the
    bytes of the upper half is. -/
theorem dvd_signs_iff (p : (ZMod 2)[X]) :
    ieeePoly ∣ X ^ 8 * bitPoly (List.replicate 24 true) * p ^ 8 ↔ ieeePoly ∣ p := by
  constructor
  · intro h
    have hones := bitPoly_replicate_true 24
    have hpow : (X ^ 3 + 1 : (ZMod 2)[X]) ^ 8 = (X ^ 3) ^ 8 + 1 ^ 8 :=
      add_pow_char_pow (X ^ 3) 1 2 3
    -- with one more factor it is an eighth power
    have hwhole : (X + 1) * (X ^ 8 * bitPoly (List.replicate 24 true) * p ^ 8) =
        ((X ^ 4 + X) * p) ^ 8 := by
      have hfactor : (X ^ 4 + X : (ZMod 2)[X]) = X * (X ^ 3 + 1) := by ring
      rw [hfactor, mul_pow, mul_pow, hpow]
      linear_combination X ^ 8 * p ^ 8 * hones
    have hdvd : ieeePoly ∣ ((X ^ 4 + X) * p) ^ 8 := hwhole ▸ h.mul_left (X + 1)
    have hroot := (squarefree_ieeePoly.dvd_pow_iff_dvd (by decide)).mp hdvd
    exact isCoprime_ieeePoly.dvd_of_dvd_mul_left hroot
  · intro h
    exact (h.pow (by decide)).mul_left _

/-! ### The two targets -/

/-- Where `char` is signed, the function is the same if and only if the generator divides the
    polynomial of the bytes of the upper half. -/
theorem cmnMuxCRC32bSigned_eq_iff (message : List UInt8) :
    cmnMuxCRC32bSigned message = cmnMuxCRC32b message ↔
      ieeePoly ∣ bitPoly (upperBits message) := by
  have hunsigned := mk_foldl UInt8.toUInt32 message
  have hsigned := mk_foldl (fun b => b.toInt8.toInt32.toUInt32) message
  rw [feedPoly_unsigned] at hunsigned
  rw [feedPoly_signed, map_add] at hsigned
  rw [← dvd_signs_iff, ← AdjoinRoot.mk_eq_zero, cmnMuxCRC32bSigned, cmnMuxCRC32b,
    UInt32.not_inj]
  constructor
  · intro h
    have hsame : message.foldl crcByteSigned 0xFFFFFFFF = message.foldl crcByte 0xFFFFFFFF := h
    have hreg := congrArg (fun r : UInt32 => AdjoinRoot.mk ieeePoly (regPoly r.toBitVec)) hsame
    have hsum := hsigned.symm.trans (hreg.trans hunsigned)
    exact left_eq_add.mp hsum.symm
  · intro h
    rw [h, add_zero, ← hunsigned, ← crcGen_eq] at hsigned
    exact UInt32.toBitVec_inj.mp (mk_regPoly_inj hsigned)

/-- A short message is too short for the generator. -/
theorem dvd_upperBits_iff_of_short {message : List UInt8} (h : message.length ≤ 32) :
    ieeePoly ∣ bitPoly (upperBits message) ↔ ∀ b ∈ message, b.toBitVec.msb = false := by
  constructor
  · intro hdvd
    have hzero : bitPoly (upperBits message) = 0 := by
      refine eq_zero_of_dvd_of_degree_lt hdvd ?_
      have hdegree := degree_bitPoly (upperBits message)
      rw [← crcGen_eq, degree_crcGen]
      refine lt_of_lt_of_le hdegree ?_
      rw [upperBits, List.length_map]
      exact_mod_cast h
    have hnone := eq_replicate_of_bitPoly hzero
    intro b hb
    have hmem : b.toBitVec.msb ∈ upperBits message := List.mem_map_of_mem hb
    rw [hnone] at hmem
    exact List.eq_of_mem_replicate hmem
  · intro hnone
    have hbits : upperBits message = List.replicate message.length false := by
      rw [upperBits, ← List.map_const']
      exact List.map_congr_left hnone
    rw [hbits, bitPoly_replicate_false]
    exact dvd_zero _

/-- The function is the checksum of the message, and the same on both targets. -/
def SameOnBoth (message : List UInt8) : Prop :=
  IsCrc32 message (cmnMuxCRC32b message) ∧
    IsCrc32 message (cmnMuxCRC32bSigned message) ∧
      cmnMuxCRC32bSigned message = cmnMuxCRC32b message

/-- It is, if and only if the generator divides the polynomial of the bytes of the upper
    half. -/
theorem sameOnBoth_iff (message : List UInt8) :
    SameOnBoth message ↔ ieeePoly ∣ bitPoly (upperBits message) := by
  rw [← cmnMuxCRC32bSigned_eq_iff]
  constructor
  · exact fun h => h.2.2
  · intro h
    have hcrc := isCrc32_cmnMuxCRC32b message
    exact ⟨hcrc, h ▸ hcrc, h⟩

/-- A message of up to 32 bytes must have no byte of the upper half. -/
theorem sameOnBoth_iff_of_short {message : List UInt8} (h : message.length ≤ 32) :
    SameOnBoth message ↔ ∀ b ∈ message, b.toBitVec.msb = false :=
  (sameOnBoth_iff message).trans (dvd_upperBits_iff_of_short h)

/-- It is not, for the first byte of the upper half. -/
theorem not_sameOnBoth_upper : ¬ SameOnBoth [0x80] := by
  intro h
  exact absurd h.2.2 (by decide)

end Cmd

end RtosLwip
