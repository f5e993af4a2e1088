import Mathlib.Algebra.CharP.Lemmas
import Mathlib.Algebra.Field.ZMod
import Mathlib.RingTheory.AdjoinRoot
import Mathlib.Tactic.LinearCombination

/-!
# Cyclic Redundancy Checks

A check of this kind is the remainder of a polynomial division. The bits of a message
are the coefficients of a polynomial over the field of two elements, the first bit that
of the highest power, and a generator of degree `w` divides it. The remainder is kept in
a register of `w` bits.

A reflected check sends the lowest bit of a byte first. Its register is turned around as
well: the lowest bit belongs to the highest power, and to shift it to the right is to
multiply by the indeterminate. What is taken away for the bit that falls out is the
generator without its leading power, which is the constant of the program.

## Main definitions

* `bitPoly`: The polynomial of some bits.
* `regPoly`: The polynomial of a register.
* `crcShift`: A register that is shifted by one bit.
* `crcGen`: The generator for a constant.

## Theorems

* `mk_regPoly_inj`: A register is known by its residue.
* `regPoly_eq_modByMonic_iff`: What is in a register is a remainder.
* `mk_crcShift_iterate`: To shift a register is to multiply its residue.
* `mk_crcRun`: The residue that is left by a message.
-/

namespace RtosLwip

open Polynomial

/-- The polynomial of some bits. The first one belongs to the highest power. -/
noncomputable def bitPoly : List Bool → (ZMod 2)[X]
  | [] => 0
  | b :: rest => (if b then X ^ rest.length else 0) + bitPoly rest

/-- The bits of a register from the lowest one on. -/
def regBits {w : Nat} (r : BitVec w) : List Bool := List.ofFn fun i : Fin w => r.getLsbD i

/-- The polynomial of a register. The lowest bit belongs to the highest power. -/
noncomputable def regPoly {w : Nat} (r : BitVec w) : (ZMod 2)[X] := bitPoly (regBits r)

/-- A register that is shifted by one bit. -/
def crcShift {w : Nat} (g r : BitVec w) : BitVec w :=
  if r.getLsbD 0 then (r >>> 1) ^^^ g else r >>> 1

/-- The generator of a check. Its leading power is not in the constant. -/
noncomputable def crcGen {w : Nat} (g : BitVec w) : (ZMod 2)[X] := X ^ w + regPoly g

/-! ### The polynomial of bits -/

section Bits

theorem add_self_zmod2 (p : (ZMod 2)[X]) : p + p = 0 := CharTwo.add_self_eq_zero p

theorem bitPoly_append (a b : List Bool) :
    bitPoly (a ++ b) = bitPoly a * X ^ b.length + bitPoly b := by
  induction a with
  | nil => simp [bitPoly]
  | cons c a ih =>
      rw [List.cons_append, bitPoly, bitPoly, ih, List.length_append]
      cases c <;> simp [pow_add]
      ring

theorem bitPoly_replicate_false (n : Nat) : bitPoly (List.replicate n false) = 0 := by
  induction n with
  | zero => rfl
  | succ n ih => simp [List.replicate_succ, bitPoly, ih]

/-- The exclusive or of bits is the sum of their polynomials. -/
theorem bitPoly_zipWith_xor {a b : List Bool} (h : a.length = b.length) :
    bitPoly (List.zipWith xor a b) = bitPoly a + bitPoly b := by
  induction a generalizing b with
  | nil =>
      rw [List.eq_nil_of_length_eq_zero h.symm]
      simp [bitPoly]
  | cons x a ih =>
      rcases b with _ | ⟨y, b⟩
      · exact absurd h nofun
      · have hlen : a.length = b.length := Nat.succ.inj h
        have hzip : (List.zipWith xor a b).length = b.length := by simp [hlen]
        rw [List.zipWith_cons_cons, bitPoly, bitPoly, bitPoly, ih hlen, hzip, hlen]
        have hself := add_self_zmod2 (X ^ b.length)
        cases x <;> cases y <;> simp
        · ring
        · ring
        · linear_combination -hself

theorem degree_bitPoly (a : List Bool) : (bitPoly a).degree < a.length := by
  induction a with
  | nil => simp [bitPoly]
  | cons x a ih =>
      have hsucc : (a.length : WithBot Nat) < (x :: a).length := by
        exact_mod_cast Nat.lt_succ_self a.length
      refine lt_of_le_of_lt (degree_add_le _ _) (max_lt ?_ (ih.trans hsucc))
      cases x
      · simp
      · simpa using hsucc

/-- No bit is set in a polynomial that is zero. -/
theorem eq_replicate_of_bitPoly {a : List Bool} (h : bitPoly a = 0) :
    a = List.replicate a.length false := by
  induction a with
  | nil => rfl
  | cons x a ih =>
      cases x with
      | false =>
          have hrest : bitPoly a = 0 := by simpa [bitPoly] using h
          rw [List.length_cons, List.replicate_succ, ← ih hrest]
      | true =>
          -- the leading power is still there
          have hlead : (X ^ a.length + bitPoly a).Monic := monic_X_pow_add (degree_bitPoly a)
          have hzero : X ^ a.length + bitPoly a = 0 := by simpa [bitPoly] using h
          exact absurd hzero hlead.ne_zero

end Bits

/-! ### Registers -/

section Registers

variable {w : Nat}

theorem length_regBits (r : BitVec w) : (regBits r).length = w := List.length_ofFn

theorem getElem_regBits (r : BitVec w) (i : Nat) (h : i < (regBits r).length) :
    (regBits r)[i] = r.getLsbD i := List.getElem_ofFn _

theorem regPoly_xor (a b : BitVec w) : regPoly (a ^^^ b) = regPoly a + regPoly b := by
  have hbits : regBits (a ^^^ b) = List.zipWith xor (regBits a) (regBits b) := by
    refine List.ext_getElem (by simp [length_regBits]) fun i hi hi' => ?_
    rw [getElem_regBits, List.getElem_zipWith, getElem_regBits, getElem_regBits,
      BitVec.getLsbD_xor]
  rw [regPoly, hbits]
  exact bitPoly_zipWith_xor (by rw [length_regBits, length_regBits])

theorem degree_regPoly (r : BitVec w) : (regPoly r).degree < w := by
  have h := degree_bitPoly (regBits r)
  rwa [length_regBits] at h

theorem monic_crcGen (g : BitVec w) : (crcGen g).Monic := monic_X_pow_add (degree_regPoly g)

theorem degree_crcGen (g : BitVec w) : (crcGen g).degree = w := by
  rw [crcGen, degree_add_eq_left_of_degree_lt, degree_X_pow]
  rw [degree_X_pow]
  exact degree_regPoly g

theorem eq_zero_of_regPoly {r : BitVec w} (h : regPoly r = 0) : r = 0 := by
  have hbits := eq_replicate_of_bitPoly h
  refine BitVec.eq_of_getLsbD_eq fun i hi => ?_
  have hlt : i < (regBits r).length := by rwa [length_regBits]
  rw [← getElem_regBits r i hlt, List.getElem_of_eq hbits hlt]
  simp

/-- A register that is longer has zeros behind its bits. -/
theorem regPoly_setWidth {v : Nat} (h : v ≤ w) (r : BitVec v) :
    regPoly (r.setWidth w) = X ^ (w - v) * regPoly r := by
  have hbits : regBits (r.setWidth w) = regBits r ++ List.replicate (w - v) false := by
    refine List.ext_getElem (by simp [length_regBits, h]) fun i hi hi' => ?_
    rw [length_regBits] at hi
    rw [getElem_regBits, BitVec.getLsbD_setWidth, List.getElem_append]
    split
    · simp [getElem_regBits, hi]
    · rename_i hv
      rw [length_regBits] at hv
      simp [BitVec.getLsbD_of_ge r i (by omega)]
  rw [regPoly, hbits, bitPoly_append, bitPoly_replicate_false, List.length_replicate, add_zero,
    regPoly, mul_comm]

/-- One with a sign has copies of its highest bit behind them. -/
theorem regPoly_signExtend {v : Nat} (h : v ≤ w) (r : BitVec v) :
    regPoly (r.signExtend w) =
      X ^ (w - v) * regPoly r + bitPoly (List.replicate (w - v) r.msb) := by
  have hbits : regBits (r.signExtend w) = regBits r ++ List.replicate (w - v) r.msb := by
    refine List.ext_getElem (by simp [length_regBits, h]) fun i hi hi' => ?_
    rw [length_regBits] at hi
    rw [getElem_regBits, BitVec.getLsbD_signExtend, List.getElem_append]
    by_cases hv : i < v
    · rw [dif_pos (by rwa [length_regBits]), getElem_regBits, if_pos hv, decide_eq_true hi,
        Bool.true_and]
    · rw [dif_neg (by rwa [length_regBits]), if_neg hv, decide_eq_true hi, Bool.true_and,
        List.getElem_replicate]
  rw [regPoly, hbits, bitPoly_append, List.length_replicate, regPoly, mul_comm]

/-- To shift a register to the right is to multiply by the indeterminate. The bit that falls
    out takes the generator away. -/
theorem regPoly_crcShift {n : Nat} (g r : BitVec (n + 1)) :
    regPoly (crcShift g r) = X * regPoly r + if r.getLsbD 0 then crcGen g else 0 := by
  have hright : regBits (r >>> 1) = (regBits r).tail ++ [false] := by
    refine List.ext_getElem (by simp [length_regBits]) fun i hi hi' => ?_
    rw [length_regBits] at hi
    rw [getElem_regBits, BitVec.getLsbD_ushiftRight, List.getElem_append]
    split
    · rw [List.getElem_tail, getElem_regBits, Nat.add_comm 1 i]
    · rename_i hv
      rw [List.length_tail, length_regBits] at hv
      simp [BitVec.getLsbD_of_ge r (1 + i) (by omega)]
  have hcons : regBits r = r.getLsbD 0 :: (regBits r).tail := by simp [regBits, List.ofFn_succ]
  have htail : (regBits r).tail.length = n := by simp [length_regBits]
  have hshift : regPoly (r >>> 1) = X * regPoly r + if r.getLsbD 0 then X ^ (n + 1) else 0 := by
    have hself := add_self_zmod2 (X ^ (n + 1))
    have hpoly : regPoly r = (if r.getLsbD 0 then X ^ n else 0) + bitPoly (regBits r).tail := by
      conv_lhs => rw [regPoly, hcons, bitPoly, htail]
    rw [hpoly, regPoly, hright, bitPoly_append]
    cases r.getLsbD 0
    · simp [bitPoly, mul_comm]
    · simp only [if_true, bitPoly, List.length_singleton, pow_one, add_zero, Bool.false_eq_true,
        if_false]
      linear_combination -hself
  unfold crcShift crcGen
  cases hbit : r.getLsbD 0 with
  | false =>
      rw [if_neg nofun, hshift, hbit]
      rfl
  | true =>
      rw [if_pos rfl, regPoly_xor, hshift, hbit, if_pos rfl, if_pos rfl]
      ring

end Registers

/-! ### Residues -/

section Residues

variable {w : Nat}

/-- A register is known by its residue. -/
theorem mk_regPoly_inj {g a b : BitVec w}
    (h : AdjoinRoot.mk (crcGen g) (regPoly a) = AdjoinRoot.mk (crcGen g) (regPoly b)) : a = b := by
  have hdvd : crcGen g ∣ regPoly (a ^^^ b) := by
    rw [regPoly_xor, ← CharTwo.sub_eq_add]
    exact AdjoinRoot.mk_eq_mk.mp h
  have hzero : regPoly (a ^^^ b) = 0 := by
    refine eq_zero_of_dvd_of_degree_lt hdvd ?_
    rw [degree_crcGen]
    exact degree_regPoly _
  exact BitVec.xor_eq_zero_iff.mp (eq_zero_of_regPoly hzero)

/-- A register holds a remainder if and only if it has its residue. -/
theorem regPoly_eq_modByMonic_iff (g r : BitVec w) (p : (ZMod 2)[X]) :
    regPoly r = p %ₘ crcGen g ↔
      AdjoinRoot.mk (crcGen g) (regPoly r) = AdjoinRoot.mk (crcGen g) p := by
  have hself : regPoly r %ₘ crcGen g = regPoly r := by
    rw [modByMonic_eq_self_iff (monic_crcGen g), degree_crcGen]
    exact degree_regPoly r
  constructor
  · intro h
    rw [h, AdjoinRoot.mk_eq_mk]
    refine ⟨-(p /ₘ crcGen g), ?_⟩
    linear_combination modByMonic_add_div p (crcGen g)
  · intro h
    rw [← hself]
    exact modByMonic_eq_of_dvd_sub (monic_crcGen g) (AdjoinRoot.mk_eq_mk.mp h)

variable {n : Nat}

/-- To shift a register is to multiply its residue. -/
theorem mk_crcShift_iterate (g r : BitVec (n + 1)) (k : Nat) :
    AdjoinRoot.mk (crcGen g) (regPoly ((crcShift g)^[k] r)) =
      AdjoinRoot.mk (crcGen g) (X ^ k * regPoly r) := by
  induction k generalizing r with
  | zero => simp
  | succ k ih =>
      have hgen : AdjoinRoot.mk (crcGen g) (if r.getLsbD 0 then crcGen g else 0) = 0 := by
        cases r.getLsbD 0
        · exact map_zero _
        · exact AdjoinRoot.mk_self
      rw [Function.iterate_succ_apply, ih, regPoly_crcShift, map_mul, map_add, hgen, add_zero,
        ← map_mul]
      ring_nf

/-- The polynomial of a message that is fed in pieces of `k` bits. -/
noncomputable def feedPoly {α : Type} (k : Nat) (extend : α → BitVec w) :
    (ZMod 2)[X] → List α → (ZMod 2)[X] :=
  List.foldl fun p b => X ^ k * (p + regPoly (extend b))

/-- The residue that is left by a message. -/
theorem mk_crcRun {α : Type} (g : BitVec (n + 1)) (k : Nat) (extend : α → BitVec (n + 1))
    (message : List α) (start : BitVec (n + 1)) (p : (ZMod 2)[X])
    (h : AdjoinRoot.mk (crcGen g) (regPoly start) = AdjoinRoot.mk (crcGen g) p) :
    AdjoinRoot.mk (crcGen g)
        (regPoly (message.foldl (fun r b => (crcShift g)^[k] (r ^^^ extend b)) start)) =
      AdjoinRoot.mk (crcGen g) (feedPoly k extend p message) := by
  induction message generalizing start p with
  | nil => exact h
  | cons b message ih =>
      refine ih _ _ ?_
      rw [mk_crcShift_iterate, regPoly_xor, map_mul, map_mul, map_add, map_add, h]

end Residues

end RtosLwip
