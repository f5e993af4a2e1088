import Mathlib.Data.Int.Init
import Mathlib.Algebra.Order.Ring.Int

/-!
# Signed Machine Integers

When an operation on 32-bit integers is the operation on the numbers. The
machine's result is the exact one wrapped into the range, and wrapping does
nothing to a number of the range.

## Main definitions

* `InInt32`: A number of the signed 32-bit range.
* `carry32`: What wrapping adds to a number.

## Theorems

* `inInt32_toInt`: What an `Int32` holds is in the range.
* `toInt_add32`, `toInt_sub32`, `toInt_neg32`: Exact sums and differences.
* `toInt_shl32`, `toInt_shr32`: Exact shifts.
* `carry32_eq_zero_iff`, `exists_carry32`: Wrapping adds a multiple of `2^32`.
-/

namespace RtosLwip

/-- A number of the signed 32-bit range. -/
def InInt32 (v : Int) : Prop := -2147483648 ≤ v ∧ v < 2147483648

instance (v : Int) : Decidable (InInt32 v) :=
  inferInstanceAs (Decidable (-2147483648 ≤ v ∧ v < 2147483648))

theorem inInt32_toInt (a : Int32) : InInt32 a.toInt := ⟨a.le_toInt, a.toInt_lt⟩

/-- Wrapping does nothing to a number of the range. -/
theorem bmod_of_inInt32 {v : Int} (h : InInt32 v) : v.bmod (2 ^ 32) = v :=
  Int.bmod_eq_of_le h.1 h.2

theorem inInt32_bmod (v : Int) : InInt32 (v.bmod (2 ^ 32)) := by
  rw [Int.bmod_def, InInt32]
  split <;> omega

/-- What wrapping adds to a number. -/
def carry32 (v : Int) : Int := v.bmod (2 ^ 32) - v

theorem bmod_eq_add_carry32 (v : Int) : v.bmod (2 ^ 32) = v + carry32 v := by
  rw [carry32]
  omega

/-- Wrapping adds nothing exactly to the numbers of the range. -/
theorem carry32_eq_zero_iff (v : Int) : carry32 v = 0 ↔ InInt32 v := by
  rw [carry32]
  constructor
  · intro h
    have hin := inInt32_bmod v
    rwa [show v.bmod (2 ^ 32) = v by omega] at hin
  · intro h
    rw [bmod_of_inInt32 h]
    omega

/-- Wrapping adds a multiple of `2^32`. -/
theorem exists_carry32 (v : Int) : ∃ k, carry32 v = 4294967296 * k := by
  rw [carry32, Int.bmod_def]
  split
  · exact ⟨-(v / 4294967296), by omega⟩
  · exact ⟨-(v / 4294967296) - 1, by omega⟩

theorem toInt_add32 {a b : Int32} (h : InInt32 (a.toInt + b.toInt)) :
    (a + b).toInt = a.toInt + b.toInt := by
  rw [Int32.toInt_add, bmod_of_inInt32 h]

theorem toInt_sub32 {a b : Int32} (h : InInt32 (a.toInt - b.toInt)) :
    (a - b).toInt = a.toInt - b.toInt := by
  rw [Int32.toInt_sub, bmod_of_inInt32 h]

theorem toInt_neg32 {a : Int32} (h : InInt32 (-a.toInt)) : (-a).toInt = -a.toInt := by
  rw [Int32.toInt_neg, bmod_of_inInt32 h]

/-- The distance a shift moves by, when it is less than the width. -/
theorem smod_width {k : Int32} (h0 : 0 ≤ k.toInt) (h32 : k.toInt < 32) :
    (k.toBitVec.smod 32).toNat = k.toInt.toNat := by
  have hmod : (k.toBitVec.smod 32).toInt = k.toInt := by
    rw [BitVec.toInt_smod, Int32.toInt_toBitVec]
    exact Int.fmod_eq_of_lt h0 h32
  rw [← hmod, BitVec.toInt_eq_toNat_cond]
  have hlt := (k.toBitVec.smod 32).isLt
  rw [BitVec.toInt_eq_toNat_cond] at hmod
  split at hmod <;> omega

theorem toInt_shl32 {a k : Int32} (h0 : 0 ≤ k.toInt) (h32 : k.toInt < 32)
    (h : InInt32 (a.toInt * 2 ^ k.toInt.toNat)) :
    (a <<< k).toInt = a.toInt * 2 ^ k.toInt.toNat := by
  rw [← Int32.toInt_toBitVec, Int32.toBitVec_shiftLeft, BitVec.shiftLeft_eq',
    BitVec.toInt_shiftLeft, smod_width h0 h32, ← bmod_of_inInt32 h, ← Int32.toInt_toBitVec a,
    BitVec.toInt_eq_toNat_bmod, Int.bmod_mul_bmod, Nat.shiftLeft_eq]
  rw [Int.natCast_mul, Int.natCast_pow]
  rfl

theorem toInt_shr32 {a k : Int32} (h0 : 0 ≤ k.toInt) (h32 : k.toInt < 32) :
    (a >>> k).toInt = a.toInt / 2 ^ k.toInt.toNat := by
  rw [← Int32.toInt_toBitVec, Int32.toBitVec_shiftRight, BitVec.toInt_sshiftRight',
    smod_width h0 h32, Int32.toInt_toBitVec, Int.shiftRight_eq_div_pow, Int.natCast_pow]
  rfl

end RtosLwip
