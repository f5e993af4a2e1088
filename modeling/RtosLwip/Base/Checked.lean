import RtosLwip.Base.Signed

/-!
# Checked Machine Integers

The operations on signed 32-bit integers with an answer `none` where C leaves the
result undefined: the exact result is out of the range, or there is none. A
computation that is written with them has an answer only if no intermediate value
overflows, and the answer is then the one of the operations that wrap.

## Main definitions

* `checkedAdd`, `checkedSub`, `checkedMul`, `checkedDiv`, `checkedMod`, `checkedNeg`:
  The operations.

## Theorems

* `checkedAdd_eq`, `checkedSub_eq`, `checkedMul_eq`, `checkedDiv_eq`, `checkedMod_eq`,
  `checkedNeg_eq`: An exact result in the range is the one of the machine.
* `tdiv_tmod_spec`: The quotient and the remainder of C.
-/

namespace RtosLwip

variable {a b : Int32}

/-- A sum in the range. -/
def checkedAdd (a b : Int32) : Option Int32 :=
  if InInt32 (a.toInt + b.toInt) then some (a + b) else none

/-- A difference in the range. -/
def checkedSub (a b : Int32) : Option Int32 :=
  if InInt32 (a.toInt - b.toInt) then some (a - b) else none

/-- A product in the range. -/
def checkedMul (a b : Int32) : Option Int32 :=
  if InInt32 (a.toInt * b.toInt) then some (a * b) else none

/-- A quotient in the range, truncated towards zero. -/
def checkedDiv (a b : Int32) : Option Int32 :=
  if b.toInt ≠ 0 ∧ InInt32 (a.toInt.tdiv b.toInt) then some (a / b) else none

/-- A remainder, which goes with a quotient in the range. -/
def checkedMod (a b : Int32) : Option Int32 :=
  if b.toInt ≠ 0 ∧ InInt32 (a.toInt.tdiv b.toInt) then some (a % b) else none

/-- A negation in the range. -/
def checkedNeg (a : Int32) : Option Int32 := if InInt32 (-a.toInt) then some (-a) else none

theorem checkedAdd_eq (h : InInt32 (a.toInt + b.toInt)) : checkedAdd a b = some (a + b) :=
  if_pos h

theorem checkedSub_eq (h : InInt32 (a.toInt - b.toInt)) : checkedSub a b = some (a - b) :=
  if_pos h

theorem checkedMul_eq (h : InInt32 (a.toInt * b.toInt)) : checkedMul a b = some (a * b) :=
  if_pos h

theorem checkedNeg_eq (h : InInt32 (-a.toInt)) : checkedNeg a = some (-a) := if_pos h

/-- The quotient and the remainder, which has the sign of the dividend. -/
theorem tdiv_tmod_spec (v : Int) {d : Int} (hd : 0 < d) :
    d * v.tdiv d + v.tmod d = v ∧ (-d < v.tmod d ∧ v.tmod d < d) ∧
      (0 ≤ v → 0 ≤ v.tmod d) ∧ (v ≤ 0 → v.tmod d ≤ 0) := by
  refine ⟨Int.mul_tdiv_add_tmod v d, ⟨Int.lt_tmod_of_pos v hd, Int.tmod_lt_of_pos v hd⟩,
    Int.tmod_nonneg d, fun h => ?_⟩
  have hneg := Int.tmod_nonneg d (Int.neg_nonneg_of_nonpos h)
  rw [Int.neg_tmod] at hneg
  omega

/-- A quotient by a number above zero does not leave the range. -/
theorem inInt32_tdiv (a : Int32) {d : Int} (hd : 0 < d) : InInt32 (a.toInt.tdiv d) := by
  have ha := inInt32_toInt a
  have hsum := Int.mul_tdiv_add_tmod a.toInt d
  unfold InInt32 at ha ⊢
  rcases Int.le_total 0 a.toInt with hpos | hneg
  · have hle := Int.tdiv_le_self d hpos
    have hge := Int.tdiv_nonneg hpos hd.le
    omega
  · have hle := Int.tdiv_le_self d (Int.neg_nonneg_of_nonpos hneg)
    have hge := Int.tdiv_nonneg (Int.neg_nonneg_of_nonpos hneg) hd.le
    rw [Int.neg_tdiv] at hle hge
    omega

theorem checkedDiv_eq (a : Int32) (h : 0 < b.toInt) : checkedDiv a b = some (a / b) :=
  if_pos ⟨h.ne', inInt32_tdiv a h⟩

theorem checkedMod_eq (a : Int32) (h : 0 < b.toInt) : checkedMod a b = some (a % b) :=
  if_pos ⟨h.ne', inInt32_tdiv a h⟩

/-- The quotient by a number above zero. -/
theorem toInt_div32 (a : Int32) (h : 0 < b.toInt) : (a / b).toInt = a.toInt.tdiv b.toInt := by
  refine Int32.toInt_div_of_ne_right a b ?_
  rintro rfl
  exact absurd h (by decide)

end RtosLwip
