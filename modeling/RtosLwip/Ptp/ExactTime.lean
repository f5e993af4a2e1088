import RtosLwip.Base.Signed
import RtosLwip.Ptp.Arith

/-!
# Times as Numbers of Nanoseconds

What the operations of `ptpArith.c` do to the number of nanoseconds a time
stands for. The seconds wrap, which changes the number by a multiple of
`2^32` seconds. A wrap of the nanoseconds field is worse: it changes the number
by `2^32` nanoseconds.

## Main definitions

* `TimeInternal.ns`, `Timestamp.ns`: The nanoseconds of a time.
* `correctionNs`: The whole nanoseconds of a correction field.

## Theorems

* `ns_normalizeTime`: Normalising, in terms of the fields.
* `ns_subTime`: A difference.
* `ns_subTime_wrapped`: A difference, up to what its wraps add.
* `ns_scaledNanoseconds`: The conversion of a correction field.
-/

namespace RtosLwip

namespace Ptp

/-- The nanoseconds of a time. -/
def TimeInternal.ns (t : TimeInternal) : Int :=
  t.seconds.toInt * 1000000000 + t.nanoseconds.toInt

/-- The nanoseconds of a timestamp, with all the 48 bits of its seconds. -/
def Timestamp.ns (t : Timestamp) : Int :=
  ((t.secondsField.msb.toNat * 4294967296 + t.secondsField.lsb.toNat : Nat) : Int) * 1000000000 +
    t.nanosecondsField.toNat

/-- The whole nanoseconds of a correction field, truncated towards zero. -/
def correctionNs (scaledNanoseconds : Int64) : Int := scaledNanoseconds.toInt.tdiv 65536

/-- A nanoseconds field below a second, of either sign. -/
def TimeInternal.Normal (t : TimeInternal) : Prop :=
  -1000000000 < t.nanoseconds.toInt ∧ t.nanoseconds.toInt < 1000000000

/-- The nanoseconds field after the whole seconds are taken off. -/
theorem toInt_carriedNanoseconds (n : Int32) :
    (n / 1000000000).toInt = n.toInt.tdiv 1000000000 ∧
      (n - n / 1000000000 * 1000000000).toInt = n.toInt.tmod 1000000000 := by
  have hdiv : (n / 1000000000).toInt = n.toInt.tdiv 1000000000 :=
    Int32.toInt_div_of_ne_right n 1000000000 (by decide)
  have hsum := Int.mul_tdiv_add_tmod n.toInt 1000000000
  have hlo := Int.lt_tmod_of_pos n.toInt (by decide : (0 : Int) < 1000000000)
  have hhi := Int.tmod_lt_of_pos n.toInt (by decide : (0 : Int) < 1000000000)
  have hn := inInt32_toInt n
  unfold InInt32 at hn
  -- what is left has the sign of the whole
  have hq : -3 < n.toInt.tdiv 1000000000 ∧ n.toInt.tdiv 1000000000 < 3 := by
    rcases Int.le_total 0 n.toInt with hpos | hneg
    · have hrest := Int.tmod_nonneg 1000000000 hpos
      omega
    · have hrest := Int.tmod_nonneg 1000000000 (Int.neg_nonneg_of_nonpos hneg)
      rw [Int.neg_tmod] at hrest
      omega
  have hmul : (n / 1000000000 * 1000000000).toInt = n.toInt.tdiv 1000000000 * 1000000000 := by
    rw [Int32.toInt_mul, hdiv, show (1000000000 : Int32).toInt = 1000000000 from rfl]
    refine bmod_of_inInt32 ⟨?_, ?_⟩
    · omega
    · omega
  refine ⟨hdiv, ?_⟩
  rw [toInt_sub32, hmul]
  · omega
  · rw [hmul]
    unfold InInt32
    omega

/-- Normalising, in terms of the fields: the seconds wrap. -/
theorem ns_normalizeTime (r : TimeInternal) :
    (normalizeTime r).ns = (r.seconds.toInt + r.nanoseconds.toInt.tdiv 1000000000).bmod (2 ^ 32)
        * 1000000000 + r.nanoseconds.toInt.tmod 1000000000 ∧
      (normalizeTime r).Normal := by
  rcases toInt_carriedNanoseconds r.nanoseconds with ⟨hdiv, hmod⟩
  have hlo := Int.lt_tmod_of_pos r.nanoseconds.toInt (by decide : (0 : Int) < 1000000000)
  have hhi := Int.tmod_lt_of_pos r.nanoseconds.toInt (by decide : (0 : Int) < 1000000000)
  have hsec : (r.seconds + r.nanoseconds / 1000000000).toInt
      = (r.seconds.toInt + r.nanoseconds.toInt.tdiv 1000000000).bmod (2 ^ 32) := by
    rw [Int32.toInt_add, hdiv]
  simp only [normalizeTime, Int32.lt_iff_toInt_lt]
  rw [← hsec, ← hmod]
  rw [← hmod] at hlo hhi
  generalize r.seconds + r.nanoseconds / 1000000000 = S
  generalize r.nanoseconds - r.nanoseconds / 1000000000 * 1000000000 = n at hlo hhi
  have hS := inInt32_toInt S
  unfold InInt32 at hS
  simp only [TimeInternal.ns, TimeInternal.Normal, Int32.toInt_zero]
  have hbillion : (1000000000 : Int32).toInt = 1000000000 := rfl
  have hone : (1 : Int32).toInt = 1 := rfl
  split
  next hpos =>
    -- a second is borrowed
    rw [toInt_sub32 (by unfold InInt32; omega), toInt_add32 (by unfold InInt32; omega)]
    omega
  next =>
    split
    next hneg =>
      rw [toInt_add32 (by unfold InInt32; omega), toInt_sub32 (by unfold InInt32; omega)]
      omega
    next => exact ⟨rfl, hlo, hhi⟩

/-- A difference, in terms of the fields. -/
theorem ns_subTime (x y : TimeInternal) :
    (subTime x y).ns
        = (x.seconds.toInt - y.seconds.toInt +
            ((x.nanoseconds.toInt - y.nanoseconds.toInt).bmod (2 ^ 32)).tdiv 1000000000).bmod
            (2 ^ 32) * 1000000000 +
          ((x.nanoseconds.toInt - y.nanoseconds.toInt).bmod (2 ^ 32)).tmod 1000000000 ∧
      (subTime x y).Normal := by
  rcases ns_normalizeTime ⟨x.seconds - y.seconds, x.nanoseconds - y.nanoseconds⟩ with
    ⟨hns, hnormal⟩
  refine ⟨?_, hnormal⟩
  rw [subTime, hns, Int32.toInt_sub, Int32.toInt_sub, Int.bmod_add_bmod]

/-- A difference, up to what the wraps add. -/
theorem ns_subTime_wrapped (x y : TimeInternal) :
    ∃ k, (subTime x y).ns = x.ns - y.ns + carry32 (x.nanoseconds.toInt - y.nanoseconds.toInt) +
      4294967296000000000 * k := by
  rw [(ns_subTime x y).1, bmod_eq_add_carry32 (x.nanoseconds.toInt - y.nanoseconds.toInt)]
  generalize carry32 (x.nanoseconds.toInt - y.nanoseconds.toInt) = c
  have hsum := Int.mul_tdiv_add_tmod (x.nanoseconds.toInt - y.nanoseconds.toInt + c) 1000000000
  generalize (x.nanoseconds.toInt - y.nanoseconds.toInt + c).tdiv 1000000000 = q at hsum ⊢
  generalize (x.nanoseconds.toInt - y.nanoseconds.toInt + c).tmod 1000000000 = r at hsum ⊢
  rw [bmod_eq_add_carry32]
  rcases exists_carry32 (x.seconds.toInt - y.seconds.toInt + q) with ⟨k, hk⟩
  rw [hk, TimeInternal.ns, TimeInternal.ns]
  exact ⟨k, by omega⟩

/-- A time of less than `2^29` seconds. -/
structure TimeInternal.Small (t : TimeInternal) : Prop where
  normal : t.Normal
  lower : -536870912 < t.seconds.toInt
  upper : t.seconds.toInt < 536870912

/-- Small times are added as numbers. -/
theorem ns_addTime {x y : TimeInternal} (hx : x.Small) (hy : y.Small) :
    (addTime x y).ns = x.ns + y.ns ∧ (addTime x y).Normal := by
  rcases ns_normalizeTime ⟨x.seconds + y.seconds, x.nanoseconds + y.nanoseconds⟩ with
    ⟨hns, hnormal⟩
  refine ⟨?_, hnormal⟩
  rcases hx with ⟨hxn, hxlo, hxhi⟩
  rcases hy with ⟨hyn, hylo, hyhi⟩
  unfold TimeInternal.Normal at hxn hyn
  dsimp only at hns
  rw [toInt_add32 (by unfold InInt32; omega), toInt_add32 (by unfold InInt32; omega)] at hns
  rw [addTime, hns]
  have hsum := Int.mul_tdiv_add_tmod (x.nanoseconds.toInt + y.nanoseconds.toInt) 1000000000
  have hlo := Int.lt_tmod_of_pos (x.nanoseconds.toInt + y.nanoseconds.toInt)
    (by decide : (0 : Int) < 1000000000)
  have hhi := Int.tmod_lt_of_pos (x.nanoseconds.toInt + y.nanoseconds.toInt)
    (by decide : (0 : Int) < 1000000000)
  rw [bmod_of_inInt32 (by unfold InInt32; omega), TimeInternal.ns, TimeInternal.ns]
  omega

/-- Sixteen bits less of a number that is not negative. -/
theorem toInt_shiftRight_sixteen (x : Int64) : (x >>> 16).toInt = x.toInt / 65536 := by
  rw [← Int64.toInt_toBitVec, Int64.toBitVec_shiftRight, BitVec.toInt_sshiftRight',
    show ((16 : Int64).toBitVec.smod 64).toNat = 16 from rfl, Int64.toInt_toBitVec,
    Int.shiftRight_eq_div_pow]
  rfl

/-- The seconds and the nanoseconds with the sign put back. -/
theorem toInt_signed {sign q : Int64} (hsign : sign = 1 ∨ sign = -1)
    (h0 : 0 ≤ q.toInt) (h : q.toInt < 2147483648) :
    (sign * q).toInt32.toInt = sign.toInt * q.toInt := by
  have hsmall : InInt32 (sign.toInt * q.toInt) := by
    unfold InInt32
    rcases hsign with rfl | rfl
    · rw [show (1 : Int64).toInt = 1 from rfl]
      omega
    · rw [show (-1 : Int64).toInt = -1 from rfl]
      omega
  rw [Int64.toInt_toInt32, Int64.toInt_mul, Int.bmod_bmod_of_dvd (by decide)]
  exact bmod_of_inInt32 hsmall

/-- The two fields, with the sign put back to both. -/
theorem ns_signed {sign x : Int64} (hsign : sign = 1 ∨ sign = -1) (h0 : 0 ≤ x.toInt) :
    let t : TimeInternal := ⟨(sign * (x >>> 16 / 1000000000)).toInt32,
      (sign * (x >>> 16 % 1000000000)).toInt32⟩
    t.ns = sign.toInt * (x.toInt / 65536) ∧ t.Small := by
  have hhi := x.toInt_lt
  have hshift := toInt_shiftRight_sixteen x
  generalize x >>> 16 = y at hshift ⊢
  have hdiv : (y / 1000000000).toInt = y.toInt / 1000000000 := by
    rw [Int64.toInt_div_of_ne_right y 1000000000 (by decide)]
    exact Int.tdiv_eq_ediv_of_nonneg (by omega)
  have hmod : (y % 1000000000).toInt = y.toInt % 1000000000 := by
    rw [Int64.toInt_mod]
    exact Int.tmod_eq_emod_of_nonneg (by omega)
  dsimp only [TimeInternal.ns]
  have hsec := toInt_signed (q := y / 1000000000) hsign (by omega) (by omega)
  have hnano := toInt_signed (q := y % 1000000000) hsign (by omega) (by omega)
  rw [hdiv] at hsec
  rw [hmod] at hnano
  rcases hsign with rfl | rfl
  · rw [show (1 : Int64).toInt = 1 from rfl] at hsec hnano ⊢
    refine ⟨by omega, ⟨?_, ?_⟩, ?_, ?_⟩
    all_goals
      dsimp only
      omega
  · rw [show (-1 : Int64).toInt = -1 from rfl] at hsec hnano ⊢
    refine ⟨by omega, ⟨?_, ?_⟩, ?_, ?_⟩
    all_goals
      dsimp only
      omega

/-- The conversion of a correction field truncates, but for the least one: the
    sign of that cannot be taken off. -/
theorem ns_scaledNanoseconds (x : Int64) :
    (scaledNanosecondsToInternalTime x).ns
        = correctionNs x + (if x = Int64.minValue then 281474976710656 else 0) ∧
      (scaledNanosecondsToInternalTime x).Small := by
  by_cases hmin : x = Int64.minValue
  · subst hmin
    refine ⟨by decide, ⟨by decide, by decide⟩, by decide, by decide⟩
  · have hlo := x.le_toInt
    have hne : x.toInt ≠ -9223372036854775808 := fun h => hmin (Int64.toInt_inj.mp h)
    rw [if_neg hmin, Int.add_zero]
    simp only [scaledNanosecondsToInternalTime, Int64.lt_iff_toInt_lt, Int64.toInt_zero]
    by_cases hneg : x.toInt < 0
    · have habs : (-x).toInt = -x.toInt := by
        rw [Int64.toInt_neg]
        exact Int.bmod_eq_of_le (by omega) (by omega)
      simp only [if_pos hneg]
      have hsigned := @ns_signed (-1) (-x) (Or.inr rfl) (by omega)
      refine ⟨hsigned.1.trans ?_, hsigned.2⟩
      rw [habs, correctionNs, show x.toInt = -(-x.toInt) by omega, Int.neg_tdiv,
        Int.tdiv_eq_ediv_of_nonneg (by omega), Int.neg_neg]
      rw [show (-1 : Int64).toInt = -1 from rfl]
      omega
    · simp only [if_neg hneg]
      have hsigned := @ns_signed 1 x (Or.inl rfl) (by omega)
      refine ⟨hsigned.1.trans ?_, hsigned.2⟩
      rw [correctionNs, Int.tdiv_eq_ediv_of_nonneg (by omega)]
      rw [show (1 : Int64).toInt = 1 from rfl]
      omega

end Ptp

end RtosLwip
