import RtosLwip.Base.Checked
import RtosLwip.Ptp.ExactTime

/-!
# Exact Sums, Differences and Halves

`addTime`, `subTime` and `div2Time` of times in normal form: a nanoseconds field below
a second, and no fields of opposite sign. The result is exact and in normal form
again as soon as its seconds fit their field, and no operation on the way to it
overflows. The sums of the fields are normalised by one routine, so what is to be
known about it is said once, in `normalizeTime_exact`.

## Main definitions

* `TimeInternal.NormalForm`: The normal form of a time.
* `normalizeTimeChecked`, `addTimeChecked`, `subTimeChecked`, `div2TimeChecked`: The
  functions of the source with checked operations.
* `FitsSeconds`: The whole seconds of a number of nanoseconds fit their field.
* `InSeconds`: The nanoseconds, in seconds, are inside the range of the field.
* `Exactly`: A function returns a number of nanoseconds, without an overflow.

## Theorems

* `normalizeTime_exact`: Normalising.
* `time_exact`: Sums, differences and halves.
-/

namespace RtosLwip

namespace Ptp

/-- The nanoseconds are below a second, and have the sign of the seconds. -/
structure TimeInternal.NormalForm (t : TimeInternal) : Prop where
  normal : t.Normal
  nonneg : 0 < t.seconds.toInt → 0 ≤ t.nanoseconds.toInt
  nonpos : t.seconds.toInt < 0 → t.nanoseconds.toInt ≤ 0

/-- `normalizeTime`, with checked operations. -/
def normalizeTimeChecked (r : TimeInternal) : Option TimeInternal := do
  let seconds ← checkedAdd r.seconds (← checkedDiv r.nanoseconds 1000000000)
  let whole ← checkedMul (← checkedDiv r.nanoseconds 1000000000) 1000000000
  let nanoseconds ← checkedSub r.nanoseconds whole
  if 0 < seconds ∧ nanoseconds < 0 then
    return ⟨← checkedSub seconds 1, ← checkedAdd nanoseconds 1000000000⟩
  else if seconds < 0 ∧ 0 < nanoseconds then
    return ⟨← checkedAdd seconds 1, ← checkedSub nanoseconds 1000000000⟩
  else
    return ⟨seconds, nanoseconds⟩

/-- `addTime`, with checked operations. -/
def addTimeChecked (x y : TimeInternal) : Option TimeInternal := do
  normalizeTimeChecked
    ⟨← checkedAdd x.seconds y.seconds, ← checkedAdd x.nanoseconds y.nanoseconds⟩

/-- `subTime`, with checked operations. -/
def subTimeChecked (x y : TimeInternal) : Option TimeInternal := do
  normalizeTimeChecked
    ⟨← checkedSub x.seconds y.seconds, ← checkedSub x.nanoseconds y.nanoseconds⟩

/-- `div2Time`, with checked operations. -/
def div2TimeChecked (r : TimeInternal) : Option TimeInternal := do
  let odd ← checkedMul (← checkedMod r.seconds 2) 1000000000
  let nanoseconds ← checkedAdd r.nanoseconds odd
  normalizeTimeChecked ⟨← checkedDiv r.seconds 2, ← checkedDiv nanoseconds 2⟩

/-- The whole seconds of a number of nanoseconds fit the field of a time. -/
def FitsSeconds (ns : Int) : Prop := InInt32 (ns.tdiv 1000000000)

instance (ns : Int) : Decidable (FitsSeconds ns) := inferInstanceAs (Decidable (InInt32 _))

/-- As a number of seconds, the nanoseconds are inside the signed 32-bit range. -/
def InSeconds (ns : Int) : Prop :=
  -2147483648 * 1000000000 ≤ ns ∧ ns ≤ 2147483647 * 1000000000

instance (ns : Int) : Decidable (InSeconds ns) := inferInstanceAs (Decidable (_ ∧ _))

/-- The time is the one that checked operations come to, it stands for the nanoseconds,
    and it is in normal form. -/
structure Exactly (t : TimeInternal) (checked : Option TimeInternal) (ns : Int) : Prop where
  noOverflow : checked = some t
  exact : t.ns = ns
  normalForm : t.NormalForm

/-- Normalising is exact as soon as the seconds fit. -/
theorem normalizeTime_exact (r : TimeInternal) (h : FitsSeconds r.ns) :
    Exactly (normalizeTime r) (normalizeTimeChecked r) r.ns := by
  rcases toInt_carriedNanoseconds r.nanoseconds with ⟨hdiv, hmod⟩
  rcases tdiv_tmod_spec r.nanoseconds.toInt
    (by decide : (0 : Int) < 1000000000) with ⟨hsum, ⟨hlo, hhi⟩, hpos, hneg⟩
  rcases tdiv_tmod_spec r.ns (by decide : (0 : Int) < 1000000000) with
    ⟨htotal, ⟨htlo, hthi⟩, htpos, htneg⟩
  have hs := inInt32_toInt r.seconds
  have hn := inInt32_toInt r.nanoseconds
  have hbillion : (1000000000 : Int32).toInt = 1000000000 := rfl
  unfold FitsSeconds InInt32 at h
  unfold InInt32 at hs hn
  -- the seconds with the carry are those of the result, or one more of their sign
  have hcarry : InInt32 (r.seconds.toInt + r.nanoseconds.toInt.tdiv 1000000000) := by
    unfold InInt32
    rw [TimeInternal.ns] at h htotal htlo hthi htpos htneg
    omega
  have hsec : (r.seconds + r.nanoseconds / 1000000000).toInt
      = r.seconds.toInt + r.nanoseconds.toInt.tdiv 1000000000 := by
    rw [toInt_add32 (by rwa [hdiv]), hdiv]
  have hwhole : (r.nanoseconds / 1000000000 * 1000000000).toInt
      = r.nanoseconds.toInt.tdiv 1000000000 * 1000000000 := by
    rw [Int32.toInt_mul, hdiv, hbillion]
    exact bmod_of_inInt32 (by unfold InInt32; omega)
  unfold normalizeTime normalizeTimeChecked
  rw [checkedDiv_eq r.nanoseconds (by decide : 0 < (1000000000 : Int32).toInt)]
  simp only [Option.bind_eq_bind, Option.bind_some]
  rw [checkedAdd_eq (by rwa [hdiv]),
    checkedMul_eq (by rw [hdiv, hbillion]; unfold InInt32; omega), Option.bind_some,
    Option.bind_some, checkedSub_eq (by rw [hwhole]; unfold InInt32; omega), Option.bind_some]
  -- from here on only the two fields before the correction of the sign matter
  have hns : r.ns = (r.seconds + r.nanoseconds / 1000000000).toInt * 1000000000 +
      (r.nanoseconds - r.nanoseconds / 1000000000 * 1000000000).toInt := by
    rw [hsec, hmod, TimeInternal.ns]
    omega
  rw [← hmod] at hlo hhi
  generalize r.ns = total at hns ⊢
  generalize r.seconds + r.nanoseconds / 1000000000 = seconds at hns ⊢
  generalize r.nanoseconds - r.nanoseconds / 1000000000 * 1000000000 = nanoseconds
    at hns hlo hhi ⊢
  have hS := inInt32_toInt seconds
  unfold InInt32 at hS
  simp only [Int32.lt_iff_toInt_lt, Int32.toInt_zero]
  have hone : (1 : Int32).toInt = 1 := rfl
  split
  next hborrow =>
    have hsub : InInt32 (seconds.toInt - (1 : Int32).toInt) := by
      unfold InInt32
      omega
    have hadd : InInt32 (nanoseconds.toInt + (1000000000 : Int32).toInt) := by
      unfold InInt32
      omega
    rw [checkedSub_eq hsub, checkedAdd_eq hadd]
    refine ⟨rfl, ?_, ⟨?_, ?_⟩, ?_, ?_⟩ <;>
      simp only [TimeInternal.ns, toInt_sub32 hsub, toInt_add32 hadd] <;> omega
  next hno =>
    split
    next hborrow =>
      have hadd : InInt32 (seconds.toInt + (1 : Int32).toInt) := by
        unfold InInt32
        omega
      have hsub : InInt32 (nanoseconds.toInt - (1000000000 : Int32).toInt) := by
        unfold InInt32
        omega
      rw [checkedSub_eq hsub, checkedAdd_eq hadd]
      refine ⟨rfl, ?_, ⟨?_, ?_⟩, ?_, ?_⟩ <;>
        simp only [TimeInternal.ns, toInt_sub32 hsub, toInt_add32 hadd] <;> omega
    next hno' =>
      refine ⟨rfl, hns.symm, ⟨hlo, hhi⟩, ?_, ?_⟩ <;> dsimp only <;> omega

theorem InSeconds.fitsSeconds {ns : Int} (h : InSeconds ns) : FitsSeconds ns := by
  rcases tdiv_tmod_spec ns (by decide : (0 : Int) < 1000000000) with
    ⟨hsum, ⟨hlo, hhi⟩, hpos, hneg⟩
  unfold InSeconds at h
  unfold FitsSeconds InInt32
  omega

/-- The sum of two times in normal form. -/
theorem addTime_exact {x y : TimeInternal} (hx : x.NormalForm) (hy : y.NormalForm)
    (h : InSeconds (x.ns + y.ns)) :
    Exactly (addTime x y) (addTimeChecked x y) (x.ns + y.ns) := by
  have hfits := h.fitsSeconds
  rcases hx with ⟨⟨hxlo, hxhi⟩, hxpos, hxneg⟩
  rcases hy with ⟨⟨hylo, hyhi⟩, hypos, hyneg⟩
  unfold InSeconds at h
  -- seconds that left the range would have taken nanoseconds of their sign with them
  have hsec : InInt32 (x.seconds.toInt + y.seconds.toInt) := by
    have hxs := inInt32_toInt x.seconds
    have hys := inInt32_toInt y.seconds
    unfold InInt32 at hxs hys ⊢
    simp only [TimeInternal.ns] at h
    omega
  have hnano : InInt32 (x.nanoseconds.toInt + y.nanoseconds.toInt) := by
    unfold InInt32
    omega
  have hns : (⟨x.seconds + y.seconds, x.nanoseconds + y.nanoseconds⟩ : TimeInternal).ns
      = x.ns + y.ns := by
    simp only [TimeInternal.ns, toInt_add32 hsec, toInt_add32 hnano]
    omega
  have hexact := normalizeTime_exact ⟨x.seconds + y.seconds, x.nanoseconds + y.nanoseconds⟩
    (hns.symm ▸ hfits)
  rw [addTime, addTimeChecked, checkedAdd_eq hsec, checkedAdd_eq hnano]
  exact hns ▸ hexact

/-- The difference of two times in normal form. Seconds that leave the range take
    nanoseconds of their sign with them here too, unless the first time has none: its
    nanoseconds may then be of the other sign, but they are less than a second. -/
theorem subTime_exact {x y : TimeInternal} (hx : x.NormalForm) (hy : y.NormalForm)
    (h : InSeconds (x.ns - y.ns)) :
    Exactly (subTime x y) (subTimeChecked x y) (x.ns - y.ns) := by
  have hfits := h.fitsSeconds
  rcases hx with ⟨⟨hxlo, hxhi⟩, hxpos, hxneg⟩
  rcases hy with ⟨⟨hylo, hyhi⟩, hypos, hyneg⟩
  unfold InSeconds at h
  have hsec : InInt32 (x.seconds.toInt - y.seconds.toInt) := by
    have hxs := inInt32_toInt x.seconds
    have hys := inInt32_toInt y.seconds
    unfold InInt32 at hxs hys ⊢
    simp only [TimeInternal.ns] at h
    omega
  have hnano : InInt32 (x.nanoseconds.toInt - y.nanoseconds.toInt) := by
    unfold InInt32
    omega
  have hns : (⟨x.seconds - y.seconds, x.nanoseconds - y.nanoseconds⟩ : TimeInternal).ns
      = x.ns - y.ns := by
    simp only [TimeInternal.ns, toInt_sub32 hsec, toInt_sub32 hnano]
    omega
  have hexact := normalizeTime_exact ⟨x.seconds - y.seconds, x.nanoseconds - y.nanoseconds⟩
    (hns.symm ▸ hfits)
  rw [subTime, subTimeChecked, checkedSub_eq hsec, checkedSub_eq hnano]
  exact hns ▸ hexact

/-- A second that is odd goes to the nanoseconds before both fields are halved. -/
theorem div2Time_exact {x : TimeInternal} (hx : x.NormalForm) :
    Exactly (div2Time x) (div2TimeChecked x) (x.ns.tdiv 2) := by
  rcases hx with ⟨⟨hxlo, hxhi⟩, hxpos, hxneg⟩
  have htwo : (2 : Int32).toInt = 2 := rfl
  have hbillion : (1000000000 : Int32).toInt = 1000000000 := rfl
  have hxs := inInt32_toInt x.seconds
  unfold InInt32 at hxs
  have hmod : (x.seconds % 2).toInt = x.seconds.toInt.tmod 2 := Int32.toInt_mod _ _
  rcases tdiv_tmod_spec x.seconds.toInt (by decide : (0 : Int) < 2) with
    ⟨hsplit, ⟨hrlo, hrhi⟩, hrpos, hrneg⟩
  have hmul : InInt32 ((x.seconds % 2).toInt * (1000000000 : Int32).toInt) := by
    rw [hmod, hbillion]
    unfold InInt32
    omega
  have hodd : (x.seconds % 2 * 1000000000).toInt = x.seconds.toInt.tmod 2 * 1000000000 := by
    rw [Int32.toInt_mul, bmod_of_inInt32 hmul, hmod, hbillion]
  have hadd : InInt32 (x.nanoseconds.toInt + (x.seconds % 2 * 1000000000).toInt) := by
    rw [hodd]
    unfold InInt32
    omega
  have hnano := toInt_add32 hadd
  rw [hodd] at hnano
  have hs2 := toInt_div32 x.seconds (by decide : 0 < (2 : Int32).toInt)
  have hn2 := toInt_div32 (x.nanoseconds + x.seconds % 2 * 1000000000)
    (by decide : 0 < (2 : Int32).toInt)
  rw [htwo] at hs2 hn2
  -- the halves of both fields are the half of the whole, as they have one sign
  have hns : (⟨x.seconds / 2, (x.nanoseconds + x.seconds % 2 * 1000000000) / 2⟩ :
      TimeInternal).ns = x.ns.tdiv 2 := by
    rcases tdiv_tmod_spec x.ns (by decide : (0 : Int) < 2) with
      ⟨hhalf, ⟨hhlo, hhhi⟩, hhpos, hhneg⟩
    rcases tdiv_tmod_spec (x.nanoseconds.toInt + x.seconds.toInt.tmod 2 * 1000000000)
      (by decide : (0 : Int) < 2) with ⟨hnhalf, ⟨hnlo, hnhi⟩, hnpos, hnneg⟩
    rw [TimeInternal.ns, hs2, hn2, hnano]
    generalize x.ns.tdiv 2 = half at hhalf ⊢
    rw [TimeInternal.ns] at hhalf hhlo hhhi hhpos hhneg
    omega
  have hfits : FitsSeconds (x.ns.tdiv 2) := by
    refine InSeconds.fitsSeconds ?_
    rcases tdiv_tmod_spec x.ns (by decide : (0 : Int) < 2) with ⟨hhalf, ⟨hhlo, hhhi⟩, -, -⟩
    unfold InSeconds
    generalize x.ns.tdiv 2 = half at hhalf ⊢
    rw [TimeInternal.ns] at hhalf hhlo hhhi
    omega
  have hexact := normalizeTime_exact _ (hns.symm ▸ hfits)
  have hchecked : div2TimeChecked x = normalizeTimeChecked
      ⟨x.seconds / 2, (x.nanoseconds + x.seconds % 2 * 1000000000) / 2⟩ := by
    rw [div2TimeChecked, checkedMod_eq x.seconds (by decide : 0 < (2 : Int32).toInt)]
    simp only [Option.bind_eq_bind, Option.bind_some]
    rw [checkedMul_eq hmul, Option.bind_some, checkedAdd_eq hadd, Option.bind_some,
      checkedDiv_eq _ (by decide : 0 < (2 : Int32).toInt), Option.bind_some,
      checkedDiv_eq _ (by decide : 0 < (2 : Int32).toInt), Option.bind_some]
  rw [hchecked, div2Time]
  exact hns ▸ hexact

/-- Sums and differences of times in normal form are exact as long as they are, in seconds,
    inside the range of the field, and halves always are. -/
theorem time_exact (x y : TimeInternal) (hx : x.NormalForm) (hy : y.NormalForm) :
    (InSeconds (x.ns + y.ns) → Exactly (addTime x y) (addTimeChecked x y) (x.ns + y.ns)) ∧
      (InSeconds (x.ns - y.ns) → Exactly (subTime x y) (subTimeChecked x y) (x.ns - y.ns)) ∧
      Exactly (div2Time x) (div2TimeChecked x) (x.ns.tdiv 2) :=
  ⟨addTime_exact hx hy, subTime_exact hx hy, div2Time_exact hx⟩

/-- An odd second and nanoseconds that carry, less than zero. -/
theorem time_exact_belowZero :
    Exactly (subTime ⟨-3, -900000000⟩ ⟨0, 400000000⟩)
        (subTimeChecked ⟨-3, -900000000⟩ ⟨0, 400000000⟩) (-4300000000) ∧
      Exactly (div2Time ⟨-3, -900000000⟩) (div2TimeChecked ⟨-3, -900000000⟩) (-1950000000) :=
  have h := time_exact ⟨-3, -900000000⟩ ⟨0, 400000000⟩
    ⟨⟨by decide, by decide⟩, by decide, by decide⟩ ⟨⟨by decide, by decide⟩, by decide, by decide⟩
  ⟨h.2.1 (by decide), h.2.2⟩

end Ptp

end RtosLwip
