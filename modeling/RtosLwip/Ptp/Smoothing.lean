import Mathlib.Algebra.Order.Group.Abs
import Mathlib.Data.Bool.AllAny
import RtosLwip.Base.Run
import RtosLwip.Base.Signed
import RtosLwip.Ptp.Engine

/-!
# Exponential Smoothing

`filter` keeps the sum of its outputs scaled by a power of two, the order, and
chooses the order anew with every sample. The order is limited so that the sum
does not leave the 32-bit range, and the limit is computed from the signed
maximum of the last output and the sample. This is the larger magnitude only
when it is the maximum that has it: two negative numbers, or a large negative
one and a small positive one, are given an order that suits the smaller of the
two.

The sum holds the last output at the last order: it is the output times two to
the order, and less than one more. This is kept by a change of the order, and
by putting a sample in for an output, so that the new output is between the old
one and the sample, as long as both have room at the order taken.

## Main definitions

* `exactValues`: The values that `filter` computes, without wrapping.
* `Smooths`: What is wanted of a step of the filter.
* `OrderFits`: The order taken suits the larger magnitude.

## Theorems

* `toInt_floorLog2`, `order_spec`: The logarithm and the order.
* `scaled_up`, `scaled_down`, `smoothed`: What a step does to the sum.
* `smooths_of_orderFits`: A step on a sample that the order fits.
* `smooths_of_meets`: Runs on samples that the orders fit.
* `smooths_of_first_order`: Runs of a filter of order one.
-/

namespace RtosLwip

namespace Ptp

theorem log2_div_two_pow {m k : Nat} (h : 2 ^ k ≤ m) :
    Nat.log2 m = Nat.log2 (m / 2 ^ k) + k := by
  have hk := Nat.two_pow_pos k
  have hm : m ≠ 0 := by omega
  have hq : m / 2 ^ k ≠ 0 := by
    have hpos := Nat.div_pos h hk
    omega
  rcases (Nat.log2_eq_iff hq).mp rfl with ⟨hlo, hhi⟩
  rw [Nat.le_div_iff_mul_le hk, ← Nat.pow_add] at hlo
  rw [Nat.div_lt_iff_lt_mul hk, ← Nat.pow_add] at hhi
  rw [Nat.log2_eq_iff hm]
  refine ⟨hlo, ?_⟩
  rwa [show (m / 2 ^ k).log2 + k + 1 = (m / 2 ^ k).log2 + 1 + k by omega]

/-- A stage of `floorLog2`: the upper half of the bits, if any of them is set. -/
def upperHalf (k : UInt32) (pos : Int32) (p : UInt32 × Int32) : UInt32 × Int32 :=
  if p.1 ≥ 1 <<< k then (p.1 >>> k, p.2 + pos) else p

theorem floorLog2_eq_stages (n : UInt32) : floorLog2 n =
    if n = 0 then -1 else
      let p := upperHalf 2 2 (upperHalf 4 4 (upperHalf 8 8 (upperHalf 16 16 (n, 0))))
      if p.1 ≥ 2 then p.2 + 1 else p.2 :=
  rfl

/-- What a stage keeps: the number of bits already passed and the logarithm of
    what is left make up the logarithm. -/
structure Stage (total : Int) (w : Nat) (p : UInt32 × Int32) : Prop where
  total_eq : p.2.toInt + Nat.log2 p.1.toNat = total
  ne_zero : p.1.toNat ≠ 0
  lt : p.1.toNat < 2 ^ w
  passed : 0 ≤ p.2.toInt
  passed_le : p.2.toInt ≤ 32 - w

theorem stage_upperHalf (k : UInt32) (pos : Int32) (w : Nat) (hk : k.toNat = w)
    (hpos : pos.toInt = w) (hw : w ≤ 16) {total : Int} {p : UInt32 × Int32}
    (h : Stage total (2 * w) p) : Stage total w (upperHalf k pos p) := by
  have hone : (1 <<< k : UInt32).toNat = 2 ^ w := by
    rw [UInt32.toNat_shiftLeft, hk, Nat.mod_eq_of_lt (by omega : w < 32), UInt32.toNat_one,
      Nat.one_shiftLeft, Nat.mod_eq_of_lt (Nat.pow_lt_pow_right (by omega) (by omega))]
  have hdiv : (p.1 >>> k).toNat = p.1.toNat / 2 ^ w := by
    rw [UInt32.toNat_shiftRight, hk, Nat.mod_eq_of_lt (by omega : w < 32),
      Nat.shiftRight_eq_div_pow]
  have hlt := h.lt
  have hpassed := h.passed
  have hle := h.passed_le
  rw [upperHalf]
  split
  next hge =>
    rw [ge_iff_le, UInt32.le_iff_toNat_le, hone] at hge
    have hadd : (p.2 + pos).toInt = p.2.toInt + w := by
      rw [toInt_add32 (by rw [InInt32, hpos]; omega), hpos]
    refine ⟨?_, ?_, ?_, ?_, ?_⟩
    · rw [← h.total_eq, hadd, hdiv, log2_div_two_pow hge]
      omega
    · have hdivpos := Nat.div_pos hge (Nat.two_pow_pos w)
      simp only [hdiv]
      omega
    · simp only [hdiv]
      rw [Nat.div_lt_iff_lt_mul (Nat.two_pow_pos w), ← Nat.pow_add, ← Nat.two_mul]
      exact hlt
    · simp only [hadd]
      omega
    · simp only [hadd]
      omega
  next hnot =>
    rw [ge_iff_le, UInt32.le_iff_toNat_le, hone, Nat.not_le] at hnot
    exact ⟨h.total_eq, h.ne_zero, hnot, hpassed, by omega⟩

/-- `floorLog2` is the binary logarithm. -/
theorem toInt_floorLog2 {n : UInt32} (h : n ≠ 0) : (floorLog2 n).toInt = Nat.log2 n.toNat := by
  have hne : n.toNat ≠ 0 := fun h0 => h (UInt32.toNat_inj.mp h0)
  have hstart : Stage (Nat.log2 n.toNat) (2 * 16) (n, 0) :=
    ⟨by rw [Int32.toInt_zero, Int.zero_add], hne, n.toNat_lt, le_refl _, le_refl _⟩
  have h16 := stage_upperHalf 16 16 16 rfl rfl (by decide) hstart
  have h8 := stage_upperHalf 8 8 8 rfl rfl (by decide) h16
  have h4 := stage_upperHalf 4 4 4 rfl rfl (by decide) h8
  have h2 := stage_upperHalf 2 2 2 rfl rfl (by decide) h4
  rw [floorLog2_eq_stages, if_neg h]
  generalize upperHalf 2 2 (upperHalf 4 4 (upperHalf 8 8 (upperHalf 16 16 (n, 0)))) = p at h2
  rw [← h2.total_eq]
  have hlt := h2.lt
  have hle := h2.passed_le
  have hpassed := h2.passed
  have hzero := h2.ne_zero
  dsimp only
  -- one bit is left to look at, of two
  split
  next hge =>
    rw [ge_iff_le, UInt32.le_iff_toNat_le] at hge
    rw [toInt_add32 (by rw [InInt32, Int32.toInt_one]; omega), Int32.toInt_one,
      (Nat.log2_eq_iff hzero).mpr ⟨hge, hlt⟩]
    rfl
  next hnot =>
    rw [ge_iff_le, UInt32.le_iff_toNat_le, Nat.not_le] at hnot
    have hone : p.1.toNat.log2 = 0 :=
      (Nat.log2_eq_iff hzero).mpr ⟨Nat.pos_of_ne_zero hzero, hnot⟩
    rw [hone, Int.natCast_zero, Int.add_zero]

/-- The magnitude that `order` takes the logarithm of. -/
theorem toInt_magnitude {n : Int32} (hmin : n.toInt ≠ -2147483648) :
    (if n < 0 then -n else n).toInt = |n.toInt| := by
  have hrange := inInt32_toInt n
  rw [InInt32] at hrange
  split
  next hneg =>
    rw [Int32.lt_iff_toInt_lt, Int32.toInt_zero] at hneg
    rw [toInt_neg32 (by rw [InInt32]; omega), abs_of_neg hneg]
  next hpos =>
    rw [Int32.lt_iff_toInt_lt, Int32.toInt_zero] at hpos
    rw [abs_of_nonneg (by omega)]

/-- The order of a number: the place of its highest bit. -/
theorem order_spec {n : Int32} (hmin : n.toInt ≠ -2147483648) :
    ∃ o : Nat, (order n).toInt = o ∧ o ≤ 30 ∧ |n.toInt| < 2 ^ (o + 1) ∧
      (n.toInt ≠ 0 → 2 ^ o ≤ |n.toInt|) := by
  have habs := toInt_magnitude hmin
  have hrange := inInt32_toInt (if n < 0 then -n else n)
  simp only [order]
  generalize (if n < 0 then -n else n) = m at habs hrange ⊢
  have hpos : 0 ≤ m.toInt := habs ▸ abs_nonneg n.toInt
  have hnat : (m.toUInt32.toNat : Int) = m.toInt := by
    rw [Int32.toNat_toUInt32_of_le (Int32.le_iff_toInt_le.mpr hpos)]
    exact Int.toNat_of_nonneg hpos
  rw [← habs]
  split
  next hzero =>
    subst hzero
    refine ⟨0, rfl, by omega, by decide, fun hne => ?_⟩
    rw [Int32.toInt_zero, eq_comm, abs_eq_zero] at habs
    exact absurd habs hne
  next hne =>
    have hne' : m.toUInt32 ≠ 0 := by
      intro h0
      rw [h0] at hnat
      exact hne (Int32.toInt_inj.mp hnat.symm)
    have hne'' : m.toUInt32.toNat ≠ 0 := fun h0 => hne' (UInt32.toNat_inj.mp h0)
    rcases (Nat.log2_eq_iff hne'').mp rfl with ⟨hlo, hhi⟩
    refine ⟨Nat.log2 m.toUInt32.toNat, toInt_floorLog2 hne', ?_, ?_, fun _ => ?_⟩
    · rw [← Nat.lt_succ_iff, Nat.log2_lt hne'']
      have hlt := hrange.2
      omega
    · rw [← hnat]
      exact_mod_cast hhi
    · rw [← hnat]
      exact_mod_cast hlo

/-- The filter with one more sample counted. The first sample initialises it. -/
def counted (x : Int32) (f : Filter) : Filter :=
  let f := { f with n := f.n + 1 }
  if f.n = 1 then { f with yPrev := x, ySum := x, sPrev := 0 } else f

/-- The order that the number of samples asks for. -/
def orderAsked (f : Filter) : Int32 :=
  if f.n < (1 : Int32) <<< f.s.toInt32 then order f.n else f.s.toInt32

/-- The order that `filter` takes for a sample. -/
def orderTaken (x : Int32) (f : Filter) : Int32 :=
  ptpMin (orderAsked f) (30 - order (ptpMax f.yPrev x))

/-- The sum, changed to an order. -/
def rescaled (s : Int32) (f : Filter) : Int32 :=
  let sPrev := f.sPrev.toInt32
  if s < sPrev then f.ySum >>> (sPrev - s)
  else if sPrev < s then f.ySum <<< (s - sPrev) else f.ySum

/-- The number of samples, which stays at the full number once it is reached. -/
def samplesKept (f : Filter) : Int32 :=
  if f.n < (1 : Int32) <<< f.s.toInt32 then f.n else (1 : Int32) <<< f.s.toInt32

theorem filter_eq (x : Int32) (f : Filter) : filter x f =
    let g := counted x f
    let s := orderTaken x g
    let ySum := rescaled s g + (x - g.yPrev)
    (ySum >>> s, { g with
      n := samplesKept g, ySum := ySum, yPrev := ySum >>> s, sPrev := s.toInt16 }) := by
  simp only [filter, orderTaken, orderAsked, samplesKept, counted]
  generalize hg : (if f.n + 1 = 1 then
    { f with n := f.n + 1, yPrev := x, ySum := x, sPrev := 0 } else { f with n := f.n + 1 }) = g
  split
  · rfl
  · rfl

/-- The values `filter` computes on its way, each as the exact result of its
    operation on the machine's operands. -/
def exactValues (x : Int32) (f : Filter) : List Int :=
  let g := counted x f
  let top := ptpMax g.yPrev x
  let s := orderTaken x g
  let sPrev := g.sPrev.toInt32
  let scaled := if s < sPrev then g.ySum.toInt / 2 ^ (sPrev.toInt - s.toInt).toNat
    else g.ySum.toInt * 2 ^ (s.toInt - sPrev.toInt).toNat
  [f.n.toInt + 1, 2 ^ g.s.toInt.toNat, |g.n.toInt|, |top.toInt|, 30 - (order top).toInt,
    s.toInt - sPrev.toInt, scaled, x.toInt - g.yPrev.toInt,
    (rescaled s g).toInt + (x.toInt - g.yPrev.toInt),
    (rescaled s g + (x - g.yPrev)).toInt / 2 ^ s.toInt.toNat]

/-- A number lies between the least and the greatest of some samples. -/
def Between (samples : List Int32) (y : Int32) : Prop :=
  (∃ x ∈ samples, x.toInt ≤ y.toInt) ∧ ∃ x ∈ samples, y.toInt ≤ x.toInt

/-- What is wanted of a step of the filter: its values are in the range, and its
    output is between the samples seen. -/
def Smooths (seen : List Int32) (x : Int32) (f : Filter) : Prop :=
  (∀ v ∈ exactValues x f, InInt32 v) ∧ Between (seen ++ [x]) (filter x f).1

/-- The signed maximum has the order of the larger magnitude, or the number of
    samples asks for an order that both magnitudes allow. -/
def OrderFits (f : Filter) (x : Int32) : Prop :=
  let g := counted x f
  let top := order (ptpMax g.yPrev x)
  (order g.yPrev ≤ top ∧ order x ≤ top) ∨
    (orderAsked g + order g.yPrev ≤ 30 ∧ orderAsked g + order x ≤ 30)

instance (f : Filter) (x : Int32) : Decidable (OrderFits f x) :=
  inferInstanceAs (Decidable (_ ∨ _))

/-- The filter fed with a sample. -/
def feed (f : Filter) (x : Int32) : Filter := (filter x f).2

section Scaling

variable {x y sum : Int} {p s : Nat}

/-- A sum that holds an output at one order holds it at a higher one. -/
theorem scaled_up (hps : p ≤ s) (hlo : y * 2 ^ p ≤ sum) (hhi : sum < (y + 1) * 2 ^ p) :
    y * 2 ^ s ≤ sum * 2 ^ (s - p) ∧ sum * 2 ^ (s - p) < (y + 1) * 2 ^ s := by
  have hpow : (2 : Int) ^ s = 2 ^ p * 2 ^ (s - p) := by
    rw [← Int.pow_add, Nat.add_sub_cancel' hps]
  have hpos : (0 : Int) < 2 ^ (s - p) := Int.pow_pos (by decide)
  rw [hpow, ← Int.mul_assoc, ← Int.mul_assoc]
  exact ⟨Int.mul_le_mul_of_nonneg_right hlo hpos.le, Int.mul_lt_mul_of_pos_right hhi hpos⟩

/-- And it does so at a lower one, the lowest bits dropped. -/
theorem scaled_down (hsp : s ≤ p) (hlo : y * 2 ^ p ≤ sum) (hhi : sum < (y + 1) * 2 ^ p) :
    y * 2 ^ s ≤ sum / 2 ^ (p - s) ∧ sum / 2 ^ (p - s) < (y + 1) * 2 ^ s := by
  have hpow : (2 : Int) ^ p = 2 ^ s * 2 ^ (p - s) := by
    rw [← Int.pow_add, Nat.add_sub_cancel' hsp]
  have hpos : (0 : Int) < 2 ^ (p - s) := Int.pow_pos (by decide)
  rw [hpow, ← Int.mul_assoc] at hlo hhi
  exact ⟨(Int.le_ediv_iff_mul_le hpos).mpr hlo, (Int.ediv_lt_iff_lt_mul hpos).mpr hhi⟩

/-- The sum with a sample put in for an output holds a number between them. -/
theorem smoothed {c : Int} (hc : 1 ≤ c) (hlo : y * c ≤ sum) (hhi : sum < (y + 1) * c) :
    min x y * c ≤ sum + (x - y) ∧ sum + (x - y) < (max x y + 1) * c := by
  rw [Int.add_mul, Int.one_mul] at hhi ⊢
  rcases le_total x y with h | h
  · rw [min_eq_left h, max_eq_right h]
    have hgap : 0 ≤ (y - x) * (c - 1) := Int.mul_nonneg (by omega) (by omega)
    rw [Int.sub_mul, Int.mul_sub, Int.mul_sub, Int.mul_one, Int.mul_one] at hgap
    omega
  · rw [min_eq_right h, max_eq_left h]
    have hgap : 0 ≤ (x - y) * (c - 1) := Int.mul_nonneg (by omega) (by omega)
    rw [Int.sub_mul, Int.mul_sub, Int.mul_sub, Int.mul_one, Int.mul_one] at hgap
    omega

/-- What is held between two numbers is in the range if they leave room. -/
theorem inInt32_of_room {c : Int} (hc : 1 ≤ c) (hx : (|x| + 1) * c ≤ 2147483648)
    (hy : (|y| + 1) * c ≤ 2147483648) (hlo : min x y * c ≤ sum)
    (hhi : sum < (max x y + 1) * c) : InInt32 sum := by
  have habs : ∀ v : Int, -((|v| + 1) * c) ≤ v * c ∧ (v + 1) * c ≤ (|v| + 1) * c := by
    intro v
    have hneg : -(|v| + 1) ≤ v := by
      have hv := neg_abs_le v
      omega
    rw [← Int.neg_mul]
    exact ⟨Int.mul_le_mul_of_nonneg_right hneg (by omega),
      Int.mul_le_mul_of_nonneg_right (by have hv := le_abs_self v; omega) (by omega)⟩
  have hxs := habs x
  have hys := habs y
  rw [InInt32]
  rcases le_total x y with h | h
  · rw [min_eq_left h] at hlo
    rw [max_eq_right h] at hhi
    omega
  · rw [min_eq_right h] at hlo
    rw [max_eq_left h] at hhi
    omega

end Scaling

theorem toInt_ptpMax (a b : Int32) : (ptpMax a b).toInt = max a.toInt b.toInt := by
  rw [ptpMax]
  split
  next h => rw [max_eq_left (Int32.lt_iff_toInt_lt.mp h).le]
  next h => rw [max_eq_right (by rw [Int32.lt_iff_toInt_lt] at h; omega)]

theorem toInt_ptpMin (a b : Int32) : (ptpMin a b).toInt = min a.toInt b.toInt := by
  rw [ptpMin]
  split
  next h => rw [min_eq_right (Int32.lt_iff_toInt_lt.mp h).le]
  next h => rw [min_eq_left (by rw [Int32.lt_iff_toInt_lt] at h; omega)]

/-- The sum of a filter holds its last output at its last order. -/
def Scaled (f : Filter) : Prop :=
  ∃ p : Nat, f.sPrev.toInt = p ∧ p ≤ 6 ∧ f.yPrev.toInt * 2 ^ p ≤ f.ySum.toInt ∧
    f.ySum.toInt < (f.yPrev.toInt + 1) * 2 ^ p

/-- A filter that has followed some samples. -/
structure Follows (samples : List Int32) (f : Filter) : Prop where
  order : f.s = 1 ∨ f.s = 6
  counted : 0 ≤ f.n.toInt
  counted_le : f.n.toInt ≤ 64
  scaled : f.n.toInt ≠ 0 → Scaled f
  between : f.n.toInt ≠ 0 → Between samples f.yPrev

/-- A filter that has counted the sample it is about to take in. -/
structure Ready (samples : List Int32) (g : Filter) : Prop where
  order : g.s = 1 ∨ g.s = 6
  counted : 1 ≤ g.n.toInt
  counted_le : g.n.toInt ≤ 65
  scaled : Scaled g
  between : Between samples g.yPrev

theorem between_append {samples : List Int32} {y : Int32} (h : Between samples y) (x : Int32) :
    Between (samples ++ [x]) y := by
  rcases h with ⟨⟨a, ha, hlo⟩, b, hb, hhi⟩
  exact ⟨⟨a, List.mem_append_left _ ha, hlo⟩, b, List.mem_append_left _ hb, hhi⟩

theorem ready_counted {seen : List Int32} {f : Filter} (h : Follows seen f) (x : Int32) :
    Ready (seen ++ [x]) (counted x f) := by
  have hlo := h.counted
  have hhi := h.counted_le
  have hn : (f.n + 1).toInt = f.n.toInt + 1 := by
    rw [toInt_add32 (by rw [InInt32, Int32.toInt_one]; omega), Int32.toInt_one]
  have hlast : x ∈ seen ++ [x] := List.mem_append_right _ (List.mem_singleton.mpr rfl)
  simp only [counted]
  split
  next hfirst =>
    refine ⟨h.order, ?_, ?_, ⟨0, rfl, by omega, ?_, ?_⟩,
      ⟨⟨x, hlast, le_refl _⟩, x, hlast, le_refl _⟩⟩
    all_goals simp only [hn, pow_zero]
    all_goals omega
  next hlater =>
    have hne : f.n.toInt ≠ 0 := by
      intro h0
      apply hlater
      rw [← Int32.toInt_inj, hn, h0]
      rfl
    refine ⟨h.order, ?_, ?_, h.scaled hne, between_append (h.between hne) x⟩
    all_goals simp only [hn]
    all_goals omega

/-- The number of samples of a filter is full at two to its order. -/
theorem toInt_full {s : Int16} (h : s = 1 ∨ s = 6) :
    ((1 : Int32) <<< s.toInt32).toInt = 2 ^ s.toInt.toNat ∧ 2 ^ s.toInt.toNat ≤ (64 : Int) := by
  rcases h with rfl | rfl
  · decide
  · decide

theorem orderAsked_spec {samples : List Int32} {g : Filter} (h : Ready samples g) :
    ∃ a : Nat, (orderAsked g).toInt = a ∧ a ≤ g.s.toInt.toNat := by
  rcases toInt_full h.order with ⟨hfull, hle⟩
  have hpos := h.counted
  rw [orderAsked]
  split
  next hfew =>
    rw [Int32.lt_iff_toInt_lt, hfull] at hfew
    rcases order_spec (n := g.n) (by omega) with ⟨o, ho, _, _, hlow⟩
    refine ⟨o, ho, ?_⟩
    have hpow : (2 : Int) ^ o < 2 ^ g.s.toInt.toNat := by
      have hlow' := hlow (by omega)
      rw [abs_of_nonneg (by omega)] at hlow'
      omega
    exact ((pow_lt_pow_iff_right₀ (by decide)).mp hpow).le
  next hmany =>
    refine ⟨g.s.toInt.toNat, ?_, le_refl _⟩
    rw [Int16.toInt_toInt32, Int.toNat_of_nonneg]
    rcases h.order with hs | hs
    · rw [hs]
      decide
    · rw [hs]
      decide

/-- The orders the filters are prepared with. -/
theorem order_le_six {s : Int16} (h : s = 1 ∨ s = 6) : s.toInt.toNat ≤ 6 := by
  rcases h with rfl | rfl
  · decide
  · decide

theorem samplesKept_spec {samples : List Int32} {g : Filter} (h : Ready samples g) :
    1 ≤ (samplesKept g).toInt ∧ (samplesKept g).toInt ≤ 64 := by
  rcases toInt_full h.order with ⟨hfull, hle⟩
  have hpow : (0 : Int) < 2 ^ g.s.toInt.toNat := Int.pow_pos (by decide)
  have hpos := h.counted
  rw [samplesKept]
  split
  next hfew =>
    rw [Int32.lt_iff_toInt_lt, hfull] at hfew
    omega
  next hmany =>
    rw [hfull]
    omega

/-- An order that a magnitude allows leaves room for it. -/
theorem room_of_order {v : Int32} (hv : |v.toInt| < 1000000000) {s : Nat}
    (h : (s : Int) + (order v).toInt ≤ 30) : (|v.toInt| + 1) * 2 ^ s ≤ 2147483648 := by
  have hmin : v.toInt ≠ -2147483648 := by
    intro h0
    rw [h0] at hv
    exact absurd hv (by decide)
  rcases order_spec hmin with ⟨o, ho, _, hlt, _⟩
  rw [ho] at h
  have hpos : (0 : Int) < 2 ^ s := Int.pow_pos (by decide)
  calc (|v.toInt| + 1) * 2 ^ s
      ≤ 2 ^ (o + 1) * 2 ^ s := Int.mul_le_mul_of_nonneg_right hlt hpos.le
    _ = 2 ^ (o + 1 + s) := (Int.pow_add 2 _ _).symm
    _ ≤ 2 ^ 31 := pow_le_pow_right₀ (by decide) (by omega)

theorem order_range {v : Int32} (hv : |v.toInt| < 1000000000) :
    0 ≤ (order v).toInt ∧ (order v).toInt ≤ 30 := by
  have hmin : v.toInt ≠ -2147483648 := by
    intro h0
    rw [h0] at hv
    exact absurd hv (by decide)
  rcases order_spec hmin with ⟨o, ho, hle, _⟩
  omega

/-- The magnitude of the signed maximum is that of one of the two. -/
theorem abs_ptpMax_lt {a b : Int32} {m : Int} (ha : |a.toInt| < m) (hb : |b.toInt| < m) :
    |(ptpMax a b).toInt| < m := by
  rw [toInt_ptpMax]
  exact abs_max_le_max_abs_abs.trans_lt (max_lt ha hb)

/-- Where the order fits, the one taken leaves room for the last output and for
    the sample. -/
theorem orderTaken_spec {samples : List Int32} {f : Filter} {x : Int32}
    (h : Ready samples (counted x f)) (hfits : OrderFits f x) (hx : |x.toInt| < 1000000000)
    (hy : |(counted x f).yPrev.toInt| < 1000000000) :
    ∃ s : Nat, (orderTaken x (counted x f)).toInt = s ∧ s ≤ 6 ∧
      (|x.toInt| + 1) * 2 ^ s ≤ 2147483648 ∧
      (|(counted x f).yPrev.toInt| + 1) * 2 ^ s ≤ 2147483648 := by
  simp only [OrderFits] at hfits
  generalize counted x f = g at h hfits hy ⊢
  rcases orderAsked_spec h with ⟨a, ha, has⟩
  have ha6 := has.trans (order_le_six h.order)
  have htop := order_range (abs_ptpMax_lt hy hx)
  have hox := order_range hx
  have hoy := order_range hy
  have h30 : (30 : Int32).toInt = 30 := rfl
  have hsub : (30 - order (ptpMax g.yPrev x)).toInt = 30 - (order (ptpMax g.yPrev x)).toInt :=
    toInt_sub32 (by rw [InInt32, h30]; omega)
  have hsumx : (orderAsked g + order x).toInt = a + (order x).toInt := by
    rw [toInt_add32 (by rw [InInt32]; omega), ha]
  have hsumy : (orderAsked g + order g.yPrev).toInt = a + (order g.yPrev).toInt := by
    rw [toInt_add32 (by rw [InInt32]; omega), ha]
  simp only [Int32.le_iff_toInt_le, hsumx, hsumy, h30] at hfits
  have hmin : (orderTaken x g).toInt = min (a : Int) (30 - (order (ptpMax g.yPrev x)).toInt) := by
    rw [orderTaken, toInt_ptpMin, ha, hsub]
  refine ⟨(min (a : Int) (30 - (order (ptpMax g.yPrev x)).toInt)).toNat, by omega, by omega,
    room_of_order hx (by omega), room_of_order hy (by omega)⟩

/-- The sum after the order changed, as a number. -/
theorem toInt_rescaled {g : Filter} {p s : Nat} {t : Int32} (hp : g.sPrev.toInt = p)
    (hp6 : p ≤ 6) (ht : t.toInt = s) (hs6 : s ≤ 6)
    (hlo : g.yPrev.toInt * 2 ^ p ≤ g.ySum.toInt)
    (hhi : g.ySum.toInt < (g.yPrev.toInt + 1) * 2 ^ p)
    (hroom : (|g.yPrev.toInt| + 1) * 2 ^ s ≤ 2147483648) :
    (rescaled t g).toInt = (if s < p then g.ySum.toInt / 2 ^ (p - s) else
      g.ySum.toInt * 2 ^ (s - p)) ∧
    g.yPrev.toInt * 2 ^ s ≤ (rescaled t g).toInt ∧
    (rescaled t g).toInt < (g.yPrev.toInt + 1) * 2 ^ s := by
  have hprev : g.sPrev.toInt32.toInt = p := by rw [Int16.toInt_toInt32, hp]
  have hpos : (0 : Int) < 2 ^ s := Int.pow_pos (by decide)
  simp only [rescaled, Int32.lt_iff_toInt_lt, hprev, ht, Int.ofNat_lt]
  rcases Nat.lt_trichotomy s p with hlt | heq | hgt
  · rw [if_pos hlt, if_pos hlt]
    have hk : (g.sPrev.toInt32 - t).toInt = ((p - s : Nat) : Int) := by
      rw [toInt_sub32 (by rw [InInt32, hprev, ht]; omega), hprev, ht]
      omega
    rw [toInt_shr32 (by omega) (by omega), hk, Int.toNat_natCast]
    exact ⟨rfl, scaled_down hlt.le hlo hhi⟩
  · subst heq
    rw [if_neg (Nat.lt_irrefl s), if_neg (Nat.lt_irrefl s), if_neg (Nat.lt_irrefl s), Nat.sub_self,
      Int.pow_zero, Int.mul_one]
    exact ⟨rfl, hlo, hhi⟩
  · have hnot : ¬ s < p := by omega
    rw [if_neg hnot, if_neg hnot, if_pos hgt]
    have hk : (t - g.sPrev.toInt32).toInt = ((s - p : Nat) : Int) := by
      rw [toInt_sub32 (by rw [InInt32, hprev, ht]; omega), hprev, ht]
      omega
    have hup := scaled_up hgt.le hlo hhi
    have hin : InInt32 (g.ySum.toInt * 2 ^ (s - p)) :=
      inInt32_of_room (c := 2 ^ s) (x := g.yPrev.toInt) (by omega) hroom hroom
        (by rw [min_self]; exact hup.1) (by rw [max_self]; exact hup.2)
    rw [toInt_shl32 (by omega) (by omega) (by rwa [hk, Int.toNat_natCast]), hk, Int.toNat_natCast]
    exact ⟨rfl, hup⟩

/-- An output that is between the samples is as small as they are. -/
theorem abs_lt_of_between {samples : List Int32} {y : Int32} {m : Int}
    (h : Between samples y) (hsmall : ∀ x ∈ samples, |x.toInt| < m) : |y.toInt| < m := by
  rcases h with ⟨⟨a, ha, hlo⟩, b, hb, hhi⟩
  rw [abs_lt]
  exact ⟨(abs_lt.mp (hsmall a ha)).1.trans_le hlo, hhi.trans_lt (abs_lt.mp (hsmall b hb)).2⟩

/-- A number between a sample and a number between the samples is between them. -/
theorem between_of_min_max {samples : List Int32} {x y z : Int32} (hx : x ∈ samples)
    (hy : Between samples y) (hlo : min x.toInt y.toInt ≤ z.toInt)
    (hhi : z.toInt ≤ max x.toInt y.toInt) : Between samples z := by
  rcases hy with ⟨⟨a, ha, hay⟩, b, hb, hyb⟩
  constructor
  · rcases min_le_iff.mp hlo with h | h
    · exact ⟨x, hx, h⟩
    · exact ⟨a, ha, hay.trans h⟩
  · rcases le_max_iff.mp hhi with h | h
    · exact ⟨x, hx, h⟩
    · exact ⟨b, hb, h.trans hyb⟩

/-- A step of the filter on a sample that its order fits. -/
theorem smooths_of_orderFits {seen : List Int32} {f : Filter} {x : Int32} (h : Follows seen f)
    (hsmall : ∀ v ∈ seen ++ [x], |v.toInt| < 1000000000) (hfits : OrderFits f x) :
    Smooths seen x f ∧ Follows (seen ++ [x]) (feed f x) := by
  have hready := ready_counted h x
  have hmem : x ∈ seen ++ [x] := List.mem_append_right _ (List.mem_singleton.mpr rfl)
  have hx := hsmall x hmem
  have hy := abs_lt_of_between hready.between hsmall
  -- The order that is taken leaves room for the sum.
  rcases orderTaken_spec hready hfits hx hy with ⟨s, hs, hs6, hroomx, hroomy⟩
  have hkept := samplesKept_spec hready
  have hfull := toInt_full hready.order
  have htop := abs_ptpMax_lt hy hx
  have hotop := order_range htop
  have hn := hready.counted
  have hn' := hready.counted_le
  rw [Smooths, feed]
  simp only [exactValues, filter_eq]
  generalize counted x f = g at *
  generalize orderTaken x g = t at *
  rcases hready.scaled with ⟨p, hp, hp6, hlo, hhi⟩
  have hpos : (1 : Int) ≤ 2 ^ s := Int.pow_pos (by decide)
  have hprev : g.sPrev.toInt32.toInt = p := by rw [Int16.toInt_toInt32, hp]
  rcases toInt_rescaled hp hp6 hs hs6 hlo hhi hroomy with ⟨hr, hrlo, hrhi⟩
  rcases smoothed hpos hrlo hrhi with ⟨hslo, hshi⟩
  have hin := inInt32_of_room hpos hroomx hroomy hslo hshi
  -- The code computes with 32 bits what the average is on integers: no step leaves the range.
  have hdiff : (x - g.yPrev).toInt = x.toInt - g.yPrev.toInt := by
    rw [abs_lt] at hx hy
    exact toInt_sub32 (by rw [InInt32]; omega)
  have hsum : (rescaled t g + (x - g.yPrev)).toInt
      = (rescaled t g).toInt + (x.toInt - g.yPrev.toInt) := by
    rw [toInt_add32 (by rwa [hdiff]), hdiff]
  have hout : ((rescaled t g + (x - g.yPrev)) >>> t).toInt
      = (rescaled t g + (x - g.yPrev)).toInt / 2 ^ s := by
    rw [toInt_shr32 (by omega) (by omega), hs, Int.toNat_natCast]
  -- The average lies between the least and the greatest sample.
  have hbetween : Between (seen ++ [x]) ((rescaled t g + (x - g.yPrev)) >>> t) := by
    refine between_of_min_max hmem hready.between ?_ ?_
    · rw [hout, hsum]
      exact (Int.le_ediv_iff_mul_le (by omega)).mpr hslo
    · rw [hout, hsum]
      exact Int.lt_add_one_iff.mp ((Int.ediv_lt_iff_lt_mul (by omega)).mpr hshi)
  refine ⟨⟨?_, hbetween⟩, hready.order, ?_, hkept.2, fun _ => ?_, fun _ => hbetween⟩
  · have hscaled : (if t < g.sPrev.toInt32 then
        g.ySum.toInt / 2 ^ ((p : Int) - s).toNat else g.ySum.toInt * 2 ^ ((s : Int) - p).toNat)
        = (rescaled t g).toInt := by
      simp only [Int32.lt_iff_toInt_lt, hprev, hs, Int.ofNat_lt, hr, Int.toNat_sub]
    have hlast := inInt32_toInt ((rescaled t g + (x - g.yPrev)) >>> t)
    have hdiff' := inInt32_toInt (x - g.yPrev)
    rw [hout] at hlast
    rw [hdiff] at hdiff'
    simp only [List.forall_mem_cons, List.not_mem_nil, false_implies, implies_true, and_true,
      hs, Int.toNat_natCast, hprev, hscaled]
    have hn0 := h.counted
    have hn64 := h.counted_le
    have hpow : (0 : Int) < 2 ^ g.s.toInt.toNat := Int.pow_pos (by decide)
    refine ⟨?_, ?_, ?_, ?_, ?_, ?_, inInt32_toInt _, hdiff', hin, hlast⟩
    all_goals rw [InInt32]
    · omega
    · omega
    · rw [abs_of_nonneg (by omega)]
      omega
    · have hnonneg := abs_nonneg (ptpMax g.yPrev x).toInt
      omega
    · omega
    · omega
  · exact (Int.le_of_lt hkept.1)
  · have hsmall16 : t.toInt16.toInt = s := by
      rw [Int32.toInt_toInt16, hs]
      exact Int.bmod_eq_of_le (by omega) (by omega)
    refine ⟨s, hsmall16, hs6, ?_, ?_⟩
    · simp only [hout]
      exact Int.ediv_mul_le _ (by omega)
    · simp only [hout]
      exact Int.lt_ediv_add_one_mul_self _ (by omega)

/-- The filter that `initClock` prepares for the path delay, or for the offset. -/
def Prepared (f : Filter) : Prop :=
  ∃ s : Port, f = (initClock s).clock.owdFilt ∨ f = (initClock s).clock.ofmFilt

theorem n_of_prepared {f : Filter} (h : Prepared f) : f.n = 0 := by
  rcases h with ⟨s, rfl | rfl⟩
  · rw [initClock]
    split
    · rfl
    · rfl
  · rw [initClock]
    split
    · rfl
    · rfl

theorem follows_of_prepared {f : Filter} (h : Prepared f) (hs : f.s = 1 ∨ f.s = 6) :
    Follows [] f := by
  have hn : f.n.toInt = 0 := by
    rw [n_of_prepared h]
    rfl
  exact ⟨hs, by omega, by omega, fun hne => absurd hn hne, fun hne => absurd hn hne⟩

/-- A filter that follows some samples follows them and those it is fed with, as
    long as its order fits. -/
theorem follows_run {seen : List Int32} {f : Filter} (h : Follows seen f) (xs : List Int32)
    (hsmall : ∀ v ∈ seen ++ xs, |v.toInt| < 1000000000) (hm : Meets feed OrderFits f xs) :
    Follows (seen ++ xs) (run feed f xs) := by
  induction xs generalizing seen f with
  | nil => rwa [List.append_nil]
  | cons x xs ih =>
      rw [List.append_cons] at hsmall ⊢
      have hstep := smooths_of_orderFits h
        (fun v hv => hsmall v (List.mem_append_left _ hv)) hm.1
      exact ih hstep.2 hsmall hm.2

/-- In a run whose orders fit no value of the filter leaves the 32-bit range, and
    every output is between the samples seen. -/
theorem smooths_of_meets {f : Filter} (hf : Prepared f) (hs : f.s = 1 ∨ f.s = 6)
    (xs : List Int32) (hsmall : ∀ x ∈ xs, |x.toInt| < 1000000000)
    (hm : Meets feed OrderFits f xs) (seen : List Int32) (x : Int32) (rest : List Int32)
    (hxs : xs = seen ++ x :: rest) : Smooths seen x (run feed f seen) := by
  subst hxs
  rw [meets_append] at hm
  have hseen := follows_run (follows_of_prepared hf hs) seen
    (fun v hv => hsmall v (List.mem_append_left _ hv)) hm.1
  refine (smooths_of_orderFits hseen (fun v hv => hsmall v ?_) hm.2.1).1
  rw [List.append_cons]
  exact List.mem_append_left _ hv

/-- The filter for the path delay as `_doInit` prepares it: the order is six. -/
def pathDelayFilter : Filter :=
  let s := powerUp defaultRtOpts
  (initClock { s with clock := initData s.clock }).clock.owdFilt

/-- Samples about a delay of a quarter of a millisecond. -/
theorem smooths_quarter_millisecond :
    Smooths [250000, 260000, 240000] 255000 (run feed pathDelayFilter [250000, 260000, 240000]) :=
  smooths_of_meets ⟨_, Or.inl rfl⟩ (Or.inr (by decide)) [250000, 260000, 240000, 255000]
    (List.all_iff_forall_prop.mp (by decide)) (by decide +kernel) [250000, 260000, 240000]
    255000 [] rfl

/-- After three samples of -0.9 s a fourth of zero raises the order to two, and
    the sum does not fit. -/
theorem not_smooths_below :
    (Prepared pathDelayFilter ∧ pathDelayFilter.s = 6) ∧
    ¬ Smooths [-900000000, -900000000, -900000000] 0
      (run feed pathDelayFilter [-900000000, -900000000, -900000000]) := by
  refine ⟨⟨⟨_, Or.inl rfl⟩, by decide⟩, ?_⟩
  intro h
  exact absurd (h.1 (-3600000000) (by decide +kernel)) (by decide)

/-- Small samples fit every order: those that stay below two to the power of 31
    less the order the filter is prepared with. -/
theorem orderFits_of_small {seen : List Int32} {f : Filter} {x : Int32} (h : Follows seen f)
    (hsmall : ∀ v ∈ seen ++ [x], |v.toInt| < 2 ^ (31 - f.s.toInt.toNat)) : OrderFits f x := by
  have hready := ready_counted h x
  have hs : (counted x f).s = f.s := by
    simp only [counted]
    split
    · rfl
    · rfl
  rcases orderAsked_spec hready with ⟨a, ha, has⟩
  have hs6 := order_le_six h.order
  have h30 : (30 : Int32).toInt = 30 := rfl
  rw [hs] at has
  -- the order that the number of samples asks for is low enough for any of them
  have hfits : ∀ v : Int32, |v.toInt| < 2 ^ (31 - f.s.toInt.toNat) →
      orderAsked (counted x f) + order v ≤ 30 := by
    intro v hv
    have hmin : v.toInt ≠ -2147483648 := by
      intro h0
      rw [h0] at hv
      have hle : (2 : Int) ^ (31 - f.s.toInt.toNat) ≤ 2 ^ 31 :=
        pow_le_pow_right₀ (by decide) (by omega)
      exact absurd (hv.trans_le hle) (by decide)
    rcases order_spec hmin with ⟨o, ho, ho30, _, hlow⟩
    have hsum : a + o ≤ 30 := by
      by_cases hzero : v.toInt = 0
      · have hv0 : v = 0 := Int32.toInt_inj.mp hzero
        have ho0 : (order 0).toInt = 0 := rfl
        rw [hv0, ho0] at ho
        omega
      · have hlt := (pow_lt_pow_iff_right₀ (by decide)).mp ((hlow hzero).trans_lt hv)
        omega
    rw [Int32.le_iff_toInt_le, h30, toInt_add32 (by rw [InInt32, ha, ho]; omega), ha, ho]
    omega
  refine Or.inr ⟨hfits _ (abs_lt_of_between hready.between hsmall), hfits x (hsmall x ?_)⟩
  exact List.mem_append_right _ (List.mem_singleton.mpr rfl)

theorem s_feed (f : Filter) (x : Int32) : (feed f x).s = f.s := by
  rw [feed, filter_eq]
  simp only [counted]
  split
  · rfl
  · rfl

/-- Runs on small samples fit. -/
theorem meets_of_small {seen : List Int32} {f : Filter} (h : Follows seen f) (xs : List Int32)
    (hsmall : ∀ v ∈ seen ++ xs, |v.toInt| < 1000000000)
    (hfits : ∀ v ∈ seen ++ xs, |v.toInt| < 2 ^ (31 - f.s.toInt.toNat)) :
    Meets feed OrderFits f xs := by
  induction xs generalizing seen f with
  | nil => trivial
  | cons x xs ih =>
      rw [List.append_cons] at hsmall hfits
      have hfit : OrderFits f x :=
        orderFits_of_small h fun v hv => hfits v (List.mem_append_left _ hv)
      have hstep := smooths_of_orderFits h
        (fun v hv => hsmall v (List.mem_append_left _ hv)) hfit
      refine ⟨hfit, ih hstep.2 hsmall ?_⟩
      rw [s_feed]
      exact hfits

/-- A filter of order one smooths every run of samples below a second. -/
theorem smooths_of_first_order {f : Filter} (hf : Prepared f) (hs : f.s = 1) (xs : List Int32)
    (hsmall : ∀ x ∈ xs, |x.toInt| < 1000000000) (seen : List Int32) (x : Int32)
    (rest : List Int32) (hxs : xs = seen ++ x :: rest) : Smooths seen x (run feed f seen) := by
  refine smooths_of_meets hf (Or.inl hs) xs hsmall ?_ seen x rest hxs
  refine meets_of_small (follows_of_prepared hf (Or.inl hs)) xs hsmall fun v hv => ?_
  rw [hs]
  exact (hsmall v hv).trans (by decide)

end Ptp

end RtosLwip
