import Mathlib.Data.Nat.Init

/-!
# Sums with the Carry Put Back In

Words of 16 bits are added up, and whatever is carried over is added at the other end. The
result is the remainder of the sum by 65535, but for one thing: only a sum of nothing but zeros
is zero, and every other multiple of 65535 comes out as 65535 itself.

Since 65536 leaves the remainder one, it does not matter whether the bytes of a text are added
word by word or read as one long number, and a byte that moves by one place multiplies its part
of the sum by 256. So the sum of two texts one behind the other is found from their two sums.

## Main definitions

* `ones`: What a sum comes to.
* `wordSum`: The words of a text, added up.
* `leValue`: The text as a number.

## Theorems

* `ones_eq_iff`: What characterises the result.
* `ones_wordSum`: Words or one number.
* `ones_append`: Two texts one behind the other.
-/

namespace RtosLwip

/-- A sum of 16-bit words, with the carry put back in. -/
def ones (s : Nat) : Nat := if s = 0 then 0 else (s - 1) % 65535 + 1

/-- The bytes of a text in pairs as words, the first byte of a pair the lower one, added up.
    Behind a last single byte a zero is thought. -/
def wordSum : List UInt8 → Nat
  | b₀ :: b₁ :: rest => b₀.toNat + 256 * b₁.toNat + wordSum rest
  | [b] => b.toNat
  | [] => 0

/-- The text as a number, the first byte the lowest. -/
def leValue : List UInt8 → Nat
  | [] => 0
  | b :: rest => b.toNat + 256 * leValue rest

theorem ones_eq_iff {s x : Nat} :
    ones s = x ↔ x ≤ 65535 ∧ x % 65535 = s % 65535 ∧ (x = 0 ↔ s = 0) := by
  unfold ones
  by_cases hs : s = 0
  · rw [if_pos hs]
    omega
  · rw [if_neg hs]
    omega

theorem ones_le (s : Nat) : ones s ≤ 65535 := (ones_eq_iff.mp rfl).1

/-- Only the remainder matters, and whether there is anything at all. -/
theorem ones_congr {a b : Nat} (hmod : a % 65535 = b % 65535) (hzero : a = 0 ↔ b = 0) :
    ones a = ones b := by
  obtain ⟨hle, hb, hz⟩ := ones_eq_iff.mp (rfl : ones b = ones b)
  exact ones_eq_iff.mpr ⟨hle, hb.trans hmod.symm, hz.trans hzero.symm⟩

theorem ones_eq_ones {a b : Nat} :
    ones a = ones b ↔ a % 65535 = b % 65535 ∧ (a = 0 ↔ b = 0) := by
  constructor
  · intro h
    obtain ⟨-, ha, hza⟩ := ones_eq_iff.mp h
    obtain ⟨-, hb, hzb⟩ := ones_eq_iff.mp (rfl : ones b = ones b)
    exact ⟨ha.symm.trans hb, hza.symm.trans hzb⟩
  · exact fun h => ones_congr h.1 h.2

theorem ones_ones_add (a b : Nat) : ones (ones a + b) = ones (a + b) := by
  obtain ⟨-, ha, hz⟩ := ones_eq_iff.mp (rfl : ones a = ones a)
  exact ones_congr (by omega) (by omega)

theorem ones_mul_ones (a : Nat) : ones (256 * ones a) = ones (256 * a) := by
  obtain ⟨-, ha, hz⟩ := ones_eq_iff.mp (rfl : ones a = ones a)
  exact ones_congr (by omega) (by omega)

/-- Twice by one place is not moved at all. -/
theorem ones_mul_mul (a : Nat) : ones (256 * (256 * a)) = ones a :=
  ones_congr (by omega) (by omega)

/-! ### Texts -/

theorem leValue_eq_zero_append (xs ys : List UInt8) :
    leValue (xs ++ ys) = 0 ↔ leValue xs = 0 ∧ leValue ys = 0 := by
  induction xs with
  | nil => exact (and_iff_right rfl).symm
  | cons x xs ih =>
      rw [List.cons_append, leValue, leValue]
      omega

/-- Words or one number. -/
theorem ones_wordSum (xs : List UInt8) : ones (wordSum xs) = ones (leValue xs) := by
  suffices h : wordSum xs % 65535 = leValue xs % 65535 ∧ (wordSum xs = 0 ↔ leValue xs = 0) from
    ones_congr h.1 h.2
  induction xs using wordSum.induct with
  | case1 b₀ b₁ rest ih =>
      rw [wordSum, leValue, leValue]
      omega
  | case2 b =>
      rw [wordSum, leValue, leValue]
      omega
  | case3 => exact ⟨rfl, Iff.rfl⟩

/-- The part behind an even number of bytes, or an odd one. -/
theorem leValue_append_mod (xs ys : List UInt8) :
    (xs.length % 2 = 0 → leValue (xs ++ ys) % 65535 = (leValue xs + leValue ys) % 65535) ∧
      (xs.length % 2 = 1 →
        leValue (xs ++ ys) % 65535 = (leValue xs + 256 * leValue ys) % 65535) := by
  induction xs with
  | nil =>
      rw [List.nil_append, leValue, List.length_nil, Nat.zero_add]
      exact ⟨fun _ => rfl, fun h => absurd h (by decide)⟩
  | cons x xs ih =>
      rw [List.cons_append, leValue, leValue, List.length_cons]
      omega

/-- One changed byte is seen in the remainder, at any place. -/
theorem leValue_changed_mod {b b' : UInt8} (hne : b ≠ b') (xs ys : List UInt8) :
    leValue (xs ++ b :: ys) % 65535 ≠ leValue (xs ++ b' :: ys) % 65535 := by
  induction xs with
  | nil =>
      have hbytes : b.toNat ≠ b'.toNat := fun heq => hne (UInt8.toNat_inj.mp heq)
      have hb := b.toNat_lt
      have hb' := b'.toNat_lt
      rw [List.nil_append, List.nil_append, leValue, leValue]
      omega
  | cons x xs ih =>
      -- 256 has an inverse
      rw [List.cons_append, List.cons_append, leValue, leValue]
      omega

/-- Behind an even number of bytes the words are the same. -/
theorem ones_append_even {xs : List UInt8} (h : xs.length % 2 = 0) (ys : List UInt8) :
    ones (leValue (xs ++ ys)) = ones (leValue xs + leValue ys) := by
  have hzero := leValue_eq_zero_append xs ys
  exact ones_congr ((leValue_append_mod xs ys).1 h) (by omega)

/-- Behind an odd number of bytes they have changed sides. -/
theorem ones_append_odd {xs : List UInt8} (h : xs.length % 2 = 1) (ys : List UInt8) :
    ones (leValue (xs ++ ys)) = ones (leValue xs + 256 * leValue ys) := by
  have hzero := leValue_eq_zero_append xs ys
  exact ones_congr ((leValue_append_mod xs ys).2 h) (by omega)

theorem wordSum_append_even {xs : List UInt8} (h : xs.length % 2 = 0) (ys : List UInt8) :
    wordSum (xs ++ ys) = wordSum xs + wordSum ys := by
  induction xs using wordSum.induct with
  | case1 b₀ b₁ rest ih =>
      rw [List.length_cons, List.length_cons] at h
      rw [List.cons_append, List.cons_append, wordSum, wordSum, ih (by omega)]
      omega
  | case2 b => exact absurd h (by simp)
  | case3 => rw [List.nil_append, wordSum, Nat.zero_add]

/-- The complement makes up for the sum: with it in the place of zeros, the words add up to
    65535. -/
theorem ones_add_compl (s : Nat) : ones (s + (65535 - ones s)) = 65535 := by
  obtain ⟨hle, hs, hz⟩ := ones_eq_iff.mp (rfl : ones s = ones s)
  exact ones_eq_iff.mpr ⟨Nat.le_refl _, by omega, by omega⟩

end RtosLwip
