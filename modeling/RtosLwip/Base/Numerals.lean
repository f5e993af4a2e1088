import Mathlib.Data.Nat.Digits.Lemmas
import RtosLwip.Base.Text

/-!
# Reading What Was Printed

A number that is printed in decimal is read back by whatever takes digits as far as they
go, as long as something else follows.

## Main definitions

* `EndsNumber`: What can follow a number.

## Theorems

* `digitsValue_dec`: The digits of a number stand for it.
* `scanInt_digits`: Digits are read as the number they stand for.
* `scanInt_dec`: A number that is printed is read back.
* `length_dec_le`: How long a number is.
-/

namespace RtosLwip

/-- The text does not begin with a digit. -/
def EndsNumber (rest : List UInt8) : Prop := ∀ c ∈ rest.head?, isDigit c = false

section Digits

theorem toNat_digitChar {d : Nat} (h : d < 10) : (digitChar d).toNat = 48 + d := by
  unfold digitChar
  rw [UInt8.toNat_ofNat']
  omega

theorem isDigit_digitChar {d : Nat} (h : d < 10) : isDigit (digitChar d) = true := by
  have hval := toNat_digitChar h
  unfold isDigit
  rw [Bool.and_eq_true, decide_eq_true_iff, decide_eq_true_iff, UInt8.le_iff_toNat_le,
    UInt8.le_iff_toNat_le, hval]
  have h48 : UInt8.toNat 48 = 48 := rfl
  have h57 : UInt8.toNat 57 = 57 := rfl
  omega

theorem isDigit_of_mem_dec {n : Nat} {c : UInt8} (h : c ∈ dec n) : isDigit c = true := by
  unfold dec at h
  split at h
  · rw [List.mem_singleton.mp h]
    rfl
  · obtain ⟨d, hd, rfl⟩ := List.mem_map.mp h
    exact isDigit_digitChar (Nat.digits_lt_base (by decide) (List.mem_reverse.mp hd))

theorem dec_ne_nil (n : Nat) : dec n ≠ [] := by
  unfold dec
  split
  · exact List.cons_ne_nil _ _
  · rename_i h
    intro hnil
    rw [List.map_eq_nil_iff, List.reverse_eq_nil_iff] at hnil
    exact h (Nat.digits_eq_nil_iff_eq_zero.mp hnil)

theorem digitsValue_append (acc : Nat) (a b : List UInt8) :
    digitsValue acc (a ++ b) = digitsValue (digitsValue acc a) b := by
  induction a generalizing acc with
  | nil => rfl
  | cons c rest ih => exact ih _

/-- The digits of a number stand for it, wherever they begin. -/
theorem digitsValue_digits (ds : List Nat) (h : ∀ d ∈ ds, d < 10) (acc : Nat) :
    digitsValue acc (ds.reverse.map digitChar) = acc * 10 ^ ds.length + Nat.ofDigits 10 ds := by
  have hone : ∀ (acc : Nat) (c : UInt8), digitsValue acc [c] = acc * 10 + (c.toNat - 48) :=
    fun _ _ => rfl
  induction ds with
  | nil =>
      rw [List.length_nil, pow_zero, Nat.mul_one]
      rfl
  | cons d rest ih =>
      have hd : d < 10 := h d List.mem_cons_self
      rw [List.reverse_cons, List.map_append, digitsValue_append,
        ih (fun x hx => h x (List.mem_cons_of_mem d hx)), List.map_cons, List.map_nil, hone,
        toNat_digitChar hd, Nat.add_sub_cancel_left, Nat.ofDigits_cons, List.length_cons, pow_succ]
      ring

theorem digitsValue_dec (n : Nat) : digitsValue 0 (dec n) = n := by
  unfold dec
  split
  · rename_i h
    rw [h]
    rfl
  · rw [digitsValue_digits _ (fun d hd => Nat.digits_lt_base (by decide) hd), Nat.ofDigits_digits]
    omega

theorem length_dec_le {n k : Nat} (hk : 0 < k) (h : n < 10 ^ k) : (dec n).length ≤ k := by
  unfold dec
  split
  · exact hk
  · rw [List.length_map, List.length_reverse]
    exact (Nat.digits_length_le_iff (by decide) n).mpr h

end Digits

theorem takeWhile_digits {digits : List UInt8} (hdigits : ∀ c ∈ digits, isDigit c = true)
    {rest : List UInt8} (h : EndsNumber rest) :
    (digits ++ rest).takeWhile isDigit = digits := by
  rw [List.takeWhile_append_of_pos hdigits]
  have hnone : rest.takeWhile isDigit = [] := by
    cases rest with
    | nil => rfl
    | cons c rest =>
        rw [List.takeWhile_cons_of_neg]
        rw [h c rfl]
        exact Bool.false_ne_true
  rw [hnone, List.append_nil]

/-- A digit is no sign and no blank. -/
theorem not_sign_of_isDigit {c : UInt8} (hc : isDigit c = true) :
    c ≠ 45 ∧ c ≠ 43 ∧ isSpace c = false := by
  refine ⟨?_, ?_, ?_⟩
  · rintro rfl
    exact Bool.false_ne_true hc
  · rintro rfl
    exact Bool.false_ne_true hc
  · unfold isDigit at hc
    unfold isSpace
    rw [Bool.and_eq_true, decide_eq_true_iff, decide_eq_true_iff] at hc
    have h32 : c ≠ 32 := by
      rintro rfl
      exact absurd hc.1 (by decide)
    have h13 : ¬ c ≤ 13 := fun hle => absurd (UInt8.le_trans hc.1 hle) (by decide)
    rw [decide_eq_false h32, decide_eq_false h13, Bool.and_false, Bool.or_false]

/-- The number that digits stand for is read, whatever ends it. -/
theorem scanInt_digits {digits : List UInt8} (hne : digits ≠ [])
    (hdigits : ∀ c ∈ digits, isDigit c = true) {rest : List UInt8} (h : EndsNumber rest) :
    scanInt (digits ++ rest) = some (digitsValue 0 digits : Int) := by
  cases digits with
  | nil => exact absurd rfl hne
  | cons c ds =>
      have hscan : scanDigits (c :: ds ++ rest) = some (digitsValue 0 (c :: ds)) := by
        rw [scanDigits, takeWhile_digits hdigits h]
      have hdigit := not_sign_of_isDigit (hdigits c List.mem_cons_self)
      have hspace : ¬ isSpace c = true := by
        rw [hdigit.2.2]
        exact Bool.false_ne_true
      unfold scanInt
      rw [List.cons_append, List.dropWhile_cons_of_neg hspace]
      split
      · rename_i heq
        cases heq
        exact absurd rfl hdigit.1
      · rename_i heq
        cases heq
        exact absurd rfl hdigit.2.1
      · rw [← List.cons_append, hscan]
        rfl

/-- A number that is printed is read back. -/
theorem scanInt_dec (n : Nat) {rest : List UInt8} (h : EndsNumber rest) :
    scanInt (dec n ++ rest) = some (n : Int) := by
  rw [scanInt_digits (dec_ne_nil n) (fun c hc => isDigit_of_mem_dec hc) h, digitsValue_dec]

end RtosLwip
