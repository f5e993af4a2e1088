import RtosLwip.Base.Search
import RtosLwip.Base.Text

/-!
# Text with More Memory Behind

A C string ends at the first NUL byte, so what is behind that byte is of no
effect: the string is the same, and two strings are compared no further.

## Theorems

* `cstr_append_of_mem`: Behind a NUL byte nothing is looked at.
* `memmem_singleton`: The first occurrence of a byte.
* `strcasecmpEq_cstr_iff`: Two strings are compared as far as the first NUL byte.
-/

namespace RtosLwip

theorem cstr_append_of_nul_free {a : List UInt8} (h : ∀ c ∈ a, c ≠ 0) (b : List UInt8) :
    cstr (a ++ b) = a ++ cstr b := by
  refine List.takeWhile_append_of_pos fun c hc => ?_
  simpa using h c hc

theorem cstr_append_of_mem {a : List UInt8} (h : 0 ∈ a) (b : List UInt8) :
    cstr (a ++ b) = cstr a := by
  have hshort : (a.takeWhile (· ≠ 0)).length ≠ a.length := by
    intro heq
    have hall := List.takeWhile_eq_self_iff.mp ((List.takeWhile_prefix _).eq_of_length heq)
    exact absurd (hall 0 h) (by decide)
  rw [cstr, List.takeWhile_append, if_neg hshort]
  rfl

/-- The bytes hold the text, with its NUL among them. -/
def IsText (bytes text : List UInt8) : Prop := 0 ∈ bytes ∧ cstr bytes = text

theorem isText_of_append {text rest : List UInt8} (h : ∀ c ∈ text, c ≠ 0) :
    IsText (text ++ 0 :: rest) text := by
  refine ⟨List.mem_append_right _ List.mem_cons_self, ?_⟩
  rw [cstr_append_of_nul_free h]
  exact List.append_nil text

/-- The text in a memory with a NUL byte ends with the first of them. -/
theorem exists_cstr_append {a : List UInt8} (h : 0 ∈ a) : ∃ t, a = cstr a ++ 0 :: t := by
  induction a with
  | nil => exact absurd h List.not_mem_nil
  | cons x rest ih =>
      by_cases hx : x = 0
      · exact ⟨rest, by rw [hx]; rfl⟩
      · rcases List.mem_cons.mp h with h0 | hrest
        · exact absurd h0.symm hx
        · rcases ih hrest with ⟨t, ht⟩
          refine ⟨t, ?_⟩
          have hstep : cstr (x :: rest) = x :: cstr rest :=
            List.takeWhile_cons_of_pos (by simpa using hx)
          rw [hstep, List.cons_append, ← ht]

/-- The first occurrence of a byte. -/
theorem memmem_singleton {x : UInt8} {a : List UInt8} (ha : x ∉ a) (b : List UInt8) :
    memmem [x] (a ++ x :: b) = some a.length := by
  -- an occurrence before this one would be in the part without the byte
  refine (memmem_eq_some_iff _ _ _).mpr ⟨⟨?_, ?_⟩, fun q hq hpre => ?_⟩
  · rw [List.length_append]
    exact Nat.le_add_right _ _
  · rw [List.drop_left]
    exact ⟨b, rfl⟩
  · rw [List.drop_append_of_le_length (Nat.le_of_lt hq), List.drop_eq_getElem_cons hq] at hpre
    have hx : x = a[q] := (List.cons_prefix_cons.mp hpre).1
    exact ha (hx ▸ List.getElem_mem hq)

/-! ### Comparing without regard to case -/

theorem toLower_eq_zero_iff (c : UInt8) : toLower c = 0 ↔ c = 0 := by
  unfold toLower
  split
  · rename_i h
    have hrange : 65 ≤ c ∧ c ≤ 90 := by simpa using h
    constructor
    · intro h0
      have hn := congrArg UInt8.toNat h0
      have hlow := UInt8.le_iff_toNat_le.mp hrange.1
      have hhigh := UInt8.le_iff_toNat_le.mp hrange.2
      rw [UInt8.toNat_add] at hn
      simp at hn hlow hhigh
      omega
    · rintro rfl
      exact absurd hrange.1 (by decide)
  · exact Iff.rfl

/-- The bytes at some place differ by more than their case, and the strings have not ended
    before it. -/
def DifferAt (x y : List UInt8) (i : Nat) : Prop :=
  toLower (x.getD i 0) ≠ toLower (y.getD i 0) ∧ ∀ j < i, x.getD j 0 ≠ 0

theorem cstr_eq_nil_iff (z : List UInt8) : cstr z = [] ↔ z.getD 0 0 = 0 := by
  cases z with
  | nil => exact iff_of_true rfl rfl
  | cons b z => by_cases hb : b = 0 <;> simp [cstr, hb]

theorem cstr_of_ne_zero {z : List UInt8} (h : z.getD 0 0 ≠ 0) :
    cstr z = z.getD 0 0 :: cstr z.tail := by
  cases z with
  | nil => exact absurd rfl h
  | cons b z => exact List.takeWhile_cons_of_pos (by simpa using h)

/-- The first bytes are compared, and the rest if the strings have not ended. -/
theorem strcasecmpEq_cstr_step (x y : List UInt8) :
    strcasecmpEq (cstr x) (cstr y) = true ↔
      toLower (x.getD 0 0) = toLower (y.getD 0 0) ∧
        (x.getD 0 0 = 0 ∨ strcasecmpEq (cstr x.tail) (cstr y.tail) = true) := by
  by_cases hx : x.getD 0 0 = 0
  · have hy : toLower (x.getD 0 0) = toLower (y.getD 0 0) ↔ cstr y = [] := by
      rw [hx, cstr_eq_nil_iff, ← toLower_eq_zero_iff (y.getD 0 0)]
      exact eq_comm
    have hnil : strcasecmpEq [] (cstr y) = true ↔ cstr y = [] := by
      cases cstr y <;> simp [strcasecmpEq]
    rw [hy, (cstr_eq_nil_iff x).mpr hx, hnil]
    exact ⟨fun h => ⟨h, Or.inl hx⟩, fun h => h.1⟩
  · by_cases hy : y.getD 0 0 = 0
    · have hne : toLower (x.getD 0 0) ≠ toLower (y.getD 0 0) := by
        rw [hy]
        exact mt (toLower_eq_zero_iff _).mp hx
      rw [(cstr_eq_nil_iff y).mpr hy, cstr_of_ne_zero hx]
      exact iff_of_false (by simp [strcasecmpEq]) fun h => hne h.1
    · rw [cstr_of_ne_zero hx, cstr_of_ne_zero hy, or_iff_right hx]
      simp [strcasecmpEq]

/-- A difference is in the first bytes, or in the rest if the strings have not ended. -/
theorem not_differAt_step (x y : List UInt8) :
    (∀ i, ¬ DifferAt x y i) ↔
      toLower (x.getD 0 0) = toLower (y.getD 0 0) ∧
        (x.getD 0 0 = 0 ∨ ∀ i, ¬ DifferAt x.tail y.tail i) := by
  have hsucc : ∀ (z : List UInt8) j, z.getD (j + 1) 0 = z.tail.getD j 0 := by
    intro z j
    cases z <;> rfl
  constructor
  · intro h
    refine ⟨by_contra fun hne => h 0 ⟨hne, nofun⟩, ?_⟩
    by_cases hx : x.getD 0 0 = 0
    · exact Or.inl hx
    · refine Or.inr fun i hi => h (i + 1) ⟨?_, ?_⟩
      · rw [hsucc, hsucc]
        exact hi.1
      · intro j hj
        rcases j with _ | j
        · exact hx
        · rw [hsucc]
          exact hi.2 j (by omega)
  · rintro ⟨hfirst, hrest⟩ i hi
    rcases i with _ | i
    · exact hi.1 hfirst
    · rcases hrest with hx | hnone
      · exact hi.2 0 (Nat.succ_pos i) hx
      · refine hnone i ⟨?_, fun j hj => ?_⟩
        · rw [← hsucc, ← hsucc]
          exact hi.1
        · rw [← hsucc]
          exact hi.2 (j + 1) (by omega)

/-- Two strings are equal without regard to case if and only if there is no such place. -/
theorem strcasecmpEq_cstr_iff (x y : List UInt8) :
    strcasecmpEq (cstr x) (cstr y) = true ↔ ∀ i, ¬ DifferAt x y i := by
  induction x generalizing y with
  | nil =>
      rw [strcasecmpEq_cstr_step, not_differAt_step]
      exact and_congr_right fun _ => iff_of_true (Or.inl rfl) (Or.inl rfl)
  | cons a x ih =>
      rw [strcasecmpEq_cstr_step, not_differAt_step]
      exact and_congr_right fun _ => or_congr_right (ih y.tail)

end RtosLwip
