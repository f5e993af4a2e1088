import Mathlib.Data.List.Infix
import Mathlib.Data.Nat.Find

/-!
# Searching a Buffer for a Pattern

The position of the first occurrence of a pattern in a list. The occurrences
are the positions the list can be dropped to such that the pattern is a prefix
of what is left, so the first of them is described without a search.

A search is stable under what stands behind the occurrence: more bytes behind
it do not change the answer, and bytes that do not reach its end hide it.

## Main definitions

* `memmem`: The first occurrence of a pattern.

## Theorems

* `memmem_eq_some_iff`: The pattern stands there, and nowhere before.
* `memmem_eq_none_iff`: The pattern is no part of the list.
* `memmem_append`: Bytes behind the occurrence do not matter.
* `memmem_take`: A list cut off within the occurrence has none.
-/

namespace RtosLwip

variable {α : Type*}

/-- An occurrence, as a position and as a decomposition. -/
theorem prefix_drop_iff (pattern l : List α) (q : Nat) (hq : q ≤ l.length) :
    pattern <+: l.drop q ↔ ∃ a c, a.length = q ∧ l = a ++ pattern ++ c := by
  constructor
  · rintro ⟨c, hc⟩
    refine ⟨l.take q, c, List.length_take_of_le hq, ?_⟩
    rw [List.append_assoc, hc, List.take_append_drop]
  · rintro ⟨a, c, rfl, rfl⟩
    rw [List.append_assoc, List.drop_left]
    exact List.prefix_append pattern c

variable [DecidableEq α]

/-- The position of the first occurrence of `pattern`. -/
def memmem (pattern l : List α) : Option Nat :=
  (l.dropInfix? pattern).map fun r => r.1.length

theorem memmem_eq_some_iff (pattern l : List α) (p : Nat) :
    memmem pattern l = some p ↔
      (p ≤ l.length ∧ pattern <+: l.drop p) ∧ ∀ q < p, ¬ pattern <+: l.drop q := by
  unfold memmem
  constructor
  · intro h
    rcases Option.map_eq_some_iff.mp h with ⟨⟨a, c⟩, hr, rfl⟩
    rcases List.dropInfix?_eq_some_iff.mp hr with ⟨⟨i, hl, hi⟩, hmin⟩
    rw [beq_iff_eq] at hi
    subst hi
    have hle : a.length ≤ l.length := by
      rw [hl, List.length_append, List.length_append]
      omega
    refine ⟨⟨hle, (prefix_drop_iff i l _ hle).mpr ⟨a, c, rfl, hl⟩⟩, fun q hq hpre => ?_⟩
    -- an earlier occurrence would be a shorter decomposition
    change q < a.length at hq
    rcases (prefix_drop_iff i l q (by omega)).mp hpre with ⟨a', c', ha', hl'⟩
    have := hmin a' i c' hl' (beq_self_eq_true i)
    omega
  · rintro ⟨⟨hle, hpre⟩, hmin⟩
    rcases (prefix_drop_iff pattern l p hle).mp hpre with ⟨a, c, ha, hl⟩
    refine Option.map_eq_some_iff.mpr ⟨(a, c), List.dropInfix?_eq_some_iff.mpr ?_, ha⟩
    refine ⟨⟨pattern, hl, beq_self_eq_true pattern⟩, fun a' i' c' hl' hi' => ?_⟩
    rw [beq_iff_eq] at hi'
    subst hi'
    have hle' : a'.length ≤ l.length := by
      rw [hl', List.length_append, List.length_append]
      omega
    by_contra hlt
    exact hmin a'.length (by omega) ((prefix_drop_iff i' l _ hle').mpr ⟨a', c', rfl, hl'⟩)

/-- A list that has the pattern as a part has a first occurrence of it. -/
theorem exists_memmem_of_infix (pattern l : List α) (h : pattern <:+: l) :
    ∃ p, memmem pattern l = some p := by
  rcases h with ⟨a, c, hl⟩
  have hocc : ∃ q, q ≤ l.length ∧ pattern <+: l.drop q := by
    have hle : a.length ≤ l.length := by
      rw [← hl, List.length_append, List.length_append]
      omega
    exact ⟨a.length, hle, (prefix_drop_iff pattern l _ hle).mpr ⟨a, c, rfl, hl.symm⟩⟩
  classical
  refine ⟨Nat.find hocc, (memmem_eq_some_iff pattern l _).mpr ⟨Nat.find_spec hocc, ?_⟩⟩
  intro q hq hpre
  have hle := (Nat.find_spec hocc).1
  exact Nat.find_min hocc hq ⟨by omega, hpre⟩

theorem memmem_eq_none_iff (pattern l : List α) : memmem pattern l = none ↔ ¬ pattern <:+: l := by
  constructor
  · intro h hin
    rcases exists_memmem_of_infix pattern l hin with ⟨p, hp⟩
    rw [h] at hp
    exact Option.some_ne_none p hp.symm
  · intro h
    cases hp : memmem pattern l with
    | none => rfl
    | some p =>
        have hpre := ((memmem_eq_some_iff pattern l p).mp hp).1.2
        exact absurd (hpre.isInfix.trans (List.drop_suffix p l).isInfix) h

/-- An occurrence ends within the list. -/
theorem memmem_add_length_le {pattern l : List α} {p : Nat} (h : memmem pattern l = some p) :
    p + pattern.length ≤ l.length := by
  rcases ((memmem_eq_some_iff pattern l p).mp h).1 with ⟨hle, hpre⟩
  have := hpre.length_le
  rw [List.length_drop] at this
  omega

/-- Bytes behind the first occurrence do not change it. -/
theorem memmem_append {pattern l : List α} {p : Nat} (h : memmem pattern l = some p)
    (r : List α) : memmem pattern (l ++ r) = some p := by
  have hend := memmem_add_length_le h
  rcases (memmem_eq_some_iff pattern l p).mp h with ⟨⟨hle, hpre⟩, hmin⟩
  refine (memmem_eq_some_iff pattern _ p).mpr ⟨⟨?_, ?_⟩, fun q hq hq' => hmin q hq ?_⟩
  · rw [List.length_append]
    omega
  · rw [List.drop_append_of_le_length hle]
    exact hpre.trans (List.prefix_append _ r)
  · -- the occurrence before `p` ends before the end of `l`
    rw [List.drop_append_of_le_length (by omega)] at hq'
    refine List.prefix_of_prefix_length_le hq' (List.prefix_append _ r) ?_
    rw [List.length_drop]
    omega

/-- A list cut off before the end of the first occurrence has none. -/
theorem memmem_take {pattern l : List α} {p n : Nat} (h : memmem pattern l = some p)
    (hn : n < p + pattern.length) : memmem pattern (l.take n) = none := by
  cases hq : memmem pattern (l.take n) with
  | none => rfl
  | some q =>
      have hall := memmem_append hq (l.drop n)
      rw [List.take_append_drop, h, Option.some.injEq] at hall
      have hend := memmem_add_length_le hq
      rw [List.length_take] at hend
      omega

end RtosLwip
