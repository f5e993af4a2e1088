import Mathlib.Data.List.Basic
import RtosLwip.Base.Text

/-!
# Hexadecimal Texts

Two digits for a byte, and texts of such bytes in groups with a separator between
them. A digit may be of either case when it is read. What is printed is of lower case.

## Main definitions

* `hexByte`: The byte that two digits stand for.
* `hexDecode`: The bytes that a text stands for.
* `hexGroups`: The bytes of a text in groups of given lengths.
* `hexPrint`: The text of such groups.

## Theorems

* `length_of_hexDecode`: Two digits for a byte.
* `hexGroups_cons_cons`: A text of several groups begins with one of them.
* `hexDecode_hexEncode`, `hexGroups_hexPrint`: What is printed is read back.
-/

namespace RtosLwip

theorem hexDigit_hexChar : ∀ d < 16, hexDigit (hexChar d) = some d.toUInt8 ∧ hexChar d ≠ 58 := by
  decide +kernel

/-- The byte that two digits stand for. -/
def hexByte (a b : UInt8) : Option UInt8 :=
  match hexDigit a, hexDigit b with
  | some x, some y => some (x * 16 + y)
  | _, _ => none

/-- The bytes that a text stands for, with two digits each. -/
def hexDecode : List UInt8 → Option (List UInt8)
  | [] => some []
  | [_] => none
  | a :: b :: rest => (hexByte a b).bind fun v => (hexDecode rest).map (v :: ·)

/-- The bytes of a text in groups of so many bytes each, with a separator between them. -/
def hexGroups (sep : UInt8) : List Nat → List UInt8 → Option (List UInt8)
  | [], text => if text = [] then some [] else none
  | [n], text => if text.length = 2 * n then hexDecode text else none
  | n :: m :: sizes, text =>
      match text.drop (2 * n) with
      | [] => none
      | c :: behind =>
          if c = sep then
            (hexDecode (text.take (2 * n))).bind fun front =>
              (hexGroups sep (m :: sizes) behind).map (front ++ ·)
          else none

/-- The digits of some bytes. -/
def hexEncode (bytes : List UInt8) : List UInt8 := bytes.flatMap hex2

/-- The digits of some groups of bytes, with a separator between them. -/
def hexPrint (sep : UInt8) : List (List UInt8) → List UInt8
  | [] => []
  | [group] => hexEncode group
  | group :: next :: rest => hexEncode group ++ sep :: hexPrint sep (next :: rest)

/-! ### Reading -/

theorem hexDecode_cons_cons (a b : UInt8) (rest : List UInt8) (bytes : List UInt8) :
    hexDecode (a :: b :: rest) = some bytes ↔
      ∃ v tail, hexByte a b = some v ∧ hexDecode rest = some tail ∧ bytes = v :: tail := by
  rw [hexDecode]
  cases hexByte a b with
  | none => exact ⟨nofun, fun ⟨_, _, h, _⟩ => absurd h nofun⟩
  | some v =>
      cases hexDecode rest with
      | none => exact ⟨nofun, fun ⟨_, _, _, h, _⟩ => absurd h nofun⟩
      | some tail =>
          constructor
          · intro h
            exact ⟨v, tail, rfl, rfl, (Option.some.inj h).symm⟩
          · rintro ⟨_, _, hv, htail, rfl⟩
            rw [Option.some.inj hv, Option.some.inj htail]
            rfl

/-- A character that is no digit is not in a byte. -/
theorem ne_of_hexByte {a b v c : UInt8} (h : hexByte a b = some v) (hc : hexDigit c = none) :
    a ≠ c ∧ b ≠ c := by
  constructor
  · rintro rfl
    simp [hexByte, hc] at h
  · rintro rfl
    simp [hexByte, hc] at h

/-- A text of one byte. -/
theorem eq_of_hexDecode_one {text bytes : List UInt8} (h : hexDecode text = some bytes)
    (hone : bytes.length = 1) : ∃ a b v, text = [a, b] ∧ bytes = [v] ∧ hexByte a b = some v := by
  rcases text with _ | ⟨a, _ | ⟨b, rest⟩⟩
  · cases h
    exact absurd hone nofun
  · exact absurd h nofun
  · rcases (hexDecode_cons_cons a b rest bytes).mp h with ⟨v, tail, hbyte, htail, rfl⟩
    have htail0 : tail = [] := List.eq_nil_of_length_eq_zero (by simpa using hone)
    subst htail0
    rcases rest with _ | ⟨c, _ | ⟨d, rest⟩⟩
    · exact ⟨a, b, v, rfl, rfl, hbyte⟩
    · exact absurd htail nofun
    · rcases (hexDecode_cons_cons c d rest []).mp htail with ⟨_, _, -, -, hnil⟩
      exact absurd hnil nofun

/-- There are two digits for a byte. -/
theorem length_of_hexDecode {text bytes : List UInt8} (h : hexDecode text = some bytes) :
    text.length = 2 * bytes.length := by
  induction text using hexDecode.induct generalizing bytes with
  | case1 =>
      cases h
      rfl
  | case2 c => exact absurd h nofun
  | case3 a b rest ih =>
      rcases (hexDecode_cons_cons a b rest bytes).mp h with ⟨v, tail, -, htail, rfl⟩
      have hlen := ih htail
      simp only [List.length_cons] at hlen ⊢
      omega

/-- The last group is all of the text. -/
theorem hexGroups_singleton {sep : UInt8} {n : Nat} {text bytes : List UInt8} :
    hexGroups sep [n] text = some bytes ↔ hexDecode text = some bytes ∧ bytes.length = n := by
  rw [hexGroups]
  constructor
  · intro h
    split at h
    · rename_i hlen
      have hbytes := length_of_hexDecode h
      exact ⟨h, by omega⟩
    · exact absurd h nofun
  · rintro ⟨h, rfl⟩
    rw [if_pos (length_of_hexDecode h), h]

/-- The groups before it end with a separator. -/
theorem hexGroups_cons_cons {sep : UInt8} {n m : Nat} {sizes : List Nat}
    {text bytes : List UInt8} :
    hexGroups sep (n :: m :: sizes) text = some bytes ↔
      ∃ digits behind front back, text = digits ++ sep :: behind ∧
        hexDecode digits = some front ∧ front.length = n ∧
        hexGroups sep (m :: sizes) behind = some back ∧ bytes = front ++ back := by
  rw [hexGroups]
  constructor
  · intro h
    cases hdrop : text.drop (2 * n) with
    | nil =>
        rw [hdrop] at h
        exact absurd h nofun
    | cons c behind =>
        rw [hdrop] at h
        by_cases hc : c = sep
        · simp only [if_pos hc] at h
          rcases Option.bind_eq_some_iff.mp h with ⟨front, hfront, hrest⟩
          rcases Option.map_eq_some_iff.mp hrest with ⟨back, hback, rfl⟩
          have hlen := length_of_hexDecode hfront
          have hlong := congrArg List.length hdrop
          rw [List.length_drop, List.length_cons] at hlong
          rw [List.length_take] at hlen
          refine ⟨text.take (2 * n), behind, front, back, ?_, hfront, by omega, hback, rfl⟩
          rw [← hc, ← hdrop, List.take_append_drop]
        · simp only [if_neg hc] at h
          exact absurd h nofun
  · rintro ⟨digits, behind, front, back, rfl, hfront, rfl, hback, rfl⟩
    have hlen := length_of_hexDecode hfront
    rw [← hlen, List.drop_left, List.take_left]
    simp only [if_true, hfront, Option.bind_some, hback, Option.map_some]

theorem length_of_hexGroups {sep : UInt8} {sizes : List Nat} {text bytes : List UInt8}
    (h : hexGroups sep sizes text = some bytes) : bytes.length = sizes.sum := by
  induction sizes generalizing text bytes with
  | nil =>
      rw [hexGroups] at h
      split at h
      · cases h
        rfl
      · exact absurd h nofun
  | cons n sizes ih =>
      cases sizes with
      | nil => simpa using (hexGroups_singleton.mp h).2
      | cons m sizes =>
          rcases hexGroups_cons_cons.mp h with ⟨_, _, front, back, -, -, rfl, hback, rfl⟩
          simp only [List.length_append, ih hback, List.sum_cons]

/-- A text of bytes has nothing but digits. -/
theorem isSome_of_mem_hexDecode {text bytes : List UInt8} (h : hexDecode text = some bytes)
    {c : UInt8} (hc : c ∈ text) : (hexDigit c).isSome := by
  induction text using hexDecode.induct generalizing bytes with
  | case1 => exact absurd hc List.not_mem_nil
  | case2 c => exact absurd h nofun
  | case3 a b rest ih =>
      rcases (hexDecode_cons_cons a b rest bytes).mp h with ⟨v, tail, hbyte, htail, -⟩
      rw [Option.isSome_iff_ne_none]
      intro hnone
      rcases ne_of_hexByte hbyte hnone with ⟨ha, hb⟩
      rcases List.mem_cons.mp hc with heq | hrest
      · exact ha heq.symm
      · rcases List.mem_cons.mp hrest with heq | hrest
        · exact hb heq.symm
        · exact Option.isSome_iff_ne_none.mp (ih htail hrest) hnone

/-- A text of groups has nothing but digits and separators. -/
theorem eq_or_isSome_of_mem_hexGroups {sep : UInt8} {sizes : List Nat} {text bytes : List UInt8}
    (h : hexGroups sep sizes text = some bytes) {c : UInt8} (hc : c ∈ text) :
    c = sep ∨ (hexDigit c).isSome := by
  induction sizes generalizing text bytes with
  | nil =>
      rw [hexGroups] at h
      split at h
      next hnil =>
        rw [hnil] at hc
        exact absurd hc List.not_mem_nil
      next => exact absurd h nofun
  | cons n sizes ih =>
      cases sizes with
      | nil => exact Or.inr (isSome_of_mem_hexDecode (hexGroups_singleton.mp h).1 hc)
      | cons m sizes =>
          rcases hexGroups_cons_cons.mp h with ⟨digits, behind, _, _, rfl, hfront, -, hback, -⟩
          rcases List.mem_append.mp hc with hdigit | hrest
          · exact Or.inr (isSome_of_mem_hexDecode hfront hdigit)
          · rcases List.mem_cons.mp hrest with heq | hbehind
            · exact Or.inl heq
            · exact ih hback hbehind

/-- There are two digits for a byte, and a separator between two groups. -/
theorem length_text_of_hexGroups {sep : UInt8} {n : Nat} {sizes : List Nat}
    {text bytes : List UInt8} (h : hexGroups sep (n :: sizes) text = some bytes) :
    text.length = 2 * (n :: sizes).sum + sizes.length := by
  induction sizes generalizing n text bytes with
  | nil =>
      rcases hexGroups_singleton.mp h with ⟨hdecode, hlen⟩
      have htext := length_of_hexDecode hdecode
      simp only [List.sum_cons, List.sum_nil, List.length_nil]
      omega
  | cons m sizes ih =>
      rcases hexGroups_cons_cons.mp h with ⟨digits, behind, front, _, rfl, hfront, hn, hback, -⟩
      have hdigits := length_of_hexDecode hfront
      have hbehind := ih hback
      rw [List.length_append, List.length_cons]
      simp only [List.sum_cons, List.length_cons] at hbehind ⊢
      omega

/-! ### Printing -/

/-- The two digits of a byte stand for it. -/
theorem hexByte_hexChar (b : UInt8) :
    hexByte (hexChar (b.toNat / 16)) (hexChar (b.toNat % 16)) = some b := by
  have hlt := b.toNat_lt
  have hhigh := (hexDigit_hexChar (b.toNat / 16) (by omega)).1
  have hlow := (hexDigit_hexChar (b.toNat % 16) (by omega)).1
  have hjoin : (b.toNat / 16).toUInt8 * 16 + (b.toNat % 16).toUInt8 = b := by
    apply UInt8.toNat_inj.mp
    have h16 : UInt8.toNat 16 = 16 := rfl
    rw [UInt8.toNat_add, UInt8.toNat_mul, h16, UInt8.toNat_ofNat', UInt8.toNat_ofNat']
    omega
  simp only [hexByte, hhigh, hlow, hjoin]

theorem hexDecode_hexEncode (bytes : List UInt8) : hexDecode (hexEncode bytes) = some bytes := by
  induction bytes with
  | nil => rfl
  | cons b rest ih =>
      exact (hexDecode_cons_cons _ _ _ _).mpr ⟨b, rest, hexByte_hexChar b, ih, rfl⟩

/-- What is printed in groups is read back. -/
theorem hexGroups_hexPrint (sep : UInt8) (group : List UInt8) (groups : List (List UInt8)) :
    hexGroups sep ((group :: groups).map List.length) (hexPrint sep (group :: groups)) =
      some (group :: groups).flatten := by
  induction groups generalizing group with
  | nil =>
      rw [List.flatten_singleton]
      exact hexGroups_singleton.mpr ⟨hexDecode_hexEncode group, rfl⟩
  | cons next rest ih =>
      exact hexGroups_cons_cons.mpr ⟨hexEncode group, hexPrint sep (next :: rest), group,
        (next :: rest).flatten, rfl, hexDecode_hexEncode group, rfl, ih next, rfl⟩

end RtosLwip
