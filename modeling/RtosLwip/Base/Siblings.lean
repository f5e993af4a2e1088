import Mathlib.Data.List.Basic

/-!
# Trees of Siblings

A tree as C programs chain it: an element points to the first of its children and to its
next sibling. A path of keys is followed by looking for the first key among the siblings,
and for the next among the children of the one that was found.

The look-up does not turn back: of two siblings with one key only the first is found. When
the keys of all siblings are different, what it finds is what the path leads to.

## Main definitions

* `Siblings`, `members`: A pointer to an element, and the elements that are chained to it.
* `walk`: The look-up.
* `Reaches`: A path leads to an element.
* `Distinct`: Siblings have different keys.

## Theorems

* `walk_eq_some_iff`: The look-up finds what the path leads to.
* `reaches_node_iff`: Where a path goes from the first of the siblings.
-/

namespace RtosLwip

/-- A pointer to an element. -/
inductive Siblings (α : Type) where
  | null
  | node (label : α) (child next : Siblings α)
  deriving DecidableEq

namespace Siblings

variable {α κ : Type}

/-- The elements from the pointer on, and the pointers to their children. -/
def members : Siblings α → List (α × Siblings α)
  | .null => []
  | .node a child next => (a, child) :: members next

/-- A path leads from the siblings to an element. -/
inductive Reaches (key : α → κ) : Siblings α → List κ → α → Prop where
  | here {s child : Siblings α} {a : α} (hmem : (a, child) ∈ s.members) :
      Reaches key s [key a] a
  | deeper {s child : Siblings α} {a b : α} {k : κ} {path : List κ}
      (hmem : (a, child) ∈ s.members) (h : Reaches key child (k :: path) b) :
      Reaches key s (key a :: k :: path) b

/-- Siblings have different keys, here and further down. -/
def Distinct (key : α → κ) : Siblings α → Prop
  | .null => True
  | .node a child next =>
      key a ∉ (members next).map (fun m => key m.1) ∧ Distinct key child ∧ Distinct key next

section Walk

variable [DecidableEq κ]

instance decidableDistinct (key : α → κ) : (s : Siblings α) → Decidable (Distinct key s)
  | .null => .isTrue trivial
  | .node _ child next =>
      have := decidableDistinct key child
      have := decidableDistinct key next
      inferInstanceAs (Decidable (_ ∧ _ ∧ _))

/-- The element at the end of a path, from the first key among the siblings on. -/
def walk (key : α → κ) (k : κ) (path : List κ) : Siblings α → Option α
  | .null => none
  | .node a child next =>
      if key a = k then
        match path with
        | [] => some a
        | k' :: path => walk key k' path child
      else walk key k path next

end Walk

variable {key : α → κ} {s : Siblings α}

theorem Reaches.mem_keys {k : κ} {path : List κ} {b : α} (h : Reaches key s (k :: path) b) :
    k ∈ s.members.map fun m => key m.1 := by
  cases h with
  | here hmem => exact List.mem_map_of_mem (f := fun m : α × Siblings α => key m.1) hmem
  | deeper hmem _ => exact List.mem_map_of_mem (f := fun m : α × Siblings α => key m.1) hmem

/-- A path goes on below the first of the siblings, or leads from its next sibling. -/
theorem reaches_node_iff {a b : α} {child next : Siblings α} {k : κ} {path : List κ} :
    Reaches key (.node a child next) (k :: path) b ↔
      (key a = k ∧ match path with
        | [] => a = b
        | k' :: path => Reaches key child (k' :: path) b) ∨
      Reaches key next (k :: path) b := by
  constructor
  · intro h
    cases h with
    | here hmem =>
        rcases List.mem_cons.mp hmem with heq | hnext
        · cases heq
          exact Or.inl ⟨rfl, rfl⟩
        · exact Or.inr (.here hnext)
    | deeper hmem h =>
        rcases List.mem_cons.mp hmem with heq | hnext
        · cases heq
          exact Or.inl ⟨rfl, h⟩
        · exact Or.inr (.deeper hnext h)
  · rintro (⟨rfl, hbelow⟩ | hnext)
    · cases path with
      | nil =>
          rw [← hbelow]
          exact .here List.mem_cons_self
      | cons k' path => exact .deeper List.mem_cons_self hbelow
    · cases hnext with
      | here hmem => exact .here (List.mem_cons_of_mem _ hmem)
      | deeper hmem h => exact .deeper (List.mem_cons_of_mem _ hmem) h

variable [DecidableEq κ]

/-- The look-up finds what the path leads to. -/
theorem walk_eq_some_iff (hs : Distinct key s) {k : κ} {path : List κ} {b : α} :
    walk key k path s = some b ↔ Reaches key s (k :: path) b := by
  induction s generalizing k path with
  | null => exact iff_of_false nofun fun h => absurd h.mem_keys List.not_mem_nil
  | node a child next ihchild ihnext =>
      rcases hs with ⟨hkey, hchild, hnext⟩
      rw [reaches_node_iff]
      unfold walk
      by_cases hk : key a = k
      · -- no other sibling has the key, so it is the first or none
        have hother : ¬ Reaches key next (k :: path) b := fun h => hkey (hk ▸ h.mem_keys)
        rw [if_pos hk, or_iff_left hother, and_iff_right hk]
        cases path with
        | nil => exact Option.some_inj
        | cons k' path => exact ihchild hchild
      · rw [if_neg hk, or_iff_right fun h => hk h.1]
        exact ihnext hnext

end Siblings

end RtosLwip
