import Mathlib.Data.List.GetD
import RtosLwip.Flash.Writer

/-!
# The Flash Chip

What the operations issued to the SPI flash leave in it. An erase sets a sector
to ones, and a program can only clear bits, so a page reads back as it was
programmed only when it was erased before.

The writer erases the first sector when an upload is opened and each further one
when it enters it. `contents_pagesOps` says that this is enough: behind the erase
of the first sector, the pages of an upload read back as they were handed over.

## Main definitions

* `FlashOp.apply`: What an operation does to the chip.
* `contents`: The chip behind a list of operations.

## Theorems

* `contents_pagesOps`: The pages of an upload read back as they are.
-/

namespace RtosLwip

namespace Flash

/-- The bytes of the chip, by their address. -/
abbrev Chip := Nat → UInt8

/-- What an operation does to the chip. -/
def FlashOp.apply (op : FlashOp) (chip : Chip) : Chip :=
  match op with
  | .erase sector => fun a => if a / 65536 = sector then 0xFF else chip a
  | .program page data => fun a =>
    if a / pageSize = page ∧ a % pageSize < data.length then
      chip a &&& data.getD (a % pageSize) 0
    else
      chip a
  | .read _ _ => chip

/-- The chip behind a list of operations. -/
def contents (ops : List FlashOp) (chip : Chip) : Chip :=
  ops.foldl (fun chip op => op.apply chip) chip

theorem contents_append (a b : List FlashOp) (chip : Chip) :
    contents (a ++ b) chip = contents b (contents a chip) := by
  simp only [contents, List.foldl_append]

/-- The bytes lie in the chip from this address on. -/
def Holds (chip : Chip) (address : Nat) (bytes : List UInt8) : Prop :=
  ∀ i, i < bytes.length → chip (address + i) = bytes.getD i 0

/-- A sector is erased from this address on. -/
def Blank (chip : Chip) (sector address : Nat) : Prop :=
  ∀ a, address ≤ a → a / 65536 = sector → chip a = 0xFF

theorem erased_and (b : UInt8) : 0xFF &&& b = b := UInt8.neg_one_and

/-- One page more, behind pages that read back: it reads back as well, and the rest of the
    sector the writer has come to is blank. -/
theorem contents_pageOps (s n : Nat) {d bytes : List UInt8} {chip : Chip}
    (hd : d.length ≤ pageSize) (hbytes : bytes.length = n * pageSize)
    (hholds : Holds chip (sectorAddress s) bytes)
    (hblank : Blank chip (s + n / pagesInOneSector) (sectorAddress s + n * pageSize)) :
    Holds (contents (pageOps s n d) chip) (sectorAddress s) (bytes ++ d) ∧
      Blank (contents (pageOps s n d) chip) (s + (n + 1) / pagesInOneSector)
        (sectorAddress s + (n + 1) * pageSize) := by
  have hps : pageSize = 256 := rfl
  have hpp : pagesInOneSector = 256 := rfl
  have hsa : sectorAddress s = s * 65536 := rfl
  simp only [hps, hpp, hsa] at hd hbytes hholds hblank ⊢
  -- what the program leaves, by the place of the address
  have hprogram : ∀ a, contents [.program (sectorToPage s + n) d] chip a
      = if a / 256 = s * 256 + n ∧ a % 256 < d.length then chip a &&& d.getD (a % 256) 0
        else chip a := fun _ => rfl
  have hother : ∀ a, a < s * 65536 + n * 256 ∨ s * 65536 + (n + 1) * 256 ≤ a →
      contents [.program (sectorToPage s + n) d] chip a = chip a := by
    intro a ha
    rw [hprogram, if_neg (by omega)]
  have hpage : ∀ k, k < d.length →
      contents [.program (sectorToPage s + n) d] chip (s * 65536 + n * 256 + k) = d.getD k 0 := by
    intro k hk
    have hoffset : (s * 65536 + n * 256 + k) % 256 = k := by omega
    rw [hprogram, if_pos (by omega), hoffset, hblank _ (by omega) (by omega), erased_and]
  have hread : Holds (contents [.program (sectorToPage s + n) d] chip) (s * 65536)
      (bytes ++ d) := by
    intro i hi
    rw [List.length_append] at hi
    rcases Nat.lt_or_ge i bytes.length with hold | hnew
    · rw [hother _ (Or.inl (by omega)), hholds i hold, List.getD_append _ _ _ _ hold]
    · have hplace : s * 65536 + i = s * 65536 + n * 256 + (i - bytes.length) := by omega
      rw [hplace, hpage _ (by omega), List.getD_append_right _ _ _ _ hnew]
  by_cases hfull : (n + 1) % pagesInOneSector = 0
  · -- the next sector is erased, and nothing of this one
    rw [pageOps_full s n d hfull]
    rw [hpp] at hfull
    have herase : ∀ a, contents [.program (sectorToPage s + n) d,
        .erase (s + (n + 1) / pagesInOneSector)] chip a
        = if a / 65536 = s + (n + 1) / 256 then 0xFF
          else contents [.program (sectorToPage s + n) d] chip a := fun _ => rfl
    refine ⟨fun i hi => ?_, fun a _ hsector => ?_⟩
    · rw [List.length_append] at hi
      rw [herase, if_neg (by omega)]
      exact hread i (by rw [List.length_append]; exact hi)
    · rw [herase, if_pos hsector]
  · rw [pageOps_not_full s n d hfull]
    rw [hpp] at hfull
    refine ⟨hread, fun a ha hsector => ?_⟩
    have hnext : n * 256 ≤ (n + 1) * 256 := Nat.mul_le_mul_right 256 (Nat.le_succ n)
    have hlow : s * 65536 + n * 256 ≤ a := Nat.le_trans (Nat.add_le_add_left hnext _) ha
    have hsame : a / 65536 = s + n / 256 := by omega
    rw [hother a (Or.inr ha)]
    exact hblank a hlow hsame

/-- Full pages from the beginning of an erased sector on read back, and the rest of the
    sector the writer has come to is blank. -/
theorem contents_fullPages (s : Nat) {chip : Chip} (hblank : Blank chip s (sectorAddress s))
    (pages : List (List UInt8)) (hfull : ∀ p ∈ pages, p.length = pageSize) :
    Holds (contents (pagesOps s pages) chip) (sectorAddress s) pages.flatten ∧
      Blank (contents (pagesOps s pages) chip) (s + pages.length / pagesInOneSector)
        (sectorAddress s + pages.length * pageSize) := by
  induction pages using List.reverseRecOn with
  | nil =>
      refine ⟨fun i hi => absurd hi (Nat.not_lt_zero i), ?_⟩
      rw [List.length_nil, Nat.zero_div, Nat.add_zero, Nat.zero_mul, Nat.add_zero]
      exact hblank
  | append_singleton rest d ih =>
      have hrest : ∀ p ∈ rest, p.length = pageSize := fun p hp =>
        hfull p (List.mem_append_left _ hp)
      rcases ih hrest with ⟨hholds, hclean⟩
      rw [pagesOps_append_one, contents_append, List.flatten_append, List.flatten_singleton,
        List.length_append, List.length_singleton]
      exact contents_pageOps s rest.length
        (Nat.le_of_eq (hfull d (List.mem_append_right _ List.mem_cons_self)))
        (length_flatten_pages rest hrest) hholds hclean

/-- Behind the erase of the first sector, the pages of an upload read back as they were
    handed over, with the short one at the end. -/
theorem contents_pagesOps (s : Nat) {chip : Chip} (base : List FlashOp)
    {pages last : List (List UInt8)} (hfull : ∀ p ∈ pages, p.length = pageSize)
    (hone : last.length ≤ 1) (hlast : ∀ p ∈ last, p.length ≤ pageSize) :
    Holds (contents (base ++ [.erase s] ++ pagesOps s (pages ++ last)) chip) (sectorAddress s)
      (pages ++ last).flatten := by
  have hblank : Blank (contents (base ++ [.erase s]) chip) s (sectorAddress s) := by
    intro a _ hsector
    rw [contents_append]
    change (if a / 65536 = s then (0xFF : UInt8) else contents base chip a) = 0xFF
    rw [if_pos hsector]
  rw [contents_append]
  rcases contents_fullPages s hblank pages hfull with ⟨hholds, hclean⟩
  match last, hone, hlast with
  | [], _, _ =>
      rw [List.append_nil]
      exact hholds
  | [d], _, hlast =>
      rw [pagesOps_append_one, contents_append, List.flatten_append, List.flatten_singleton]
      exact (contents_pageOps s pages.length (hlast d List.mem_cons_self)
        (length_flatten_pages pages hfull) hholds hclean).1

end Flash

end RtosLwip
