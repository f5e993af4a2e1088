import RtosLwip.Base.Extents
import RtosLwip.Base.Linked
import RtosLwip.Rtos.Heap4

/-!
# The List of Free Blocks

What the links of the heap stand for. A `FreeList` says that whoever follows the
links from the start of the list meets certain blocks, each with its size in its
header, and comes to the end marker.

The two loops are told by how they cut this list: the one that looks for the place
of a block stops behind the blocks with lower addresses, and the one that looks for
a block of adequate size stops behind those that are too small.
`prvInsertBlockIntoFreeList` then is `Extent.insert` on the blocks, and changes no
other header.

## Main definitions

* `Layout.first`, `Layout.last`: The first block, and the end marker.
* `FreeList`: The blocks that the links lead through.
* `freeBlocks`: These blocks, found by following the links.

## Theorems

* `positionLoop_eq`, `searchLoop_eq`: Where the two loops stop.
* `prvInsertBlockIntoFreeList_spec`: A block goes into the list.
* `freeBlocks_eq`: The blocks of a list are found.
-/

namespace RtosLwip

namespace Rtos

/-- Where the first block is. -/
def Layout.first (L : Layout) : Nat := (L.ucHeap + 7) / 8 * 8

/-- Where the end marker is. -/
def Layout.last (L : Layout) : Nat := (L.ucHeap + configTotalHeapSize - 8) / 8 * 8

@[simp] theorem xHeapStructSize_eq : xHeapStructSize = 8 := rfl

@[simp] theorem heapMinimumBlockSize_eq : heapMinimumBlockSize = 16 := rfl

theorem and_mask (x : Nat) : x &&& portByteAlignmentMask = x % 8 :=
  Nat.and_two_pow_sub_one_eq_mod x 3

/-- The bits of the mask are cleared. -/
theorem and_complement_mask {x : Nat} (hx : x < 2 ^ 32) :
    x &&& complement portByteAlignmentMask = x / 8 * 8 := by
  have hshift : x / 8 * 8 = (x >>> 3) <<< 3 := by
    rw [Nat.shiftRight_eq_div_pow, Nat.shiftLeft_eq]
  have hmask : complement portByteAlignmentMask = (2 ^ 29 - 1) <<< 3 := rfl
  rw [hshift, hmask]
  refine Nat.eq_of_testBit_eq fun i => ?_
  rw [Nat.testBit_and, Nat.testBit_shiftLeft, Nat.testBit_shiftLeft, Nat.testBit_shiftRight,
    Nat.testBit_two_pow_sub_one]
  by_cases hi : 3 ≤ i
  · have hsum : 3 + (i - 3) = i := Nat.add_sub_cancel' hi
    rw [hsum]
    by_cases hlt : i - 3 < 29
    · simp [hi, hlt]
    · -- the number has no bits above
      have hbit : x.testBit i = false :=
        Nat.testBit_lt_two_pow (Nat.lt_of_lt_of_le hx (Nat.pow_le_pow_right (by decide) (by omega)))
      simp [hbit]
  · simp [hi]

theorem layout_facts (L : Layout) :
    L.ucHeap ≤ L.first ∧ L.first < L.last ∧ L.last + 8 ≤ L.ucHeap + configTotalHeapSize ∧
      L.first % 8 = 0 ∧ L.last % 8 = 0 ∧ 0 < L.first ∧
      (L.xStart < L.first ∨ L.last + 8 ≤ L.xStart) := by
  have hpos := L.ucHeap_pos
  have hapart := L.apart
  simp only [Layout.first, Layout.last, configTotalHeapSize, sizeofBlockLink] at hapart ⊢
  omega

/-- What is added to a wanted size. -/
theorem blockSize_spec {n : Nat} (hn : 0 < n) (hlt : n < 2 ^ 31) :
    n + 8 ≤ blockSize n ∧ blockSize n < n + 16 ∧ blockSize n % 8 = 0 := by
  unfold blockSize
  simp only [if_pos hn, and_mask, xHeapStructSize_eq, portByteAlignment]
  split
  · omega
  · omega

/-- The blocks that the links from the start of the list lead through. -/
structure FreeList (L : Layout) (link : Nat → BlockLink) (pxEnd : Nat) (free : List Extent) :
    Prop where
  linked : Linked (fun a => (link a).pxNextFreeBlock) (link L.xStart).pxNextFreeBlock
    (free.map Extent.start) pxEnd
  sizes : ∀ x ∈ free, (link x.start).xBlockSize = x.size
  startSize : (link L.xStart).xBlockSize = 0
  endLink : link pxEnd = ⟨0, 0⟩

/-- The blocks met from an address on. -/
def blocksFrom (link : Nat → BlockLink) (pxEnd : Nat) : Nat → Nat → List Extent
  | 0, _ => []
  | fuel + 1, a =>
    if a = pxEnd then []
    else ⟨a, (link a).xBlockSize⟩ :: blocksFrom link pxEnd fuel (link a).pxNextFreeBlock

/-- The free blocks, in the order of the list. -/
def freeBlocks (L : Layout) (h : Heap) : List Extent :=
  blocksFrom h.link h.pxEnd listFuel (h.link L.xStart).pxNextFreeBlock

/-- The blocks of a list are found, if the end marker is none of them. -/
theorem blocksFrom_eq {link : Nat → BlockLink} {pxEnd p fuel : Nat} {free : List Extent}
    (hlinked : Linked (fun a => (link a).pxNextFreeBlock) p (free.map Extent.start) pxEnd)
    (hsizes : ∀ x ∈ free, (link x.start).xBlockSize = x.size)
    (hend : ∀ x ∈ free, x.start ≠ pxEnd) (hfuel : free.length < fuel) :
    blocksFrom link pxEnd fuel p = free := by
  induction fuel generalizing p free with
  | zero => exact absurd hfuel (Nat.not_lt_zero _)
  | succ fuel ih =>
      rw [blocksFrom]
      cases free with
      | nil => exact if_pos (linked_nil.mp hlinked)
      | cons x xs =>
          rcases hlinked with ⟨rfl, hrest⟩
          rw [if_neg (hend x List.mem_cons_self), hsizes x List.mem_cons_self,
            ih hrest (fun y hy => hsizes y (List.mem_cons_of_mem x hy))
              (fun y hy => hend y (List.mem_cons_of_mem x hy)) (Nat.lt_of_succ_lt_succ hfuel)]

/-- The place of a block is behind all blocks with lower addresses. -/
theorem positionLoop_eq {link : Nat → BlockLink} {a q m fuel : Nat} {pre : List Nat}
    (hlinked : Linked (fun a => (link a).pxNextFreeBlock) (link q).pxNextFreeBlock pre m)
    (hpre : ∀ x ∈ pre, x < a) (hm : a ≤ m) (hfuel : pre.length < fuel) :
    positionLoop link a fuel q = .ok (pre.getLastD q) := by
  induction fuel generalizing q pre with
  | zero => exact absurd hfuel (Nat.not_lt_zero _)
  | succ fuel ih =>
      rw [positionLoop]
      cases pre with
      | nil =>
          rw [linked_nil] at hlinked
          rw [hlinked, if_neg (Nat.not_lt.mpr hm)]
          rfl
      | cons x xs =>
          rcases hlinked with ⟨hx, hrest⟩
          rw [hx, if_pos (hpre x List.mem_cons_self),
            ih hrest (fun y hy => hpre y (List.mem_cons_of_mem x hy))
              (Nat.lt_of_succ_lt_succ hfuel), List.getLastD_cons]

/-- The search goes past the blocks that are too small. -/
theorem searchLoop_eq {link : Nat → BlockLink} {n q p m fuel : Nat} {pre : List Extent}
    (hlinked : Linked (fun a => (link a).pxNextFreeBlock) p (pre.map Extent.start) m)
    (hsizes : ∀ x ∈ pre, (link x.start).xBlockSize < n)
    (hnull : ∀ x ∈ pre, (link x.start).pxNextFreeBlock ≠ 0)
    (hm : ¬ ((link m).xBlockSize < n ∧ (link m).pxNextFreeBlock ≠ 0))
    (hfuel : pre.length < fuel) :
    searchLoop link n fuel q p = .ok ((pre.map Extent.start).getLastD q, m) := by
  induction fuel generalizing q p pre with
  | zero => exact absurd hfuel (Nat.not_lt_zero _)
  | succ fuel ih =>
      rw [searchLoop]
      cases pre with
      | nil =>
          rw [List.map_nil, linked_nil] at hlinked
          subst hlinked
          rw [if_neg hm]
          rfl
      | cons x xs =>
          rcases hlinked with ⟨rfl, hrest⟩
          rw [if_pos ⟨hsizes x List.mem_cons_self, hnull x List.mem_cons_self⟩,
            ih hrest (fun y hy => hsizes y (List.mem_cons_of_mem x hy))
              (fun y hy => hnull y (List.mem_cons_of_mem x hy)) (Nat.lt_of_succ_lt_succ hfuel),
            List.map_cons, List.getLastD_cons]

/-- The first blocks of a list stay, and the last of them leads to others. -/
theorem FreeList.splice {L : Layout} {link link' : Nat → BlockLink} {pxEnd : Nat}
    {pre rest new : List Extent} (h : FreeList L link pxEnd (pre ++ rest))
    (hnodup : (L.xStart :: pre.map Extent.start).Nodup)
    (hsize : ∀ a ∈ L.xStart :: pre.map Extent.start, (link' a).xBlockSize = (link a).xBlockSize)
    (hsame : ∀ a ∈ L.xStart :: pre.map Extent.start, a ≠ (pre.map Extent.start).getLastD L.xStart →
      (link' a).pxNextFreeBlock = (link a).pxNextFreeBlock)
    (hnew : Linked (fun a => (link' a).pxNextFreeBlock)
      (link' ((pre.map Extent.start).getLastD L.xStart)).pxNextFreeBlock
      (new.map Extent.start) pxEnd)
    (hsizes : ∀ x ∈ new, (link' x.start).xBlockSize = x.size) (hend : link' pxEnd = ⟨0, 0⟩) :
    FreeList L link' pxEnd (pre ++ new) where
  linked := by
    have hlinked := h.linked
    rw [List.map_append] at hlinked ⊢
    obtain ⟨m, hpre, -⟩ := linked_append.mp hlinked
    exact linked_append.mpr ⟨_, linked_retarget hpre hnodup rfl hsame, hnew⟩
  sizes := by
    intro x hx
    rcases List.mem_append.mp hx with hp | hn
    · rw [hsize x.start (List.mem_cons_of_mem _ (List.mem_map_of_mem hp))]
      exact h.sizes x (List.mem_append_left rest hp)
    · exact hsizes x hn
  startSize := (hsize L.xStart List.mem_cons_self).trans h.startSize
  endLink := hend

/-- What is behind a block becomes its successor, or a part of it. The links behind the place are
    those that were there before. -/
theorem linkBehind_spec {link : Nat → BlockLink} (link₁ : Nat → BlockLink) {pxEnd it m : Nat}
    {z : Extent} {suf : List Extent}
    (hlinked : Linked (fun a => (link a).pxNextFreeBlock) m (suf.map Extent.start) pxEnd)
    (hsizes : ∀ y ∈ suf, (link y.start).xBlockSize = y.size)
    (hsame : ∀ y ∈ suf, link₁ y.start = link y.start) (hit : (link₁ it).pxNextFreeBlock = m)
    (hz : (link₁ z.start).xBlockSize = z.size) (hend : ∀ y ∈ suf, y.start ≠ pxEnd) :
    ∃ n s suf', linkBehind pxEnd link₁ it z.start = Function.update link₁ z.start ⟨n, s⟩ ∧
      Extent.pushFront z suf = ⟨z.start, s⟩ :: suf' ∧
      Linked (fun a => (link a).pxNextFreeBlock) n (suf'.map Extent.start) pxEnd ∧
      ∀ y ∈ suf', y ∈ suf := by
  cases suf with
  | nil =>
      have hnext : (link₁ it).pxNextFreeBlock = pxEnd := hit.trans hlinked
      refine ⟨pxEnd, z.size, [], ?_, rfl, rfl, fun y hy => hy⟩
      unfold linkBehind
      simp only [hnext, hz]
      split
      · rw [if_neg (not_not.mpr rfl)]
      · rfl
  | cons y ys =>
      rcases hlinked with ⟨hm, hrest⟩
      have hnext : (link₁ it).pxNextFreeBlock = y.start := hit.trans hm
      have hy : link₁ y.start = link y.start := hsame y List.mem_cons_self
      by_cases htouch : z.start + z.size = y.start
      · refine ⟨(link y.start).pxNextFreeBlock, z.size + y.size, ys, ?_, ?_, hrest,
          fun w hw => List.mem_cons_of_mem y hw⟩
        · unfold linkBehind
          simp only [hnext, hz, hy]
          rw [if_pos htouch, if_pos (hend y List.mem_cons_self), hsizes y List.mem_cons_self]
        · exact if_pos htouch
      · refine ⟨y.start, z.size, y :: ys, ?_, ?_, ⟨rfl, hrest⟩, fun w hw => hw⟩
        · unfold linkBehind
          simp only [hnext, hz]
          rw [if_neg htouch]
        · exact if_neg htouch

/-- The cells of the list are different ones. -/
theorem nodup_cells {L : Layout} {free : List Extent} (hgap : Extent.Gapped free)
    (hstart : ∀ y ∈ free, y.start ≠ L.xStart) : (L.xStart :: free.map Extent.start).Nodup := by
  refine List.nodup_cons.mpr ⟨?_, ?_⟩
  · intro hmem
    obtain ⟨y, hy, heq⟩ := List.mem_map.mp hmem
    exact hstart y hy heq
  · refine List.pairwise_map.mpr (hgap.imp fun hab => ?_)
    simp only [Extent.stop] at hab
    omega

/-- What a block must be like to go into the list. -/
structure Insertable (L : Layout) (link : Nat → BlockLink) (pxEnd : Nat) (free : List Extent)
    (x : Extent) : Prop where
  gapped : Extent.Gapped free
  positive : ∀ y ∈ x :: free, 0 < y.size
  before : ∀ y ∈ x :: free, y.stop ≤ pxEnd
  apart : ∀ y ∈ free, x.Apart y
  notStart : ∀ y ∈ x :: free, y.start ≠ L.xStart
  endNotStart : pxEnd ≠ L.xStart
  size : (link x.start).xBlockSize = x.size
  fuel : free.length < listFuel

namespace Insertable

variable {L : Layout} {link : Nat → BlockLink} {pxEnd : Nat} {free : List Extent} {x : Extent}

theorem ne_end (h : Insertable L link pxEnd free x) {y : Extent} (hy : y ∈ x :: free) :
    y.start ≠ pxEnd := by
  have hpos := h.positive y hy
  have hstop := h.before y hy
  simp only [Extent.stop] at hstop
  omega

theorem nodup (h : Insertable L link pxEnd free x) : (L.xStart :: free.map Extent.start).Nodup :=
  nodup_cells h.gapped fun y hy => h.notStart y (List.mem_cons_of_mem x hy)

/-- The block is not in the list yet. -/
theorem ne_start (h : Insertable L link pxEnd free x) {y : Extent} (hy : y ∈ free) :
    y.start ≠ x.start := by
  have hpos := h.positive y (List.mem_cons_of_mem x hy)
  have hpos' := h.positive x List.mem_cons_self
  rcases h.apart y hy with hxy | hyx
  · simp only [Extent.stop] at hxy
    omega
  · simp only [Extent.stop] at hyx
    omega

end Insertable

/-- What the insertion of a block leaves: the list with the block in it, and all other headers. -/
def Inserts (L : Layout) (link : Nat → BlockLink) (pxEnd : Nat) (free : List Extent)
    (x : Extent) : Prop :=
  ∃ link', prvInsertBlockIntoFreeList L pxEnd link x.start = .ok link' ∧
    FreeList L link' pxEnd (Extent.insert x free) ∧
    ∀ a, a ≠ L.xStart → a ≠ x.start → (∀ y ∈ free, a ≠ y.start) → link' a = link a

/-- The block in front of the place takes the block in. -/
theorem inserts_joined {L : Layout} {link : Nat → BlockLink} {pxEnd : Nat}
    {pre suf : List Extent} {x y : Extent} (hlist : FreeList L link pxEnd (pre ++ y :: suf))
    (hx : Insertable L link pxEnd (pre ++ y :: suf) x)
    (hpos : positionLoop link x.start listFuel L.xStart = .ok y.start)
    (htouch : y.stop = x.start) : Inserts L link pxEnd (pre ++ y :: suf) x := by
  have hnodup := hx.nodup
  have hy : y ∈ pre ++ y :: suf := List.mem_append_right pre List.mem_cons_self
  have hypos : 0 < y.size := hx.positive y (List.mem_cons_of_mem x hy)
  have hgap := List.pairwise_append.mp hx.gapped
  have hsufgap := (List.pairwise_cons.mp hgap.2.1).1
  have hsufmem : ∀ {z}, z ∈ suf → z ∈ pre ++ y :: suf := fun hz =>
    List.mem_append_right pre (List.mem_cons_of_mem y hz)
  have hysize : (link y.start).xBlockSize = y.size := hlist.sizes y hy
  have hsufne : ∀ z ∈ suf, z.start ≠ y.start := by
    intro z hz
    have := hsufgap z hz
    simp only [Extent.stop] at this
    omega
  -- The only header that changes is that of the block in front.
  have hcells : ∀ a ∈ L.xStart :: pre.map Extent.start, a ≠ y.start := by
    rintro a ha rfl
    rw [List.map_append, List.map_cons, ← List.cons_append] at hnodup
    exact (List.nodup_append.mp hnodup).2.2 _ ha _ List.mem_cons_self rfl
  have hlinked := hlist.linked
  rw [List.map_append, List.map_cons] at hlinked
  obtain ⟨m, hpre, rfl, hrest⟩ := linked_append.mp hlinked
  -- It has the size of both blocks then, and is joined with the one behind or linked to it.
  obtain ⟨n, s, suf', h1, h2, h3, h4⟩ := linkBehind_spec (z := y.join x)
    (Function.update link y.start
      { link y.start with xBlockSize := (link y.start).xBlockSize + (link x.start).xBlockSize })
    hrest (fun z hz => hlist.sizes z (hsufmem hz))
    (fun z hz => Function.update_of_ne (hsufne z hz) _ _) (by rw [Function.update_self])
    (by rw [Extent.start_join, Function.update_self, hysize, hx.size, Extent.size_join])
    (fun z hz => hx.ne_end (List.mem_cons_of_mem x (hsufmem hz)))
  rw [Extent.start_join, Function.update_idem] at h1
  refine ⟨Function.update link y.start ⟨n, s⟩, ?_, ?_, fun a _ _ ha =>
    Function.update_of_ne (ha y hy) _ _⟩
  · have hjoin : y.start + (link y.start).xBlockSize = x.start := by
      rw [hysize]
      exact htouch
    unfold prvInsertBlockIntoFreeList
    simp only [hpos, bind, Except.bind, if_pos hjoin, h1]
    exact if_neg (not_not.mpr rfl)
  · have hbefore : ∀ z ∈ pre, z.stop < x.start := by
      intro z hz
      have := hgap.2.2 z hz y List.mem_cons_self
      simp only [Extent.stop] at this htouch ⊢
      omega
    rw [Extent.insert_append hbefore, Extent.insert_join hypos htouch, h2, Extent.start_join]
    refine hlist.splice ?_ ?_ ?_ ?_ ?_ ?_
    · exact hnodup.sublist
        (List.Sublist.cons_cons _ (List.Sublist.map _ (List.sublist_append_left _ _)))
    · intro a ha
      rw [Function.update_of_ne (hcells a ha)]
    · intro a ha _
      rw [Function.update_of_ne (hcells a ha)]
    · refine ⟨?_, ?_⟩
      · rw [Function.update_of_ne (hcells _ List.getLastD_mem_cons)]
        exact linked_last hpre
      · beta_reduce
        rw [Function.update_self]
        refine (linked_congr fun a ha => ?_).mpr h3
        obtain ⟨z, hz, rfl⟩ := List.mem_map.mp ha
        rw [Function.update_of_ne (hsufne z (h4 z hz))]
    · intro z hz
      rcases List.mem_cons.mp hz with rfl | hz
      · rw [Function.update_self]
      · rw [Function.update_of_ne (hsufne z (h4 z hz))]
        exact hlist.sizes z (hsufmem (h4 z hz))
    · rw [Function.update_of_ne (hx.ne_end (List.mem_cons_of_mem x hy)).symm]
      exact hlist.endLink

/-- The block becomes one of the list, behind those that stop before it. -/
theorem inserts_between {L : Layout} {link : Nat → BlockLink} {pxEnd : Nat}
    {pre suf : List Extent} {x : Extent} (hlist : FreeList L link pxEnd (pre ++ suf))
    (hx : Insertable L link pxEnd (pre ++ suf) x)
    (hpos : positionLoop link x.start listFuel L.xStart =
      .ok ((pre.map Extent.start).getLastD L.xStart))
    (hpre : ∀ y ∈ pre, y.stop < x.start) (hsuf : ∀ y ∈ suf, x.start ≤ y.start) :
    Inserts L link pxEnd (pre ++ suf) x := by
  have hnodup := hx.nodup
  have hxend := hx.ne_end List.mem_cons_self
  have hlinked := hlist.linked
  rw [List.map_append] at hlinked
  -- The search for the place has come to the last cell in front of it.
  obtain ⟨m, hm1, hm2⟩ := linked_append.mp hlinked
  have hit : (link ((pre.map Extent.start).getLastD L.xStart)).pxNextFreeBlock = m :=
    linked_last hm1
  -- the cells in front of the place
  have hcells : ∀ a ∈ L.xStart :: pre.map Extent.start,
      a ≠ x.start ∧ a ≠ pxEnd ∧ (∀ z ∈ suf, z.start ≠ a) ∧
        a + (link a).xBlockSize ≠ x.start := by
    intro a ha
    have hdisj : ∀ z ∈ suf, z.start ≠ a := by
      rintro z hz rfl
      rw [List.map_append, ← List.cons_append] at hnodup
      exact (List.nodup_append.mp hnodup).2.2 _ ha _ (List.mem_map_of_mem hz) rfl
    rcases List.mem_cons.mp ha with rfl | hmem
    · refine ⟨(hx.notStart x List.mem_cons_self).symm, hx.endNotStart.symm, hdisj, ?_⟩
      rw [hlist.startSize]
      exact (hx.notStart x List.mem_cons_self).symm
    · obtain ⟨y, hy, rfl⟩ := List.mem_map.mp hmem
      have hymem : y ∈ pre ++ suf := List.mem_append_left suf hy
      refine ⟨hx.ne_start hymem, hx.ne_end (List.mem_cons_of_mem x hymem), hdisj, ?_⟩
      rw [hlist.sizes y hymem]
      exact Nat.ne_of_lt (hpre y hy)
  have hq := hcells _ (List.getLastD_mem_cons (l := pre.map Extent.start) (a := L.xStart))
  have hqmem := List.getLastD_mem_cons (l := pre.map Extent.start) (a := L.xStart)
  have hsufne : ∀ z ∈ suf, z.start ≠ x.start := fun z hz =>
    hx.ne_start (List.mem_append_right pre hz)
  -- The block is joined with the one behind it, or linked to it.
  obtain ⟨n, s, suf', h1, h2, h3, h4⟩ := linkBehind_spec (z := x) link hm2
    (fun z hz => hlist.sizes z (List.mem_append_right pre hz)) (fun z _ => rfl) hit hx.size
    (fun z hz => hx.ne_end (List.mem_cons_of_mem x (List.mem_append_right pre hz)))
  generalize hqdef : (pre.map Extent.start).getLastD L.xStart = q at *
  obtain ⟨hqx, hqend, hqsuf, hqjoin⟩ := hq
  -- `link₂` are the headers when the block is linked to what is behind it. Then the cell in front
  -- is linked to the block.
  generalize hlink₂ : Function.update link x.start ⟨n, s⟩ = link₂ at h1
  have hx₂ : link₂ x.start = ⟨n, s⟩ := by
    rw [← hlink₂, Function.update_self]
  have hother₂ : ∀ a, a ≠ x.start → link₂ a = link a := by
    intro a ha
    rw [← hlink₂, Function.update_of_ne ha]
  have hother : ∀ a, a ≠ q → a ≠ x.start → Function.update link₂ q
      { link₂ q with pxNextFreeBlock := x.start } a = link a := by
    intro a haq hax
    rw [Function.update_of_ne haq, hother₂ a hax]
  -- What the code computes, the list that comes of it, and that nothing else changes.
  refine ⟨Function.update link₂ q { link₂ q with pxNextFreeBlock := x.start }, ?_, ?_, ?_⟩
  · unfold prvInsertBlockIntoFreeList
    simp only [hpos, bind, Except.bind, if_neg hqjoin, h1]
    exact if_pos hqx
  · rw [Extent.insert_append hpre, Extent.insert_front hsuf, h2]
    have hsufsame : ∀ z ∈ suf', Function.update link₂ q
        { link₂ q with pxNextFreeBlock := x.start } z.start = link z.start := fun z hz =>
      hother z.start (hqsuf z (h4 z hz)) (hsufne z (h4 z hz))
    refine hlist.splice ?_ ?_ ?_ ?_ ?_ ?_
    · exact hnodup.sublist
        (List.Sublist.cons_cons _ (List.Sublist.map _ (List.sublist_append_left _ _)))
    · intro a ha
      by_cases haq : a = q
      · rw [haq, Function.update_self, hother₂ q hqx]
      · rw [hother a haq (hcells a ha).1]
    · intro a ha haq
      rw [hqdef] at haq
      rw [hother a haq (hcells a ha).1]
    · rw [hqdef, Function.update_self]
      refine ⟨rfl, ?_⟩
      beta_reduce
      rw [Function.update_of_ne hqx.symm, hx₂]
      refine (linked_congr fun a ha => ?_).mpr h3
      obtain ⟨z, hz, rfl⟩ := List.mem_map.mp ha
      rw [hsufsame z hz]
    · intro z hz
      rcases List.mem_cons.mp hz with rfl | hz
      · rw [Function.update_of_ne hqx.symm, hx₂]
      · rw [hsufsame z hz]
        exact hlist.sizes z (List.mem_append_right pre (h4 z hz))
    · rw [hother _ hqend.symm hxend.symm]
      exact hlist.endLink
  · intro a hastart hax hafree
    refine hother a ?_ hax
    rintro rfl
    rcases List.mem_cons.mp hqmem with h | hmem
    · exact hastart h
    · obtain ⟨y, hy, heq⟩ := List.mem_map.mp hmem
      exact hafree y (List.mem_append_left suf hy) heq.symm

/-- A block goes to its place in the list, and is joined to the blocks that it touches. No other
    header changes. -/
theorem prvInsertBlockIntoFreeList_spec {L : Layout} {link : Nat → BlockLink} {pxEnd : Nat}
    {free : List Extent} {x : Extent} (hlist : FreeList L link pxEnd free)
    (hx : Insertable L link pxEnd free x) : Inserts L link pxEnd free x := by
  obtain ⟨pre, suf, rfl, hpre, hsuf⟩ := hx.gapped.exists_cut x.start
  -- the blocks in front of the place stop before the block starts
  have hprestop : ∀ y ∈ pre, y.stop ≤ x.start := by
    intro y hy
    have hlt := hpre y hy
    rcases hx.apart y (List.mem_append_left suf hy) with h | h
    · simp only [Extent.stop] at h
      omega
    · exact h
  have hlinked := hlist.linked
  rw [List.map_append] at hlinked
  obtain ⟨m, hm1, hm2⟩ := linked_append.mp hlinked
  have hmx : x.start ≤ m := by
    cases suf with
    | nil =>
        have hend : m = pxEnd := hm2
        have := hx.before x List.mem_cons_self
        simp only [Extent.stop] at this
        omega
    | cons y ys =>
        rw [hm2.1]
        exact hsuf y List.mem_cons_self
  have hlen : (pre.map Extent.start).length < listFuel := by
    have := hx.fuel
    rw [List.length_append] at this
    rw [List.length_map]
    omega
  have hpos : positionLoop link x.start listFuel L.xStart =
      .ok ((pre.map Extent.start).getLastD L.xStart) := by
    refine positionLoop_eq hm1 (fun a ha => ?_) hmx hlen
    obtain ⟨y, hy, rfl⟩ := List.mem_map.mp ha
    exact hpre y hy
  rcases List.eq_nil_or_concat pre with rfl | ⟨pre', y, rfl⟩
  · exact inserts_between hlist hx hpos (List.forall_mem_nil _) hsuf
  · rw [List.concat_eq_append] at *
    have hy : y ∈ pre' ++ [y] := List.mem_append_right pre' List.mem_cons_self
    by_cases htouch : y.stop = x.start
    · rw [List.map_append, List.map_singleton, List.getLastD_concat] at hpos
      rw [List.append_assoc, List.singleton_append] at hlist hx ⊢
      exact inserts_joined hlist hx hpos htouch
    · refine inserts_between hlist hx hpos (fun z hz => ?_) hsuf
      rcases List.mem_append.mp hz with hp | hl
      · have h1 : z.stop < y.start :=
          (List.pairwise_append.mp (List.pairwise_append.mp hx.gapped).1).2.2 z hp y
            List.mem_cons_self
        have h2 := hpre y hy
        omega
      · rw [List.mem_singleton.mp hl]
        exact Nat.lt_of_le_of_ne (hprestop y hy) htouch

end Rtos

end RtosLwip
