import Mathlib.Data.Nat.Bitwise
import RtosLwip.Rtos.FreeList

/-!
# The Blocks of the Heap

The heap's memory and variables stand for two lists of blocks, the free ones and
those that the application has. `Represents` says how: the links lead through the
free blocks, the headers of the others carry the allocated bit and no link, and the
blocks have between them all of the heap.

`pvPortMalloc` carves its block out of the first free one that is large enough, and
`vPortFree` puts a block back; both are told by what they do to the two lists. They
write to headers of free blocks and of the block that they take or give, so nothing
that the application stored in its blocks changes.

## Main definitions

* `Represents`: The blocks that a heap stands for.
* `Extent.Has`: An address is in a block.

## Theorems

* `prvHeapInit_spec`: At first there is one free block.
* `allocate_of_large`, `allocate_of_small`: What an allocation does, and when it fails.
* `vPortFree_spec`: A block is given back.
-/

namespace RtosLwip

/-- An address is one of the extent's. -/
def Extent.Has (x : Extent) (a : Nat) : Prop := x.start ≤ a ∧ a < x.stop

namespace Rtos

/-- The free blocks of a heap, and those that the application has. -/
structure Represents (L : Layout) (h : Heap) (free live : List Extent) : Prop where
  ledger : Extent.Ledger L.first L.last free live
  list : FreeList L h.link L.last free
  header : ∀ x ∈ live, h.link x.start = ⟨0, x.size + 2 ^ 31⟩
  aligned : ∀ x ∈ free ++ live, x.start % 8 = 0 ∧ x.size % 8 = 0 ∧ 16 ≤ x.size
  bytes : h.xFreeBytesRemaining = Extent.total free
  pxEnd : h.pxEnd = L.last
  bit : h.xBlockAllocatedBit = 2 ^ 31

/-! ### The allocated bit -/

theorem or_allocated {n : Nat} (hn : n < 2 ^ 31) : n ||| 2 ^ 31 = n + 2 ^ 31 := by
  have h := Nat.two_pow_add_eq_or_of_lt hn 1
  rw [Nat.mul_one] at h
  rw [Nat.or_comm, ← h, Nat.add_comm]

theorem and_allocated {n : Nat} (hn : n < 2 ^ 32) : n &&& 2 ^ 31 = 0 ↔ n < 2 ^ 31 := by
  rw [Nat.and_two_pow, Nat.testBit_eq_decide_div_mod_eq]
  by_cases hlt : n < 2 ^ 31
  · rw [Nat.div_eq_of_lt hlt]
    exact iff_of_true rfl hlt
  · have hdiv : n / 2 ^ 31 = 1 := by omega
    rw [hdiv]
    exact iff_of_false (by decide) hlt

theorem and_complement_allocated {n : Nat} (hn : n < 2 ^ 31) :
    (n + 2 ^ 31) &&& complement (2 ^ 31) = n := by
  have hmask : complement (2 ^ 31) = 2 ^ 31 - 1 := rfl
  rw [hmask, Nat.and_two_pow_sub_one_eq_mod]
  omega

/-! ### What changes no list -/

/-- Headers that are not in the list do not matter. -/
theorem FreeList.congr {L : Layout} {link link' : Nat → BlockLink} {pxEnd : Nat}
    {free : List Extent} (h : FreeList L link pxEnd free)
    (hsame : ∀ x ∈ free, link' x.start = link x.start) (hstart : link' L.xStart = link L.xStart)
    (hend : link' pxEnd = link pxEnd) : FreeList L link' pxEnd free where
  linked := by
    rw [hstart]
    refine (linked_congr fun a ha => ?_).mpr h.linked
    obtain ⟨x, hx, rfl⟩ := List.mem_map.mp ha
    rw [hsame x hx]
  sizes x hx := by
    rw [hsame x hx]
    exact h.sizes x hx
  startSize := by
    rw [hstart]
    exact h.startSize
  endLink := hend.trans h.endLink

namespace Represents

variable {L : Layout} {h : Heap} {free live : List Extent}

/-- A block is of the heap, and neither the start of the list nor its end. -/
theorem place (hr : Represents L h free live) {x : Extent} (hx : x ∈ free ++ live) :
    L.first ≤ x.start ∧ x.stop ≤ L.last ∧ x.start ≠ L.last ∧ x.start ≠ L.xStart ∧
      x.size < 2 ^ 31 := by
  have hin := hr.ledger.within x hx
  have hpos := hr.ledger.positive x hx
  have hroom := L.ucHeap_room
  obtain ⟨h1, h2, h3, -, -, h6, h7⟩ := layout_facts L
  simp only [Extent.Within, Extent.stop, configTotalHeapSize] at *
  omega

/-- Two blocks of the application start at different addresses. -/
theorem start_ne (hr : Represents L h free live) {x y : Extent} (hx : x ∈ free ++ live)
    (hy : y ∈ free ++ live) (hapart : x.Apart y) : x.start ≠ y.start := by
  have hxpos := hr.ledger.positive x hx
  have hypos := hr.ledger.positive y hy
  simp only [Extent.Apart, Extent.stop] at hapart
  omega

theorem length_lt (hr : Represents L h free live) : free.length < listFuel := by
  have hlen := Extent.length_le_total fun x hx => hr.ledger.positive_free hx
  have htotal := hr.ledger.total
  obtain ⟨h1, -, h3, -⟩ := layout_facts L
  simp only [listFuel, configTotalHeapSize] at *
  omega

theorem end_ne_start (L : Layout) : L.last ≠ L.xStart := by
  obtain ⟨-, h2, -, -, -, -, h7⟩ := layout_facts L
  omega

/-- The list that the walk along the links finds. -/
theorem freeBlocks_eq (hr : Represents L h free live) : freeBlocks L h = free := by
  unfold freeBlocks
  rw [hr.pxEnd]
  refine blocksFrom_eq hr.list.linked hr.list.sizes (fun x hx => ?_) hr.length_lt
  exact (hr.place (List.mem_append_left live hx)).2.2.1

/-- The order of the application's blocks does not matter. -/
theorem perm (hr : Represents L h free live) {live' : List Extent} (hperm : live'.Perm live) :
    Represents L h free live' where
  ledger := hr.ledger.perm hperm
  list := hr.list
  header x hx := hr.header x (hperm.subset hx)
  aligned x hx := hr.aligned x ((hperm.append_left free).subset hx)
  bytes := hr.bytes
  pxEnd := hr.pxEnd
  bit := hr.bit

end Represents

/-- At first there is one free block. -/
theorem prvHeapInit_spec (L : Layout) (h : Heap) :
    Represents L (prvHeapInit L h) [⟨L.first, L.last - L.first⟩] [] ∧
      (prvHeapInit L h).xMinimumEverFreeBytesRemaining = L.last - L.first := by
  have hroom := L.ucHeap_room
  obtain ⟨h1, h2, h3, h4, h5, h6, h7⟩ := layout_facts L
  have haligned : (if L.ucHeap &&& portByteAlignmentMask ≠ 0 then
      (L.ucHeap + (portByteAlignment - 1)) &&& complement portByteAlignmentMask
      else L.ucHeap) = L.first := by
    rw [and_mask]
    split
    case isTrue =>
      rw [and_complement_mask]
      · rfl
      · simp only [portByteAlignment, configTotalHeapSize] at *
        omega
    case isFalse hmod =>
      simp only [Layout.first]
      omega
  have hend : (L.first + (configTotalHeapSize - (L.first - L.ucHeap)) - xHeapStructSize) &&&
      complement portByteAlignmentMask = L.last := by
    have hsum : L.first + (configTotalHeapSize - (L.first - L.ucHeap)) - xHeapStructSize =
        L.ucHeap + configTotalHeapSize - 8 := by
      simp only [configTotalHeapSize, xHeapStructSize_eq] at *
      omega
    rw [hsum, and_complement_mask]
    · rfl
    · omega
  have hinit : prvHeapInit L h =
      { link := Function.update (Function.update (Function.update h.link L.xStart ⟨L.first, 0⟩)
          L.last ⟨0, 0⟩) L.first ⟨L.last, L.last - L.first⟩
        pxEnd := L.last
        xFreeBytesRemaining := L.last - L.first
        xMinimumEverFreeBytesRemaining := L.last - L.first
        xBlockAllocatedBit := 1 <<< 31 } := by
    unfold prvHeapInit
    simp only [haligned, hend]
  have hne : L.xStart ≠ L.first := by omega
  have hne' : L.last ≠ L.first := by omega
  have hne'' : L.xStart ≠ L.last := by omega
  rw [hinit]
  refine ⟨⟨Extent.Ledger.single h2, ?_, List.forall_mem_nil _, ?_, ?_, rfl, rfl⟩, rfl⟩
  · refine ⟨?_, ?_, ?_, ?_⟩
    · refine ⟨?_, ?_⟩
      · simp [Function.update_of_ne hne, Function.update_of_ne hne'']
      · simp
    · intro x hx
      rw [List.mem_singleton.mp hx]
      simp
    · simp [Function.update_of_ne hne, Function.update_of_ne hne'']
    · simp [Function.update_of_ne hne']
  · intro x hx
    rw [List.append_nil] at hx
    rw [List.mem_singleton.mp hx]
    simp only [configTotalHeapSize, Layout.first, Layout.last] at *
    omega
  · simp

namespace Represents

variable {L : Layout} {h : Heap} {free live : List Extent}

/-- The search stops at the first block that is large enough, or at the end marker. -/
theorem searchLoop_eq (hr : Represents L h free live) {n : Nat} {pre suf : List Extent}
    (hcut : free = pre ++ suf) (hpre : ∀ x ∈ pre, x.size < n)
    (hsuf : ∀ x ∈ suf.head?, n ≤ x.size) :
    searchLoop h.link n listFuel L.xStart (h.link L.xStart).pxNextFreeBlock =
      .ok ((pre.map Extent.start).getLastD L.xStart, (suf.map Extent.start).headD L.last) := by
  have hlen := hr.length_lt
  have hlinked := hr.list.linked
  rw [hcut, List.map_append] at hlinked
  obtain ⟨m, hm1, hm2⟩ := linked_append.mp hlinked
  have hfirst := (layout_facts L).2.2.2.2.2.1
  have hlast := (layout_facts L).2.1
  have hsize : ∀ x ∈ pre, (h.link x.start).xBlockSize < n := by
    intro x hx
    rw [hr.list.sizes x (hcut ▸ List.mem_append_left suf hx)]
    exact hpre x hx
  -- every block of the list leads to another one, or to the end marker
  have hnull : ∀ x ∈ free, (h.link x.start).pxNextFreeBlock ≠ 0 := by
    intro x hx
    obtain ⟨before, after, rfl⟩ := List.append_of_mem hx
    have hl := hr.list.linked
    rw [List.map_append, List.map_cons] at hl
    obtain ⟨k, -, -, hk⟩ := linked_append.mp hl
    cases after with
    | nil =>
        have hk' : (h.link x.start).pxNextFreeBlock = L.last := hk
        omega
    | cons y ys =>
        have hk' : (h.link x.start).pxNextFreeBlock = y.start := hk.1
        have hy := hr.place (x := y) (by simp)
        omega
  have hmhead : m = (suf.map Extent.start).headD L.last := by
    cases suf with
    | nil =>
        rw [List.map_nil, List.headD_nil]
        exact linked_nil.mp hm2
    | cons x xs => exact hm2.1
  have hstop : ¬ ((h.link m).xBlockSize < n ∧ (h.link m).pxNextFreeBlock ≠ 0) := by
    cases suf with
    | nil =>
        have hmend : m = L.last := hm2
        rw [hmend, hr.list.endLink]
        exact fun h => h.2 rfl
    | cons x xs =>
        have hmx : m = x.start := hm2.1
        rw [hmx, hr.list.sizes x (hcut ▸ List.mem_append_right pre List.mem_cons_self)]
        exact fun h => absurd h.1 (Nat.not_lt.mpr (hsuf x rfl))
  rw [← hmhead]
  refine Rtos.searchLoop_eq hm1 hsize (fun x hx => ?_) hstop ?_
  · exact hnull x (hcut ▸ List.mem_append_left suf hx)
  · rw [hcut, List.length_append] at hlen
    omega

/-- Nothing changes when no free block is large enough. -/
theorem allocate_of_small (hr : Represents L h free live) {n : Nat} (hn : n < 2 ^ 32)
    (hsmall : n = 0 ∨ 2 ^ 31 ≤ n ∨ ∀ x ∈ free, x.size < blockSize n) :
    allocate L h n = .ok (0, h) := by
  have hinit : (if h.pxEnd = 0 then prvHeapInit L h else h) = h := by
    refine if_neg ?_
    rw [hr.pxEnd]
    have := layout_facts L
    omega
  unfold allocate
  simp only [hinit, hr.bit, and_allocated hn]
  by_cases hbig : n < 2 ^ 31
  · rw [if_pos hbig]
    by_cases hfit : 0 < blockSize n ∧ blockSize n ≤ h.xFreeBytesRemaining
    · rw [if_pos hfit]
      have hn0 : n ≠ 0 := by
        rintro rfl
        exact absurd hfit.1 (Nat.lt_irrefl 0)
      -- the search comes to the end marker
      have hall : ∀ x ∈ free, x.size < blockSize n := by
        rcases hsmall with h0 | hge | hall
        · exact absurd h0 hn0
        · omega
        · exact hall
      have hsearch := hr.searchLoop_eq (List.append_nil free).symm hall (by simp)
      rw [List.map_nil, List.headD_nil] at hsearch
      simp only [hsearch, bind, Except.bind]
      exact if_neg (not_not.mpr hr.pxEnd.symm)
    · rw [if_neg hfit]
      rfl
  · rw [if_neg hbig]
    rfl

/-- The last cell in front of a block of the list is not in the way of anything. -/
theorem previous (hr : Represents L h free live) {pre suf : List Extent} {x : Extent}
    (hcut : free = pre ++ x :: suf) {a : Nat} (ha : a ∈ L.xStart :: pre.map Extent.start) :
    a ≠ L.last ∧ a ≠ x.start ∧ (∀ y ∈ suf, y.start ≠ a) ∧ (∀ y ∈ live, y.start ≠ a) ∧
      (a = L.xStart ∨ ∃ y ∈ free, y.Has a) := by
  have hnodup := nodup_cells (L := L) hr.ledger.gapped fun y hy =>
    (hr.place (List.mem_append_left live hy)).2.2.2.1
  rw [hcut, List.map_append, ← List.cons_append, List.map_cons] at hnodup
  have hdisj := (List.nodup_append.mp hnodup).2.2 a ha
  refine ⟨?_, fun heq => hdisj _ List.mem_cons_self heq, fun y hy heq =>
    hdisj _ (List.mem_cons_of_mem _ (List.mem_map_of_mem hy)) heq.symm, ?_, ?_⟩
  all_goals rcases List.mem_cons.mp ha with rfl | hmem
  · exact (end_ne_start L).symm
  · obtain ⟨y, hy, rfl⟩ := List.mem_map.mp hmem
    have hymem : y ∈ free := hcut ▸ List.mem_append_left _ hy
    exact (hr.place (List.mem_append_left live hymem)).2.2.1
  · exact fun y hy => (hr.place (List.mem_append_right free hy)).2.2.2.1
  · intro z hz
    obtain ⟨y, hy, rfl⟩ := List.mem_map.mp hmem
    have hymem : y ∈ free := hcut ▸ List.mem_append_left _ hy
    exact hr.start_ne (List.mem_append_right free hz) (List.mem_append_left live hymem)
      (hr.ledger.apart y hymem z hz).symm
  · exact .inl rfl
  · obtain ⟨y, hy, rfl⟩ := List.mem_map.mp hmem
    have hymem : y ∈ free := hcut ▸ List.mem_append_left _ hy
    have hpos := hr.ledger.positive_free hymem
    refine .inr ⟨y, hymem, Nat.le_refl _, ?_⟩
    simp only [Extent.stop]
    omega

/-- The header of a block that goes to the application is filled in. -/
theorem handOver (hr : Represents L h free live) {rest : List Extent} {b : Extent}
    {link : Nat → BlockLink} (hledger : Extent.Ledger L.first L.last rest (b :: live))
    (hlist : FreeList L link L.last rest)
    (haligned : ∀ y ∈ rest ++ b :: live, y.start % 8 = 0 ∧ y.size % 8 = 0 ∧ 16 ≤ y.size)
    (hlive : ∀ y ∈ live, link y.start = h.link y.start)
    (hb : (link b.start).xBlockSize = b.size) :
    Represents L (Rtos.handOver h link b.start) rest (b :: live) := by
  have hroom := L.ucHeap_room
  obtain ⟨h1, h2, h3, -, -, -, h7⟩ := layout_facts L
  have hbin := hledger.within_live List.mem_cons_self
  have hbpos := hledger.positive_live List.mem_cons_self
  simp only [Extent.Within, Extent.stop, configTotalHeapSize] at hbin h3 hroom
  refine ⟨hledger, ?_, ?_, haligned, ?_, hr.pxEnd, hr.bit⟩
  · refine hlist.congr (fun y hy => ?_) ?_ ?_
    · have hypos := hledger.positive_free hy
      have hapart := hledger.apart y hy b List.mem_cons_self
      simp only [Extent.Apart, Extent.stop] at hapart
      exact Function.update_of_ne (by omega) _ _
    · exact Function.update_of_ne (by omega) _ _
    · exact Function.update_of_ne (by omega) _ _
  · intro y hy
    dsimp only [Rtos.handOver]
    rcases List.mem_cons.mp hy with rfl | hmem
    · rw [Function.update_self, hb, hr.bit, or_allocated (by omega)]
    · have hypos := hledger.positive_live hy
      have hapart := (List.pairwise_cons.mp hledger.live_apart).1 y hmem
      simp only [Extent.Apart, Extent.stop] at hapart
      rw [Function.update_of_ne (by omega), hlive y hmem]
      exact hr.header y hmem
  · have ht := hledger.total
    have ht' := hr.ledger.total
    rw [Extent.total_cons] at ht
    dsimp only [Rtos.handOver]
    rw [hb, hr.bytes]
    omega

/-- The header of a block of the application is in no free block. -/
theorem header_not_free (hr : Represents L h free live) {y : Extent} (hy : y ∈ live) :
    y.start ≠ L.xStart ∧ ∀ z ∈ free, ¬ z.Has y.start := by
  refine ⟨(hr.place (List.mem_append_right free hy)).2.2.2.1, fun z hz hhas => ?_⟩
  have hpos := hr.ledger.positive_live hy
  have hapart := hr.ledger.apart z hz y hy
  simp only [Extent.Apart, Extent.Has, Extent.stop] at hapart hhas
  omega

/-- The links lead past a block. -/
def unlinked (L : Layout) (h : Heap) (pre : List Extent) (x : Extent) : Nat → BlockLink :=
  Function.update h.link ((pre.map Extent.start).getLastD L.xStart)
    { h.link ((pre.map Extent.start).getLastD L.xStart) with
      pxNextFreeBlock := (h.link x.start).pxNextFreeBlock }

/-- A block goes out of the list. -/
theorem unlinked_spec (hr : Represents L h free live) {pre suf : List Extent} {x : Extent}
    (hcut : free = pre ++ x :: suf) :
    (h.link ((pre.map Extent.start).getLastD L.xStart)).pxNextFreeBlock = x.start ∧
      FreeList L (unlinked L h pre x) L.last (pre ++ suf) ∧
      unlinked L h pre x x.start = h.link x.start ∧
      ∀ a, a ≠ L.xStart → (∀ y ∈ free, ¬ y.Has a) → unlinked L h pre x a = h.link a := by
  have hlinked := hr.list.linked
  rw [hcut, List.map_append, List.map_cons] at hlinked
  obtain ⟨m, hm1, rfl, hm2⟩ := linked_append.mp hlinked
  obtain ⟨hqend, hqx, hqsuf, -, hqplace⟩ := hr.previous hcut
    (List.getLastD_mem_cons (l := pre.map Extent.start) (a := L.xStart))
  have hother : ∀ a, a ≠ (pre.map Extent.start).getLastD L.xStart →
      unlinked L h pre x a = h.link a := fun a ha => Function.update_of_ne ha _ _
  have hnodup := nodup_cells (L := L) hr.ledger.gapped fun y hy =>
    (hr.place (List.mem_append_left live hy)).2.2.2.1
  have hself : unlinked L h pre x ((pre.map Extent.start).getLastD L.xStart) =
      { h.link ((pre.map Extent.start).getLastD L.xStart) with
        pxNextFreeBlock := (h.link x.start).pxNextFreeBlock } := Function.update_self _ _ _
  refine ⟨linked_last hm1, ?_, hother _ hqx.symm, fun a hastart hafree => hother a ?_⟩
  · have hold := hr.list
    rw [hcut] at hold hnodup
    refine hold.splice ?_ (fun a _ => ?_) (fun a _ haq => ?_) ?_ (fun y hy => ?_) ?_
    · exact hnodup.sublist
        (List.Sublist.cons_cons _ (List.Sublist.map _ (List.sublist_append_left _ _)))
    · by_cases haq : a = (pre.map Extent.start).getLastD L.xStart
      · rw [haq, hself]
      · rw [hother a haq]
    · rw [hother a haq]
    · rw [hself]
      refine (linked_congr fun a ha => ?_).mpr hm2
      obtain ⟨y, hy, rfl⟩ := List.mem_map.mp ha
      rw [hother _ (hqsuf y hy)]
    · rw [hother _ (hqsuf y hy)]
      exact hr.list.sizes y (hcut ▸ List.mem_append_right pre (List.mem_cons_of_mem x hy))
    · rw [hother _ hqend.symm]
      exact hr.list.endLink
  · rintro rfl
    rcases hqplace with heq | ⟨y, hy, hhas⟩
    · exact hastart heq
    · exact hafree y hy hhas

/-- The second part of a block that is cut in two goes back into the list, in its place. -/
theorem split_spec (hr : Represents L h free live) {n : Nat} {pre suf : List Extent} {x : Extent}
    (hcut : free = pre ++ x :: suf) (hn : 0 < n) (hbig : 16 < x.size - n)
    {link : Nat → BlockLink} (hlist : FreeList L link L.last (pre ++ suf))
    (hx : (link x.start).xBlockSize = n)
    (hnew : (link (x.start + n)).xBlockSize = x.size - n) :
    ∃ link', prvInsertBlockIntoFreeList L L.last link (x.start + n) = .ok link' ∧
      FreeList L link' L.last (pre ++ ⟨x.start + n, x.size - n⟩ :: suf) ∧
      (link' x.start).xBlockSize = n ∧
      ∀ a, a ≠ L.xStart → (∀ y ∈ free, ¬ y.Has a) → link' a = link a := by
  have hxmem : x ∈ free := hcut ▸ List.mem_append_right pre List.mem_cons_self
  obtain ⟨hxfirst, hxlast, -, hxstart, -⟩ := hr.place (List.mem_append_left live hxmem)
  simp only [Extent.stop] at hxlast
  have hlay := layout_facts L
  have hgap := List.pairwise_append.mp (hcut ▸ hr.ledger.gapped)
  have hgappre : ∀ y ∈ pre, y.start + y.size < x.start := fun y hy =>
    hgap.2.2 y hy x List.mem_cons_self
  have hgapsuf : ∀ y ∈ suf, x.start + x.size < y.start := (List.pairwise_cons.mp hgap.2.1).1
  have hsub : ∀ {y}, y ∈ pre ++ suf → y ∈ free := by
    intro y hy
    rw [hcut]
    simp only [List.mem_append, List.mem_cons] at hy ⊢
    tauto
  have hmem : ∀ {y}, y ∈ pre ++ suf → y ∈ free ++ live := fun hy =>
    List.mem_append_left live (hsub hy)
  -- The second part is apart from all other free blocks, like the block that it was a part of.
  have hcells : ∀ y ∈ pre ++ suf, y.start ≠ x.start ∧
      (⟨x.start + n, x.size - n⟩ : Extent).Apart y := by
    intro y hy
    simp only [Extent.Apart, Extent.stop]
    rcases List.mem_append.mp hy with hp | hs
    · have := hgappre y hp
      omega
    · have := hgapsuf y hs
      omega
  have hinsertable : Insertable L link L.last (pre ++ suf) ⟨x.start + n, x.size - n⟩ := by
    refine ⟨?_, ?_, ?_, fun y hy => (hcells y hy).2, ?_, end_ne_start L, hnew, ?_⟩
    · refine List.pairwise_append.mpr ⟨hgap.1, (List.pairwise_cons.mp hgap.2.1).2, ?_⟩
      exact fun y hy z hz => hgap.2.2 y hy z (List.mem_cons_of_mem x hz)
    · refine List.forall_mem_cons.mpr ⟨by dsimp only; omega, fun y hy => ?_⟩
      exact hr.ledger.positive y (hmem hy)
    · refine List.forall_mem_cons.mpr ⟨by dsimp only [Extent.stop]; omega, fun y hy => ?_⟩
      exact (hr.place (hmem hy)).2.1
    · refine List.forall_mem_cons.mpr ⟨by dsimp only; omega, fun y hy => ?_⟩
      exact (hr.place (hmem hy)).2.2.2.1
    · have hlen := hr.length_lt
      rw [hcut, List.length_append, List.length_cons] at hlen
      rw [List.length_append]
      omega
  obtain ⟨link', hins, hlist', hframe⟩ := prvInsertBlockIntoFreeList_spec hlist hinsertable
  -- nothing is joined, for the whole block had gaps on both sides
  have hpre' : ∀ y ∈ pre, y.stop < (⟨x.start + n, x.size - n⟩ : Extent).start := by
    intro y hy
    have := hgappre y hy
    simp only [Extent.stop]
    omega
  have hsuf' : ∀ y ∈ suf, (⟨x.start + n, x.size - n⟩ : Extent).stop < y.start := by
    intro y hy
    have := hgapsuf y hy
    simp only [Extent.stop]
    omega
  rw [Extent.insert_append hpre', Extent.insert_front (fun y hy => ?_),
    Extent.pushFront_of_gap hsuf'] at hlist'
  · refine ⟨link', hins, hlist', ?_, fun a hastart hafree => ?_⟩
    · rw [hframe x.start hxstart (by dsimp only; omega) fun y hy => (hcells y hy).1.symm]
      exact hx
    · refine hframe a hastart ?_ ?_
      · rintro rfl
        refine hafree x hxmem ?_
        simp only [Extent.Has, Extent.stop]
        omega
      · rintro y hy rfl
        have hpos := hr.ledger.positive y (hmem hy)
        refine hafree y (hsub hy) ⟨Nat.le_refl _, ?_⟩
        simp only [Extent.stop]
        omega
  · have := hgapsuf y hy
    dsimp only
    omega

/-- The first block that is large enough is taken out of the list, and given to the
    application. -/
theorem takeBlock_spec (hr : Represents L h free live) {n : Nat} {pre suf : List Extent}
    {x : Extent} (hcut : free = pre ++ x :: suf) (hn : n % 8 = 0) (hn16 : 16 ≤ n)
    (hpre : ∀ y ∈ pre, y.size < n) (hx : n ≤ x.size) :
    ∃ h', takeBlock L h n ((pre.map Extent.start).getLastD L.xStart) x.start =
        .ok (x.start + 8, h') ∧
      Represents L h' (pre ++ (Extent.remainder n 16 x ++ suf)) (Extent.taken n 16 x :: live) ∧
      h'.xMinimumEverFreeBytesRemaining =
        min h.xMinimumEverFreeBytesRemaining h'.xFreeBytesRemaining ∧
      ∀ a, a ≠ L.xStart → (∀ y ∈ free, ¬ y.Has a) → h'.link a = h.link a := by
  have hxmem : x ∈ free := hcut ▸ List.mem_append_right pre List.mem_cons_self
  -- In the ledger the block is carved out of the free one.
  have hcarve : Extent.carve n 16 free =
      some (Extent.taken n 16 x, pre ++ (Extent.remainder n 16 x ++ suf)) := by
    rw [hcut]
    exact Extent.carve_append 16 hpre hx suf
  have hledger := hr.ledger.carve (by omega) hcarve
  have halign := hr.aligned x (List.mem_append_left live hxmem)
  -- The list without the block; the block's own header is still as it was.
  obtain ⟨hqnext, hlist₁, hx₁, hframe₁⟩ := hr.unlinked_spec hcut
  have hsizex : (h.link x.start).xBlockSize = x.size := hr.list.sizes x hxmem
  -- An address in no free block is neither that of the block nor of a part of it.
  have hhas : ∀ a, (∀ y ∈ free, ¬ y.Has a) → a ≠ x.start ∧ ¬ x.Has a := by
    refine fun a ha => ⟨?_, ha x hxmem⟩
    rintro rfl
    refine ha x hxmem ⟨Nat.le_refl _, ?_⟩
    simp only [Extent.stop]
    omega
  have hold : ∀ {y}, y ∈ pre ++ suf → y ∈ free ++ live := by
    intro y hy
    rw [hcut]
    simp only [List.mem_append, List.mem_cons] at hy ⊢
    tauto
  have hleast : ∀ a b : Nat, (if a < b then a else b) = min b a := by
    intro a b
    split <;> omega
  by_cases hbig : 16 < x.size - n
  · -- the application gets the first part
    have hrem : Extent.remainder n 16 x = [⟨x.start + n, x.size - n⟩] := if_pos hbig
    have htak : Extent.taken n 16 x = ⟨x.start, n⟩ := if_pos hbig
    rw [hrem, htak, List.singleton_append] at hledger ⊢
    have hnew : (x.start + n) &&& portByteAlignmentMask = 0 := by
      rw [and_mask]
      omega
    have hnewx : x.start + n ≠ x.start := by omega
    -- The sizes of both parts are written: `link₂` are the headers at this point.
    generalize hlink₂ : Function.update (Function.update (unlinked L h pre x) (x.start + n)
      { unlinked L h pre x (x.start + n) with xBlockSize := x.size - n }) x.start
      { Function.update (unlinked L h pre x) (x.start + n)
        { unlinked L h pre x (x.start + n) with xBlockSize := x.size - n } x.start with
          xBlockSize := n } = link₂
    have hother₂ : ∀ a, a ≠ x.start → a ≠ x.start + n → link₂ a = unlinked L h pre x a := by
      intro a ha ha'
      rw [← hlink₂, Function.update_of_ne ha, Function.update_of_ne ha']
    -- The list goes through neither of the two headers, so it is still the one without the block.
    have hlist₂ : FreeList L link₂ L.last (pre ++ suf) := by
      have hxplace := hr.place (List.mem_append_left live hxmem)
      have hlay := layout_facts L
      have hgap := List.pairwise_append.mp (hcut ▸ hr.ledger.gapped)
      simp only [Extent.stop] at hxplace
      refine hlist₁.congr (fun y hy => ?_) (hother₂ _ (by omega) (by omega))
        (hother₂ _ (by omega) (by omega))
      have hycell : y.start + y.size < x.start ∨ x.start + x.size < y.start := by
        rcases List.mem_append.mp hy with hp | hs
        · exact .inl (hgap.2.2 y hp x List.mem_cons_self)
        · exact .inr ((List.pairwise_cons.mp hgap.2.1).1 y hs)
      exact hother₂ _ (by omega) (by omega)
    -- The second part is put back into the list, where the block was.
    obtain ⟨link₃, hins, hlist₃, hx₃, hframe₃⟩ := hr.split_spec hcut (by omega) hbig hlist₂
      (by rw [← hlink₂, Function.update_self])
      (by rw [← hlink₂, Function.update_of_ne hnewx, Function.update_self])
    -- Every address outside the free blocks is as it was before all three writes.
    have hframe : ∀ a, a ≠ L.xStart → (∀ y ∈ free, ¬ y.Has a) → link₃ a = h.link a := by
      intro a hastart hafree
      have hne := hhas a hafree
      rw [hframe₃ a hastart hafree, hother₂ a hne.1, hframe₁ a hastart hafree]
      rintro rfl
      refine hne.2 ?_
      simp only [Extent.Has, Extent.stop]
      omega
    refine ⟨_, ?_, hr.handOver hledger hlist₃ ?_ ?_ hx₃, hleast _ _, ?_⟩
    · -- what the code computes, write by write
      have hcell := hx₁
      unfold unlinked at hcell hlink₂
      unfold takeBlock
      simp only [hqnext, hcell, hsizex, heapMinimumBlockSize_eq, if_pos hbig, hnew, hlink₂,
        hr.pxEnd, hins, configAssert, bind, Except.bind, decide_true, if_true]
      rfl
    · -- all blocks are aligned: the two parts since `n` is a multiple of 8
      intro y hy
      simp only [List.mem_append, List.mem_cons] at hy
      rcases hy with (hp | rfl | hs) | rfl | hl
      · exact hr.aligned y (hold (List.mem_append_left suf hp))
      · dsimp only
        omega
      · exact hr.aligned y (hold (List.mem_append_right pre hs))
      · dsimp only
        omega
      · exact hr.aligned y (List.mem_append_right free hl)
    · exact fun y hy => hframe y.start (hr.header_not_free hy).1 (hr.header_not_free hy).2
    · intro a hastart hafree
      exact (Function.update_of_ne (hhas a hafree).1 _ _).trans (hframe a hastart hafree)
  · -- the application gets the whole block, and no header is written before the last one
    have hrem : Extent.remainder n 16 x = [] := if_neg hbig
    have htak : Extent.taken n 16 x = x := if_neg hbig
    rw [hrem, htak, List.nil_append] at hledger ⊢
    refine ⟨_, ?_, hr.handOver hledger hlist₁ ?_ ?_ ?_, hleast _ _, ?_⟩
    · have hcell := hx₁
      unfold unlinked at hcell
      unfold takeBlock
      simp only [hqnext, hcell, hsizex, heapMinimumBlockSize_eq, if_neg hbig]
      rfl
    · intro y hy
      simp only [List.mem_append, List.mem_cons] at hy
      rcases hy with hf | rfl | hl
      · exact hr.aligned y (hold (List.mem_append.mpr hf))
      · exact halign
      · exact hr.aligned y (List.mem_append_right free hl)
    · exact fun y hy => hframe₁ y.start (hr.header_not_free hy).1 (hr.header_not_free hy).2
    · rw [hx₁, hsizex]
    · intro a hastart hafree
      exact (Function.update_of_ne (hhas a hafree).1 _ _).trans (hframe₁ a hastart hafree)

/-- An allocation takes its block out of the first free one that is large enough. -/
theorem allocate_of_large (hr : Represents L h free live) {n : Nat} (hn : 0 < n) (hlt : n < 2 ^ 31)
    (hlarge : ∃ x ∈ free, blockSize n ≤ x.size) :
    ∃ b rest h', blockSize n ≤ b.size ∧ b.size ≤ blockSize n + 16 ∧
      (∃ x ∈ free, b.start = x.start ∧ b.stop ≤ x.stop) ∧
      allocate L h n = .ok (b.start + 8, h') ∧ Represents L h' rest (b :: live) ∧
      h'.xMinimumEverFreeBytesRemaining =
        min h.xMinimumEverFreeBytesRemaining h'.xFreeBytesRemaining ∧
      ∀ a, a ≠ L.xStart → (∀ y ∈ free, ¬ y.Has a) → h'.link a = h.link a := by
  obtain ⟨hb1, hb2, hb3⟩ := blockSize_spec hn hlt
  have hinit : (if h.pxEnd = 0 then prvHeapInit L h else h) = h := by
    refine if_neg ?_
    rw [hr.pxEnd]
    have := layout_facts L
    omega
  -- there is a first one that is large enough
  cases hcarve : Extent.carve (blockSize n) 16 free with
  | none =>
      obtain ⟨x, hx, hle⟩ := hlarge
      exact absurd hle (Nat.not_le.mpr (Extent.carve_eq_none_iff.mp hcarve x hx))
  | some r =>
      obtain ⟨pre, x, suf, hcut, hpre, hx, hb, hrest⟩ := Extent.carve_spec hcarve
      have hxmem : x ∈ free := hcut ▸ List.mem_append_right pre List.mem_cons_self
      have hfit : 0 < blockSize n ∧ blockSize n ≤ h.xFreeBytesRemaining := by
        rw [hr.bytes]
        have := Extent.size_le_total hxmem
        omega
      have hend : x.start ≠ h.pxEnd := by
        rw [hr.pxEnd]
        exact (hr.place (List.mem_append_left live hxmem)).2.2.1
      have hsearch := hr.searchLoop_eq hcut hpre (by
        intro y hy
        rw [List.head?_cons, Option.mem_some_iff] at hy
        exact hy ▸ hx)
      have h16 : 16 ≤ blockSize n := by omega
      obtain ⟨h', htake, hrep, hmin, hframe⟩ := hr.takeBlock_spec hcut hb3 h16 hpre hx
      rw [List.map_cons, List.headD_cons] at hsearch
      refine ⟨r.1, r.2, h', ?_, ?_, ⟨x, hxmem, ?_⟩, ?_, ?_, hmin, hframe⟩
      · exact hb ▸ Extent.le_size_taken 16 hx
      · exact hb ▸ Extent.size_taken_le_add
      · rw [hb, Extent.start_taken]
        refine ⟨rfl, ?_⟩
        rcases Extent.taken_remainder 16 hx with ⟨-, htak⟩ | ⟨r, -, h1, h2, -, -⟩
        · rw [htak]
        · simp only [Extent.stop] at h1 h2 ⊢
          omega
      · unfold allocate
        simp only [hinit, hr.bit]
        rw [if_pos ((and_allocated (by omega)).mpr hlt), if_pos hfit]
        simp only [hsearch, bind, Except.bind, if_pos hend, htake, hb, Extent.start_taken]
      · rw [hb, hrest]
        exact hrep

/-- A block is given back: the two assertions hold, and the block is free again. -/
theorem vPortFree_spec {x : Extent} (hr : Represents L h free (x :: live)) :
    ∃ h', vPortFree L h (x.start + 8) = .ok h' ∧ Represents L h' (Extent.insert x free) live ∧
      h'.xMinimumEverFreeBytesRemaining = h.xMinimumEverFreeBytesRemaining ∧
      ∀ a, a ≠ L.xStart → ¬ x.Has a → (∀ y ∈ free, ¬ y.Has a) → h'.link a = h.link a := by
  have hxmem : x ∈ free ++ x :: live := List.mem_append_right free List.mem_cons_self
  obtain ⟨hxfirst, hxlast, hxend, hxstart, hxsmall⟩ := hr.place hxmem
  have hxpos := hr.ledger.positive x hxmem
  have hheader := hr.header x List.mem_cons_self
  -- The bit says that the block is allocated, so both assertions hold.
  have hbit : (x.size + 2 ^ 31) &&& 2 ^ 31 ≠ 0 := by
    rw [Ne, and_allocated (by omega)]
    omega
  -- The bit is cleared: `link₁` are the headers at this point.
  generalize hlink₁ : Function.update h.link x.start { h.link x.start with
    xBlockSize := (h.link x.start).xBlockSize &&& complement h.xBlockAllocatedBit } = link₁
  have hother₁ : ∀ a, a ≠ x.start → link₁ a = h.link a := by
    intro a ha
    rw [← hlink₁, Function.update_of_ne ha]
  have hx₁ : (link₁ x.start).xBlockSize = x.size := by
    rw [← hlink₁, Function.update_self, hheader, hr.bit]
    exact and_complement_allocated hxsmall
  have hstart : ∀ y ∈ free, y.start ≠ x.start := fun y hy =>
    hr.start_ne (List.mem_append_left _ hy) hxmem (hr.ledger.apart y hy x List.mem_cons_self)
  have hlist₁ : FreeList L link₁ L.last free :=
    hr.list.congr (fun y hy => hother₁ _ (hstart y hy)) (hother₁ _ hxstart.symm)
      (hother₁ _ hxend.symm)
  have hin : ∀ {y}, y ∈ x :: free → y ∈ free ++ x :: live := by
    intro y hy
    simp only [List.mem_append, List.mem_cons] at hy ⊢
    tauto
  -- The block is put back into the list, and joined with its neighbours there.
  have hinsertable : Insertable L link₁ L.last free x :=
    ⟨hr.ledger.gapped, fun y hy => hr.ledger.positive y (hin hy),
      fun y hy => (hr.place (hin hy)).2.1,
      fun y hy => (hr.ledger.apart y hy x List.mem_cons_self).symm,
      fun y hy => (hr.place (hin hy)).2.2.2.1, end_ne_start L, hx₁, hr.length_lt⟩
  obtain ⟨link₂, hins, hlist₂, hframe₂⟩ := prvInsertBlockIntoFreeList_spec hlist₁ hinsertable
  -- Every address outside the free blocks and this one is as it was.
  have hframe : ∀ a, a ≠ L.xStart → ¬ x.Has a → (∀ y ∈ free, ¬ y.Has a) →
      link₂ a = h.link a := by
    intro a hastart hax hafree
    have hne : a ≠ x.start := by
      rintro rfl
      refine hax ⟨Nat.le_refl _, ?_⟩
      simp only [Extent.stop]
      omega
    rw [hframe₂ a hastart hne ?_, hother₁ a hne]
    rintro y hy rfl
    have hpos := hr.ledger.positive_free hy
    refine hafree y hy ⟨Nat.le_refl _, ?_⟩
    simp only [Extent.stop]
    omega
  refine ⟨{ h with link := link₂, xFreeBytesRemaining := h.xFreeBytesRemaining + x.size }, ?_,
    ⟨hr.ledger.insert, hlist₂, fun y hy => ?_, fun y hy => ?_, ?_, hr.pxEnd, hr.bit⟩, rfl, hframe⟩
  · unfold vPortFree
    have hpv : x.start + 8 ≠ 0 := Nat.succ_ne_zero _
    have hsub : x.start + 8 - xHeapStructSize = x.start := Nat.add_sub_cancel _ _
    simp only [if_pos hpv, hsub, hlink₁, hx₁]
    simp only [hheader, hr.bit, if_pos hbit, decide_eq_true hbit, configAssert, hr.pxEnd, hins,
      bind, Except.bind, decide_true, if_true]
    rfl
  · -- the headers of the other blocks stay
    have hymem : y ∈ free ++ x :: live :=
      List.mem_append_right free (List.mem_cons_of_mem x hy)
    have hypos := hr.ledger.positive y hymem
    have hapart := (List.pairwise_cons.mp hr.ledger.live_apart).1 y hy
    obtain ⟨h1, h2⟩ := hr.header_not_free (List.mem_cons_of_mem x hy)
    rw [← hr.header y (List.mem_cons_of_mem x hy)]
    refine hframe y.start h1 (fun hhas => ?_) h2
    simp only [Extent.Apart, Extent.Has, Extent.stop] at hapart hhas
    omega
  · rcases List.mem_append.mp hy with hf | hl
    · refine Extent.forall_mem_insert
        (P := fun z => z.start % 8 = 0 ∧ z.size % 8 = 0 ∧ 16 ≤ z.size) ?_ (hr.aligned x hxmem)
        (fun z hz => hr.aligned z (List.mem_append_left _ hz)) y hf
      intro a b ha hb _
      simp only [Extent.start_join, Extent.size_join]
      omega
    · exact hr.aligned y (List.mem_append_right free (List.mem_cons_of_mem x hl))
  · rw [Extent.total_insert]
    dsimp only
    rw [hr.bytes, Nat.add_comm]

end Represents

end Rtos

end RtosLwip
