import Mathlib.Algebra.Group.Nat.Defs
import Mathlib.Logic.Function.Basic

/-!
# The Heap of the Operating System

`supports/rtos/portable/MemMang/heap_4.c`, which is what the board allocates its
tasks, queues and buffers with. The free blocks are in a list, in the order of
their addresses; a block carries its link and its size in front of the memory that
the application gets, and the top bit of the size tells whose block it is.

The memory is what it holds at an address, read as a `BlockLink_t`. Pointers are
addresses, with 0 for the null pointer. A loop that would not end, and an assertion
that fails (`configASSERT` turns the interrupts off and loops), are outcomes of
their own, and so is the hook of an allocation that fails, which is such an
assertion too.

Both functions do their work with the scheduler suspended, so they are one step
each.

## Main definitions

* `BlockLink`, `Layout`, `Heap`: The header of a block, where things are, the state.
* `Halt`: Why a call may never return.
* `prvHeapInit`, `prvInsertBlockIntoFreeList`: The list is set up, a block goes in.
* `pvPortMalloc`, `vPortFree`: What the application calls.
-/

namespace RtosLwip

namespace Rtos

/-- `BlockLink_t`: what is in front of a block's memory. -/
structure BlockLink where
  pxNextFreeBlock : Nat
  xBlockSize : Nat
  deriving DecidableEq

/-- `portBYTE_ALIGNMENT`. -/
def portByteAlignment : Nat := 8

/-- `portBYTE_ALIGNMENT_MASK`. -/
def portByteAlignmentMask : Nat := 7

/-- Two words: a pointer and a size. -/
def sizeofBlockLink : Nat := 8

/-- `~ mask`, of a `size_t`. -/
def complement (mask : Nat) : Nat := 0xFFFFFFFF ^^^ mask

/-- The size of a block's header. -/
def xHeapStructSize : Nat :=
  (sizeofBlockLink + (portByteAlignment - 1)) &&& complement portByteAlignmentMask

/-- `heapMINIMUM_BLOCK_SIZE`. -/
def heapMinimumBlockSize : Nat := xHeapStructSize <<< 1

/-- `configTOTAL_HEAP_SIZE`. -/
def configTotalHeapSize : Nat := 40 * 1024

/-- Where the linker has put the heap and the start of the list. -/
structure Layout where
  ucHeap : Nat
  xStart : Nat
  ucHeap_pos : 0 < ucHeap
  ucHeap_room : ucHeap + configTotalHeapSize < 2 ^ 32
  apart : xStart + sizeofBlockLink ≤ ucHeap ∨ ucHeap + configTotalHeapSize ≤ xStart

/-- The memory, and the variables of the module. -/
structure Heap where
  link : Nat → BlockLink
  pxEnd : Nat
  xFreeBytesRemaining : Nat
  xMinimumEverFreeBytesRemaining : Nat
  xBlockAllocatedBit : Nat

/-- Why a call never returns. -/
inductive Halt where
  /-- A loop does not come to its end. -/
  | loop
  /-- A `configASSERT` fails. -/
  | assert
  /-- `vApplicationMallocFailedHook`, which asserts `NULL`. -/
  | mallocFailedHook
  deriving DecidableEq

/-- `configASSERT`. -/
def configAssert (b : Bool) : Except Halt Unit := if b then .ok () else .error .assert

/-- The list is not longer than this. -/
def listFuel : Nat := configTotalHeapSize + 1

/-- Before the first call: no list. -/
def Heap.zero (link : Nat → BlockLink) : Heap := ⟨link, 0, 0, 0, 0⟩

/-- The list of free blocks is set up, with one block in it. -/
def prvHeapInit (L : Layout) (h : Heap) : Heap :=
  let aligned :=
    if L.ucHeap &&& portByteAlignmentMask ≠ 0 then
      (L.ucHeap + (portByteAlignment - 1)) &&& complement portByteAlignmentMask
    else
      L.ucHeap
  let total := configTotalHeapSize - (aligned - L.ucHeap)
  let pxEnd := (aligned + total - xHeapStructSize) &&& complement portByteAlignmentMask
  let link := Function.update h.link L.xStart ⟨aligned, 0⟩
  let link := Function.update link pxEnd ⟨0, 0⟩
  let link := Function.update link aligned ⟨pxEnd, pxEnd - aligned⟩
  { link := link
    pxEnd := pxEnd
    xFreeBytesRemaining := pxEnd - aligned
    xMinimumEverFreeBytesRemaining := pxEnd - aligned
    xBlockAllocatedBit := 1 <<< 31 }

/-- The `for` of `prvInsertBlockIntoFreeList`: the last block with a lower address. -/
def positionLoop (link : Nat → BlockLink) (pxBlockToInsert : Nat) : Nat → Nat → Except Halt Nat
  | 0, _ => .error .loop
  | fuel + 1, pxIterator =>
    if (link pxIterator).pxNextFreeBlock < pxBlockToInsert then
      positionLoop link pxBlockToInsert fuel (link pxIterator).pxNextFreeBlock
    else
      .ok pxIterator

/-- A block is linked to what is behind the iterator, and joined to it if the two touch. -/
def linkBehind (pxEnd : Nat) (link : Nat → BlockLink) (pxIterator pxBlockToInsert : Nat) :
    Nat → BlockLink :=
  let next := (link pxIterator).pxNextFreeBlock
  if pxBlockToInsert + (link pxBlockToInsert).xBlockSize = next then
    if next ≠ pxEnd then
      Function.update link pxBlockToInsert
        ⟨(link next).pxNextFreeBlock, (link pxBlockToInsert).xBlockSize + (link next).xBlockSize⟩
    else
      Function.update link pxBlockToInsert
        { link pxBlockToInsert with pxNextFreeBlock := pxEnd }
  else
    Function.update link pxBlockToInsert { link pxBlockToInsert with pxNextFreeBlock := next }

/-- A block goes to its place in the list, and is joined to the blocks that it touches. -/
def prvInsertBlockIntoFreeList (L : Layout) (pxEnd : Nat) (link : Nat → BlockLink)
    (pxBlockToInsert : Nat) : Except Halt (Nat → BlockLink) := do
  let pxIterator ← positionLoop link pxBlockToInsert listFuel L.xStart
  let joined := pxIterator + (link pxIterator).xBlockSize = pxBlockToInsert
  let link := if joined then
      Function.update link pxIterator { link pxIterator with
        xBlockSize := (link pxIterator).xBlockSize + (link pxBlockToInsert).xBlockSize }
    else link
  let pxBlockToInsert := if joined then pxIterator else pxBlockToInsert
  let link := linkBehind pxEnd link pxIterator pxBlockToInsert
  -- a block that closed a gap has its link already
  if pxIterator ≠ pxBlockToInsert then
    return Function.update link pxIterator
      { link pxIterator with pxNextFreeBlock := pxBlockToInsert }
  else
    return link

/-- What is taken for a wanted size: the header is added, and it goes up to a multiple of the
    alignment. -/
def blockSize (xWantedSize : Nat) : Nat :=
  if 0 < xWantedSize then
    let size := (xWantedSize + xHeapStructSize) % 2 ^ 32
    if size &&& portByteAlignmentMask ≠ 0 then
      (size + (portByteAlignment - (size &&& portByteAlignmentMask))) % 2 ^ 32
    else
      size
  else
    xWantedSize

/-- The `while` of `pvPortMalloc`: the first block of adequate size, or the end marker, and what
    is in front of it. -/
def searchLoop (link : Nat → BlockLink) (xWantedSize : Nat) :
    Nat → Nat → Nat → Except Halt (Nat × Nat)
  | 0, _, _ => .error .loop
  | fuel + 1, pxPreviousBlock, pxBlock =>
    if (link pxBlock).xBlockSize < xWantedSize ∧ (link pxBlock).pxNextFreeBlock ≠ 0 then
      searchLoop link xWantedSize fuel pxBlock (link pxBlock).pxNextFreeBlock
    else
      .ok (pxPreviousBlock, pxBlock)

/-- The application gets the block: the counters go down, and the header has the allocated bit and
    no link. -/
def handOver (h : Heap) (link : Nat → BlockLink) (pxBlock : Nat) : Heap :=
  let xFreeBytesRemaining := h.xFreeBytesRemaining - (link pxBlock).xBlockSize
  { h with
    link := Function.update link pxBlock ⟨0, (link pxBlock).xBlockSize ||| h.xBlockAllocatedBit⟩
    xFreeBytesRemaining := xFreeBytesRemaining
    xMinimumEverFreeBytesRemaining :=
      if xFreeBytesRemaining < h.xMinimumEverFreeBytesRemaining then xFreeBytesRemaining
      else h.xMinimumEverFreeBytesRemaining }

/-- A block that was found goes out of the list, and what is not needed of it goes back in. -/
def takeBlock (L : Layout) (h : Heap) (xWantedSize pxPreviousBlock pxBlock : Nat) :
    Except Halt (Nat × Heap) := do
  let pvReturn := (h.link pxPreviousBlock).pxNextFreeBlock + xHeapStructSize
  let link := Function.update h.link pxPreviousBlock { h.link pxPreviousBlock with
    pxNextFreeBlock := (h.link pxBlock).pxNextFreeBlock }
  let link ←
    if heapMinimumBlockSize < (link pxBlock).xBlockSize - xWantedSize then do
      let pxNewBlockLink := pxBlock + xWantedSize
      configAssert (pxNewBlockLink &&& portByteAlignmentMask = 0)
      let link := Function.update link pxNewBlockLink { link pxNewBlockLink with
        xBlockSize := (link pxBlock).xBlockSize - xWantedSize }
      let link := Function.update link pxBlock { link pxBlock with xBlockSize := xWantedSize }
      prvInsertBlockIntoFreeList L h.pxEnd link pxNewBlockLink
    else
      pure link
  return (pvReturn, handOver h link pxBlock)

/-- What `pvPortMalloc` does with the scheduler suspended. A null pointer is returned when
    nothing of the size is there. -/
def allocate (L : Layout) (h : Heap) (xWantedSize : Nat) : Except Halt (Nat × Heap) := do
  let h := if h.pxEnd = 0 then prvHeapInit L h else h
  if xWantedSize &&& h.xBlockAllocatedBit = 0 then
    let size := blockSize xWantedSize
    if 0 < size ∧ size ≤ h.xFreeBytesRemaining then
      let found ← searchLoop h.link size listFuel L.xStart (h.link L.xStart).pxNextFreeBlock
      if found.2 ≠ h.pxEnd then
        takeBlock L h size found.1 found.2
      else
        return (0, h)
    else
      return (0, h)
  else
    return (0, h)

/-- `pvPortMalloc`. -/
def pvPortMalloc (L : Layout) (h : Heap) (xWantedSize : UInt32) : Except Halt (Nat × Heap) := do
  let r ← allocate L h xWantedSize.toNat
  if r.1 = 0 then
    throw .mallocFailedHook
  configAssert (r.1 &&& portByteAlignmentMask = 0)
  return r

/-- `vPortFree`. -/
def vPortFree (L : Layout) (h : Heap) (pv : Nat) : Except Halt Heap := do
  if pv ≠ 0 then
    let pxLink := pv - xHeapStructSize
    configAssert ((h.link pxLink).xBlockSize &&& h.xBlockAllocatedBit ≠ 0)
    configAssert ((h.link pxLink).pxNextFreeBlock = 0)
    if (h.link pxLink).xBlockSize &&& h.xBlockAllocatedBit ≠ 0 then
      if (h.link pxLink).pxNextFreeBlock = 0 then
        let link := Function.update h.link pxLink { h.link pxLink with
          xBlockSize := (h.link pxLink).xBlockSize &&& complement h.xBlockAllocatedBit }
        let xFreeBytesRemaining := h.xFreeBytesRemaining + (link pxLink).xBlockSize
        let link ← prvInsertBlockIntoFreeList L h.pxEnd link pxLink
        return { h with link := link, xFreeBytesRemaining := xFreeBytesRemaining }
      else
        return h
    else
      return h
  else
    return h

/-- `xPortGetFreeHeapSize`. -/
def xPortGetFreeHeapSize (h : Heap) : Nat := h.xFreeBytesRemaining

/-- `xPortGetMinimumEverFreeHeapSize`. -/
def xPortGetMinimumEverFreeHeapSize (h : Heap) : Nat := h.xMinimumEverFreeBytesRemaining

end Rtos

end RtosLwip
