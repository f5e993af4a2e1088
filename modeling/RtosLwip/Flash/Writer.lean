import Mathlib.Data.List.Induction
import RtosLwip.Base.Run
import RtosLwip.Flash.SpiFlash

/-!
# Re-blocking an Upload into Flash Pages

What the flash chip sees of an upload: a start sector, chunks of any size, and
a flush at the end.

The three nested loops of the writer are described by one function of what has
been programmed so far. `programmed s base pages` is the writer's state once
the pages `pages` have gone out from sector `s` on: both counters are the
number of pages divided by the pages of a sector, and the operations are the
ones `pagesOps` lists. Every loop of the writer takes a state of this form to
another one, with more pages, so nothing has to be said about a counter on its
own after `writeOnePage_programmed`.

`Staged` adds the staging buffer: the pages programmed and the bytes that wait
in the buffer are, together, what the caller has handed over.

The order of erasing and programming is a property of `pagesOps` alone. It is
stated by splitting the operations at any one of them, and proved by adding one
operation at the end.

## Main definitions

* `pagesOps`: The operations that program a list of pages from a sector on.
* `programmed`: The writer's state once a list of pages has been programmed.
* `Staged`: Pages programmed and bytes waiting are what was handed over.
* `ErasedFirst`, `NotErasedAfter`: The order of erasing and programming.
* `writeChunks`, `upload`: The calls of an upload.

## Theorems

* `writeOnePage_programmed`: One page more is programmed.
* `writeFullPages_programmed`: The full pages of the staging buffer go out.
* `staged_writeLoop`: One call hands over its chunk.
* `staged_writeChunks`: Any sequence of calls hands over its chunks.
* `staged_flush`: The remainder goes out as a short last page.
* `upload_ops`: The operations of a whole upload.
* `upload_reblocks`: Pages in order, bytes in order, sectors erased first.
-/

namespace RtosLwip

namespace Flash

/-- The operations for page number `j` of an upload that starts at sector `s`:
    the page, and the erase of the next sector behind the last page of one. -/
def pageOps (s j : Nat) (d : List UInt8) : List FlashOp :=
  .program (sectorToPage s + j) d ::
    if (j + 1) % pagesInOneSector = 0 then [.erase (s + (j + 1) / pagesInOneSector)] else []

theorem pageOps_full (s j : Nat) (d : List UInt8) (h : (j + 1) % pagesInOneSector = 0) :
    pageOps s j d = [.program (sectorToPage s + j) d, .erase (s + (j + 1) / pagesInOneSector)] := by
  rw [pageOps, if_pos h]

theorem pageOps_not_full (s j : Nat) (d : List UInt8) (h : ¬ (j + 1) % pagesInOneSector = 0) :
    pageOps s j d = [.program (sectorToPage s + j) d] := by
  rw [pageOps, if_neg h]

/-- The operations that program a list of pages from sector `s` on. -/
def pagesOps (s : Nat) (pages : List (List UInt8)) : List FlashOp :=
  pages.zipIdx.flatMap fun p => pageOps s p.2 p.1

theorem pagesOps_append_one (s : Nat) (pages : List (List UInt8)) (d : List UInt8) :
    pagesOps s (pages ++ [d]) = pagesOps s pages ++ pageOps s pages.length d := by
  simp only [pagesOps, List.zipIdx_append, List.flatMap_append, List.zipIdx_singleton,
    List.flatMap_singleton, Nat.zero_add]

/-- The writer's state once `pages` have been programmed from sector `s` on,
    after the operations `base`. -/
def programmed (s : Nat) (base : List FlashOp) (pages : List (List UInt8))
    (f : ExtSpiFlash) : ExtSpiFlash :=
  { f with
    currentSector := s + pages.length / pagesInOneSector
    pageIndex := pages.length % pagesInOneSector
    ops := base ++ pagesOps s pages }

/-- The number of sectors an upload can enter keeps the counters in range. -/
def Fits (s pages : Nat) : Prop := s + pages / pagesInOneSector < 65535

section AllOk

variable {hw : Outcome} (hok : ∀ n, hw n = true)

include hok

theorem issue_ok (op : FlashOp) (f : ExtSpiFlash) :
    issue hw op f = (true, { f with ops := f.ops ++ [op] }) := by
  simp only [issue, hok]

/-- One page more is programmed, whatever its length. The counters carry over
    into the next sector exactly when the erase is issued. -/
theorem writeOnePage_programmed (s : Nat) (base : List FlashOp) (pages : List (List UInt8))
    (f : ExtSpiFlash) (d : List UInt8) (hfit : Fits s (pages.length + 1)) :
    bspSpiFlashWriteOnePage hw d (programmed s base pages f)
      = ((d.length : Int), programmed s base (pages ++ [d]) f) := by
  have hlen : (pages ++ [d]).length = pages.length + 1 := by
    simp only [List.length_append, List.length_cons, List.length_nil]
  have hpage : sectorToPage (s + pages.length / pagesInOneSector)
      + pages.length % pagesInOneSector = sectorToPage s + pages.length := by
    simp only [sectorToPage, pagesInOneSector]
    omega
  simp only [Fits, pagesInOneSector] at hfit
  simp only [bspSpiFlashWriteOnePage, bspHwSpiFlashWritePage, bspHwSpiFlashEraseSector,
    issue_ok hok, programmed, pagesOps_append_one, hlen, hpage, Bool.true_eq_false, if_false]
  by_cases hfull : (pages.length + 1) % pagesInOneSector = 0
  · -- the sector is full: the next one is erased and entered
    have hidx : pagesInOneSector ≤ (pages.length % pagesInOneSector + 1) % 65536 := by
      simp only [pagesInOneSector] at hfull ⊢
      omega
    have hsec : (s + pages.length / pagesInOneSector + 1) % 65536
        = s + (pages.length + 1) / pagesInOneSector := by
      simp only [pagesInOneSector] at hfull ⊢
      omega
    have hcount : ¬ pageCount ≤ s + (pages.length + 1) / pagesInOneSector := by
      simp only [pageCount, capacity, pageSize, pagesInOneSector]
      omega
    rw [if_pos hidx, hsec, if_neg hcount, pageOps_full s _ d hfull, hfull]
    simp only [List.append_assoc, List.cons_append, List.nil_append]
  · have hidx : ¬ pagesInOneSector ≤ (pages.length % pagesInOneSector + 1) % 65536 := by
      simp only [pagesInOneSector] at hfull ⊢
      omega
    have hsec : s + pages.length / pagesInOneSector
        = s + (pages.length + 1) / pagesInOneSector := by
      simp only [pagesInOneSector] at hfull ⊢
      omega
    have hmod : (pages.length % pagesInOneSector + 1) % 65536
        = (pages.length + 1) % pagesInOneSector := by
      simp only [pagesInOneSector] at hfull ⊢
      omega
    rw [if_neg hidx, pageOps_not_full s _ d hfull, ← hsec, hmod]
    simp only [List.append_assoc]

/-- A write of one full page. -/
theorem writeData_programmed (s : Nat) (base : List FlashOp) (pages : List (List UInt8))
    (f : ExtSpiFlash) (d : List UInt8) (hfit : Fits s (pages.length + 1))
    (hd : pageSize ≤ d.length) :
    bspSpiFlashWriteData hw d pageSize (programmed s base pages f)
      = ((pageSize : Int), programmed s base (pages ++ [d.take pageSize]) f) := by
  have hlen : (d.take pageSize).length = 256 := by
    rw [List.length_take, Nat.min_eq_left hd]
    rfl
  have hne : ¬ ((256 : Nat) : Int) = exitFailure := by decide
  have hone : (pageSize + pageSize - 1) / pageSize = 1 := by decide
  have hmod : pageSize % pageSize = 0 := by decide
  rw [bspSpiFlashWriteData, hone, hmod]
  simp only [writePages, writeOnePage_programmed hok s base pages f _ hfit, hlen,
    ne_eq, not_true_eq_false, and_false, if_false, if_neg hne, if_true]

/-- A write of one short page. Its return value is -1 for a page of one byte,
    but the page is programmed all the same. -/
theorem writeData_short (s : Nat) (base : List FlashOp) (pages : List (List UInt8))
    (f : ExtSpiFlash) (d : List UInt8) (n : Nat) (hfit : Fits s (pages.length + 1))
    (hpos : 0 < n) (hn : n < pageSize) :
    (bspSpiFlashWriteData hw d n (programmed s base pages f)).2
      = programmed s base (pages ++ [d.take n]) f := by
  simp only [pageSize] at hn
  have hone : (n + pageSize - 1) / pageSize = 1 := by
    simp only [pageSize]
    omega
  have hmod : n % pageSize = n := Nat.mod_eq_of_lt hn
  rw [bspSpiFlashWriteData, hone, hmod]
  have hne : n ≠ 0 := by omega
  simp only [writePages, ne_eq, hne, not_false_eq_true, and_self, if_true,
    writeOnePage_programmed hok s base pages f _ hfit]
  split <;> split <;> rfl

end AllOk

/-- The first `n` pages of a byte string. -/
def pagesIn : Nat → List UInt8 → List (List UInt8)
  | 0, _ => []
  | n + 1, b => b.take pageSize :: pagesIn n (b.drop pageSize)

theorem flatten_pagesIn (n : Nat) (b : List UInt8) :
    (pagesIn n b).flatten = b.take (n * pageSize) := by
  induction n generalizing b with
  | zero => rw [pagesIn, Nat.zero_mul, List.take_zero, List.flatten_nil]
  | succ k ih =>
      rw [pagesIn, List.flatten_cons, ih, Nat.add_mul, Nat.one_mul,
        Nat.add_comm (k * pageSize), List.take_add]

theorem full_pagesIn (n : Nat) (b : List UInt8) (hb : n * pageSize ≤ b.length) :
    ∀ p ∈ pagesIn n b, p.length = pageSize := by
  induction n generalizing b with
  | zero =>
      intro p hp
      exact absurd hp (List.not_mem_nil)
  | succ k ih =>
      rw [Nat.add_mul, Nat.one_mul] at hb
      intro p hp
      rcases List.mem_cons.mp hp with rfl | hp
      · rw [List.length_take, Nat.min_eq_left (by omega)]
      · exact ih (b.drop pageSize) (by rw [List.length_drop]; omega) p hp

/-- The full pages of the staging buffer go out, one after the other. -/
theorem writeFullPages_programmed {hw : Outcome} (hok : ∀ n, hw n = true) (s : Nat)
    (base : List FlashOp) (f : ExtSpiFlash) :
    ∀ (n i : Nat) (pages : List (List UInt8)), Fits s (pages.length + n) →
      (i + n) * pageSize ≤ f.bufWrite.length →
      writeFullPages hw n i (programmed s base pages f)
        = (true, programmed s base (pages ++ pagesIn n (f.bufWrite.drop (i * pageSize))) f) := by
  intro n
  induction n with
  | zero =>
      intro i pages _ _
      simp only [writeFullPages, pagesIn, List.append_nil]
  | succ k ih =>
      intro i pages hfit hlen
      have hfit1 : Fits s (pages.length + 1) := by
        simp only [Fits, pagesInOneSector] at hfit ⊢
        omega
      have hroom : pageSize ≤ (f.bufWrite.drop (i * pageSize)).length := by
        rw [List.length_drop]
        simp only [pageSize] at hlen ⊢
        omega
      have hbuf : (programmed s base pages f).bufWrite = f.bufWrite := rfl
      have hpos : ¬ ((pageSize : Nat) : Int) < 0 := by decide
      rw [writeFullPages, hbuf, writeData_programmed hok s base pages f _ hfit1 hroom]
      simp only [if_neg hpos]
      rw [ih (i + 1) (pages ++ [(f.bufWrite.drop (i * pageSize)).take pageSize])
        (by simp only [List.length_append, List.length_cons, List.length_nil]
            rw [show pages.length + (0 + 1) + k = pages.length + (k + 1) by omega]
            exact hfit)
        (by rw [show i + 1 + k = i + (k + 1) by omega]; exact hlen)]
      rw [pagesIn, List.drop_drop, List.append_assoc, List.cons_append, List.nil_append,
        show i * pageSize + pageSize = (i + 1) * pageSize by rw [Nat.add_mul, Nat.one_mul]]

/-- Pages programmed from sector `s` on and bytes waiting in the staging
    buffer are, together, the data handed over so far. -/
structure Staged (s : Nat) (base : List FlashOp) (pages : List (List UInt8))
    (data : List UInt8) (f : ExtSpiFlash) : Prop where
  sector : f.currentSector = s + pages.length / pagesInOneSector
  index : f.pageIndex = pages.length % pagesInOneSector
  ops : f.ops = base ++ pagesOps s pages
  full : ∀ p ∈ pages, p.length = pageSize
  room : f.leftBytesWrite ≤ f.bufWrite.length
  bytes : pages.flatten ++ f.bufWrite.take f.leftBytesWrite = data

theorem length_flatten_pages (pages : List (List UInt8))
    (h : ∀ p ∈ pages, p.length = pageSize) :
    pages.flatten.length = pages.length * pageSize := by
  induction pages with
  | nil => simp only [List.flatten_nil, List.length_nil, Nat.zero_mul]
  | cons p rest ih =>
      rw [List.flatten_cons, List.length_append, h p (List.mem_cons_self ..),
        ih (fun q hq => h q (List.mem_cons_of_mem _ hq)), List.length_cons, Nat.add_mul,
        Nat.one_mul, Nat.add_comm]

theorem Staged.length {s : Nat} {base : List FlashOp} {pages : List (List UInt8)}
    {data : List UInt8} {f : ExtSpiFlash} (h : Staged s base pages data f) :
    pages.length * pageSize + f.leftBytesWrite = data.length := by
  rw [← h.bytes, List.length_append, length_flatten_pages pages h.full, List.length_take,
    Nat.min_eq_left h.room]

theorem Staged.programmed_eq {s : Nat} {base : List FlashOp} {pages : List (List UInt8)}
    {data : List UInt8} {f : ExtSpiFlash} (h : Staged s base pages data f) :
    programmed s base pages f = f := by
  rw [programmed, ← h.sector, ← h.index, ← h.ops]

theorem le_length_memcpy (buf : List UInt8) (off : Nat) (src : List UInt8)
    (h : off ≤ buf.length) : off + src.length ≤ (memcpy buf off src).length := by
  simp only [memcpy, List.length_append, List.length_take, List.length_drop]
  omega

theorem take_memcpy (buf : List UInt8) (off : Nat) (src : List UInt8) (h : off ≤ buf.length) :
    (memcpy buf off src).take (off + src.length) = buf.take off ++ src := by
  have hlen : (buf.take off ++ src).length = off + src.length := by
    rw [List.length_append, List.length_take, Nat.min_eq_left h]
  rw [memcpy, ← hlen, List.take_left]

/-- Copying `n` further bytes of a chunk behind the waiting ones hands them
    over. -/
theorem staged_copy {s : Nat} {base : List FlashOp} {pages : List (List UInt8)}
    {data : List UInt8} {f : ExtSpiFlash} (h : Staged s base pages data f)
    (src : List UInt8) :
    Staged s base pages (data ++ src)
      { f with
        bufWrite := memcpy f.bufWrite f.leftBytesWrite src
        leftBytesWrite := f.leftBytesWrite + src.length } where
  sector := h.sector
  index := h.index
  ops := h.ops
  full := h.full
  room := le_length_memcpy _ _ _ h.room
  bytes := by
    rw [take_memcpy _ _ _ h.room, ← List.append_assoc, h.bytes]

/-- One pass of the write loop after the buffer has been filled: every full
    page goes out and what is left moves to the front. -/
theorem staged_drain {hw : Outcome} (hok : ∀ n, hw n = true) {s : Nat} {base : List FlashOp}
    {pages : List (List UInt8)} {data : List UInt8} {f : ExtSpiFlash}
    (h : Staged s base pages data f) (hfit : Fits s (data.length / pageSize)) :
    ∃ ps, (writeFullPages hw (f.leftBytesWrite / pageSize) 0 f).1 = true ∧
      Staged s base ps data (moveRemainder (f.leftBytesWrite / pageSize)
        (writeFullPages hw (f.leftBytesWrite / pageSize) 0 f).2) ∧
      (moveRemainder (f.leftBytesWrite / pageSize)
        (writeFullPages hw (f.leftBytesWrite / pageSize) 0 f).2).leftBytesWrite
        = f.leftBytesWrite % pageSize := by
  have hlen := h.length
  have hroom := h.room
  set n := f.leftBytesWrite / pageSize with hn
  have hmul : n * pageSize + f.leftBytesWrite % pageSize = f.leftBytesWrite := by
    rw [hn, Nat.mul_comm]
    exact Nat.div_add_mod _ _
  have hsum : pages.length + n = data.length / pageSize := by
    simp only [pageSize] at hlen hn ⊢
    omega
  have hw' := writeFullPages_programmed hok s base f n 0 pages (by rw [hsum]; exact hfit)
    (by rw [Nat.zero_add]; omega)
  rw [h.programmed_eq, Nat.zero_mul, List.drop_zero] at hw'
  have hleft : f.leftBytesWrite - n * pageSize = f.leftBytesWrite % pageSize := by omega
  have hrest : ((f.bufWrite.drop (n * pageSize)).take (f.leftBytesWrite % pageSize)).length
      = f.leftBytesWrite % pageSize := by
    rw [List.length_take, List.length_drop]
    omega
  rw [hw']
  refine ⟨pages ++ pagesIn n f.bufWrite, rfl, ?_, hleft⟩
  exact {
    sector := rfl
    index := rfl
    ops := rfl
    full := by
      intro p hp
      rcases List.mem_append.mp hp with hp | hp
      · exact h.full p hp
      · exact full_pagesIn n f.bufWrite (by omega) p hp
    room := by
      simp only [moveRemainder, programmed, hleft]
      have := le_length_memcpy f.bufWrite 0
        ((f.bufWrite.drop (n * pageSize)).take (f.leftBytesWrite % pageSize)) (Nat.zero_le _)
      omega
    bytes := by
      simp only [moveRemainder, programmed, hleft]
      have htake := take_memcpy f.bufWrite 0
        ((f.bufWrite.drop (n * pageSize)).take (f.leftBytesWrite % pageSize)) (Nat.zero_le _)
      rw [hrest, Nat.zero_add, List.take_zero, List.nil_append] at htake
      rw [htake, List.flatten_append, flatten_pagesIn, List.append_assoc, ← List.take_add, hmul]
      exact h.bytes }

/-- One call of the write loop hands over what is left of its chunk, and
    leaves less than a page waiting. -/
theorem staged_writeLoop {hw : Outcome} (hok : ∀ n, hw n = true) (s : Nat)
    (base : List FlashOp) (c : List UInt8) (hc : c.length < 65536) :
    ∀ (fuel left index : Nat) (pages : List (List UInt8)) (data : List UInt8)
      (f : ExtSpiFlash), left < fuel → index + left = c.length → f.leftBytesWrite < pageSize →
      Staged s base pages data f → Fits s ((data.length + left) / pageSize) →
      ∃ ps, (writeLoop hw (.mem c) fuel left index f).1 = true ∧
        Staged s base ps (data ++ c.drop index) (writeLoop hw (.mem c) fuel left index f).2 ∧
        (writeLoop hw (.mem c) fuel left index f).2.leftBytesWrite < pageSize := by
  intro fuel
  induction fuel with
  | zero =>
      intro left index pages data f hlt
      omega
  | succ k ih =>
      intro left index pages data f hlt hidx hleft h hfit
      have hps : pageSize = 256 := rfl
      have hbl : bufLength = 1024 := rfl
      by_cases hfull : f.leftBytesWrite + left < bufLength
      · -- the rest of the chunk fits: it is copied whole and the loop ends
        have hsrc : ((c.drop index).take left) = c.drop index :=
          List.take_of_length_le (by rw [List.length_drop]; omega)
        have hslen : (c.drop index).length = left := by rw [List.length_drop]; omega
        have hcopy := staged_copy h (c.drop index)
        rw [hslen] at hcopy
        have hmod : (f.leftBytesWrite + left) % 65536 = f.leftBytesWrite + left := by omega
        rcases staged_drain hok hcopy (by rw [List.length_append, hslen]; exact hfit) with
          ⟨ps, hret, hst, hlb⟩
        simp only [writeLoop, fillBuffer, DataPtr.bytes, if_pos hfull, hsrc, hmod, hret,
          Bool.true_eq_false, if_false, Nat.lt_irrefl]
        exact ⟨ps, trivial, hst, by rw [hlb]; exact Nat.mod_lt _ (by decide)⟩
      · -- the buffer fills up: four pages go out and the loop goes on
        have hcl : bufLength - f.leftBytesWrite ≤ left := by omega
        have hslen : ((c.drop index).take (bufLength - f.leftBytesWrite)).length
            = bufLength - f.leftBytesWrite := by
          rw [List.length_take, List.length_drop]
          omega
        have hcopy := staged_copy h ((c.drop index).take (bufLength - f.leftBytesWrite))
        have hlb : f.leftBytesWrite + (bufLength - f.leftBytesWrite) = bufLength := by omega
        rw [hslen, hlb] at hcopy
        have hfit' : Fits s
            ((data ++ (c.drop index).take (bufLength - f.leftBytesWrite)).length / pageSize) := by
          rw [List.length_append, hslen]
          simp only [Fits, pagesInOneSector, hps] at hfit ⊢
          omega
        rcases staged_drain hok hcopy hfit' with ⟨ps, hret, hst, hlb'⟩
        have hmod : bufLength % pageSize = 0 := by decide
        rw [hmod] at hlb'
        simp only [writeLoop, fillBuffer, DataPtr.bytes, if_neg hfull, hret, Bool.true_eq_false,
          if_false]
        by_cases hmore : 0 < left - (bufLength - f.leftBytesWrite)
        · rw [if_pos hmore]
          have hrec := ih (left - (bufLength - f.leftBytesWrite))
            (index + (bufLength - f.leftBytesWrite)) ps _ _ (by omega) (by omega)
            (by rw [hlb']; decide) hst
            (by rw [List.length_append, hslen]
                rw [show data.length + (bufLength - f.leftBytesWrite)
                  + (left - (bufLength - f.leftBytesWrite)) = data.length + left by omega]
                exact hfit)
          rw [List.append_assoc, ← List.drop_drop, List.take_append_drop] at hrec
          exact hrec
        · rw [if_neg hmore]
          have htake : (c.drop index).take (bufLength - f.leftBytesWrite) = c.drop index :=
            List.take_of_length_le (by rw [List.length_drop]; omega)
          rw [htake] at hst hlb' ⊢
          exact ⟨ps, rfl, hst, by rw [hlb']; decide⟩

/-- The calls of an upload: one write for each chunk. -/
def writeChunks (hw : Outcome) (f : ExtSpiFlash) (chunks : List (List UInt8)) : ExtSpiFlash :=
  run (fun f c => (bspSpiFlashWrite hw (.mem c) c.length f).2) f chunks

/-- A whole upload: the writer is set to a sector, the chunks are written, and
    the remainder is flushed. -/
def upload (hw : Outcome) (startSector startAddress : Nat) (chunks : List (List UInt8))
    (f : ExtSpiFlash) : ExtSpiFlash :=
  (bspSpiFlashFlush hw
    (writeChunks hw (bspSpiFlashInit hw startSector startAddress true f) chunks)).2

/-- Setting the writer to a sector leaves nothing programmed and nothing
    waiting, behind the erase of that sector. -/
theorem staged_init (hw : Outcome) (s a : Nat) (f : ExtSpiFlash) (hs : s < 65536) :
    Staged s (f.ops ++ [.erase s]) [] [] (bspSpiFlashInit hw s a true f) where
  sector := Nat.mod_eq_of_lt hs
  index := rfl
  ops := by
    simp only [bspSpiFlashInit, bspHwSpiFlashEraseSector, issue, if_true,
      Nat.mod_eq_of_lt hs, pagesOps, List.zipIdx_nil, List.flatMap_nil, List.append_nil]
  full := fun _ hp => absurd hp List.not_mem_nil
  room := Nat.zero_le _
  bytes := rfl

/-- Any sequence of calls hands over its chunks in order. -/
theorem staged_writeChunks {hw : Outcome} (hok : ∀ n, hw n = true) (s : Nat)
    (base : List FlashOp) (chunks : List (List UInt8)) (hlen : ∀ c ∈ chunks, c.length ≤ 65535) :
    ∀ (pages : List (List UInt8)) (data : List UInt8) (f : ExtSpiFlash),
      f.leftBytesWrite < pageSize → Staged s base pages data f →
      Fits s ((data ++ chunks.flatten).length / pageSize) →
      ∃ ps, Staged s base ps (data ++ chunks.flatten) (writeChunks hw f chunks) ∧
        (writeChunks hw f chunks).leftBytesWrite < pageSize := by
  induction chunks with
  | nil =>
      intro pages data f hleft h _
      rw [List.flatten_nil, List.append_nil]
      exact ⟨pages, h, hleft⟩
  | cons c rest ih =>
      intro pages data f hleft h hfit
      have hc : c.length ≤ 65535 := hlen c (List.mem_cons_self ..)
      have hmod : c.length % 65536 = c.length := Nat.mod_eq_of_lt (by omega)
      rw [List.flatten_cons, ← List.append_assoc] at hfit ⊢
      have hfit' : Fits s ((data.length + c.length) / pageSize) := by
        simp only [List.length_append, Fits, pagesInOneSector, pageSize] at hfit ⊢
        omega
      rcases staged_writeLoop hok s base c (by omega) (c.length + 2) c.length 0 pages data f
        (by omega) (by omega) hleft h hfit' with ⟨ps, hret, hst, hlb⟩
      rw [List.drop_zero] at hst
      have hcall : (bspSpiFlashWrite hw (.mem c) c.length f).2
          = (writeLoop hw (.mem c) (c.length + 2) c.length 0 f).2 := by
        simp only [bspSpiFlashWrite, hmod, hret, if_true]
      rw [← hcall] at hst hlb
      exact ih (fun d hd => hlen d (List.mem_cons_of_mem _ hd)) ps _ _ hlb hst hfit

/-- The flush behind the last call: what waits goes out as a short last page, so
    the pages are the data cut every 256 bytes. -/
theorem staged_flush {hw : Outcome} (hok : ∀ n, hw n = true) {s : Nat} {base : List FlashOp}
    {ps : List (List UInt8)} {data : List UInt8} {f : ExtSpiFlash}
    (h : Staged s base ps data f) (hlb : f.leftBytesWrite < pageSize)
    (hfit : Fits s ((data.length + 255) / pageSize)) :
    ∃ pages last, (bspSpiFlashFlush hw f).2.ops = base ++ pagesOps s (pages ++ last) ∧
      (∀ p ∈ pages, p.length = pageSize) ∧ last.length ≤ 1 ∧
      (pages ++ last).flatten = data ∧
      (pages ++ last).length = (data.length + 255) / pageSize := by
  have hcount := h.length
  have hps : pageSize = 256 := rfl
  unfold bspSpiFlashFlush
  by_cases hleft : 0 < f.leftBytesWrite
  · rw [if_pos hleft]
    have hpage : Fits s (ps.length + 1) := by
      simp only [Fits, pagesInOneSector, hps] at hcount hfit ⊢
      omega
    have hwrite := writeData_short hok s base ps f f.bufWrite _ hpage hleft hlb
    rw [h.programmed_eq] at hwrite
    refine ⟨ps, [f.bufWrite.take f.leftBytesWrite], ?_, h.full, Nat.le_refl _, ?_, ?_⟩
    · rw [hwrite]
      rfl
    · rw [List.flatten_append, List.flatten_singleton]
      exact h.bytes
    · rw [List.length_append, List.length_singleton]
      simp only [hps] at hcount hlb ⊢
      omega
  · rw [if_neg hleft]
    have hzero : f.leftBytesWrite = 0 := by omega
    have hb := h.bytes
    rw [hzero, List.take_zero, List.append_nil] at hb
    refine ⟨ps, [], ?_, h.full, Nat.zero_le _, ?_, ?_⟩
    · rw [List.append_nil]
      exact h.ops
    · rw [List.append_nil]
      exact hb
    · rw [List.append_nil]
      simp only [hps] at hcount ⊢
      omega

/-- The operations of a whole upload: the pages are the data cut every 256
    bytes, with the remainder as a last page. -/
theorem upload_ops {hw : Outcome} (hok : ∀ n, hw n = true) (s a : Nat)
    (chunks : List (List UInt8)) (f : ExtSpiFlash) (hlen : ∀ c ∈ chunks, c.length ≤ 65535)
    (hfit : sectorAddress s + chunks.flatten.length ≤ capacity) :
    ∃ pages last, (upload hw s a chunks f).ops
        = f.ops ++ [.erase s] ++ pagesOps s (pages ++ last) ∧
      (∀ p ∈ pages, p.length = pageSize) ∧ last.length ≤ 1 ∧
      (pages ++ last).flatten = chunks.flatten ∧
      (pages ++ last).length = (chunks.flatten.length + 255) / pageSize := by
  simp only [sectorAddress, capacity] at hfit
  have hfits : Fits s (([] ++ chunks.flatten).length / pageSize) := by
    simp only [List.nil_append, Fits, pagesInOneSector, pageSize]
    omega
  rcases staged_writeChunks hok s _ chunks hlen [] [] _ (by change 0 < 256; decide)
    (staged_init hw s a f (by omega)) hfits with ⟨ps, hst, hlb⟩
  refine staged_flush hok hst hlb ?_
  simp only [Fits, pagesInOneSector, pageSize]
  omega

/-- The page-program operations of a list, in order. -/
def programs (ops : List FlashOp) : List (Nat × List UInt8) :=
  ops.filterMap fun
    | .program page data => some (page, data)
    | _ => none

/-- Every sector is erased before the first program into it. -/
def ErasedFirst (ops : List FlashOp) : Prop :=
  ∀ pre post page data, ops = pre ++ .program page data :: post →
    .erase (page / pagesInOneSector) ∈ pre

/-- No sector is erased after a program into it. -/
def NotErasedAfter (ops : List FlashOp) : Prop :=
  ∀ pre post sector, ops = pre ++ .erase sector :: post →
    ∀ page data, .program page data ∈ pre → page / pagesInOneSector ≠ sector

/-- Splitting a list at an element, when one element is added at the end: the
    split is at the new element or inside the old list. -/
theorem split_append_one {α : Type*} {ops pre post : List α} {x y : α}
    (h : ops ++ [y] = pre ++ x :: post) :
    (pre = ops ∧ x = y) ∨ ∃ post', ops = pre ++ x :: post' := by
  rcases List.eq_nil_or_concat post with rfl | ⟨post', z, rfl⟩
  · rcases List.append_inj' h rfl with ⟨h1, h2⟩
    exact Or.inl ⟨h1.symm, (List.cons.inj h2).1.symm⟩
  · right
    rw [List.concat_eq_append, ← List.cons_append, ← List.append_assoc] at h
    exact ⟨post', (List.append_inj' h rfl).1⟩

theorem erasedFirst_nil : ErasedFirst [] := fun _ _ _ _ h =>
  absurd h (by simp only [List.nil_eq, List.append_eq_nil_iff, reduceCtorEq, and_false,
    not_false_eq_true])

theorem notErasedAfter_nil : NotErasedAfter [] := fun _ _ _ h =>
  absurd h (by simp only [List.nil_eq, List.append_eq_nil_iff, reduceCtorEq, and_false,
    not_false_eq_true])

theorem erasedFirst_program {ops : List FlashOp} (page : Nat) (data : List UInt8)
    (h : ErasedFirst ops) (he : .erase (page / pagesInOneSector) ∈ ops) :
    ErasedFirst (ops ++ [.program page data]) := by
  intro pre post p d hsplit
  rcases split_append_one hsplit with ⟨rfl, hx⟩ | ⟨post', hpre⟩
  · rw [FlashOp.program.injEq] at hx
    rw [hx.1]
    exact he
  · exact h pre post' p d hpre

theorem erasedFirst_erase {ops : List FlashOp} {sector : Nat} (h : ErasedFirst ops) :
    ErasedFirst (ops ++ [.erase sector]) := by
  intro pre post p d hsplit
  rcases split_append_one hsplit with ⟨_, hx⟩ | ⟨post', hpre⟩
  · exact absurd hx (by simp only [reduceCtorEq, not_false_eq_true])
  · exact h pre post' p d hpre

theorem notErasedAfter_program {ops : List FlashOp} (page : Nat) (data : List UInt8)
    (h : NotErasedAfter ops) : NotErasedAfter (ops ++ [.program page data]) := by
  intro pre post sector hsplit
  rcases split_append_one hsplit with ⟨_, hx⟩ | ⟨post', hpre⟩
  · exact absurd hx (by simp only [reduceCtorEq, not_false_eq_true])
  · exact h pre post' sector hpre

theorem notErasedAfter_erase {ops : List FlashOp} {sector : Nat} (h : NotErasedAfter ops)
    (hnew : ∀ page data, .program page data ∈ ops → page / pagesInOneSector ≠ sector) :
    NotErasedAfter (ops ++ [.erase sector]) := by
  intro pre post sec hsplit
  rcases split_append_one hsplit with ⟨rfl, hx⟩ | ⟨post', hpre⟩
  · rw [FlashOp.erase.injEq] at hx
    rw [hx]
    exact hnew
  · exact h pre post' sec hpre

/-- Pages that go out from sector `s` on, behind the erase of `s`: each goes to
    the sector erased last, and the one erased next is beyond every page so
    far. The induction adds one page at the end and carries where the next
    page goes. -/
theorem pagesOps_order (s : Nat) (pages : List (List UInt8)) :
    ErasedFirst (.erase s :: pagesOps s pages) ∧ NotErasedAfter (.erase s :: pagesOps s pages) ∧
      .erase (s + pages.length / pagesInOneSector) ∈ .erase s :: pagesOps s pages ∧
      ∀ page data, .program page data ∈ .erase s :: pagesOps s pages →
        page < sectorToPage s + pages.length := by
  have hpp : pagesInOneSector = 256 := rfl
  induction pages using List.reverseRecOn with
  | nil =>
      refine ⟨erasedFirst_erase erasedFirst_nil,
        notErasedAfter_erase notErasedAfter_nil fun _ _ h => absurd h List.not_mem_nil,
        List.mem_cons_self .., ?_⟩
      · intro page data h
        rcases List.mem_cons.mp h with h | h
        · exact absurd h (by simp only [reduceCtorEq, not_false_eq_true])
        · exact absurd h List.not_mem_nil
  | append_singleton rest d ih =>
      rcases ih with ⟨hfirst, hafter, hcur, hbelow⟩
      have hdiv : (sectorToPage s + rest.length) / pagesInOneSector
          = s + rest.length / pagesInOneSector := by
        simp only [sectorToPage, hpp]
        omega
      have hlen : (rest ++ [d]).length = rest.length + 1 := by
        simp only [List.length_append, List.length_cons, List.length_nil]
      -- the page itself
      have hfirst1 := erasedFirst_program (sectorToPage s + rest.length) d hfirst
        (by rw [hdiv]; exact hcur)
      have hafter1 := notErasedAfter_program (sectorToPage s + rest.length) d hafter
      have hbelow1 : ∀ page data,
          .program page data ∈ .erase s :: pagesOps s rest
            ++ [.program (sectorToPage s + rest.length) d] →
          page < sectorToPage s + (rest.length + 1) := by
        intro page data h
        rcases List.mem_append.mp h with h | h
        · have := hbelow page data h
          omega
        · rw [List.mem_singleton, FlashOp.program.injEq] at h
          omega
      rw [pagesOps_append_one, ← List.cons_append, hlen]
      by_cases hfull : (rest.length + 1) % pagesInOneSector = 0
      · -- the last page of a sector: the next sector is erased behind it
        rw [pageOps_full s _ d hfull, List.append_cons _ _ [FlashOp.erase _]]
        refine ⟨erasedFirst_erase hfirst1, notErasedAfter_erase hafter1 ?_,
          List.mem_append_right _ (List.mem_singleton_self _), ?_⟩
        · intro page data h
          have := hbelow1 page data h
          simp only [sectorToPage, hpp] at this hfull ⊢
          omega
        · intro page data h
          rcases List.mem_append.mp h with h | h
          · exact hbelow1 page data h
          · exact absurd (List.mem_singleton.mp h) (by simp only [reduceCtorEq,
              not_false_eq_true])
      · have hsame : s + (rest.length + 1) / pagesInOneSector
            = s + rest.length / pagesInOneSector := by
          simp only [hpp] at hfull ⊢
          omega
        rw [pageOps_not_full s _ d hfull, hsame]
        exact ⟨hfirst1, hafter1, List.mem_append_left _ hcur, hbelow1⟩

/-- The pages go to consecutive page numbers and carry their own bytes. -/
theorem programs_pagesOps (s : Nat) (pages : List (List UInt8)) :
    (programs (pagesOps s pages)).map Prod.fst = List.range' (sectorToPage s) pages.length ∧
      (programs (pagesOps s pages)).map Prod.snd = pages := by
  induction pages using List.reverseRecOn with
  | nil => exact ⟨rfl, rfl⟩
  | append_singleton rest d ih =>
      have hone : programs (pageOps s rest.length d) = [(sectorToPage s + rest.length, d)] := by
        by_cases hfull : (rest.length + 1) % pagesInOneSector = 0
        · rw [pageOps_full s _ d hfull]
          rfl
        · rw [pageOps_not_full s _ d hfull]
          rfl
      have happ : programs (pagesOps s (rest ++ [d]))
          = programs (pagesOps s rest) ++ [(sectorToPage s + rest.length, d)] := by
        rw [pagesOps_append_one, programs, List.filterMap_append, ← hone]
        rfl
      rw [happ, List.map_append, List.map_append, ih.1, ih.2]
      refine ⟨?_, rfl⟩
      rw [List.length_append, List.length_singleton, List.range'_concat, Nat.one_mul]
      rfl

/-- What is programmed when all pages but the last are full: consecutive page
    numbers, and the bytes of the pages in order. -/
theorem programs_shortLast (s : Nat) {pages last : List (List UInt8)}
    (hfull : ∀ p ∈ pages, p.length = pageSize) (hone : last.length ≤ 1) :
    (programs (.erase s :: pagesOps s (pages ++ last))).map Prod.fst
        = List.range' (sectorToPage s)
          (programs (.erase s :: pagesOps s (pages ++ last))).length ∧
      (∀ p ∈ (programs (.erase s :: pagesOps s (pages ++ last))).dropLast,
        p.2.length = pageSize) ∧
      ((programs (.erase s :: pagesOps s (pages ++ last))).map Prod.snd).flatten
        = (pages ++ last).flatten := by
  rcases programs_pagesOps s (pages ++ last) with ⟨hfst, hsnd⟩
  have hprogs : programs (.erase s :: pagesOps s (pages ++ last))
      = programs (pagesOps s (pages ++ last)) := rfl
  have hcount : (programs (pagesOps s (pages ++ last))).length = (pages ++ last).length := by
    conv_rhs => rw [← hsnd]
    rw [List.length_map]
  rw [hprogs]
  refine ⟨by rw [hfst, hcount], ?_, by rw [hsnd]⟩
  -- only the last page of the list can be the short one
  intro p hp
  have hmem : p.2 ∈ (pages ++ last).dropLast := by
    rw [← hsnd, ← List.map_dropLast]
    exact List.mem_map_of_mem hp
  refine hfull p.2 ?_
  rcases last with _ | ⟨l, rest⟩
  · rw [List.append_nil] at hmem
    exact List.dropLast_subset pages hmem
  · have hnil : rest = [] := List.eq_nil_of_length_eq_zero (by
      simp only [List.length_cons] at hone
      omega)
    rw [hnil, List.dropLast_concat] at hmem
    exact hmem

/-- The operations an upload issues, without those issued before it. -/
def uploadOps (hw : Outcome) (startSector startAddress : Nat) (chunks : List (List UInt8))
    (f : ExtSpiFlash) : List FlashOp :=
  (upload hw startSector startAddress chunks f).ops.drop f.ops.length

/-- An upload of chunks of any size, when every operation succeeds: the pages
    programmed are consecutive from the first page of the start sector on, all
    of them full but possibly the last, they carry the chunks' bytes in order,
    every sector is erased before the first program into it and not again, and
    less than a page waits between two calls. -/
theorem upload_reblocks (hw : Outcome) (hok : ∀ n, hw n = true) (s a : Nat)
    (chunks : List (List UInt8)) (f : ExtSpiFlash) (hlen : ∀ c ∈ chunks, c.length ≤ 65535)
    (hfit : sectorAddress s + chunks.flatten.length ≤ capacity) :
    (programs (uploadOps hw s a chunks f)).map Prod.fst
        = List.range' (256 * s) (programs (uploadOps hw s a chunks f)).length ∧
      (∀ p ∈ (programs (uploadOps hw s a chunks f)).dropLast, p.2.length = 256) ∧
      ((programs (uploadOps hw s a chunks f)).map Prod.snd).flatten = chunks.flatten ∧
      ErasedFirst (uploadOps hw s a chunks f) ∧ NotErasedAfter (uploadOps hw s a chunks f) ∧
      ∀ n, (writeChunks hw (bspSpiFlashInit hw s a true f) (chunks.take n)).leftBytesWrite
        < 256 := by
  rcases upload_ops hok s a chunks f hlen hfit with ⟨pages, last, hops, hfull, hone, hdata, -⟩
  have hissued : uploadOps hw s a chunks f = .erase s :: pagesOps s (pages ++ last) := by
    rw [uploadOps, hops, List.append_assoc, List.drop_left]
    rfl
  rcases programs_shortLast s hfull hone with ⟨hpages, hwhole, hbytes⟩
  rcases pagesOps_order s (pages ++ last) with ⟨hfirst, hafter, -, -⟩
  rw [hissued]
  refine ⟨?_, hwhole, hbytes.trans hdata, hfirst, hafter, ?_⟩
  · rw [hpages, sectorToPage, Nat.mul_comm]
  · intro n
    have hsub : (chunks.take n).flatten.length ≤ chunks.flatten.length := by
      conv_rhs => rw [← List.take_append_drop n chunks]
      rw [List.flatten_append, List.length_append]
      omega
    simp only [sectorAddress, capacity] at hfit
    have hfits : Fits s (([] ++ (chunks.take n).flatten).length / pageSize) := by
      simp only [List.nil_append, Fits, pagesInOneSector, pageSize]
      omega
    rcases staged_writeChunks hok s _ (chunks.take n)
      (fun c hc => hlen c (List.mem_of_mem_take hc)) [] [] _ (by change 0 < 256; decide)
      (staged_init hw s a f (by omega)) hfits with ⟨_, _, hlb⟩
    exact hlb

/-- An upload of three chunks that leaves a short last page. -/
theorem upload_reblocks_three :
    ((programs (uploadOps (fun _ => true) 129 0 [[1, 2], [], [3]]
      ⟨0, 0, 0, 0, 0, 0, [], []⟩)).map Prod.snd).flatten = [1, 2, 3] :=
  (upload_reblocks (fun _ => true) (fun _ => rfl) 129 0 [[1, 2], [], [3]]
    ⟨0, 0, 0, 0, 0, 0, [], []⟩ (by decide) (by decide)).2.2.1

end Flash

end RtosLwip
