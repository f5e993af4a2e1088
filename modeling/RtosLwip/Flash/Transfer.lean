import Mathlib.Data.List.Infix
import RtosLwip.Flash.Regions

/-!
# A TFTP Write Transfer

What a whole transfer stores. Packets arrive as chains of buffers, and the
context copies out of a chain as much as its own buffer has room for; how a chain
is cut has no part in what is copied.

Two things are counted, and neither layer counts both. The bytes of the transfer
so far are those programmed and those the context has collected; the recorded size
is that of the bytes handed over, so with the collected ones it is the length of
the transfer. The second count is `recorded_extTftpWrite`, the first one is
`Collected`.

The writer's counters are unsigned shorts, but a transfer that outgrows them has
outgrown the chip first. Operations are only added to the ones issued, so when all
the pages programmed by a transfer are pages of the chip, it has fitted at every
packet.

## Main definitions

* `Pbuf`: A chain of buffers, and `pbufCopyPartial`.
* `extTftpWriteChain`, `tftpTransfer`: A transfer.
* `OnChip`: The pages programmed are pages of the chip.

## Theorems

* `extTftpWriteChain_eq`: A chain is written as the bytes it carries.
* `ops_bspSpiFlashWrite`: Operations are only added.
* `collected_run_onChip`: A transfer that stays on the chip is collected in order.
* `tftpTransfer_stores`: What a transfer stores.
-/

namespace RtosLwip

namespace Flash

/-- A chain of buffers. Its total length is an unsigned short. -/
structure Pbuf where
  segments : List (List UInt8)
  totLen : segments.flatten.length < 65536

/-- The bytes a chain carries. -/
def Pbuf.bytes (p : Pbuf) : List UInt8 := p.segments.flatten

/-- `pbuf_copy_partial`: the bytes copied. -/
def pbufCopyPartial : List (List UInt8) → Nat → Nat → List UInt8
  | [], _, _ => []
  | p :: next, len, offset =>
    if len = 0 then
      []
    else if offset ≠ 0 ∧ p.length ≤ offset then
      pbufCopyPartial next len (offset - p.length)
    else
      let bufCopyLen := min (p.length - offset) len
      (p.drop offset).take bufCopyLen ++ pbufCopyPartial next (len - bufCopyLen) 0

/-- What is copied does not depend on where the chain is cut. -/
theorem pbufCopyPartial_eq (segments : List (List UInt8)) (len offset : Nat) :
    pbufCopyPartial segments len offset = (segments.flatten.drop offset).take len := by
  induction segments generalizing len offset with
  | nil => simp only [pbufCopyPartial, List.flatten_nil, List.drop_nil, List.take_nil]
  | cons p next ih =>
      rw [pbufCopyPartial, List.flatten_cons, List.drop_append]
      by_cases hlen : len = 0
      · rw [if_pos hlen, hlen, List.take_zero]
      · rw [if_neg hlen]
        by_cases hskip : offset ≠ 0 ∧ p.length ≤ offset
        · rw [if_pos hskip, ih, List.drop_of_length_le hskip.2, List.nil_append]
        · -- the copy begins in this buffer
          have hin : offset ≤ p.length := by omega
          have hfrom : (p.drop offset).length = p.length - offset := List.length_drop
          rw [if_neg hskip]
          simp only [ih, List.drop_zero, Nat.sub_eq_zero_of_le hin, List.take_append, hfrom]
          by_cases hwhole : p.length - offset ≤ len
          · have hall : (p.drop offset).take len = p.drop offset :=
              List.take_of_length_le (by rw [hfrom]; exact hwhole)
            rw [Nat.min_eq_left hwhole, List.take_of_length_le (Nat.le_of_eq hfrom), hall]
          · have hzero : len - (p.length - offset) = 0 := by omega
            rw [Nat.min_eq_right (by omega), Nat.sub_self, hzero, List.take_zero]

variable {ρ : Type}

/-- The loop of `_extTftpWrite`, with the number of bytes copied so far. -/
def tftpChainLoop (hw : UploadHw) (p : Pbuf) :
    Nat → Nat → TftpContext ρ → Bool × TftpContext ρ
  | 0, _, c => (true, c)
  | fuel + 1, copied, c =>
    if copied = p.bytes.length then
      (true, c)
    else
      let len := min (p.bytes.length - copied) (bufLength - c.dataIndex)
      let bytes := pbufCopyPartial p.segments len copied
      let c := c.collect bytes
      if c.dataIndex = bufLength then
        let w := extTftpWriteData hw c.dataIndex c.dev
        if w.1 ≠ c.dataIndex then
          (false, { c with dev := w.2 })
        else
          tftpChainLoop hw p fuel (copied + bytes.length) ⟨w.2, 0, Nat.zero_le _⟩
      else
        tftpChainLoop hw p fuel (copied + bytes.length) c

/-- `_extTftpWrite` of a chain of buffers. -/
def extTftpWriteChain (hw : UploadHw) (p : Pbuf) (c : TftpContext ρ) : Bool × TftpContext ρ :=
  tftpChainLoop hw p (p.bytes.length + 2) 0 c

theorem collect_congr (c : TftpContext ρ) {a b : List UInt8}
    (h : a.take (bufLength - c.dataIndex) = b.take (bufLength - c.dataIndex)) :
    c.collect a = c.collect b := by
  simp only [TftpContext.collect, h]

/-- A chain is written as the bytes it carries. -/
theorem extTftpWriteChain_eq (hw : UploadHw) (p : Pbuf) (c : TftpContext ρ) :
    extTftpWriteChain hw p c = extTftpWrite hw p.bytes c := by
  have hloop : ∀ (fuel copied : Nat) (c : TftpContext ρ), copied ≤ p.bytes.length →
      tftpChainLoop hw p fuel copied c = tftpWriteLoop hw fuel (p.bytes.drop copied) c := by
    intro fuel
    induction fuel with
    | zero => exact fun _ _ _ => rfl
    | succ fuel ih =>
        intro copied c hle
        rw [tftpChainLoop, tftpWriteLoop]
        by_cases hdone : copied = p.bytes.length
        · rw [if_pos hdone, if_pos (List.drop_of_length_le (Nat.le_of_eq hdone.symm))]
        · have hmore : p.bytes.drop copied ≠ [] := by
            intro h
            rw [List.drop_eq_nil_iff] at h
            omega
          have hlen : (p.bytes.drop copied).length = p.bytes.length - copied := List.length_drop
          have htake : pbufCopyPartial p.segments
              (min (p.bytes.length - copied) (bufLength - c.dataIndex)) copied
              = (p.bytes.drop copied).take (bufLength - c.dataIndex) := by
            rw [pbufCopyPartial_eq, Nat.min_comm, ← hlen]
            exact (List.take_eq_take_min).symm
          have hsame : c.collect ((p.bytes.drop copied).take (bufLength - c.dataIndex))
              = c.collect (p.bytes.drop copied) :=
            collect_congr c (by rw [List.take_take, Nat.min_self])
          have hnext : copied + ((p.bytes.drop copied).take (bufLength - c.dataIndex)).length
              ≤ p.bytes.length := by
            rw [List.length_take]
            omega
          have hrest : p.bytes.drop
              (copied + ((p.bytes.drop copied).take (bufLength - c.dataIndex)).length)
              = (p.bytes.drop copied).drop (bufLength - c.dataIndex) := by
            rw [List.drop_drop, List.length_take, hlen]
            by_cases hall : bufLength - c.dataIndex ≤ p.bytes.length - copied
            · rw [Nat.min_eq_left hall]
            · rw [List.drop_of_length_le (by omega), List.drop_of_length_le (by omega)]
          rw [if_neg hdone, if_neg hmore]
          simp only [htake, hsame, ih _ _ hnext, hrest]
  exact hloop _ 0 c (Nat.zero_le _)

section Issued

variable (hw : Outcome)

theorem ops_writeOnePage (data : List UInt8) (f : ExtSpiFlash) :
    f.ops <+: (bspSpiFlashWriteOnePage hw data f).2.ops := by
  have htwo : ∀ a b : FlashOp, f.ops <+: f.ops ++ [a] ++ [b] := fun a b =>
    (List.prefix_append _ _).trans (List.prefix_append _ _)
  unfold bspSpiFlashWriteOnePage
  dsimp only [bspHwSpiFlashWritePage, bspHwSpiFlashEraseSector, issue]
  repeat' split
  all_goals first
    | exact List.prefix_append _ _
    | exact htwo _ _

theorem ops_writePages (left n : Nat) (data : List UInt8) (f : ExtSpiFlash) :
    f.ops <+: (writePages hw left n data f).2.ops := by
  induction n generalizing data f with
  | zero => exact List.prefix_refl _
  | succ n ih =>
      simp only [writePages]
      generalize (if n = 0 ∧ left ≠ 0 then left else pageSize) = length
      have hpage := ops_writeOnePage hw (data.take length) f
      split
      · exact hpage
      · exact hpage.trans (ih _ _)

theorem ops_writeData (data : List UInt8) (size : Nat) (f : ExtSpiFlash) :
    f.ops <+: (bspSpiFlashWriteData hw data size f).2.ops := by
  simp only [bspSpiFlashWriteData]
  split <;> exact ops_writePages hw _ _ data f

theorem ops_writeFullPages (n i : Nat) (f : ExtSpiFlash) :
    f.ops <+: (writeFullPages hw n i f).2.ops := by
  induction n generalizing i f with
  | zero => exact List.prefix_refl _
  | succ n ih =>
      have hpage := ops_writeData hw (f.bufWrite.drop (i * pageSize)) pageSize f
      simp only [writeFullPages]
      split
      · exact hpage
      · exact hpage.trans (ih _ _)

theorem ops_fillBuffer (data : DataPtr) (left index : Nat) (f : ExtSpiFlash) :
    (fillBuffer data left index f).2.2.ops = f.ops := by
  simp only [fillBuffer]
  split <;> rfl

theorem ops_writeLoop (data : DataPtr) (fuel left index : Nat) (f : ExtSpiFlash) :
    f.ops <+: (writeLoop hw data fuel left index f).2.ops := by
  induction fuel generalizing left index f with
  | zero => exact List.prefix_refl _
  | succ fuel ih =>
      have hfill := ops_fillBuffer data left index f
      simp only [writeLoop]
      generalize fillBuffer data left index f = filled at hfill ⊢
      rcases filled with ⟨left', index', g⟩
      have hpages := ops_writeFullPages hw (g.leftBytesWrite / pageSize) 0 g
      rw [hfill] at hpages
      split
      · exact hpages
      · split
        · have hrest := ih left' index' (moveRemainder (g.leftBytesWrite / pageSize)
            (writeFullPages hw (g.leftBytesWrite / pageSize) 0 g).2)
          exact hpages.trans hrest
        · exact hpages

/-- A call of the writer only adds operations. -/
theorem ops_bspSpiFlashWrite (data : DataPtr) (size : Nat) (f : ExtSpiFlash) :
    f.ops <+: (bspSpiFlashWrite hw data size f).2.ops := by
  simp only [bspSpiFlashWrite]
  split <;> exact ops_writeLoop hw data _ _ _ f

theorem ops_bspSpiFlashFlush (f : ExtSpiFlash) : f.ops <+: (bspSpiFlashFlush hw f).2.ops := by
  simp only [bspSpiFlashFlush]
  split
  · exact ops_writeData hw _ _ f
  · exact List.prefix_refl _

end Issued

section Context

variable (hw : UploadHw)

theorem ops_extTftpWrite (packet : List UInt8) (c : TftpContext ρ) :
    c.dev.flash.ops <+: (extTftpWrite hw packet c).2.dev.flash.ops := by
  rw [extTftpWrite]
  generalize packet.length + 2 = fuel
  induction fuel generalizing packet c with
  | zero => exact List.prefix_refl _
  | succ fuel ih =>
      simp only [tftpWriteLoop]
      split
      · exact List.prefix_refl _
      · have hcall : c.dev.flash.ops <+:
            (extTftpWriteData hw (c.collect packet).dataIndex
              (c.collect packet).dev).2.flash.ops := by
          rw [flash_extTftpWriteData]
          exact ops_bspSpiFlashWrite hw.spi .bufWrite _ (c.collect packet).dev.flash
        split
        · split
          · exact hcall
          · have hrest := ih (packet.drop (bufLength - c.dataIndex))
              ⟨(extTftpWriteData hw (c.collect packet).dataIndex (c.collect packet).dev).2, 0,
                Nat.zero_le _⟩
            exact hcall.trans hrest
        · exact ih _ (c.collect packet)

theorem ops_run_extTftpWrite (packets : List (List UInt8)) (c : TftpContext ρ) :
    c.dev.flash.ops <+: (run (fun c p => (extTftpWrite hw p c).2) c packets).dev.flash.ops := by
  induction packets generalizing c with
  | nil => exact List.prefix_refl _
  | cons packet rest ih => exact (ops_extTftpWrite hw packet c).trans (ih _)

theorem ops_extTftpClose (c : TftpContext ρ) :
    c.dev.flash.ops <+: (extTftpClose hw c).flash.ops := by
  simp only [extTftpClose, flash_firmwareUpdateEnd]
  split
  · refine List.IsPrefix.trans ?_ (ops_bspSpiFlashFlush hw.spi _)
    rw [flash_extTftpWriteData]
    exact ops_bspSpiFlashWrite hw.spi .bufWrite _ c.dev.flash
  · exact ops_bspSpiFlashFlush hw.spi c.dev.flash

end Context

/-- The pages that are programmed are pages of the chip. -/
def OnChip (ops : List FlashOp) : Prop :=
  ∀ page data, .program page data ∈ ops → page < pageCount

theorem OnChip.of_subset {a b : List FlashOp} (h : OnChip b) (hab : a ⊆ b) : OnChip a :=
  fun page data hmem => h page data (hab hmem)

theorem mem_programs {ops : List FlashOp} {page : Nat} {data : List UInt8}
    (h : (page, data) ∈ programs ops) : .program page data ∈ ops := by
  rcases List.mem_filterMap.mp h with ⟨op, hop, hsome⟩
  cases op with
  | program p d =>
      rw [Option.some.injEq, Prod.mk.injEq] at hsome
      rw [← hsome.1, ← hsome.2]
      exact hop
  | erase sector => exact absurd hsome (by simp only [reduceCtorEq, not_false_eq_true])
  | read address length => exact absurd hsome (by simp only [reduceCtorEq, not_false_eq_true])

/-- Pages that have gone out from a sector of the chip on, and are pages of the chip,
    are no more than the chip has. -/
theorem length_le_of_onChip {s : Nat} {pages : List (List UInt8)}
    (hs : sectorToPage s ≤ pageCount) (h : OnChip (pagesOps s pages)) :
    sectorToPage s + pages.length ≤ pageCount := by
  by_cases hnone : pages.length = 0
  · omega
  · have hlast : sectorToPage s + (pages.length - 1)
        ∈ (programs (pagesOps s pages)).map Prod.fst := by
      rw [(programs_pagesOps s pages).1, List.mem_range'_1]
      omega
    rcases List.mem_map.mp hlast with ⟨⟨page, data⟩, hmem, hpage⟩
    have hin := h page data (mem_programs hmem)
    dsimp only at hpage
    omega

/-- What is collected counts the bytes handed over. -/
theorem Collected.length {s : Nat} {base : List FlashOp} {pages : List (List UInt8)}
    {data : List UInt8} {c : TftpContext ρ} (h : Collected s base pages data c) :
    pages.length * pageSize + c.dataIndex = data.length :=
  h.staged.length

/-- A context that is still on the chip has room in the writer's counters for
    another packet. -/
theorem Collected.fits {s : Nat} {base : List FlashOp} {pages : List (List UInt8)}
    {data : List UInt8} {c : TftpContext ρ} (h : Collected s base pages data c)
    (hs : sectorToPage s ≤ pageCount) (hchip : OnChip (c.dev.flash.ops.drop base.length))
    {n : Nat} (hn : n ≤ data.length + 65536) : Fits s (n / pageSize) := by
  have hps : pageSize = 256 := rfl
  have hpc : pageCount = 131072 := rfl
  have hlen := h.length
  have hroom := c.room
  have hops : c.dev.flash.ops = base ++ pagesOps s pages := h.staged.ops
  rw [hops, List.drop_left] at hchip
  have hpages := length_le_of_onChip hs hchip
  rw [hps] at hlen ⊢
  simp only [Fits, pagesInOneSector, sectorToPage, bufLength, hpc] at hs hpages hroom ⊢
  omega

/-- A transfer that stays on the chip is collected in order, however long it is. -/
theorem collected_run_onChip {hw : UploadHw} (hok : ∀ n, hw.spi n = true) {s : Nat}
    (base : List FlashOp) (hs : sectorToPage s ≤ pageCount) (packets : List (List UInt8))
    (hlen : ∀ p ∈ packets, p.length < 65536) :
    ∀ (pages : List (List UInt8)) (data : List UInt8) (c : TftpContext ρ),
      c.dataIndex < bufLength → Collected s base pages data c →
      OnChip ((run (fun c p => (extTftpWrite hw p c).2) c packets).dev.flash.ops.drop
        base.length) →
      ∃ ps, Collected s base ps (data ++ packets.flatten)
          (run (fun c p => (extTftpWrite hw p c).2) c packets) ∧
        (run (fun c p => (extTftpWrite hw p c).2) c packets).dataIndex < bufLength := by
  induction packets with
  | nil =>
      intro pages data c hidx h _
      rw [List.flatten_nil, List.append_nil]
      exact ⟨pages, h, hidx⟩
  | cons packet rest ih =>
      intro pages data c hidx h hchip
      -- the operations so far are operations of the whole transfer
      have hsofar : OnChip (c.dev.flash.ops.drop base.length) :=
        hchip.of_subset ((ops_run_extTftpWrite hw (packet :: rest) c).drop base.length).subset
      have hpacket := hlen packet (List.mem_cons_self ..)
      have hfit : Fits s ((data ++ packet).length / pageSize) :=
        h.fits hs hsofar (by rw [List.length_append]; omega)
      rcases collected_writeLoop hok s base (packet.length + 2) packet pages data c (by omega)
        hidx h hfit with ⟨ps, hcol, hlt⟩
      rw [List.flatten_cons, ← List.append_assoc]
      exact ih (fun p hp => hlen p (List.mem_cons_of_mem _ hp)) ps _ _ hlt hcol hchip

/-- A call of `__extTftpWriteData` adds what it hands over to the recorded size, and
    changes nothing else of the configuration. -/
theorem runCfg_extTftpWriteData (hw : UploadHw) (len : Nat) (d : Device ρ) :
    (extTftpWriteData hw len d).2.runCfg = { d.runCfg with
      firmUpdateInfo := { d.runCfg.firmUpdateInfo with
        size := (d.runCfg.firmUpdateInfo.size + len) % 2 ^ 32 } } := by
  simp only [extTftpWriteData,
    (bspSpiFlashWrite_takes hw.spi .bufWrite len d.flash d.buffered).1, ne_eq,
    not_true_eq_false, if_false]

/-- The configuration of a transfer from `old` on: the record is that of an update of
    the type `fmT`, and with what is collected its size is `total`. -/
structure Recorded (old : RuntimeCfg ρ) (fmT : FmType) (total : Nat) (c : TftpContext ρ) :
    Prop where
  rest : c.dev.runCfg.rest = old.rest
  type : c.dev.runCfg.firmUpdateInfo.type = fmT
  isWrite : c.dev.runCfg.firmUpdateInfo.isWrite = true
  wrapped : c.dev.runCfg.firmUpdateInfo.size < 2 ^ 32
  size : (c.dev.runCfg.firmUpdateInfo.size + c.dataIndex) % 2 ^ 32 = total % 2 ^ 32

theorem recorded_handOver {hw : UploadHw} {old : RuntimeCfg ρ} {fmT : FmType} {total : Nat}
    {c : TftpContext ρ} (h : Recorded old fmT total c) :
    Recorded old fmT total ⟨(extTftpWriteData hw c.dataIndex c.dev).2, 0, Nat.zero_le _⟩ where
  rest := by rw [runCfg_extTftpWriteData]; exact h.rest
  type := by rw [runCfg_extTftpWriteData]; exact h.type
  isWrite := by rw [runCfg_extTftpWriteData]; exact h.isWrite
  wrapped := by rw [runCfg_extTftpWriteData]; exact Nat.mod_lt _ (by decide)
  size := by
    rw [runCfg_extTftpWriteData]
    have hsize := h.size
    dsimp only
    omega

/-- A packet is counted, whether it stays with the context or is handed over. -/
theorem recorded_extTftpWrite (hw : UploadHw) {old : RuntimeCfg ρ} {fmT : FmType} :
    ∀ (fuel : Nat) (bytes : List UInt8) (total : Nat) (c : TftpContext ρ),
      bytes.length < fuel → c.dataIndex < bufLength → Recorded old fmT total c →
      Recorded old fmT (total + bytes.length) (tftpWriteLoop hw fuel bytes c).2 ∧
        (tftpWriteLoop hw fuel bytes c).2.dataIndex < bufLength := by
  intro fuel
  induction fuel with
  | zero =>
      intro bytes total c hlt
      omega
  | succ fuel ih =>
      intro bytes total c hlt hidx h
      rw [tftpWriteLoop]
      by_cases hnil : bytes = []
      · rw [if_pos hnil, hnil]
        exact ⟨h, hidx⟩
      · rw [if_neg hnil]
        have hpos : 0 < bytes.length := List.length_pos_iff.mpr hnil
        have htaken : (bytes.take (bufLength - c.dataIndex)).length
            + (bytes.drop (bufLength - c.dataIndex)).length = bytes.length := by
          rw [← List.length_append, List.take_append_drop]
        have hshort : (bytes.drop (bufLength - c.dataIndex)).length < fuel := by
          rw [List.length_drop]
          omega
        have hcol : Recorded old fmT (total + (bytes.take (bufLength - c.dataIndex)).length)
            (c.collect bytes) := by
          refine ⟨h.rest, h.type, h.isWrite, h.wrapped, ?_⟩
          have hsize := h.size
          simp only [TftpContext.collect]
          omega
        have hrest : ∀ c', c'.dataIndex < bufLength →
            Recorded old fmT (total + (bytes.take (bufLength - c.dataIndex)).length) c' →
            Recorded old fmT (total + bytes.length)
                (tftpWriteLoop hw fuel (bytes.drop (bufLength - c.dataIndex)) c').2 ∧
              (tftpWriteLoop hw fuel (bytes.drop (bufLength - c.dataIndex)) c').2.dataIndex
                < bufLength := by
          intro c' hidx' h'
          rw [← htaken, ← Nat.add_assoc]
          exact ih _ _ c' hshort hidx' h'
        dsimp only
        by_cases hfull : (c.collect bytes).dataIndex = bufLength
        · have hempty : 0 < bufLength := by decide
          rw [if_pos hfull, if_neg (extTftpWriteData_full hw hfull _)]
          exact hrest _ hempty (recorded_handOver hcol)
        · have hroom := (c.collect bytes).room
          rw [if_neg hfull]
          exact hrest _ (by omega) hcol

theorem recorded_run (hw : UploadHw) {old : RuntimeCfg ρ} {fmT : FmType}
    (packets : List (List UInt8)) :
    ∀ (total : Nat) (c : TftpContext ρ), c.dataIndex < bufLength → Recorded old fmT total c →
      Recorded old fmT (total + packets.flatten.length)
        (run (fun c p => (extTftpWrite hw p c).2) c packets) := by
  induction packets with
  | nil => exact fun _ _ _ h => h
  | cons packet rest ih =>
      intro total c hidx h
      rcases recorded_extTftpWrite hw (packet.length + 2) packet total c (by omega) hidx h
        with ⟨hrec, hlt⟩
      rw [List.flatten_cons, List.length_append, ← Nat.add_assoc]
      exact ih _ _ hlt hrec

/-- Closing hands over what is collected, so the recorded size is the length of the
    transfer. -/
theorem runCfg_extTftpClose (hw : UploadHw) {old : RuntimeCfg ρ} {fmT : FmType} {total : Nat}
    {c : TftpContext ρ} (h : Recorded old fmT total c) (htotal : total < 2 ^ 32) :
    (extTftpClose hw c).runCfg = ⟨⟨fmT, true, total⟩, old.rest⟩ := by
  have hdone : ∀ c' : TftpContext ρ, c'.dataIndex = 0 → Recorded old fmT total c' →
      c'.dev.runCfg = ⟨⟨fmT, true, total⟩, old.rest⟩ := by
    intro c' hzero h'
    have hsize := h'.size
    rw [hzero, Nat.add_zero, Nat.mod_eq_of_lt h'.wrapped, Nat.mod_eq_of_lt htotal] at hsize
    rw [← h'.rest, ← h'.type, ← h'.isWrite, ← hsize]
  simp only [extTftpClose, runCfg_firmwareUpdateEnd]
  by_cases hcol : 0 < c.dataIndex
  · rw [if_pos hcol]
    exact hdone ⟨_, 0, Nat.zero_le _⟩ rfl (recorded_handOver h)
  · rw [if_neg hcol]
    exact hdone c (by omega) h

/-- The writes of a transfer, as long as they are taken. -/
def extTftpWrites (hw : UploadHw) : List Pbuf → TftpContext ρ → Bool × TftpContext ρ
  | [], c => (true, c)
  | p :: rest, c =>
    let w := extTftpWriteChain hw p c
    if w.1 then extTftpWrites hw rest w.2 else (false, w.2)

/-- A write transfer: open, a write for each chain, and close. Says whether all of
    them were taken. -/
def tftpTransfer (hw : UploadHw) (fname : List UInt8) (chains : List Pbuf) (d : Device ρ) :
    Bool × Device ρ :=
  let w := extTftpWrites hw chains (extTftpOpen hw fname d)
  (w.1, extTftpClose hw w.2)

/-- The operations of a transfer, without those issued before it. -/
def transferOps (hw : UploadHw) (fname : List UInt8) (chains : List Pbuf) (d : Device ρ) :
    List FlashOp :=
  (tftpTransfer hw fname chains d).2.flash.ops.drop d.flash.ops.length

theorem extTftpWrites_eq (hw : UploadHw) (chains : List Pbuf) (c : TftpContext ρ) :
    extTftpWrites hw chains c
      = (true, run (fun c p => (extTftpWrite hw p c).2) c (chains.map Pbuf.bytes)) := by
  induction chains generalizing c with
  | nil => rfl
  | cons p rest ih =>
      rw [extTftpWrites, extTftpWriteChain_eq, if_pos (extTftpWrite_accepts hw p.bytes c), ih,
        List.map_cons, run_cons]

/-- What a transfer stores when its operations succeed, on pages that the chip has:
    consecutive pages from the start of the staging region on, all of them full but
    possibly the last, which carry the bytes of the chains in order; and the record
    has the length of the transfer. -/
theorem tftpTransfer_stores (hw : UploadHw) (hok : ∀ n, hw.spi n = true) (fname : List UInt8)
    (chains : List Pbuf) (d : Device ρ) (hchip : OnChip (transferOps hw fname chains d)) :
    (tftpTransfer hw fname chains d).1 = true ∧
      (programs (transferOps hw fname chains d)).map Prod.fst
        = List.range' (sectorToPage (region (tftpType fname)).start)
          (programs (transferOps hw fname chains d)).length ∧
      (∀ p ∈ (programs (transferOps hw fname chains d)).dropLast, p.2.length = pageSize) ∧
      ((programs (transferOps hw fname chains d)).map Prod.snd).flatten
        = (chains.map Pbuf.bytes).flatten ∧
      (tftpTransfer hw fname chains d).2.runCfg
        = ⟨⟨tftpType fname, true, (chains.map Pbuf.bytes).flatten.length⟩, d.runCfg.rest⟩ := by
  have hstart : sectorToPage (region (tftpType fname)).start ≤ pageCount := by
    unfold region
    split <;> decide
  have hempty : (extTftpOpen hw fname d).dataIndex < bufLength := by
    change 0 < 1024
    decide
  have hlen : ∀ p ∈ chains.map Pbuf.bytes, p.length < 65536 := by
    intro p hp
    rcases List.mem_map.mp hp with ⟨chain, -, rfl⟩
    exact chain.totLen
  set c := run (fun c p => (extTftpWrite hw p c).2) (extTftpOpen hw fname d)
    (chains.map Pbuf.bytes) with hc
  set base := d.flash.ops ++ [FlashOp.erase (region (tftpType fname)).start] with hbase
  have htransfer : tftpTransfer hw fname chains d = (true, extTftpClose hw c) := by
    rw [tftpTransfer, extTftpWrites_eq]
  have hissued : transferOps hw fname chains d
      = (extTftpClose hw c).flash.ops.drop d.flash.ops.length := by
    rw [transferOps, htransfer]
  rw [hissued] at hchip ⊢
  rw [htransfer]
  -- up to the last packet the transfer has stayed on the chip
  have hbefore : OnChip (c.dev.flash.ops.drop base.length) := by
    refine hchip.of_subset (List.Subset.trans ((ops_extTftpClose hw c).drop _).subset ?_)
    rw [hbase, List.length_append, ← List.drop_drop]
    exact List.drop_subset _ _
  rcases collected_run_onChip hok base hstart _ hlen [] [] _ hempty
    (FirmwareUpload.collected_extTftpOpen hw fname d) hbefore with ⟨ps, hcol, -⟩
  rw [← hc, List.nil_append] at hcol
  rcases extTftpClose_ops hok hcol (hcol.fits hstart hbefore (by omega)) with
    ⟨pages, last, hops, hfull, hone, hdata, -⟩
  have hdrop : (extTftpClose hw c).flash.ops.drop d.flash.ops.length
      = .erase (region (tftpType fname)).start ::
        pagesOps (region (tftpType fname)).start (pages ++ last) := by
    rw [hops, hbase, List.append_assoc, List.drop_left]
    rfl
  rcases programs_shortLast (region (tftpType fname)).start hfull hone with
    ⟨hpages, hwhole, hbytes⟩
  rw [hdrop]
  refine ⟨rfl, hpages, hwhole, hbytes.trans hdata, ?_⟩
  -- what has stayed on the chip is not too long for the recorded size
  have hsmall : (chains.map Pbuf.bytes).flatten.length < 2 ^ 32 := by
    have hcount := hcol.length
    have hops' : c.dev.flash.ops = base ++ pagesOps _ ps := hcol.staged.ops
    rw [hops', List.drop_left] at hbefore
    have hpages' := length_le_of_onChip hstart hbefore
    have hroom := c.room
    simp only [pageSize, pageCount, capacity, bufLength] at hcount hpages' hroom
    omega
  have hopen : Recorded d.runCfg (tftpType fname) 0 (extTftpOpen hw fname d) :=
    ⟨rfl, rfl, rfl, by change 0 < 2 ^ 32; decide, rfl⟩
  have hrec := recorded_run hw (chains.map Pbuf.bytes) 0 _ hempty hopen
  rw [← hc, Nat.zero_add] at hrec
  exact runCfg_extTftpClose hw hrec hsmall

/-- A transfer of two chains, the first of which is cut in two. -/
theorem tftpTransfer_stores_two :
    ((programs (transferOps ⟨fun _ => true, fun _ => true⟩ (ascii "firmOs")
      [⟨[[1, 2], [3]], by decide⟩, ⟨[[4]], by decide⟩] FirmwareUpload.blankDevice)).map
        Prod.snd).flatten = [1, 2, 3, 4] := by
  have hchip : OnChip (transferOps ⟨fun _ => true, fun _ => true⟩ (ascii "firmOs")
      [⟨[[1, 2], [3]], by decide⟩, ⟨[[4]], by decide⟩] FirmwareUpload.blankDevice) := by
    have hops : transferOps ⟨fun _ => true, fun _ => true⟩ (ascii "firmOs")
        [⟨[[1, 2], [3]], by decide⟩, ⟨[[4]], by decide⟩] FirmwareUpload.blankDevice
        = [.erase 129, .program 33024 [1, 2, 3, 4]] := by decide +kernel
    rw [hops]
    intro page data hmem
    simp only [List.mem_cons, reduceCtorEq, FlashOp.program.injEq, List.not_mem_nil, or_false,
      false_or] at hmem
    rw [hmem.1]
    decide
  exact (tftpTransfer_stores ⟨fun _ => true, fun _ => true⟩ (fun _ => rfl) (ascii "firmOs")
    [⟨[[1, 2], [3]], by decide⟩, ⟨[[4]], by decide⟩] FirmwareUpload.blankDevice hchip).2.2.2.1

end Flash

end RtosLwip
