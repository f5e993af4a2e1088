import RtosLwip.Base.Text
import RtosLwip.Flash.Upload
import RtosLwip.Flash.Writer

/-!
# The TFTP Upload Context

The other way firmware comes in, `cmnUploadFile.c` as far as a TFTP upload uses
it. Where an HTTP upload hands over a buffer of its own, the TFTP context
collects packets in `extRun.bufWrite`, which is the staging buffer of the flash
writer, and then hands that buffer to the writer: the writer copies it onto
itself.

This works because of what the two have in common. The context hands over 1024
bytes at a time, four pages, so the writer keeps nothing back until the file is
closed, and the bytes the context collects lie where the writer would have put
them. `staged_ownBuffer` is that observation: a call with the buffer itself
takes the writer to the state in which these bytes wait.

## Main definitions

* `TftpContext`: The context and the device it writes to.
* `extTftpOpen`, `extTftpWrite`, `extTftpClose`: Its operations.
* `Collected`: What the packets so far amount to.
* `writeAll`: The writes of an upload.

## Theorems

* `staged_ownBuffer`: Handing over the staging buffer itself.
* `extTftpWrite_accepts`: A packet is always taken.
* `collected_writeLoop`: A packet is collected behind the ones before it.
* `collected_run`: Any sequence of packets is collected in order.
* `extTftpClose_ops`: Closing hands over what is collected, and flushes.
-/

namespace RtosLwip

namespace Flash

variable {ρ : Type}

/-- `struct tftp_context`, with the device its `priv` points to. The collected
    bytes lie in the staging buffer. -/
structure TftpContext (ρ : Type) where
  dev : Device ρ
  dataIndex : Nat
  room : dataIndex ≤ bufLength

/-- The firmware type `_extTftpOpen` reads from the file name: FPGA unless the
    name is that of the RTOS image. -/
def tftpType (fname : List UInt8) : FmType :=
  if strcasecmpEq fname (ascii "firmOs") then .rtos else .fpga

/-- `_extTftpOpen`. -/
def extTftpOpen (hw : UploadHw) (fname : List UInt8) (d : Device ρ) : TftpContext ρ where
  dev := firmwareUpdateInit hw (tftpType fname) d
  dataIndex := 0
  room := Nat.zero_le _

/-- `__extTftpWriteData` of the first `len` bytes of the staging buffer. -/
def extTftpWriteData (hw : UploadHw) (len : Nat) (d : Device ρ) : Nat × Device ρ :=
  let w := bspSpiFlashWrite hw.spi .bufWrite len d.flash
  let d := { d with
    flash := w.2
    buffered := (bspSpiFlashWrite_takes hw.spi .bufWrite len d.flash d.buffered).2 }
  if w.1 ≠ len then
    (65535, d)
  else
    (len % 65536, { d with
      runCfg := { d.runCfg with firmUpdateInfo := { d.runCfg.firmUpdateInfo with
        size := (d.runCfg.firmUpdateInfo.size + len) % 2 ^ 32 } } })

/-- `pbuf_copy_partial` of `bytes` behind the collected ones, as many as there
    is room for. -/
def TftpContext.collect (bytes : List UInt8) (c : TftpContext ρ) : TftpContext ρ where
  dev := { c.dev with
    flash := { c.dev.flash with
      bufWrite := memcpy c.dev.flash.bufWrite c.dataIndex
        (bytes.take (bufLength - c.dataIndex)) }
    buffered := by
      have hlen := List.length_take_le (bufLength - c.dataIndex) bytes
      have hroom := c.room
      refine ⟨(length_memcpy ?_).trans c.dev.buffered.1, c.dev.buffered.2⟩
      rw [c.dev.buffered.1]
      omega }
  dataIndex := c.dataIndex + (bytes.take (bufLength - c.dataIndex)).length
  room := by
    have hlen := List.length_take_le (bufLength - c.dataIndex) bytes
    have hroom := c.room
    omega

/-- The loop of `_extTftpWrite`, with the bytes of the packet that are still to
    be copied. Every pass but the first takes one, so two passes more than there
    are bytes are enough. False stands for `EXIT_FAILURE`. -/
def tftpWriteLoop (hw : UploadHw) : Nat → List UInt8 → TftpContext ρ → Bool × TftpContext ρ
  | 0, _, c => (true, c)
  | fuel + 1, bytes, c =>
    if bytes = [] then
      (true, c)
    else
      let rest := bytes.drop (bufLength - c.dataIndex)
      let c := c.collect bytes
      if c.dataIndex = bufLength then
        let w := extTftpWriteData hw c.dataIndex c.dev
        if w.1 ≠ c.dataIndex then
          (false, { c with dev := w.2 })
        else
          tftpWriteLoop hw fuel rest ⟨w.2, 0, Nat.zero_le _⟩
      else
        tftpWriteLoop hw fuel rest c

/-- `_extTftpWrite` of a packet. -/
def extTftpWrite (hw : UploadHw) (packet : List UInt8) (c : TftpContext ρ) :
    Bool × TftpContext ρ :=
  tftpWriteLoop hw (packet.length + 2) packet c

/-- `_extTftpClose`: what is collected is handed over, whatever comes of it. -/
def extTftpClose (hw : UploadHw) (c : TftpContext ρ) : Device ρ :=
  let d := if 0 < c.dataIndex then (extTftpWriteData hw c.dataIndex c.dev).2 else c.dev
  (firmwareUpdateEnd hw d).2

/-- The buffer is always taken, whatever the hardware does. -/
theorem extTftpWriteData_accepts (hw : UploadHw) (len : Nat) (d : Device ρ) :
    (extTftpWriteData hw len d).1 = len % 65536 := by
  unfold extTftpWriteData
  simp only [(bspSpiFlashWrite_takes hw.spi .bufWrite len d.flash d.buffered).1, ne_eq,
    not_true_eq_false, if_false]

/-- A full buffer is taken as a whole. -/
theorem extTftpWriteData_full (hw : UploadHw) {len : Nat} (hfull : len = bufLength)
    (d : Device ρ) : ¬ (extTftpWriteData hw len d).1 ≠ len := by
  have hmod : bufLength % 65536 = bufLength := rfl
  rw [extTftpWriteData_accepts, hfull, hmod]
  exact not_not.mpr rfl

theorem flash_extTftpWriteData (hw : UploadHw) (len : Nat) (d : Device ρ) :
    (extTftpWriteData hw len d).2.flash = (bspSpiFlashWrite hw.spi .bufWrite len d.flash).2 := by
  unfold extTftpWriteData
  dsimp only
  split <;> rfl

/-- A packet is always taken, whatever the hardware does. -/
theorem extTftpWrite_accepts (hw : UploadHw) (packet : List UInt8) (c : TftpContext ρ) :
    (extTftpWrite hw packet c).1 = true := by
  unfold extTftpWrite
  generalize packet.length + 2 = fuel
  induction fuel generalizing packet c with
  | zero => rfl
  | succ fuel ih =>
      unfold tftpWriteLoop
      by_cases hnil : packet = []
      · rw [if_pos hnil]
      · rw [if_neg hnil]
        dsimp only
        by_cases hfull : (c.collect packet).dataIndex = bufLength
        · rw [if_pos hfull, if_neg (extTftpWriteData_full hw hfull _)]
          exact ih _ _
        · rw [if_neg hfull]
          exact ih _ _

/-- What the context has collected is what the writer would have waiting: with
    the collected bytes counted as waiting, the writer is in a staged state. -/
structure Collected (s : Nat) (base : List FlashOp) (pages : List (List UInt8))
    (data : List UInt8) (c : TftpContext ρ) : Prop where
  idle : c.dev.flash.leftBytesWrite = 0
  staged : Staged s base pages data { c.dev.flash with leftBytesWrite := c.dataIndex }

/-- Handing over the first `n` bytes of the staging buffer itself: they are
    copied onto themselves and wait, and the full pages of them go out. -/
theorem staged_ownBuffer {hw : Outcome} (hok : ∀ n, hw n = true) {s : Nat}
    {base : List FlashOp} {pages : List (List UInt8)} {data : List UInt8} {f : ExtSpiFlash}
    {n : Nat} (hbuf : Buffered f) (hidle : f.leftBytesWrite = 0) (hn : n ≤ bufLength)
    (h : Staged s base pages data { f with leftBytesWrite := n })
    (hfit : Fits s (data.length / pageSize)) :
    ∃ ps, Staged s base ps data (bspSpiFlashWrite hw .bufWrite n f).2 ∧
      (bspSpiFlashWrite hw .bufWrite n f).2.leftBytesWrite = n % pageSize := by
  have hbl : bufLength = 1024 := rfl
  have hlen : f.bufWrite.length = 1024 := hbuf.1
  have hmod : n % 65536 = n := Nat.mod_eq_of_lt (by omega)
  have hself : memcpy f.bufWrite 0 (f.bufWrite.take n) = f.bufWrite := by
    simp only [memcpy, List.take_zero, List.nil_append, List.length_take, hlen, Nat.zero_add]
    rw [Nat.min_eq_left (by omega), List.take_append_drop]
  -- one pass: either the buffer is not full, or these are all of its bytes
  have hfill :
      ∃ index, fillBuffer .bufWrite n 0 f = (0, index, { f with leftBytesWrite := n }) := by
    unfold fillBuffer
    simp only [DataPtr.bytes, List.drop_zero, hidle, Nat.zero_add, Nat.sub_zero, hmod]
    by_cases hroom : n < bufLength
    · rw [if_pos hroom, hself]
      exact ⟨_, rfl⟩
    · have hfull : bufLength = n := by omega
      rw [if_neg hroom, hfull, hself, Nat.sub_self]
      exact ⟨_, rfl⟩
  rcases hfill with ⟨index, hfill⟩
  rcases staged_drain hok h hfit with ⟨ps, hret, hst, hlb⟩
  have hcall : (bspSpiFlashWrite hw .bufWrite n f).2
      = moveRemainder (n / pageSize)
        (writeFullPages hw (n / pageSize) 0 { f with leftBytesWrite := n }).2 := by
    simp only at hret
    simp only [bspSpiFlashWrite, hmod, writeLoop, hfill, hret, Bool.true_eq_false, if_false,
      Nat.lt_irrefl, if_true]
  rw [hcall]
  exact ⟨ps, hst, hlb⟩

theorem collected_collect {s : Nat} {base : List FlashOp} {pages : List (List UInt8)}
    {data : List UInt8} {c : TftpContext ρ} (h : Collected s base pages data c)
    (bytes : List UInt8) :
    Collected s base pages (data ++ bytes.take (bufLength - c.dataIndex)) (c.collect bytes) where
  idle := h.idle
  staged := staged_copy h.staged _

/-- A packet is collected behind the ones before it; whenever the buffer is full,
    four pages go out. -/
theorem collected_writeLoop {hw : UploadHw} (hok : ∀ n, hw.spi n = true) (s : Nat)
    (base : List FlashOp) :
    ∀ (fuel : Nat) (bytes : List UInt8) (pages : List (List UInt8)) (data : List UInt8)
      (c : TftpContext ρ), bytes.length < fuel → c.dataIndex < bufLength →
      Collected s base pages data c → Fits s ((data ++ bytes).length / pageSize) →
      ∃ ps, Collected s base ps (data ++ bytes) (tftpWriteLoop hw fuel bytes c).2 ∧
        (tftpWriteLoop hw fuel bytes c).2.dataIndex < bufLength := by
  intro fuel
  induction fuel with
  | zero =>
      intro bytes pages data c hlt
      omega
  | succ fuel ih =>
      intro bytes pages data c hlt hidx h hfit
      unfold tftpWriteLoop
      by_cases hnil : bytes = []
      · rw [if_pos hnil, hnil, List.append_nil]
        exact ⟨pages, h, hidx⟩
      · rw [if_neg hnil]
        have hcol := collected_collect h bytes
        have hpos : 0 < bytes.length := List.length_pos_iff.mpr hnil
        have hrest : (bytes.drop (bufLength - c.dataIndex)).length < fuel := by
          rw [List.length_drop]
          omega
        have hall : data ++ bytes.take (bufLength - c.dataIndex)
            ++ bytes.drop (bufLength - c.dataIndex) = data ++ bytes := by
          rw [List.append_assoc, List.take_append_drop]
        dsimp only
        by_cases hfull : (c.collect bytes).dataIndex = bufLength
        · -- the buffer is full: it goes out whole, and nothing of it waits
          have hfit' : Fits s
              ((data ++ bytes.take (bufLength - c.dataIndex)).length / pageSize) := by
            have hle := List.length_take_le (bufLength - c.dataIndex) bytes
            have hle' : (bytes.take (bufLength - c.dataIndex)).length ≤ bytes.length := by
              rw [List.length_take]
              exact Nat.min_le_right _ _
            simp only [Fits, pagesInOneSector, pageSize, List.length_append] at hfit ⊢
            omega
          rcases staged_ownBuffer hok (c.collect bytes).dev.buffered hcol.idle
            (c.collect bytes).room hcol.staged hfit' with ⟨ps, hst, hlb⟩
          rw [if_pos hfull, if_neg (extTftpWriteData_full hw hfull _), ← hall]
          have hzero : (bspSpiFlashWrite hw.spi .bufWrite (c.collect bytes).dataIndex
              (c.collect bytes).dev.flash).2.leftBytesWrite = 0 := by
            rw [hlb, hfull]
            rfl
          have hempty : 0 < bufLength := by decide
          refine ih _ ps _ _ hrest hempty ⟨?_, ?_⟩ (by rw [hall]; exact hfit)
          · rw [flash_extTftpWriteData]
            exact hzero
          · have hsame := hst
            simp only [flash_extTftpWriteData]
            rw [← hzero]
            exact hsame
        · rw [if_neg hfull, ← hall]
          have hroom := (c.collect bytes).room
          exact ih _ pages _ _ hrest (by omega) hcol (by rw [hall]; exact hfit)

/-- Write after write, as long as they are taken. -/
def writeAll {σ : Type} (write : List UInt8 → σ → Bool × σ) : List (List UInt8) → σ → Bool × σ
  | [], s => (true, s)
  | block :: rest, s =>
    let w := write block s
    if w.1 then writeAll write rest w.2 else (false, w.2)

theorem writeAll_accepts {σ : Type} {write : List UInt8 → σ → Bool × σ} {P : List UInt8 → Prop}
    (h : ∀ block s, P block → (write block s).1 = true) (blocks : List (List UInt8)) (s : σ)
    (hP : ∀ block ∈ blocks, P block) :
    writeAll write blocks s = (true, run (fun s block => (write block s).2) s blocks) := by
  induction blocks generalizing s with
  | nil => rfl
  | cons block rest ih =>
      rw [writeAll, if_pos (h block s (hP block (List.mem_cons_self ..))),
        ih _ fun b hb => hP b (List.mem_cons_of_mem _ hb), run_cons]

/-- Any sequence of packets is collected in order. -/
theorem collected_run {hw : UploadHw} (hok : ∀ n, hw.spi n = true) (s : Nat)
    (base : List FlashOp) (packets : List (List UInt8)) :
    ∀ (pages : List (List UInt8)) (data : List UInt8) (c : TftpContext ρ),
      c.dataIndex < bufLength → Collected s base pages data c →
      Fits s ((data ++ packets.flatten).length / pageSize) →
      ∃ ps, Collected s base ps (data ++ packets.flatten)
          (run (fun c p => (extTftpWrite hw p c).2) c packets) ∧
        (run (fun c p => (extTftpWrite hw p c).2) c packets).dataIndex < bufLength := by
  induction packets with
  | nil =>
      intro pages data c hidx h _
      rw [List.flatten_nil, List.append_nil]
      exact ⟨pages, h, hidx⟩
  | cons packet rest ih =>
      intro pages data c hidx h hfit
      rw [List.flatten_cons, ← List.append_assoc] at hfit ⊢
      have hfit' : Fits s ((data ++ packet).length / pageSize) := by
        simp only [Fits, pagesInOneSector, pageSize, List.length_append] at hfit ⊢
        omega
      rcases collected_writeLoop hok s base (packet.length + 2) packet pages data c (by omega)
        hidx h hfit' with ⟨ps, hcol, hlt⟩
      exact ih ps _ _ hlt hcol hfit

/-- Closing: what is collected is handed over, and what then still waits is
    flushed. The pages are the bytes collected, cut every 256 of them. -/
theorem extTftpClose_ops {hw : UploadHw} (hok : ∀ n, hw.spi n = true) {s : Nat}
    {base : List FlashOp} {ps : List (List UInt8)} {data : List UInt8} {c : TftpContext ρ}
    (h : Collected s base ps data c)
    (hfit : Fits s ((data.length + 255) / pageSize)) :
    ∃ pages last, (extTftpClose hw c).flash.ops = base ++ pagesOps s (pages ++ last) ∧
      (∀ p ∈ pages, p.length = pageSize) ∧ last.length ≤ 1 ∧
      (pages ++ last).flatten = data ∧
      (pages ++ last).length = (data.length + 255) / pageSize := by
  have hflush : ∀ {qs : List (List UInt8)} {d : Device ρ}, Staged s base qs data d.flash →
      d.flash.leftBytesWrite < pageSize →
      ∃ pages last, (firmwareUpdateEnd hw d).2.flash.ops = base ++ pagesOps s (pages ++ last) ∧
        (∀ p ∈ pages, p.length = pageSize) ∧ last.length ≤ 1 ∧
        (pages ++ last).flatten = data ∧
        (pages ++ last).length = (data.length + 255) / pageSize := by
    intro qs d hst hlb
    rw [flash_firmwareUpdateEnd]
    exact staged_flush hok hst hlb hfit
  have hfit' : Fits s (data.length / pageSize) := by
    simp only [Fits, pagesInOneSector, pageSize] at hfit ⊢
    omega
  unfold extTftpClose
  by_cases hcol : 0 < c.dataIndex
  · rcases staged_ownBuffer hok c.dev.buffered h.idle c.room h.staged hfit' with ⟨qs, hst, hlb⟩
    rw [← flash_extTftpWriteData] at hst hlb
    simp only [if_pos hcol]
    exact hflush hst (by rw [hlb]; exact Nat.mod_lt _ (by decide))
  · have hzero : c.dataIndex = c.dev.flash.leftBytesWrite := by
      have hidle := h.idle
      omega
    have hst := h.staged
    rw [hzero] at hst
    simp only [if_neg hcol]
    exact hflush hst (by rw [h.idle]; decide)

end Flash

end RtosLwip
