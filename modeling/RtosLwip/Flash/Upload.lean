import Mathlib.Algebra.Group.Nat.Defs
import RtosLwip.Flash.SpiFlash
import RtosLwip.Flash.Config

/-!
# The Upload Context

`cmnUploadFile.c` as far as an HTTP upload uses it: opening an upload enters
its type in the pending-update record and prepares the staging region of the
SPI flash, a write hands its bytes to the flash writer and adds them to the
recorded size, and closing flushes the writer and saves the configuration.

A `Device` carries what the flash writer relies on, a staging buffer of 1024
bytes that is filled to at most its end. Under it a write never fails: the
writer only programs full pages, and does not notice when one of them fails.
`extUploadWrite_accepts` says so for every pattern of hardware failures.

## Main definitions

* `Buffered`: What the flash writer relies on.
* `Device`: The configuration, the flash writer and the internal flash.
* `UploadHw`: Which of the operations of both flashes succeed.
* `firmwareUpdateInit`, `extUploadWrite`, `firmwareUpdateEnd`: The context.

## Theorems

* `buffered_writeLoop`: The writer keeps its buffer, and never reports failure.
* `extUploadWrite_accepts`: A write takes everything it is given.
-/

namespace RtosLwip

namespace Flash

/-- The staging buffer has its size and is filled to at most its end. -/
def Buffered (f : ExtSpiFlash) : Prop :=
  f.bufWrite.length = bufLength ∧ f.leftBytesWrite ≤ bufLength

instance (f : ExtSpiFlash) : Decidable (Buffered f) :=
  inferInstanceAs (Decidable (_ ∧ _))

/-- The staging buffer is left alone. -/
def SameBuffer (f g : ExtSpiFlash) : Prop :=
  g.bufWrite = f.bufWrite ∧ g.leftBytesWrite = f.leftBytesWrite

theorem SameBuffer.trans {f g k : ExtSpiFlash} (hfg : SameBuffer f g) (hgk : SameBuffer g k) :
    SameBuffer f k :=
  ⟨hgk.1.trans hfg.1, hgk.2.trans hfg.2⟩

theorem SameBuffer.buffered {f g : ExtSpiFlash} (h : SameBuffer f g) (hf : Buffered f) :
    Buffered g := by
  rw [Buffered, h.1, h.2]
  exact hf

theorem sameBuffer_writeOnePage (hw : Outcome) (data : List UInt8) (f : ExtSpiFlash) :
    SameBuffer f (bspSpiFlashWriteOnePage hw data f).2 := by
  unfold bspSpiFlashWriteOnePage
  dsimp only
  repeat' split
  all_goals exact ⟨rfl, rfl⟩

/-- A page is reported with its length or as -1. -/
theorem writeOnePage_result (hw : Outcome) (data : List UInt8) (f : ExtSpiFlash) :
    (bspSpiFlashWriteOnePage hw data f).1 = -1 ∨
      (bspSpiFlashWriteOnePage hw data f).1 = data.length := by
  unfold bspSpiFlashWriteOnePage
  dsimp only
  split
  · exact Or.inl rfl
  · split
    · split
      · exact Or.inl rfl
      · split
        · exact Or.inl rfl
        · exact Or.inr rfl
    · exact Or.inr rfl

theorem sameBuffer_writePages (hw : Outcome) (left n : Nat) (data : List UInt8)
    (f : ExtSpiFlash) : SameBuffer f (writePages hw left n data f).2 := by
  induction n generalizing data f with
  | zero => exact ⟨rfl, rfl⟩
  | succ n ih =>
      unfold writePages
      generalize (if n = 0 ∧ left ≠ 0 then left else pageSize) = length
      have hpage := sameBuffer_writeOnePage hw (data.take length) f
      dsimp only
      split
      · exact hpage
      · exact hpage.trans (ih _ _)

theorem sameBuffer_writeData (hw : Outcome) (data : List UInt8) (size : Nat) (f : ExtSpiFlash) :
    SameBuffer f (bspSpiFlashWriteData hw data size f).2 := by
  unfold bspSpiFlashWriteData
  simp only
  split <;> exact sameBuffer_writePages hw _ _ data f

/-- A full page is never reported as failed: the caller looks for the value 1,
    which neither -1 nor a length of 256 is. -/
theorem writeData_fullPage (hw : Outcome) (data : List UInt8) (f : ExtSpiFlash)
    (hdata : pageSize ≤ data.length) : (bspSpiFlashWriteData hw data pageSize f).1 = 256 := by
  have hlen : (data.take pageSize).length = 256 := List.length_take_of_le hdata
  have hne : (bspSpiFlashWriteOnePage hw (data.take pageSize) f).1 ≠ exitFailure := by
    intro h
    rcases writeOnePage_result hw (data.take pageSize) f with hr | hr
    · rw [h] at hr
      exact absurd hr (by decide)
    · rw [h, hlen] at hr
      exact absurd hr (by decide)
  have hcount : (pageSize + pageSize - 1) / pageSize = 0 + 1 := rfl
  have hmod : pageSize % pageSize = 0 := rfl
  simp only [bspSpiFlashWriteData, hcount, hmod, writePages, ne_eq, not_true_eq_false, and_false,
    if_false, if_neg hne, if_true]
  rfl

theorem writeFullPages_succeeds (hw : Outcome) (n i : Nat) (f : ExtSpiFlash)
    (hbuf : (i + n) * pageSize ≤ f.bufWrite.length) :
    (writeFullPages hw n i f).1 = true ∧ SameBuffer f (writeFullPages hw n i f).2 := by
  induction n generalizing i f with
  | zero => exact ⟨rfl, rfl, rfl⟩
  | succ n ih =>
      have hdata : pageSize ≤ (f.bufWrite.drop (i * pageSize)).length := by
        rw [List.length_drop]
        simp only [pageSize] at hbuf ⊢
        omega
      have hsame := sameBuffer_writeData hw (f.bufWrite.drop (i * pageSize)) pageSize f
      have hpos :
          ¬ (bspSpiFlashWriteData hw (f.bufWrite.drop (i * pageSize)) pageSize f).1 < 0 := by
        rw [writeData_fullPage hw _ f hdata]
        decide
      unfold writeFullPages
      simp only [if_neg hpos]
      have hbuf' : (i + 1 + n) * pageSize ≤ f.bufWrite.length := by
        rw [Nat.add_assoc, Nat.add_comm 1 n]
        exact hbuf
      have hrest := ih (i + 1)
        (bspSpiFlashWriteData hw (f.bufWrite.drop (i * pageSize)) pageSize f).2
        (by rw [hsame.1]; exact hbuf')
      exact ⟨hrest.1, hsame.trans hrest.2⟩

theorem length_memcpy {buf src : List UInt8} {off : Nat} (h : off + src.length ≤ buf.length) :
    (memcpy buf off src).length = buf.length := by
  unfold memcpy
  simp only [List.length_append, List.length_take, List.length_drop]
  omega

/-- Filling the buffer keeps it, wherever the chunk lies: no more is copied than
    the buffer has room for. -/
theorem buffered_fillBuffer (data : DataPtr) (left index : Nat) {f : ExtSpiFlash}
    (hf : Buffered f) : Buffered (fillBuffer data left index f).2.2 := by
  rcases hf with ⟨hlen, hfill⟩
  unfold fillBuffer
  simp only
  split
  · rename_i hfits
    have hsrc : (((data.bytes f).drop index).take left).length ≤ left := List.length_take_le _ _
    exact ⟨(length_memcpy (by rw [hlen]; omega)).trans hlen,
      Nat.le_trans (Nat.mod_le _ _) (Nat.le_of_lt hfits)⟩
  · have hsrc : (((data.bytes f).drop index).take (bufLength - f.leftBytesWrite)).length
        ≤ bufLength - f.leftBytesWrite := List.length_take_le _ _
    exact ⟨(length_memcpy (by rw [hlen]; omega)).trans hlen, Nat.le_refl bufLength⟩

theorem buffered_moveRemainder {n : Nat} {f : ExtSpiFlash} (hf : Buffered f)
    (hn : n * pageSize ≤ f.leftBytesWrite) : Buffered (moveRemainder n f) := by
  rcases hf with ⟨hlen, hfill⟩
  refine ⟨(length_memcpy ?_).trans hlen, Nat.le_trans (Nat.sub_le _ _) hfill⟩
  rw [List.length_take, List.length_drop]
  omega

/-- The writer keeps its buffer, and reports success whatever the hardware
    does. -/
theorem buffered_writeLoop (hw : Outcome) (data : DataPtr) (fuel left index : Nat)
    (f : ExtSpiFlash) (hf : Buffered f) :
    (writeLoop hw data fuel left index f).1 = true ∧
      Buffered (writeLoop hw data fuel left index f).2 := by
  induction fuel generalizing left index f with
  | zero => exact ⟨rfl, hf⟩
  | succ fuel ih =>
      have hfilled := buffered_fillBuffer data left index hf
      unfold writeLoop
      generalize fillBuffer data left index f = filled at hfilled ⊢
      rcases filled with ⟨left', index', g⟩
      simp only at hfilled ⊢
      have hpages : g.leftBytesWrite / pageSize * pageSize ≤ g.leftBytesWrite :=
        Nat.div_mul_le_self _ _
      rcases writeFullPages_succeeds hw (g.leftBytesWrite / pageSize) 0 g
        (by rw [Nat.zero_add, hfilled.1]; exact Nat.le_trans hpages hfilled.2) with ⟨hok, hsame⟩
      have hmoved : Buffered (moveRemainder (g.leftBytesWrite / pageSize)
          (writeFullPages hw (g.leftBytesWrite / pageSize) 0 g).2) :=
        buffered_moveRemainder (hsame.buffered hfilled) (by rw [hsame.2]; exact hpages)
      rw [if_neg (by rw [hok]; decide)]
      split
      · exact ih left' index' _ hmoved
      · exact ⟨rfl, hmoved⟩

/-- A call takes everything it is given, wherever the chunk lies. -/
theorem bspSpiFlashWrite_takes (hw : Outcome) (data : DataPtr) (size : Nat) (f : ExtSpiFlash)
    (hf : Buffered f) :
    (bspSpiFlashWrite hw data size f).1 = size ∧
      Buffered (bspSpiFlashWrite hw data size f).2 := by
  rcases buffered_writeLoop hw data (size % 65536 + 2) (size % 65536) 0 f hf with ⟨hok, hbuf⟩
  unfold bspSpiFlashWrite
  simp only [hok, if_true]
  exact ⟨trivial, hbuf⟩

theorem bspSpiFlashWrite_accepts (hw : Outcome) (bytes : List UInt8) (f : ExtSpiFlash)
    (hf : Buffered f) :
    (bspSpiFlashWrite hw (.mem bytes) bytes.length f).1 = bytes.length ∧
      Buffered (bspSpiFlashWrite hw (.mem bytes) bytes.length f).2 :=
  bspSpiFlashWrite_takes hw (.mem bytes) bytes.length f hf

theorem buffered_init (hw : Outcome) (startSector startAddress : Nat) (isWrite : Bool)
    {f : ExtSpiFlash} (hf : Buffered f) :
    Buffered (bspSpiFlashInit hw startSector startAddress isWrite f) := by
  unfold bspSpiFlashInit
  simp only [bspHwSpiFlashEraseSector, issue]
  split <;> exact ⟨hf.1, Nat.zero_le _⟩

theorem buffered_flush (hw : Outcome) {f : ExtSpiFlash} (hf : Buffered f) :
    Buffered (bspSpiFlashFlush hw f).2 := by
  unfold bspSpiFlashFlush
  split
  · exact (sameBuffer_writeData hw _ _ f).buffered hf
  · exact hf

/-- Which of the operations of the SPI flash and of the internal flash succeed. -/
structure UploadHw where
  spi : Outcome
  efc : Nat → Bool

/-- What an upload works on: the runtime configuration, the flash writer and
    the operations of the internal flash. -/
structure Device (ρ : Type) where
  runCfg : RuntimeCfg ρ
  flash : ExtSpiFlash
  efcOps : List (EfcOp ρ)
  buffered : Buffered flash

variable {ρ : Type}

/-- The type of the pending update. -/
def Device.fmType (d : Device ρ) : FmType := d.runCfg.firmUpdateInfo.type

/-- `_firmwareUpdateInit`: a fresh record of the given type, and the writer at
    the beginning of the staging region. -/
def firmwareUpdateInit (hw : UploadHw) (fmT : FmType) (d : Device ρ) : Device ρ :=
  let startSector := if fmT = .rtos then startSectorTempRtos else startSectorTempFpga
  { d with
    runCfg := { d.runCfg with
      firmUpdateInfo := { FmUpdate.zero with type := fmT, isWrite := true } }
    flash := bspSpiFlashInit hw.spi startSector (sectorAddress startSector) true d.flash
    buffered := buffered_init hw.spi _ _ _ d.buffered }

/-- `bspCfgSave` of the device's configuration. -/
def Device.save (hw : UploadHw) (cfgType : CfgType) (d : Device ρ) : Device ρ :=
  { d with efcOps := (bspCfgSave hw.efc d.runCfg cfgType d.efcOps).2 }

/-- `CANCEL_UPDATE` of the device's configuration. -/
def Device.cancel (d : Device ρ) : Device ρ :=
  { d with runCfg := cancelUpdate d.runCfg }

/-- `_firmwareUpdateEnd`: flush the writer, and save the configuration when an
    update is pending. Says whether it was saved. -/
def firmwareUpdateEnd (hw : UploadHw) (d : Device ρ) : Bool × Device ρ :=
  let d := { d with
    flash := (bspSpiFlashFlush hw.spi d.flash).2
    buffered := buffered_flush hw.spi d.buffered }
  if d.fmType = .rtos ∨ d.fmType = .fpga then
    (true, d.save hw .main)
  else
    (false, d)

/-- `_extUploadWrite`: the number of bytes written, as an unsigned short. The
    size is added to the record when the writer took everything. -/
def extUploadWrite (hw : UploadHw) (bytes : List UInt8) (d : Device ρ) : Nat × Device ρ :=
  let w := bspSpiFlashWrite hw.spi (.mem bytes) bytes.length d.flash
  let d := { d with
    flash := w.2
    buffered := (bspSpiFlashWrite_accepts hw.spi bytes d.flash d.buffered).2 }
  if w.1 ≠ bytes.length then
    (65535, d)
  else
    (bytes.length % 65536, { d with
      runCfg := { d.runCfg with firmUpdateInfo := { d.runCfg.firmUpdateInfo with
        size := (d.runCfg.firmUpdateInfo.size + bytes.length) % 2 ^ 32 } } })

/-- A write takes everything it is given, whatever the hardware does. -/
theorem extUploadWrite_accepts (hw : UploadHw) (bytes : List UInt8) (d : Device ρ) :
    (extUploadWrite hw bytes d).1 = bytes.length % 65536 := by
  unfold extUploadWrite
  simp only [(bspSpiFlashWrite_accepts hw.spi bytes d.flash d.buffered).1, ne_eq,
    not_true_eq_false, if_false]

theorem fmType_extUploadWrite (hw : UploadHw) (bytes : List UInt8) (d : Device ρ) :
    (extUploadWrite hw bytes d).2.fmType = d.fmType := by
  unfold extUploadWrite
  simp only
  split <;> rfl

theorem flash_extUploadWrite (hw : UploadHw) (bytes : List UInt8) (d : Device ρ) :
    (extUploadWrite hw bytes d).2.flash
      = (bspSpiFlashWrite hw.spi (.mem bytes) bytes.length d.flash).2 := by
  unfold extUploadWrite
  dsimp only
  split <;> rfl

theorem flash_firmwareUpdateEnd (hw : UploadHw) (d : Device ρ) :
    (firmwareUpdateEnd hw d).2.flash = (bspSpiFlashFlush hw.spi d.flash).2 := by
  unfold firmwareUpdateEnd
  dsimp only
  split <;> rfl

theorem runCfg_firmwareUpdateEnd (hw : UploadHw) (d : Device ρ) :
    (firmwareUpdateEnd hw d).2.runCfg = d.runCfg := by
  unfold firmwareUpdateEnd
  dsimp only
  split <;> rfl

theorem firmwareUpdateEnd_saves (hw : UploadHw) (d : Device ρ) :
    (firmwareUpdateEnd hw d).1 = true ↔ d.fmType = .rtos ∨ d.fmType = .fpga := by
  unfold firmwareUpdateEnd
  dsimp only
  split
  · exact iff_of_true rfl ‹_›
  · exact iff_of_false Bool.false_ne_true ‹_›

end Flash

end RtosLwip
