import RtosLwip.Flash.Tftp

/-!
# The Staging Regions

Firmware is uploaded into a staging region of the SPI flash, fifteen sectors for
the RTOS and sixty-four for the FPGA, one behind the other. An upload should stay
in its region, erase no more of it than it fills, and be refused when it is too
long.

It erases too much in one case. The sector behind a full one is erased as soon
as the last page of the full one has been programmed, whether more is to come or
not, and a short page counts as a full one. So an upload whose pages fill their
last sector erases one sector more, and when that was the last sector of the
region, it is the first one of the neighbour. And nothing is ever refused: the
only range check compares the sector with the number of pages of the chip.

Both ways to upload are treated alike. `issued_eq` says what either of them
issues, and what is left is arithmetic on the number of pages.

## Main definitions

* `Region`: A range of sectors, and `region`, the one of a firmware type.
* `FirmwareUpload`: An upload over HTTP or TFTP, from open to close.
* `KeepsRegion`: What an upload should do to the flash.
* `EndsInside`: The uploads that end inside of a sector of their region.

## Theorems

* `erases_pagesOps`: Which sectors a list of pages erases.
* `sector_pagesOps`: Which sectors it touches.
* `perform_accepts`: No upload is refused.
* `issued_eq`: What an upload issues.
* `keepsRegion_iff`: When an upload does what it should.
-/

namespace RtosLwip

namespace Flash

/-- `SFLASH_START_SECTOR_USER_ZONE`, behind the staging regions. -/
def startSectorUserZone : Nat := 208

/-- A range of sectors. -/
structure Region where
  start : Nat
  count : Nat

/-- The length of a region in bytes. -/
def Region.bytes (r : Region) : Nat := r.count * 65536

/-- The staging region for a type of firmware, up to where the next one starts. -/
def region (fmT : FmType) : Region :=
  if fmT = .rtos then ⟨startSectorTempRtos, startSectorTempFpga - startSectorTempRtos⟩
  else ⟨startSectorTempFpga, startSectorUserZone - startSectorTempFpga⟩

/-- The sector an operation erases or programs. -/
def FlashOp.sector : FlashOp → Option Nat
  | .erase sector => some sector
  | .program page _ => some (page / pagesInOneSector)
  | .read _ _ => none

/-- The sectors that are erased, in order. -/
def erases (ops : List FlashOp) : List Nat :=
  ops.filterMap fun
    | .erase sector => some sector
    | _ => none

theorem erases_append (a b : List FlashOp) : erases (a ++ b) = erases a ++ erases b :=
  List.filterMap_append

/-- Behind the first sector, one sector is erased for every 256 pages. -/
theorem erases_pagesOps (s : Nat) (pages : List (List UInt8)) :
    erases (pagesOps s pages) = List.range' (s + 1) (pages.length / pagesInOneSector) := by
  have hpp : pagesInOneSector = 256 := rfl
  induction pages using List.reverseRecOn with
  | nil => rfl
  | append_singleton rest d ih =>
      rw [pagesOps_append_one, erases_append, ih, List.length_append, List.length_singleton]
      by_cases hfull : (rest.length + 1) % pagesInOneSector = 0
      · have hnext : (rest.length + 1) / pagesInOneSector
            = rest.length / pagesInOneSector + 1 := by
          simp only [hpp] at hfull ⊢
          omega
        have hone : erases (pageOps s rest.length d)
            = [s + 1 + rest.length / pagesInOneSector] := by
          rw [pageOps_full s _ d hfull, hnext, Nat.add_right_comm, ← Nat.add_assoc]
          rfl
        rw [hone, hnext, List.range'_concat, Nat.one_mul]
      · have hsame : (rest.length + 1) / pagesInOneSector = rest.length / pagesInOneSector := by
          simp only [hpp] at hfull ⊢
          omega
        rw [pageOps_not_full s _ d hfull, hsame]
        exact List.append_nil _

/-- The sectors touched start with `s` and go as far as the last erase. -/
theorem sector_pagesOps (s : Nat) (pages : List (List UInt8)) :
    ∀ op ∈ pagesOps s pages, ∀ sector, op.sector = some sector →
      s ≤ sector ∧ sector ≤ s + pages.length / pagesInOneSector := by
  have hpp : pagesInOneSector = 256 := rfl
  induction pages using List.reverseRecOn with
  | nil =>
      intro op hop
      exact absurd hop List.not_mem_nil
  | append_singleton rest d ih =>
      intro op hop sector hsec
      rw [pagesOps_append_one] at hop
      rw [List.length_append, List.length_singleton]
      rcases List.mem_append.mp hop with hop | hop
      · have := ih op hop sector hsec
        simp only [hpp] at this ⊢
        omega
      · -- the page's own sector, or the one behind it
        rw [pageOps, List.mem_cons] at hop
        rcases hop with rfl | hop
        · simp only [FlashOp.sector, Option.some.injEq, sectorToPage] at hsec
          simp only [hpp] at hsec ⊢
          omega
        · split at hop
          · rw [List.mem_singleton] at hop
            rw [hop, FlashOp.sector, Option.some.injEq] at hsec
            simp only [hpp] at hsec ⊢
            omega
          · exact absurd hop List.not_mem_nil

/-- An upload, by the blocks it arrives in: the pieces of a request body, or the
    packets of a transfer. -/
inductive FirmwareUpload where
  | http (fmT : FmType) (chunks : List (List UInt8))
  | tftp (fname : List UInt8) (packets : List (List UInt8))

namespace FirmwareUpload

/-- The type of firmware that is uploaded. -/
def fmType : FirmwareUpload → FmType
  | .http fmT _ => fmT
  | .tftp fname _ => tftpType fname

/-- The blocks of the upload. -/
def blocks : FirmwareUpload → List (List UInt8)
  | .http _ chunks => chunks
  | .tftp _ packets => packets

/-- The number of bytes uploaded. -/
def size (up : FirmwareUpload) : Nat := up.blocks.flatten.length

variable {ρ : Type}

/-- A write of an HTTP upload, which is taken when the length comes back. -/
def httpWrite (hw : UploadHw) (bytes : List UInt8) (d : Device ρ) : Bool × Device ρ :=
  ((extUploadWrite hw bytes d).1 = bytes.length, (extUploadWrite hw bytes d).2)

/-- An upload from open to close, and whether every write was taken. -/
def perform (hw : UploadHw) (d : Device ρ) : FirmwareUpload → Bool × Device ρ
  | .http fmT chunks =>
    let w := writeAll (httpWrite hw) chunks (firmwareUpdateInit hw fmT d)
    (w.1, (firmwareUpdateEnd hw w.2).2)
  | .tftp fname packets =>
    let w := writeAll (extTftpWrite hw) packets (extTftpOpen hw fname d)
    (w.1, extTftpClose hw w.2)

/-- The operations of the flash chip between open and close. -/
def issued (hw : UploadHw) (d : Device ρ) (up : FirmwareUpload) : List FlashOp :=
  (up.perform hw d).2.flash.ops.drop d.flash.ops.length

theorem httpWrite_accepts (hw : UploadHw) (bytes : List UInt8) (d : Device ρ)
    (hlen : bytes.length ≤ 65535) : (httpWrite hw bytes d).1 = true := by
  rw [httpWrite, extUploadWrite_accepts, Nat.mod_eq_of_lt (by omega)]
  exact decide_eq_true rfl

/-- No upload is refused, however long it is and whatever the hardware does. -/
theorem perform_accepts (hw : UploadHw) (up : FirmwareUpload)
    (hlen : ∀ block ∈ up.blocks, block.length ≤ 65535) (d : Device ρ) :
    (up.perform hw d).1 = true := by
  cases up with
  | http fmT chunks =>
      simp only [perform, writeAll_accepts (httpWrite_accepts hw) chunks _ hlen]
  | tftp fname packets =>
      simp only [perform, writeAll_accepts (P := fun _ => True)
        (fun p c _ => extTftpWrite_accepts hw p c) packets _ fun _ _ => trivial]

theorem flash_run_httpWrite (hw : UploadHw) (chunks : List (List UInt8)) (d : Device ρ) :
    (run (fun d c => (httpWrite hw c d).2) d chunks).flash
      = writeChunks hw.spi d.flash chunks := by
  induction chunks generalizing d with
  | nil => rfl
  | cons c rest ih =>
      have hone : (httpWrite hw c d).2.flash
          = (bspSpiFlashWrite hw.spi (.mem c) c.length d.flash).2 :=
        flash_extUploadWrite hw c d
      rw [run_cons, ih, hone]
      rfl

theorem flash_firmwareUpdateInit (hw : UploadHw) (fmT : FmType) (d : Device ρ) :
    (firmwareUpdateInit hw fmT d).flash
      = bspSpiFlashInit hw.spi (region fmT).start (sectorAddress (region fmT).start) true
        d.flash := by
  unfold firmwareUpdateInit region
  by_cases hrtos : fmT = .rtos
  · simp only [if_pos hrtos]
  · simp only [if_neg hrtos]

/-- A context that has been opened has nothing collected, behind the erase of the
    first sector of its region. -/
theorem collected_extTftpOpen (hw : UploadHw) (fname : List UInt8) (d : Device ρ) :
    Collected (region (tftpType fname)).start
      (d.flash.ops ++ [.erase (region (tftpType fname)).start]) [] [] (extTftpOpen hw fname d) := by
  have hstart : (region (tftpType fname)).start < 65536 := by
    unfold region
    split <;> decide
  have hflash : (extTftpOpen hw fname d).dev.flash
      = bspSpiFlashInit hw.spi (region (tftpType fname)).start
        (sectorAddress (region (tftpType fname)).start) true d.flash :=
    flash_firmwareUpdateInit hw (tftpType fname) d
  refine ⟨?_, ?_⟩
  · rw [hflash]
    rfl
  · rw [hflash]
    exact staged_init hw.spi _ (sectorAddress (region (tftpType fname)).start) d.flash hstart

/-- What an upload issues: the erase of the first sector of its region, and its
    pages from there on, the last one possibly short. -/
theorem issued_eq {hw : UploadHw} (hok : ∀ n, hw.spi n = true) (up : FirmwareUpload)
    (hlen : ∀ block ∈ up.blocks, block.length ≤ 65535) (d : Device ρ)
    (hfit : sectorAddress (region up.fmType).start + up.size ≤ capacity) :
    ∃ pages, up.issued hw d
        = .erase (region up.fmType).start :: pagesOps (region up.fmType).start pages ∧
      pages.length = (up.size + 255) / pageSize := by
  have hdrop : ∀ {s : Nat} {pages : List (List UInt8)} {ops : List FlashOp},
      ops = d.flash.ops ++ [.erase s] ++ pagesOps s pages →
      ops.drop d.flash.ops.length = .erase s :: pagesOps s pages := by
    intro s pages ops h
    rw [h, List.append_assoc, List.drop_left]
    rfl
  cases up with
  | http fmT chunks =>
      rcases upload_ops hok (region fmT).start (sectorAddress (region fmT).start) chunks d.flash
        hlen hfit with ⟨pages, last, hops, -, -, -, hcount⟩
      refine ⟨pages ++ last, hdrop ?_, hcount⟩
      simp only [perform, writeAll_accepts (httpWrite_accepts hw) chunks _ hlen]
      rw [flash_firmwareUpdateEnd, flash_run_httpWrite, flash_firmwareUpdateInit]
      exact hops
  | tftp fname packets =>
      simp only [size, blocks, fmType, sectorAddress, capacity] at hfit ⊢
      have hempty : (extTftpOpen hw fname d).dataIndex < bufLength := by
        change 0 < 1024
        decide
      rcases collected_run hok _ _ packets [] [] _ hempty (collected_extTftpOpen hw fname d) (by
        simp only [List.nil_append, Fits, pagesInOneSector, pageSize]
        omega) with ⟨ps, hcol, -⟩
      rcases extTftpClose_ops hok hcol (by
        simp only [List.nil_append, Fits, pagesInOneSector, pageSize]
        omega) with ⟨pages, last, hops, -, -, -, hcount⟩
      refine ⟨pages ++ last, hdrop ?_, hcount⟩
      simp only [perform, writeAll_accepts (P := fun _ => True)
        (fun p c _ => extTftpWrite_accepts hw p c) packets _ fun _ _ => trivial]
      exact hops

/-- What an upload of `n` bytes should do to the flash: it stays in its region,
    erases as much of it as it fills, and is refused when it does not fit. -/
structure KeepsRegion (r : Region) (n : Nat) (accepted : Bool) (ops : List FlashOp) : Prop where
  inside : ∀ op ∈ ops, ∀ sector, op.sector = some sector →
    r.start ≤ sector ∧ sector < r.start + r.count
  erased : 0 < n → n ≤ r.bytes → erases ops = List.range' r.start ((n + 65535) / 65536)
  refused : r.bytes < n → accepted = false

/-- Nothing is uploaded, or it fits into the region and its pages, the last one
    counted whole, end inside of a sector. -/
def EndsInside (r : Region) (n : Nat) : Prop :=
  n = 0 ∨ (n ≤ r.bytes ∧ (n + 255) / 256 % 256 ≠ 0)

instance (r : Region) (n : Nat) : Decidable (EndsInside r n) :=
  inferInstanceAs (Decidable (_ ∨ _))

/-- The regions lie inside of the chip. -/
theorem region_fits (fmT : FmType) :
    sectorAddress (region fmT).start + (region fmT).bytes ≤ capacity ∧ 0 < (region fmT).count := by
  unfold region
  split <;> decide

/-- The sectors an upload erases that fits into its region: one more than its
    pages fill. -/
theorem erases_issued {hw : UploadHw} (hok : ∀ n, hw.spi n = true) (up : FirmwareUpload)
    (hlen : ∀ block ∈ up.blocks, block.length ≤ 65535) (d : Device ρ)
    (hsize : up.size ≤ (region up.fmType).bytes) :
    erases (up.issued hw d)
      = List.range' (region up.fmType).start ((up.size + 255) / 256 / 256 + 1) := by
  have hregion := (region_fits up.fmType).1
  rcases issued_eq hok up hlen d (by omega) with ⟨pages, hops, hcount⟩
  have hcons : ∀ ops, erases (.erase (region up.fmType).start :: ops)
      = (region up.fmType).start :: erases ops := fun _ => rfl
  rw [hops, hcons, erases_pagesOps, hcount, List.range'_succ]
  rfl

/-- An upload does what it should exactly when nothing is uploaded, or it fits and
    its pages end inside of a sector: a longer one is not refused, and one that
    fills its last sector erases the sector behind it. -/
theorem keepsRegion_iff (hw : UploadHw) (hok : ∀ n, hw.spi n = true) (up : FirmwareUpload)
    (hlen : ∀ block ∈ up.blocks, block.length ≤ 65535) (d : Device ρ) :
    KeepsRegion (region up.fmType) up.size (up.perform hw d).1 (up.issued hw d)
      ↔ EndsInside (region up.fmType) up.size := by
  have hps : pageSize = 256 := rfl
  have hpp : pagesInOneSector = 256 := rfl
  have hregion := region_fits up.fmType
  constructor
  · intro h
    by_cases hzero : up.size = 0
    · exact Or.inl hzero
    right
    have hfits : up.size ≤ (region up.fmType).bytes := by
      by_contra hlong
      have hrefused := h.refused (Nat.lt_of_not_le hlong)
      rw [perform_accepts hw up hlen d] at hrefused
      exact absurd hrefused (by decide)
    refine ⟨hfits, fun hfull => ?_⟩
    -- the number of sectors erased is one too many
    have hboth := (erases_issued hok up hlen d hfits).symm.trans
      (h.erased (Nat.pos_of_ne_zero hzero) hfits)
    have hcount := congrArg List.length hboth
    rw [List.length_range', List.length_range'] at hcount
    omega
  · intro h
    have hfits : up.size ≤ (region up.fmType).bytes := by
      rcases h with hzero | ⟨hfits, -⟩
      · rw [hzero]
        exact Nat.zero_le _
      · exact hfits
    have hlast : (up.size + 255) / 256 / 256 < (region up.fmType).count := by
      rcases h with hzero | ⟨-, hends⟩
      · rw [hzero]
        exact hregion.2
      · unfold Region.bytes at hfits
        omega
    refine ⟨?_, fun hpos _ => ?_, fun hlong => ?_⟩
    · rcases issued_eq hok up hlen d (by omega) with ⟨pages, hops, hcount⟩
      rw [hps] at hcount
      intro op hop sector hsec
      rw [hops, List.mem_cons] at hop
      rcases hop with rfl | hop
      · rw [FlashOp.sector, Option.some.injEq] at hsec
        omega
      · have hbounds := sector_pagesOps _ pages op hop sector hsec
        rw [hcount, hpp] at hbounds
        omega
    · rw [erases_issued hok up hlen d hfits]
      congr 1
      rcases h with hzero | ⟨-, hends⟩ <;> omega
    · exact absurd hlong (Nat.not_lt_of_le hfits)

/-- A device with nothing in its flash yet. -/
def blankDevice : Device Unit where
  runCfg := ⟨.zero, ()⟩
  flash := ⟨0, 0, 0, 0, 0, 0, List.replicate bufLength 0, []⟩
  efcOps := []
  buffered := ⟨List.length_replicate, Nat.zero_le _⟩

theorem keepsRegion_iff_three :
    KeepsRegion (region .fpga) 3
      (perform ⟨fun _ => true, fun _ => true⟩ blankDevice (.http .fpga [[1, 2], [3]])).1
      (issued ⟨fun _ => true, fun _ => true⟩ blankDevice (.http .fpga [[1, 2], [3]])) :=
  (keepsRegion_iff ⟨fun _ => true, fun _ => true⟩ (fun _ => rfl) (.http .fpga [[1, 2], [3]])
    (by decide) blankDevice).mpr (by decide)

/-- An RTOS image of 960 KB in packets of 512 bytes, which is as much as its region
    holds: the first sector of the FPGA's region is erased. -/
theorem not_keepsRegion_fullRegion :
    ¬ KeepsRegion (region .rtos) (15 * 65536)
      (perform ⟨fun _ => true, fun _ => true⟩ blankDevice
        (.tftp (ascii "firmOs") (List.replicate 1920 (List.replicate 512 0)))).1
      (issued ⟨fun _ => true, fun _ => true⟩ blankDevice
        (.tftp (ascii "firmOs") (List.replicate 1920 (List.replicate 512 0)))) := by
  intro h
  have hsize : (FirmwareUpload.tftp (ascii "firmOs")
      (List.replicate 1920 (List.replicate 512 0))).size = 15 * 65536 := by
    simp only [size, blocks, List.length_flatten, List.map_replicate, List.length_replicate,
      List.sum_replicate_nat]
  have hblocks : ∀ block ∈ (FirmwareUpload.tftp (ascii "firmOs")
      (List.replicate 1920 (List.replicate 512 0))).blocks, block.length ≤ 65535 := by
    intro block hblock
    rw [(List.mem_replicate.mp hblock).2, List.length_replicate]
    decide
  have hok : ∀ n, (⟨fun _ => true, fun _ => true⟩ : UploadHw).spi n = true := fun _ => rfl
  have herased := erases_issued hok _ hblocks blankDevice (by rw [hsize]; decide +kernel)
  have hshould := h.erased (by decide) (by decide)
  have hcount := congrArg List.length (herased.symm.trans hshould)
  rw [hsize, List.length_range', List.length_range'] at hcount
  exact absurd hcount (by decide)

end FirmwareUpload

end Flash

end RtosLwip
