import Mathlib.Data.List.Infix
import RtosLwip.Boot.Update
import RtosLwip.Flash.Flashd
import RtosLwip.Flash.Writer

/-!
# Where the Bootloader Copies To

The copy of an RTOS image reads blocks of 1024 bytes, writes pages of 512 and
erases blocks of 16 pages, one whenever it comes to the first page of such a
block. The OS area starts with a block, so nothing is written that has not been
erased, and nothing is erased behind a write.

The area ends at page 2016, where the configuration is. The size that decides
where the copy ends comes from the update record, and nothing compares it with
the area. `bootUpdateRtos_keeps_iff` says that the copy stays in the area
exactly when the recorded size does: the first byte more takes the configuration
with it.

## Main definitions

* `imageOps`: The operations of a copy.
* `imageCommands`: Its commands, page by page.
* `CopiesImage`: What a copy asks the flash for.
* `UpdatesOsArea`: What the update should do.

## Theorems

* `rtosLoop_ops`: The loop issues the operations of the copy, or the first of
  them.
* `commands_imageOps`: Their commands.
* `copiesImage_imageCommands`: These are a copy.
* `bootUpdateRtos_keeps_iff`: When the update keeps to the OS area.
-/

namespace RtosLwip

namespace Boot

open Flash

variable {ρ : Type}

/-- The number of blocks an image of `size` bytes has, the last one in part. -/
def blockCount (size : Nat) : Nat := (size + bufLength - 1) / bufLength

/-- The length of the OS area in bytes, up to the configuration. -/
def osAreaBytes : Nat := (startPageConfiguration - startPageOs) * iflashPageSize

/-- `length` bytes of the staged image from `offset` on, where the SPI flash
    holds `content`. -/
def staged (content : Nat → UInt8) (offset length : Nat) : List UInt8 :=
  (List.range length).map fun k => content (sectorAddress startSectorTempRtos + offset + k)

theorem length_staged (content : Nat → UInt8) (offset length : Nat) :
    (staged content offset length).length = length := by
  rw [staged, List.length_map, List.length_range]

theorem staged_append (content : Nat → UInt8) (offset a b : Nat) :
    staged content offset a ++ staged content (offset + a) b = staged content offset (a + b) := by
  simp only [staged, List.range_add, List.map_append, List.map_map, Function.comp_def,
    Nat.add_assoc]

theorem take_staged (content : Nat → UInt8) (offset a b : Nat) :
    (staged content offset (a + b)).take a = staged content offset a := by
  rw [← staged_append, List.take_left' (length_staged ..)]

theorem drop_staged (content : Nat → UInt8) (offset a b : Nat) :
    (staged content offset (a + b)).drop a = staged content (offset + a) b := by
  rw [← staged_append, List.drop_left' (length_staged ..)]

/-- The operations for block number `j` of the image. -/
def blockOps (content : Nat → UInt8) (j : Nat) : List (EfcOp ρ) :=
  let page := startPageOs + 2 * j
  (if page % eraseCount = 0 then [.erase page] else []) ++
    [.write page (staged content (bufLength * j) bufLength)]

/-- The operations for `n` blocks from number `j` on. -/
def imageOps (content : Nat → UInt8) (j n : Nat) : List (EfcOp ρ) :=
  (List.range' j n).flatMap (blockOps content)

theorem imageOps_succ (content : Nat → UInt8) (j n : Nat) :
    (imageOps content j (n + 1) : List (EfcOp ρ))
      = blockOps content j ++ imageOps content (j + 1) n := by
  simp only [imageOps, List.range'_succ, List.flatMap_cons]

/-- Programming one block issues its operations when it succeeds, and the first
    of them, if any, when it does not. -/
theorem efcFlashProgram_blockOps (ok : Nat → Bool) (content : Nat → UInt8) (j : Nat)
    (ops : List (EfcOp ρ)) :
    ∃ added, (efcFlashProgram ok (startPageOs + 2 * j) (.write (startPageOs + 2 * j)
        (staged content (bufLength * j) bufLength)) ops).2 = ops ++ added ∧
      added <+: blockOps content j ∧
      ((efcFlashProgram ok (startPageOs + 2 * j) (.write (startPageOs + 2 * j)
        (staged content (bufLength * j) bufLength)) ops).1 = true →
        added = blockOps content j) := by
  simp only [efcFlashProgram, efcIssue, blockOps]
  by_cases hfirst : (startPageOs + 2 * j) % eraseCount = 0
  · rw [if_pos hfirst, if_pos hfirst]
    by_cases herase : ok ops.length = true
    · simp only [herase, if_true, List.append_assoc]
      exact ⟨_, rfl, List.prefix_refl _, fun _ => rfl⟩
    · simp only [herase, if_false, Bool.false_eq_true]
      exact ⟨_, rfl, List.prefix_append _ _, fun h => absurd h (by decide)⟩
  · rw [if_neg hfirst, if_neg hfirst]
    exact ⟨_, rfl, List.prefix_refl _, fun _ => rfl⟩

section Loop

variable {hw : BootHw} {content : Nat → UInt8}

/-- The bytes a read of one block delivers, when the chip delivers what it
    holds. -/
theorem readBytes_block (hcontent : ∀ n a, hw.spiByte n a = content a) (n j : Nat) :
    readBytes hw n (sectorAddress startSectorTempRtos + bufLength * j) bufLength
      = staged content (bufLength * j) bufLength := by
  simp only [readBytes, staged, hcontent]

/-- From block `j` on, the loop issues the operations of the blocks still to
    come when it reaches the size, and the first of them when it does not. -/
theorem rtosLoop_ops (hcontent : ∀ n a, hw.spiByte n a = content a) {size : Nat}
    (hsize : size ≤ 2 ^ 32 - bufLength) :
    ∀ (fuel j : Nat) (st st' : BootState ρ) (length : Nat),
      st.flash.startAddress = sectorAddress startSectorTempRtos →
      st.flash.offsetRead = bufLength * j →
      rtosLoop hw size fuel (startPageOs + 2 * j) (bufLength * j) st = some (length, st') →
      ∃ added, st'.efcOps = st.efcOps ++ added ∧
        added <+: imageOps content j (blockCount size - j) ∧
        (size ≤ length → added = imageOps content j (blockCount size - j)) := by
  have hbuf : bufLength = 1024 := rfl
  intro fuel
  induction fuel with
  | zero =>
      intro j st st' length _ _ h
      exact absurd h (by simp only [rtosLoop, reduceCtorEq, not_false_eq_true])
  | succ fuel ih =>
      intro j st st' length hstart hoff h
      rw [rtosLoop] at h
      by_cases hmore : bufLength * j < size
      · have hleft : blockCount size - j = blockCount size - (j + 1) + 1 := by
          simp only [blockCount, hbuf] at hmore ⊢
          omega
        have hwrap : (bufLength * j + bufLength) % 2 ^ 32 = bufLength * (j + 1) := by
          simp only [hbuf] at hmore hsize ⊢
          omega
        have hpage : startPageOs + 2 * j + 2 = startPageOs + 2 * (j + 1) := by omega
        simp only [if_pos hmore, bspSpiFlashRead, issue, hstart, hoff,
          readBytes_block hcontent] at h
        by_cases hread : hw.spi st.flash.ops.length = true
        · have hpos : ¬ ((bufLength : Nat) : Int) < 0 := by simp only [bufLength]; omega
          simp only [hread, if_true, if_neg hpos] at h
          rcases efcFlashProgram_blockOps hw.efc content j st.efcOps with
            ⟨added, hadd, hprefix, hwhole⟩
          by_cases hprog : (efcFlashProgram hw.efc (startPageOs + 2 * j)
              (.write (startPageOs + 2 * j) (staged content (bufLength * j) bufLength))
              st.efcOps).1 = false
          · -- the block could not be programmed
            rw [if_pos hprog, Option.some.injEq, Prod.mk.injEq] at h
            rcases h with ⟨rfl, rfl⟩
            refine ⟨added, hadd, ?_, fun hle => absurd hle (by omega)⟩
            rw [hleft, imageOps_succ]
            exact hprefix.trans (List.prefix_append _ _)
          · rw [if_neg hprog, Int.toNat_natCast, hwrap, hpage] at h
            rcases ih (j + 1) _ _ _ rfl rfl h with ⟨rest, hr, hrp, hrw⟩
            have hblock := hwhole (by simpa only [Bool.not_eq_false] using hprog)
            refine ⟨added ++ rest, ?_, ?_, ?_⟩
            · rw [hr, hadd, List.append_assoc]
            · rw [hleft, imageOps_succ, hblock]
              exact (List.prefix_append_right_inj _).mpr hrp
            · intro hle
              rw [hleft, imageOps_succ, hblock, hrw hle]
        · -- the block could not be read
          simp only [hread, if_false, Bool.false_eq_true, Int.reduceNeg, Int.reduceLT, if_true,
            Option.some.injEq, Prod.mk.injEq] at h
          rcases h with ⟨rfl, rfl⟩
          exact ⟨[], (List.append_nil _).symm, List.nil_prefix, fun hle => absurd hle (by omega)⟩
      · rw [if_neg hmore, Option.some.injEq, Prod.mk.injEq] at h
        rcases h with ⟨rfl, rfl⟩
        have hnone : blockCount size - j = 0 := by
          simp only [blockCount, hbuf] at hmore ⊢
          omega
        refine ⟨[], (List.append_nil _).symm, List.nil_prefix, fun _ => ?_⟩
        rw [hnone]
        rfl

/-- The copied length is a number of blocks, whether it has wrapped or not. -/
theorem rtosLoop_length (size : Nat) :
    ∀ (fuel page total : Nat) (st st' : BootState ρ) (length : Nat),
      total % bufLength = 0 → total < 2 ^ 32 →
      rtosLoop hw size fuel page total st = some (length, st') →
      length % bufLength = 0 ∧ length < 2 ^ 32 := by
  have hbuf : bufLength = 1024 := rfl
  intro fuel
  induction fuel with
  | zero =>
      intro page total st st' length _ _ h
      exact absurd h (by simp only [rtosLoop, reduceCtorEq, not_false_eq_true])
  | succ fuel ih =>
      intro page total st st' length hmod hlt h
      rw [rtosLoop] at h
      by_cases hmore : total < size
      · simp only [if_pos hmore] at h
        by_cases hread : (bspSpiFlashRead hw.spi bufLength st.flash).1 < 0
        · simp only [if_pos hread, Option.some.injEq, Prod.mk.injEq] at h
          rw [← h.1]
          exact ⟨hmod, hlt⟩
        · simp only [if_neg hread] at h
          split at h
          · simp only [Option.some.injEq, Prod.mk.injEq] at h
            rw [← h.1]
            exact ⟨hmod, hlt⟩
          · refine ih _ _ _ _ _ ?_ (Nat.mod_lt _ (by decide)) h
            -- what was read is a block
            have hlen : (bspSpiFlashRead hw.spi bufLength st.flash).1.toNat = bufLength := by
              simp only [bspSpiFlashRead] at hread ⊢
              by_cases hok : (issue hw.spi (.read (st.flash.startAddress + st.flash.offsetRead)
                  bufLength) st.flash).1 = true
              · simp only [hok, if_true, Int.toNat_natCast]
              · simp only [hok, if_false, Bool.false_eq_true] at hread
                omega
            rw [hlen, hbuf] at *
            omega
      · rw [if_neg hmore, Option.some.injEq, Prod.mk.injEq] at h
        rw [← h.1]
        exact ⟨hmod, hlt⟩

end Loop

/-- The commands for page number `i` of the image. -/
def pageCommands (content : Nat → UInt8) (i : Nat) : List EefcCmd :=
  (if (startPageOs + i) % eraseCount = 0 then [.erasePages (startPageOs + i)] else []) ++
    [.writePage (startPageOs + i) (staged content (iflashPageSize * i) iflashPageSize)]

/-- The commands for the first `n` pages of the image. -/
def imageCommands (content : Nat → UInt8) (n : Nat) : List EefcCmd :=
  (List.range n).flatMap (pageCommands content)

theorem imageCommands_succ (content : Nat → UInt8) (n : Nat) :
    imageCommands content (n + 1) = imageCommands content n ++ pageCommands content n := by
  simp only [imageCommands, List.range_succ, List.flatMap_append, List.flatMap_singleton]

section Commands

variable (image : RuntimeCfg ρ → List UInt8)

/-- The erase of a block, which begins with a page of the flash. -/
theorem erase_commands (flash : Nat → UInt8) {page : Nat} (hfirst : page % eraseCount = 0)
    (hpage : page < 2 ^ 23) :
    (EfcOp.erase page).commands image flash = [.erasePages page] := by
  have hps : iflashPageSize = 512 := rfl
  have hec : eraseCount = 16 := rfl
  have hmod : page * iflashPageSize % 2 ^ 32 = page * iflashPageSize := by
    rw [hps]
    omega
  have haligned : ¬ page * iflashPageSize % (eraseCount * iflashPageSize) ≠ 0 := by
    rw [hec] at hfirst ⊢
    rw [hps]
    omega
  rw [EfcOp.commands, hmod, flashdEraseBlock, if_neg haligned, Nat.mul_div_cancel _ (by omega)]

/-- The write of block `j`, which must end inside of the flash: two pages, of
    which nothing is read back. -/
theorem write_commands (flash : Nat → UInt8) (content : Nat → UInt8) {j : Nat}
    (hrange : startPageOs + 2 * j + 2 ≤ iflashPages) :
    (EfcOp.write (startPageOs + 2 * j) (staged content (bufLength * j) bufLength)).commands
        image flash
      = [.writePage (startPageOs + 2 * j) (staged content (iflashPageSize * (2 * j))
          iflashPageSize),
        .writePage (startPageOs + (2 * j + 1)) (staged content (iflashPageSize * (2 * j + 1))
          iflashPageSize)] := by
  have hps : iflashPageSize = 512 := rfl
  have hfs : iflashSize = 1048576 := rfl
  have hfp : iflashPages = 2048 := rfl
  have hmod : (startPageOs + 2 * j) * iflashPageSize % 2 ^ 32
      = (startPageOs + 2 * j) * iflashPageSize := by
    rw [hps]
    omega
  have hin : (startPageOs + 2 * j + 2) * iflashPageSize ≤ iflashSize := by
    rw [hps, hfs]
    omega
  have hoff : bufLength * j = iflashPageSize * (2 * j) := by
    simp only [bufLength, iflashPageSize]
    omega
  have hlen : (staged content (bufLength * j) bufLength).length = 2 * iflashPageSize :=
    length_staged ..
  rw [EfcOp.commands, hmod, flashdWrite_twoPages _ _ _ hlen hin, hoff,
    show bufLength = iflashPageSize + iflashPageSize from rfl, take_staged, drop_staged,
    Nat.mul_add iflashPageSize, Nat.mul_one, Nat.add_assoc]

/-- The operations of a block read nothing back. -/
theorem blockOps_commands {content : Nat → UInt8} {j : Nat}
    (hrange : startPageOs + 2 * j + 2 ≤ iflashPages) :
    ∀ op ∈ blockOps content j, ∀ flash,
      EfcOp.commands image flash op = EfcOp.commands image (fun _ => 0) op := by
  have hfp : iflashPages = 2048 := rfl
  intro op hop flash
  rcases List.mem_append.mp hop with hop | hop
  · split at hop
    · rename_i hfirst
      rw [List.mem_singleton.mp hop, erase_commands image _ hfirst (by omega),
        erase_commands image _ hfirst (by omega)]
    · exact absurd hop List.not_mem_nil
  · rw [List.mem_singleton.mp hop, write_commands image _ _ hrange,
      write_commands image _ _ hrange]

/-- The commands of a block are those of its two pages. -/
theorem flatMap_blockOps {content : Nat → UInt8} {j : Nat}
    (hrange : startPageOs + 2 * j + 2 ≤ iflashPages) :
    (blockOps content j).flatMap (EfcOp.commands image fun _ => 0)
      = pageCommands content (2 * j) ++ pageCommands content (2 * j + 1) := by
  have hfp : iflashPages = 2048 := rfl
  have hodd : ¬ (startPageOs + (2 * j + 1)) % eraseCount = 0 := by
    simp only [startPageOs, eraseCount]
    omega
  simp only [blockOps, pageCommands, if_neg hodd, List.nil_append, List.flatMap_append,
    List.flatMap_singleton, write_commands image _ _ hrange, List.append_assoc,
    List.cons_append]
  by_cases hfirst : (startPageOs + 2 * j) % eraseCount = 0
  · rw [if_pos hfirst, if_pos hfirst, List.flatMap_singleton,
      erase_commands image _ hfirst (by omega)]
  · rw [if_neg hfirst, if_neg hfirst, List.flatMap_nil]

/-- The commands of a copy of `n` blocks, page by page. -/
theorem commands_imageOps (content : Nat → UInt8) {n : Nat}
    (hrange : startPageOs + 2 * n ≤ iflashPages) (flash : Nat → Nat → UInt8) :
    commands image flash (imageOps content 0 n) = imageCommands content (2 * n) := by
  have hwhole : ∀ op ∈ imageOps content 0 n, ∀ flash,
      EfcOp.commands image flash op = EfcOp.commands image (fun _ => 0) op := by
    intro op hop
    rcases List.mem_flatMap.mp hop with ⟨j, hj, hop⟩
    rw [List.mem_range'_1] at hj
    exact blockOps_commands image (by omega) op hop
  rw [commands_of_whole hwhole]
  clear hwhole
  induction n with
  | zero => rfl
  | succ n ih =>
      have hsplit : (imageOps content 0 (n + 1) : List (EfcOp ρ))
          = imageOps content 0 n ++ blockOps content n := by
        simp only [imageOps, List.range'_1_concat, List.flatMap_append, List.flatMap_singleton,
          Nat.zero_add]
      rw [hsplit, List.flatMap_append, ih (by omega), flatMap_blockOps image (by omega),
        show 2 * (n + 1) = 2 * n + 1 + 1 by omega, imageCommands_succ, imageCommands_succ,
        List.append_assoc]

end Commands

/-- Every block is erased before the first write into it. -/
def BlocksErasedFirst (cmds : List EefcCmd) : Prop :=
  ∀ pre post page data, cmds = pre ++ .writePage page data :: post →
    .erasePages (page / eraseCount * eraseCount) ∈ pre

/-- No block is erased after a write into it. -/
def BlocksNotErasedAfter (cmds : List EefcCmd) : Prop :=
  ∀ pre post first, cmds = pre ++ .erasePages first :: post →
    ∀ page data, .writePage page data ∈ pre → page / eraseCount * eraseCount ≠ first

/-- What a copy of an image of `size` bytes asks the flash for: the pages of the
    OS area in order, the staged bytes in order, and blocks erased first. -/
structure CopiesImage (content : Nat → UInt8) (size : Nat) (cmds : List EefcCmd) : Prop where
  pages : (writtenPages cmds).map Prod.fst = List.range' startPageOs (2 * blockCount size)
  whole : ∀ p ∈ writtenPages cmds, p.2.length = iflashPageSize
  bytes : (writtenPages cmds).flatMap Prod.snd = staged content 0 (bufLength * blockCount size)
  erasedFirst : BlocksErasedFirst cmds
  notErasedAfter : BlocksNotErasedAfter cmds

theorem writtenPages_pageCommands (content : Nat → UInt8) (i : Nat) :
    writtenPages (pageCommands content i)
      = [(startPageOs + i, staged content (iflashPageSize * i) iflashPageSize)] := by
  rw [pageCommands]
  split <;> rfl

/-- The pages written and what is written to them. -/
theorem writtenPages_imageCommands (content : Nat → UInt8) (n : Nat) :
    (writtenPages (imageCommands content n)).map Prod.fst = List.range' startPageOs n ∧
      (∀ p ∈ writtenPages (imageCommands content n), p.2.length = iflashPageSize) ∧
      (writtenPages (imageCommands content n)).flatMap Prod.snd
        = staged content 0 (iflashPageSize * n) := by
  induction n with
  | zero => exact ⟨rfl, fun p hp => absurd hp List.not_mem_nil, rfl⟩
  | succ n ih =>
      rcases ih with ⟨hpages, hwhole, hbytes⟩
      rw [imageCommands_succ, writtenPages_append, writtenPages_pageCommands]
      refine ⟨?_, ?_, ?_⟩
      · rw [List.map_append, hpages, List.range'_1_concat]
        rfl
      · intro p hp
        rcases List.mem_append.mp hp with hp | hp
        · exact hwhole p hp
        · rw [List.mem_singleton.mp hp, length_staged]
      · rw [List.flatMap_append, hbytes, List.flatMap_singleton, Nat.mul_add, Nat.mul_one,
          ← staged_append, Nat.zero_add]

section Order

variable {cmds : List EefcCmd}

theorem blocksErasedFirst_write (page : Nat) (data : List UInt8) (h : BlocksErasedFirst cmds)
    (he : .erasePages (page / eraseCount * eraseCount) ∈ cmds) :
    BlocksErasedFirst (cmds ++ [.writePage page data]) := by
  intro pre post p d hsplit
  rcases split_append_one hsplit with ⟨rfl, hx⟩ | ⟨post', hpre⟩
  · rw [EefcCmd.writePage.injEq] at hx
    rw [hx.1]
    exact he
  · exact h pre post' p d hpre

theorem blocksErasedFirst_erase (first : Nat) (h : BlocksErasedFirst cmds) :
    BlocksErasedFirst (cmds ++ [.erasePages first]) := by
  intro pre post p d hsplit
  rcases split_append_one hsplit with ⟨_, hx⟩ | ⟨post', hpre⟩
  · exact absurd hx (by simp only [reduceCtorEq, not_false_eq_true])
  · exact h pre post' p d hpre

theorem blocksNotErasedAfter_write (page : Nat) (data : List UInt8)
    (h : BlocksNotErasedAfter cmds) : BlocksNotErasedAfter (cmds ++ [.writePage page data]) := by
  intro pre post first hsplit
  rcases split_append_one hsplit with ⟨_, hx⟩ | ⟨post', hpre⟩
  · exact absurd hx (by simp only [reduceCtorEq, not_false_eq_true])
  · exact h pre post' first hpre

theorem blocksNotErasedAfter_erase (first : Nat) (h : BlocksNotErasedAfter cmds)
    (hnew : ∀ page data, .writePage page data ∈ cmds → page / eraseCount * eraseCount ≠ first) :
    BlocksNotErasedAfter (cmds ++ [.erasePages first]) := by
  intro pre post f hsplit
  rcases split_append_one hsplit with ⟨rfl, hx⟩ | ⟨post', hpre⟩
  · rw [EefcCmd.erasePages.injEq] at hx
    rw [hx]
    exact hnew
  · exact h pre post' f hpre

end Order

/-- The commands of a copy erase a block when they come to it. The induction
    carries that every page so far is below the next one, and that the block of
    the next one, unless it is its first page, has been erased. -/
theorem imageCommands_order (content : Nat → UInt8) (n : Nat) :
    BlocksErasedFirst (imageCommands content n) ∧
      BlocksNotErasedAfter (imageCommands content n) ∧
      (∀ page data, .writePage page data ∈ imageCommands content n → page < startPageOs + n) ∧
      ((startPageOs + n) % eraseCount ≠ 0 →
        .erasePages ((startPageOs + n) / eraseCount * eraseCount) ∈ imageCommands content n) := by
  have hec : eraseCount = 16 := rfl
  have hos : startPageOs = 256 := rfl
  induction n with
  | zero =>
      refine ⟨?_, ?_, fun page data h => absurd h List.not_mem_nil, fun h => absurd rfl h⟩
      · intro pre post page data h
        exact absurd h (by simp only [imageCommands, List.range_zero, List.flatMap_nil,
          List.nil_eq, List.append_eq_nil_iff, reduceCtorEq, and_false, not_false_eq_true])
      · intro pre post first h
        exact absurd h (by simp only [imageCommands, List.range_zero, List.flatMap_nil,
          List.nil_eq, List.append_eq_nil_iff, reduceCtorEq, and_false, not_false_eq_true])
  | succ n ih =>
      rcases ih with ⟨hfirst, hafter, hbelow, herased⟩
      rw [imageCommands_succ, pageCommands]
      by_cases hblock : (startPageOs + n) % eraseCount = 0
      · -- a new block: its erase goes out first
        rw [if_pos hblock, ← List.append_assoc]
        have hself : (startPageOs + n) / eraseCount * eraseCount = startPageOs + n := by
          rw [hec] at hblock ⊢
          omega
        have hin : EefcCmd.erasePages (startPageOs + n)
            ∈ imageCommands content n ++ [.erasePages (startPageOs + n)] :=
          List.mem_append_right _ (List.mem_singleton_self _)
        have hnew : ∀ page data, EefcCmd.writePage page data ∈ imageCommands content n →
            page / eraseCount * eraseCount ≠ startPageOs + n := by
          intro page data hmem
          have := hbelow page data hmem
          rw [hec]
          omega
        refine ⟨blocksErasedFirst_write _ _ (blocksErasedFirst_erase _ hfirst) (by rwa [hself]),
          blocksNotErasedAfter_write _ _ (blocksNotErasedAfter_erase _ hafter hnew), ?_, ?_⟩
        · intro page data hmem
          rcases List.mem_append.mp hmem with hmem | hmem
          · rcases List.mem_append.mp hmem with hmem | hmem
            · have := hbelow page data hmem
              omega
            · exact absurd (List.mem_singleton.mp hmem)
                (by simp only [reduceCtorEq, not_false_eq_true])
          · have := List.mem_singleton.mp hmem
            rw [EefcCmd.writePage.injEq] at this
            omega
        · intro hnext
          have hsame : (startPageOs + (n + 1)) / eraseCount * eraseCount = startPageOs + n := by
            rw [hec] at hblock hnext ⊢
            omega
          rw [hsame]
          exact List.mem_append_left _ hin
      · -- a page of a block that has been erased before
        rw [if_neg hblock, List.nil_append]
        refine ⟨blocksErasedFirst_write _ _ hfirst (herased hblock),
          blocksNotErasedAfter_write _ _ hafter, ?_, ?_⟩
        · intro page data hmem
          rcases List.mem_append.mp hmem with hmem | hmem
          · have := hbelow page data hmem
            omega
          · have := List.mem_singleton.mp hmem
            rw [EefcCmd.writePage.injEq] at this
            omega
        · intro hnext
          have hsame : (startPageOs + (n + 1)) / eraseCount * eraseCount
              = (startPageOs + n) / eraseCount * eraseCount := by
            rw [hec] at hblock hnext ⊢
            omega
          rw [hsame]
          exact List.mem_append_left _ (herased hblock)

/-- The commands of a copy are a copy. -/
theorem copiesImage_imageCommands (content : Nat → UInt8) (size : Nat) :
    CopiesImage content size (imageCommands content (2 * blockCount size)) := by
  rcases writtenPages_imageCommands content (2 * blockCount size) with ⟨hpages, hwhole, hbytes⟩
  rcases imageCommands_order content (2 * blockCount size) with ⟨hfirst, hafter, -, -⟩
  have hlen : iflashPageSize * (2 * blockCount size) = bufLength * blockCount size := by
    simp only [bufLength, iflashPageSize]
    omega
  exact ⟨hpages, hwhole, by rw [hbytes, hlen], hfirst, hafter⟩

/-- The pages a command changes are pages of the OS area. -/
def InOsArea (c : EefcCmd) : Prop :=
  ∀ page ∈ c.pages, startPageOs ≤ page ∧ page < startPageConfiguration

/-- A copy of no more pages than the area has stays in it. -/
theorem inOsArea_imageCommands (content : Nat → UInt8) {n : Nat}
    (h : startPageOs + n ≤ startPageConfiguration) :
    ∀ c ∈ imageCommands content n, InOsArea c := by
  have hec : eraseCount = 16 := rfl
  have hcfg : startPageConfiguration = 2016 := rfl
  intro c hc
  rcases List.mem_flatMap.mp hc with ⟨i, hi, hc⟩
  rw [List.mem_range] at hi
  rcases List.mem_append.mp hc with hc | hc
  · split at hc
    · rename_i hfirst
      rw [List.mem_singleton.mp hc]
      intro page hpage
      -- the area ends with a block, so a block that starts in it ends in it
      rw [EefcCmd.pages, List.mem_range'_1] at hpage
      rw [hec] at hfirst hpage
      omega
    · exact absurd hc List.not_mem_nil
  · rw [List.mem_singleton.mp hc]
    intro page hpage
    rw [EefcCmd.pages, List.mem_singleton] at hpage
    omega

/-- What `__bootUpdateRtos` should do with a record of `size` bytes, whatever
    the SPI flash holds and whatever fails: it returns, it stays in the OS area,
    and when nothing failed it has copied the image. -/
def UpdatesOsArea (ρ : Type) (size : Nat) : Prop :=
  ∀ (hw : BootHw) (content : Nat → UInt8) (image : RuntimeCfg ρ → List UInt8)
    (flash : Nat → Nat → UInt8) (st : BootState ρ),
    (∀ n a, hw.spiByte n a = content a) →
    (∃ fuel, (bootUpdateRtos hw fuel size st).isSome = true) ∧
    ∀ fuel length st', bootUpdateRtos hw fuel size st = some (length, st') →
      ∃ copied, st'.efcOps = st.efcOps ++ copied ∧
        (∀ c ∈ commands image flash copied, InOsArea c) ∧
        (hw.efcInit = true → AllOk hw.spi st.flash.ops.length st'.flash.ops.length →
          AllOk hw.efc st.efcOps.length st'.efcOps.length →
          CopiesImage content size (commands image flash copied))

/-- A copy that starts at the beginning of the image and of the OS area. -/
theorem bootUpdateRtos_ops {hw : BootHw} {content : Nat → UInt8}
    (hcontent : ∀ n a, hw.spiByte n a = content a) {size : Nat}
    (hsize : size ≤ 2 ^ 32 - bufLength) (hinit : hw.efcInit = true) {fuel length : Nat}
    {st st' : BootState ρ} (h : bootUpdateRtos hw fuel size st = some (length, st')) :
    ∃ copied, st'.efcOps = st.efcOps ++ copied ∧
      copied <+: imageOps content 0 (blockCount size) ∧
      (size ≤ length → copied = imageOps content 0 (blockCount size)) := by
  rw [bootUpdateRtos, hinit, if_neg (by decide)] at h
  have hloop := rtosLoop_ops hcontent hsize fuel 0
    { st with flash := bspSpiFlashInit hw.spi 0 (sectorAddress startSectorTempRtos) false st.flash }
    st' length rfl rfl h
  exact hloop

/-- The first operations of a copy ask for the first of its commands. -/
theorem commands_prefix (image : RuntimeCfg ρ → List UInt8) {content : Nat → UInt8} {n : Nat}
    (hrange : startPageOs + 2 * n ≤ iflashPages) (flash : Nat → Nat → UInt8)
    {copied : List (EfcOp ρ)} (h : copied <+: imageOps content 0 n) :
    commands image flash copied <+: imageCommands content (2 * n) := by
  rcases h with ⟨rest, h⟩
  rw [← commands_imageOps image content hrange flash, ← h]
  simp only [commands, List.zipIdx_append, List.flatMap_append]
  exact List.prefix_append _ _

/-- An image that fits into the OS area is copied to it. -/
theorem updatesOsArea_of_le {size : Nat} (hsize : size ≤ osAreaBytes) : UpdatesOsArea ρ size := by
  have harea : osAreaBytes = 901120 := rfl
  have hbuf : bufLength = 1024 := rfl
  have hblocks : startPageOs + 2 * blockCount size ≤ startPageConfiguration := by
    simp only [startPageOs, startPageConfiguration, blockCount, hbuf]
    omega
  have hpages : startPageOs + 2 * blockCount size ≤ iflashPages :=
    hblocks.trans (by decide)
  intro hw content image flash st hcontent
  refine ⟨⟨(size + bufLength - 1) / bufLength + 1, ?_⟩, fun fuel length st' h => ?_⟩
  · rw [bootUpdateRtos]
    split
    · rfl
    · exact rtosLoop_returns hw size (by omega) _ _ _ _ (by rw [Nat.sub_zero]; omega)
  · by_cases hinit : hw.efcInit = true
    · rcases bootUpdateRtos_ops hcontent (by omega) hinit h with ⟨copied, hadd, hprefix, hwhole⟩
      have hsub := commands_prefix image hpages flash hprefix
      refine ⟨copied, hadd, fun c hc => ?_, fun _ hspi hefc => ?_⟩
      · exact inOsArea_imageCommands content hblocks c (hsub.subset hc)
      · -- nothing failed, so the loop went on to the size
        rcases bootUpdateRtos_complete_iff hw fuel size st st' length h with ⟨_, _, _, hiff⟩
        rw [hwhole (hiff.mpr (Or.inr ⟨hinit, hspi, hefc⟩)),
          commands_imageOps image content hpages flash]
        exact copiesImage_imageCommands content size
    · rw [bootUpdateRtos, if_pos (by simpa only [Bool.not_eq_true] using hinit),
        Option.some.injEq, Prod.mk.injEq] at h
      refine ⟨[], ?_, fun c hc => absurd hc List.not_mem_nil, fun hi => absurd hi hinit⟩
      rw [← h.2, List.append_nil]

/-- An image that does not fit is copied over the configuration. -/
theorem not_updatesOsArea_of_lt {size : Nat} (hsize : osAreaBytes < size) :
    ¬ UpdatesOsArea ρ size := by
  have harea : osAreaBytes = 901120 := rfl
  have hbuf : bufLength = 1024 := rfl
  intro hupdates
  -- everything succeeds
  have hrun := hupdates ⟨true, fun _ => true, fun _ => true, fun _ _ => 0⟩ (fun _ => 0)
    (fun _ => []) (fun _ _ => 0) ⟨⟨0, 0, 0, 0, 0, 0, [], []⟩, []⟩ fun _ _ => rfl
  rcases hrun with ⟨⟨fuel, hsome⟩, hrun⟩
  rcases Option.isSome_iff_exists.mp hsome with ⟨⟨length, st'⟩, h⟩
  rcases bootUpdateRtos_complete_iff _ fuel size _ st' length h with ⟨_, _, _, hiff⟩
  have hlen : size ≤ length := hiff.mpr (Or.inr ⟨rfl, fun _ _ _ => rfl, fun _ _ _ => rfl⟩)
  have hmultiple : length % bufLength = 0 ∧ length < 2 ^ 32 := by
    rw [bootUpdateRtos, if_neg (by decide)] at h
    exact rtosLoop_length size fuel _ 0 _ _ _ rfl (by decide) h
  rcases hrun fuel length st' h with ⟨copied, hadd, hin, -⟩
  rcases bootUpdateRtos_ops (fun _ _ => rfl) (by rw [hbuf] at *; omega) rfl h with
    ⟨copied', hadd', -, hwhole⟩
  rw [hadd, List.append_cancel_left_eq] at hadd'
  rw [hadd', hwhole hlen] at hin
  -- block number 880 starts with the first page of the configuration
  have herase : EfcOp.erase startPageConfiguration
      ∈ (imageOps (fun _ => 0) 0 (blockCount size) : List (EfcOp ρ)) := by
    refine List.mem_flatMap.mpr ⟨880, List.mem_range'_1.mpr ⟨Nat.zero_le _, ?_⟩, ?_⟩
    · simp only [blockCount, hbuf]
      omega
    · exact List.mem_append_left _ (List.mem_singleton_self _)
  have hcmd := hin (.erasePages startPageConfiguration)
    (mem_commands herase fun _ => List.mem_singleton_self _)
  exact absurd (hcmd startPageConfiguration (by decide)).2 (Nat.lt_irrefl _)

/-- The update does what it should for exactly the records whose size is at most
    that of the OS area. Nothing else bounds the size. -/
theorem bootUpdateRtos_keeps_iff (size : Nat) :
    UpdatesOsArea ρ size ↔ size ≤ osAreaBytes :=
  ⟨fun h => Nat.not_lt.mp fun hlt => not_updatesOsArea_of_lt hlt h, updatesOsArea_of_le⟩

/-- An image of one byte more takes the configuration with it. -/
theorem bootUpdateRtos_overruns : ¬ UpdatesOsArea Unit 901121 :=
  not_updatesOsArea_of_lt (by decide)

end Boot

end RtosLwip
