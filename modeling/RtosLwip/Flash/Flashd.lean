import Mathlib.Algebra.Group.Nat.Defs
import RtosLwip.Flash.SpiFlash
import RtosLwip.Flash.Config

/-!
# The Internal Flash Driver

`flashd_write` and `flashd_erase_block` of `flashd.c`: what an operation of the
internal flash asks the flash controller for. A write goes page by page; where
it covers a page in part, the rest of the page is read back from the flash and
written again. It has a range check, the erase has none.

An operation that fails has asked for some of its commands, so the commands
listed here are all it can ask for.

## Main definitions

* `EefcCmd`: A command to the flash controller.
* `flashdWrite`, `flashdEraseBlock`: The driver.
* `commands`: The commands of a list of operations.
* `EefcCmd.pages`: The pages a command changes.

## Theorems

* `flashdWrite_twoPages`: A write of two whole pages.
-/

namespace RtosLwip

namespace Flash

/-- `IFLASH_PAGE_SIZE`, in bytes. -/
def iflashPageSize : Nat := 512

/-- `IFLASH_SIZE`, in bytes. -/
def iflashSize : Nat := 1024 * 1024

/-- `IFLASH_NB_OF_PAGES`. -/
def iflashPages : Nat := 2048

/-- A command of `eefc_perform_command`: `EPA` erases the pages of a block, `WP`
    programs one page with the latched data. -/
inductive EefcCmd where
  | erasePages (page : Nat)
  | writePage (page : Nat) (data : List UInt8)
  deriving DecidableEq, Repr

/-- The pages a command changes. -/
def EefcCmd.pages : EefcCmd → List Nat
  | .erasePages page => List.range' page eraseCount
  | .writePage page _ => [page]

/-- The loop of `flashd_write`, with `data` still to write at `addr`. What the
    flash holds is `flash`. -/
def flashdWriteLoop (flash : Nat → UInt8) : Nat → Nat → List UInt8 → List EefcCmd
  | 0, _, _ => []
  | fuel + 1, addr, data =>
    if data.length = 0 then
      []
    else
      let page := addr / iflashPageSize
      let pageOffset := addr - page * iflashPageSize
      let writeSize := min data.length (iflashPageSize - pageOffset)
      let existing := (List.range iflashPageSize).map fun k => flash (page * iflashPageSize + k)
      .writePage page (memcpy existing pageOffset (data.take writeSize)) ::
        flashdWriteLoop flash fuel (addr + writeSize) (data.drop writeSize)

/-- `flashd_write`. -/
def flashdWrite (flash : Nat → UInt8) (addr : Nat) (data : List UInt8) : List EefcCmd :=
  if iflashSize < (addr + data.length) % 2 ^ 32 then []
  else flashdWriteLoop flash data.length addr data

/-- `flashd_erase_block`, for the erase size of 16 pages. -/
def flashdEraseBlock (addr : Nat) : List EefcCmd :=
  if addr % (eraseCount * iflashPageSize) ≠ 0 then [] else [.erasePages (addr / iflashPageSize)]

variable {ρ : Type}

/-- The commands of one operation. A configuration is written as the bytes
    `image` gives for it. -/
def EfcOp.commands (image : RuntimeCfg ρ → List UInt8) (flash : Nat → UInt8) :
    EfcOp ρ → List EefcCmd
  | .erase page => flashdEraseBlock (page * iflashPageSize % 2 ^ 32)
  | .write page data => flashdWrite flash (page * iflashPageSize % 2 ^ 32) data
  | .writeCfg page cfg => flashdWrite flash (page * iflashPageSize % 2 ^ 32) (image cfg)

/-- The commands of a list of operations, where the flash holds `flash n` when
    the `n`-th of them is issued. -/
def commands (image : RuntimeCfg ρ → List UInt8) (flash : Nat → Nat → UInt8)
    (ops : List (EfcOp ρ)) : List EefcCmd :=
  ops.zipIdx.flatMap fun p => p.1.commands image (flash p.2)

/-- The pages programmed, with their data and in order. -/
def writtenPages (cmds : List EefcCmd) : List (Nat × List UInt8) :=
  cmds.filterMap fun
    | .writePage page data => some (page, data)
    | _ => none

theorem writtenPages_append (a b : List EefcCmd) :
    writtenPages (a ++ b) = writtenPages a ++ writtenPages b :=
  List.filterMap_append

/-- A command of an operation is a command of a list it is in. -/
theorem mem_commands {image : RuntimeCfg ρ → List UInt8} {flash : Nat → Nat → UInt8}
    {ops : List (EfcOp ρ)} {op : EfcOp ρ} {c : EefcCmd} (hop : op ∈ ops)
    (hc : ∀ flash, c ∈ op.commands image flash) : c ∈ commands image flash ops := by
  rw [← List.zipIdx_map_fst 0 ops] at hop
  rcases List.mem_map.mp hop with ⟨p, hp, rfl⟩
  exact List.mem_flatMap.mpr ⟨p, hp, hc (flash p.2)⟩

/-- Operations that read nothing back ask for the same commands whatever the
    flash holds. -/
theorem commands_of_whole {image : RuntimeCfg ρ → List UInt8} {flash : Nat → Nat → UInt8}
    {ops : List (EfcOp ρ)} {cmds : EfcOp ρ → List EefcCmd}
    (h : ∀ op ∈ ops, ∀ flash, op.commands image flash = cmds op) :
    commands image flash ops = ops.flatMap cmds := by
  have hmap : ∀ p ∈ ops.zipIdx, p.1.commands image (flash p.2) = cmds p.1 :=
    fun p hp => h p.1 (List.fst_mem_of_mem_zipIdx hp) _
  rw [commands, List.flatMap_congr hmap, ← List.flatMap_map Prod.fst cmds, List.zipIdx_map_fst]

/-- A data that fills the buffer leaves nothing of it. -/
theorem memcpy_full {buf src : List UInt8} (h : buf.length = src.length) :
    memcpy buf 0 src = src := by
  rw [memcpy, List.take_zero, List.nil_append, Nat.zero_add, ← h, List.drop_length,
    List.append_nil]

/-- One round of the loop over a whole page. What the flash holds has no part in
    it. -/
theorem flashdWriteLoop_page (flash : Nat → UInt8) (fuel page : Nat) (data : List UInt8)
    (h : iflashPageSize ≤ data.length) :
    flashdWriteLoop flash (fuel + 1) (page * iflashPageSize) data
      = .writePage page (data.take iflashPageSize) ::
        flashdWriteLoop flash fuel ((page + 1) * iflashPageSize) (data.drop iflashPageSize) := by
  have hps : iflashPageSize = 512 := rfl
  have hne : ¬ data.length = 0 := by omega
  have hpage : page * iflashPageSize / iflashPageSize = page :=
    Nat.mul_div_cancel _ (by omega)
  have hsize : min data.length (iflashPageSize - 0) = iflashPageSize := by omega
  have hfull : ((List.range iflashPageSize).map fun k =>
      flash (page * iflashPageSize + k)).length = (data.take iflashPageSize).length := by
    rw [List.length_map, List.length_range, List.length_take, Nat.min_eq_left h]
  simp only [flashdWriteLoop, if_neg hne, hpage, Nat.sub_self, hsize, memcpy_full hfull,
    Nat.add_mul, Nat.one_mul]

/-- A write of two whole pages inside of the flash. -/
theorem flashdWrite_twoPages (flash : Nat → UInt8) (page : Nat) (data : List UInt8)
    (hdata : data.length = 2 * iflashPageSize)
    (hrange : (page + 2) * iflashPageSize ≤ iflashSize) :
    flashdWrite flash (page * iflashPageSize) data
      = [.writePage page (data.take iflashPageSize),
        .writePage (page + 1) (data.drop iflashPageSize)] := by
  have hps : iflashPageSize = 512 := rfl
  have hfs : iflashSize = 1048576 := rfl
  have hin : ¬ iflashSize < (page * iflashPageSize + data.length) % 2 ^ 32 := by
    rw [hps] at hdata hrange ⊢
    rw [hfs] at hrange ⊢
    omega
  have hdrop : (data.drop iflashPageSize).length = iflashPageSize := by
    rw [List.length_drop]
    omega
  rw [flashdWrite, if_neg hin, hdata, hps, show 2 * 512 = 1022 + 1 + 1 from rfl, ← hps,
    flashdWriteLoop_page flash _ page data (by omega),
    flashdWriteLoop_page flash _ (page + 1) _ (by omega),
    List.take_of_length_le (Nat.le_of_eq hdrop), List.drop_of_length_le (Nat.le_of_eq hdrop)]
  rfl

end Flash

end RtosLwip
