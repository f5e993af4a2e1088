import Mathlib.Data.List.Basic

/-!
# The SPI Flash Writer

The read and write interface of the SPI flash, `bspSpiFlash.c`. Firmware is
handed over in chunks of any size; the writer collects them in a staging
buffer, programs every full page of 256 bytes, and moves the remainder to the
front of the buffer. A page counter and a sector counter say where the next
page goes, and a sector is erased when the writer enters it.

The hardware is a list of operations and a function that says which of them
succeed. An operation is recorded when it is issued, whatever its outcome, so
the list is what the flash chip sees, in order. The outcome of an operation is
looked up by its position in that list, which is how every pattern of failures
is expressed.

Two habits of the source are kept as they are. `__bspSpiFlashWriteOnePage`
reports failure as -1, but its caller compares the result with `EXIT_FAILURE`,
which is 1: a failed page is not noticed, and a page of one byte is reported
as failed. And the check of the sector counter uses the number of pages, not
of sectors.

The chunk is passed as a `DataPtr`, because one caller passes the staging
buffer itself.

## Main definitions

* `FlashOp`: An operation issued to the flash chip.
* `ExtSpiFlash`: The writer's state, its staging buffer and the operations.
* `DataPtr`: Where a chunk lies in memory.
* `bspSpiFlashInit`, `bspSpiFlashRead`, `bspSpiFlashWrite`,
  `bspSpiFlashFlush`: The interface.
-/

namespace RtosLwip

namespace Flash

/-- `FLASH_N250_PAGE_SIZE`, in bytes. -/
def pageSize : Nat := 256

/-- `FLASH_N25Q_PAGES_IN_ONE_SECTOR`. -/
def pagesInOneSector : Nat := 256

/-- `FLASH_N25Q_CAPACITY`, in bytes. -/
def capacity : Nat := 32 * 1024 * 1024

/-- `FLASH_N25Q_PAGE_COUNT`. -/
def pageCount : Nat := capacity / pageSize

/-- `EXT_RW_BUFFER_SIZE`, the length of the staging buffer. -/
def bufLength : Nat := 1024

/-- `EXIT_FAILURE` of `extSysParams.h`. -/
def exitFailure : Int := 1

/-- `FLASH_N250_SECTOR_ADDRESS`. -/
def sectorAddress (sector : Nat) : Nat := sector * 65536

/-- `FLASH_N250_SECTOR_TO_PAGE`. -/
def sectorToPage (sector : Nat) : Nat := sector * 256

/-- `SFLASH_START_SECTOR_TEMP_RTOS`. -/
def startSectorTempRtos : Nat := 129

/-- `SFLASH_START_SECTOR_TEMP_FPGA`. -/
def startSectorTempFpga : Nat := 144

/-- `SFLASH_START_SECTOR_FIRST_IMAGE`. -/
def startSectorFirstImage : Nat := 0

/-- An operation issued to the flash chip. -/
inductive FlashOp where
  | erase (sector : Nat)
  | program (page : Nat) (data : List UInt8)
  | read (address length : Nat)
  deriving DecidableEq, Repr

/-- `_EXT_SPI_FLASH_T`, with the staging buffer `extRun.bufWrite` and the
    operations issued so far. The counters of the source are unsigned shorts. -/
structure ExtSpiFlash where
  startSector : Nat
  startAddress : Nat
  currentSector : Nat
  pageIndex : Nat
  leftBytesWrite : Nat
  offsetRead : Nat
  bufWrite : List UInt8
  ops : List FlashOp
  deriving DecidableEq, Repr

/-- Which of the operations succeed, by their position in the list. -/
abbrev Outcome := Nat → Bool

/-- Issue one operation: record it and look up its outcome. -/
def issue (hw : Outcome) (op : FlashOp) (f : ExtSpiFlash) : Bool × ExtSpiFlash :=
  (hw f.ops.length, { f with ops := f.ops ++ [op] })

/-- `bspHwSpiFlashEraseSector`. -/
def bspHwSpiFlashEraseSector (hw : Outcome) (sectorNo : Nat) (f : ExtSpiFlash) :
    Bool × ExtSpiFlash :=
  issue hw (.erase sectorNo) f

/-- `bspHwSpiFlashWritePage`. -/
def bspHwSpiFlashWritePage (hw : Outcome) (pageNo : Nat) (data : List UInt8)
    (f : ExtSpiFlash) : Bool × ExtSpiFlash :=
  issue hw (.program pageNo data) f

/-- `_bspSpiFlashInit`. The outcome of the first erase is not looked at. -/
def bspSpiFlashInit (hw : Outcome) (startSector startAddress : Nat) (isWrite : Bool)
    (f : ExtSpiFlash) : ExtSpiFlash :=
  let f := { f with
    startSector := startSector
    currentSector := startSector % 65536
    pageIndex := 0
    leftBytesWrite := 0
    offsetRead := 0 }
  if isWrite then
    (bspHwSpiFlashEraseSector hw f.currentSector
      { f with startAddress := sectorAddress startSector }).2
  else
    { f with startAddress := startAddress }

/-- `_bspSpiFlashRead`: the length read, or -1. -/
def bspSpiFlashRead (hw : Outcome) (size : Nat) (f : ExtSpiFlash) : Int × ExtSpiFlash :=
  let r := issue hw (.read (f.startAddress + f.offsetRead) size) f
  if r.1 then
    ((size : Int), { r.2 with offsetRead := r.2.offsetRead + size })
  else
    (-1, r.2)

/-- `__bspSpiFlashWriteOnePage`: program one page, and enter the next sector
    when this one is full. -/
def bspSpiFlashWriteOnePage (hw : Outcome) (data : List UInt8) (f : ExtSpiFlash) :
    Int × ExtSpiFlash :=
  let pageNo := sectorToPage f.currentSector + f.pageIndex
  let w := bspHwSpiFlashWritePage hw pageNo data f
  if w.1 = false then
    (-1, w.2)
  else
    let f := { w.2 with pageIndex := (w.2.pageIndex + 1) % 65536 }
    if pagesInOneSector ≤ f.pageIndex then
      let f := { f with currentSector := (f.currentSector + 1) % 65536 }
      -- the source compares the sector with the number of pages
      if pageCount ≤ f.currentSector then
        (-1, f)
      else
        let e := bspHwSpiFlashEraseSector hw f.currentSector f
        if e.1 = false then
          (-1, e.2)
        else
          ((data.length : Int), { e.2 with pageIndex := 0 })
    else
      ((data.length : Int), f)

/-- The loop of `_bspSpiFlashWrite`, with `n` pages still to write and the
    first of them at `data`. The last page is the one that may be short. -/
def writePages (hw : Outcome) (left : Nat) :
    Nat → List UInt8 → ExtSpiFlash → Bool × ExtSpiFlash
  | 0, _, f => (true, f)
  | n + 1, data, f =>
    let length := if n = 0 ∧ left ≠ 0 then left else pageSize
    let w := bspSpiFlashWriteOnePage hw (data.take length) f
    -- a page of one byte compares equal to EXIT_FAILURE, a failed page does not
    if w.1 = exitFailure then
      (false, w.2)
    else
      writePages hw left n (data.drop pageSize) w.2

/-- `_bspSpiFlashWrite`. -/
def bspSpiFlashWriteData (hw : Outcome) (data : List UInt8) (size : Nat) (f : ExtSpiFlash) :
    Int × ExtSpiFlash :=
  let w := writePages hw (size % pageSize) ((size + pageSize - 1) / pageSize) data f
  if w.1 then ((size : Int), w.2) else (-1, w.2)

/-- Where a chunk lies: somewhere in memory, or in the staging buffer. -/
inductive DataPtr where
  | mem (bytes : List UInt8)
  | bufWrite
  deriving DecidableEq, Repr

/-- The bytes a chunk's pointer leads to at this moment. -/
def DataPtr.bytes (p : DataPtr) (f : ExtSpiFlash) : List UInt8 :=
  match p with
  | .mem bytes => bytes
  | .bufWrite => f.bufWrite

/-- `memcpy` of `src` to offset `off` of `buf`. -/
def memcpy (buf : List UInt8) (off : Nat) (src : List UInt8) : List UInt8 :=
  buf.take off ++ src ++ buf.drop (off + src.length)

/-- Fill the staging buffer from the chunk: all that is left of it when it
    fits, else as much as the buffer takes. Gives the bytes of the chunk that
    are left, the index of the next one, and the state. -/
def fillBuffer (data : DataPtr) (left index : Nat) (f : ExtSpiFlash) :
    Nat × Nat × ExtSpiFlash :=
  if f.leftBytesWrite + left < bufLength then
    (0, index, { f with
      bufWrite := memcpy f.bufWrite f.leftBytesWrite (((data.bytes f).drop index).take left)
      leftBytesWrite := (f.leftBytesWrite + left) % 65536 })
  else
    let copyLength := bufLength - f.leftBytesWrite
    (left - copyLength, index + copyLength, { f with
      bufWrite := memcpy f.bufWrite f.leftBytesWrite
        (((data.bytes f).drop index).take copyLength)
      leftBytesWrite := bufLength })

/-- Program `n` full pages of the staging buffer, from page `i` of it on. -/
def writeFullPages (hw : Outcome) : Nat → Nat → ExtSpiFlash → Bool × ExtSpiFlash
  | 0, _, f => (true, f)
  | n + 1, i, f =>
    let w := bspSpiFlashWriteData hw (f.bufWrite.drop (i * pageSize)) pageSize f
    if w.1 < 0 then (false, w.2) else writeFullPages hw n (i + 1) w.2

/-- Move what is left behind `n` programmed pages to the front. -/
def moveRemainder (n : Nat) (f : ExtSpiFlash) : ExtSpiFlash :=
  let left := f.leftBytesWrite - n * pageSize
  { f with
    leftBytesWrite := left
    bufWrite := memcpy f.bufWrite 0 ((f.bufWrite.drop (n * pageSize)).take left) }

/-- The loop of `bspSpiFlashWrite`. Every pass but one takes bytes from the
    chunk, so `left + 2` passes are enough. -/
def writeLoop (hw : Outcome) (data : DataPtr) :
    Nat → Nat → Nat → ExtSpiFlash → Bool × ExtSpiFlash
  | 0, _, _, f => (true, f)
  | fuel + 1, left, index, f =>
    let (left, index, f) := fillBuffer data left index f
    let n := f.leftBytesWrite / pageSize
    let w := writeFullPages hw n 0 f
    if w.1 = false then
      (false, w.2)
    else
      let f := moveRemainder n w.2
      if 0 < left then writeLoop hw data fuel left index f else (true, f)

/-- `bspSpiFlashWrite`. The size is cut to an unsigned short. -/
def bspSpiFlashWrite (hw : Outcome) (data : DataPtr) (size : Nat) (f : ExtSpiFlash) :
    Int × ExtSpiFlash :=
  let left := size % 65536
  let w := writeLoop hw data (left + 2) left 0 f
  if w.1 then ((size : Int), w.2) else (-1, w.2)

/-- `bspSpiFlashFlush`: program the remainder as a short page. The result of
    the write is dropped, and the remainder is not forgotten. -/
def bspSpiFlashFlush (hw : Outcome) (f : ExtSpiFlash) : Nat × ExtSpiFlash :=
  if 0 < f.leftBytesWrite then
    let w := bspSpiFlashWriteData hw f.bufWrite f.leftBytesWrite f
    (w.2.leftBytesWrite, w.2)
  else
    (f.leftBytesWrite, f)

end Flash

end RtosLwip
