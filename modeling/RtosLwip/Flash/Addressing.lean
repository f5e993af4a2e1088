import RtosLwip.Base.SpiNor
import RtosLwip.Flash.Chip

/-!
# Addresses on the Bus

The commands of `bspHwSpiFlash.c` as they go over the bus to a flash of 32 megabytes.
An address of three bytes reaches the first half of it. For the second half, a read and a
page program put the command for the mode of four bytes behind their own one, followed by
four bytes of address. There it is no command: the chip is in the mode of three bytes,
takes this byte for the highest one of the address, and the end of the address for data.
An erase always sends three bytes, and drops what is above them.

Nothing else changes the mode, so below 16 megabytes every command carries its location,
and what the driver does to the chip is what `FlashOp.apply` says.

## Main definitions

* `bspHwSpiFlashEraseSector`, `bspHwSpiFlashRead`, `bspHwSpiFlashWritePage`: The commands.
* `run`: The chip behind some calls of the driver.
* `Addressed`: The commands for a location carry it.
* `PageStored`: A page is read back, and nothing else is changed.

## Theorems

* `fourByte_run`: The mode of the chip.
* `cells_eraseSector`, `cells_writePage`, `read_eq`: The driver and the operations.
* `addressedAndStored_iff`: Which locations and pages can be reached.
-/

namespace RtosLwip

namespace Spi

open Flash

/-- The flash chip of the board, an N25Q256. -/
abbrev N25q := Nor capacity

/-- `SFLASH_ADDRESS_128M` -/
def sflashAddress128M : Nat := 0xFFFFFF

/-- A byte of an address. -/
def addressByte (address k : Nat) : UInt8 := (address / 256 ^ k % 256).toUInt8

/-- `_bspSpiFlashHwSendAddress` -/
def bspSpiFlashHwSendAddress (address size : Nat) : List UInt8 :=
  (if size = 4 then [addressByte address 3] else []) ++
    [addressByte address 2, addressByte address 1, addressByte address 0]

/-- The command of `bspHwSpiFlashEraseSector`. -/
def eraseCommand (sectorNo : Nat) : List UInt8 :=
  0xD8 :: bspSpiFlashHwSendAddress (sectorNo * 65536) 3

/-- A command with its address. Above 16 megabytes the command for four bytes is put between
    the two. -/
def commandFor (op : UInt8) (address : Nat) : List UInt8 :=
  if sflashAddress128M < address then op :: 0xB7 :: bspSpiFlashHwSendAddress address 4
  else op :: bspSpiFlashHwSendAddress address 3

/-- The command of `bspHwSpiFlashRead`. -/
def readCommand (address : Nat) : List UInt8 := commandFor 0x03 address

/-- The command of `bspHwSpiFlashWritePage`. -/
def programCommand (pageNo : Nat) : List UInt8 := commandFor 0x02 (pageNo * pageSize)

/-- `bspHwSpiFlashReset` -/
def bspHwSpiFlashReset (c : N25q) : N25q := (c.select [0x66]).select [0x99]

/-- `bspHwSpiFlashEraseSector` -/
def bspHwSpiFlashEraseSector (sectorNo : Nat) (c : N25q) : N25q :=
  (c.select [0x06]).select (eraseCommand sectorNo)

/-- `bspHwSpiFlashRead`: The bytes that are read. -/
def bspHwSpiFlashRead (address size : Nat) (c : N25q) : List UInt8 :=
  c.read (readCommand address) size

/-- `bspHwSpiFlashWritePage` -/
def bspHwSpiFlashWritePage (pageNo : Nat) (data : List UInt8) (c : N25q) : N25q :=
  (c.select [0x06]).select (programCommand pageNo ++ data)

/-- A call of the driver. -/
inductive Call where
  | reset
  | eraseSector (sectorNo : Nat)
  | read (address size : Nat)
  | writePage (pageNo : Nat) (data : List UInt8)

/-- What a call leaves in the chip. -/
def Call.apply (c : N25q) : Call → N25q
  | .reset => bspHwSpiFlashReset c
  | .eraseSector sectorNo => bspHwSpiFlashEraseSector sectorNo c
  | .read address size => c.select (readCommand address ++ List.replicate size 0xFF)
  | .writePage pageNo data => bspHwSpiFlashWritePage pageNo data c

/-- The chip behind the reset of the start and some calls. -/
def run (c : N25q) (calls : List Call) : N25q := calls.foldl Call.apply (bspHwSpiFlashReset c)

/-! ### The mode of the chip -/

theorem commandFor_eq_cons (op : UInt8) (address : Nat) :
    ∃ rest, commandFor op address = op :: rest := by
  unfold commandFor
  split <;> exact ⟨_, rfl⟩

theorem fourByte_reset (c : N25q) : (bspHwSpiFlashReset c).fourByte = false := rfl

theorem fourByte_call {c : N25q} (hmode : c.fourByte = false) (call : Call) :
    (call.apply c).fourByte = false := by
  have henable : (c.select [0x06]).fourByte = false :=
    Nor.fourByte_select hmode (by decide) []
  cases call with
  | reset => rfl
  | eraseSector sectorNo => exact Nor.fourByte_select henable (by decide) _
  | read address size =>
      rcases commandFor_eq_cons 0x03 address with ⟨rest, hrest⟩
      rw [Call.apply, readCommand, hrest]
      exact Nor.fourByte_select hmode (by decide) _
  | writePage pageNo data =>
      rcases commandFor_eq_cons 0x02 (pageNo * pageSize) with ⟨rest, hrest⟩
      rw [Call.apply, bspHwSpiFlashWritePage, programCommand, hrest]
      exact Nor.fourByte_select henable (by decide) _

/-- The driver never leaves the mode of three bytes. -/
theorem fourByte_run (c : N25q) (calls : List Call) : (run c calls).fourByte = false := by
  have hall : ∀ c : N25q, c.fourByte = false → (calls.foldl Call.apply c).fourByte = false := by
    induction calls with
    | nil => exact fun c h => h
    | cons call calls ih => exact fun c h => ih _ (fourByte_call h call)
  exact hall _ (fourByte_reset c)

/-! ### The location of a command -/

theorem toNat_addressByte (address k : Nat) :
    (addressByte address k).toNat = address / 256 ^ k % 256 := by
  rw [addressByte, UInt8.toNat_ofNat']
  omega

/-- Three bytes carry an address up to 16 megabytes. -/
theorem threeBytes_eq (address : Nat) :
    ((addressByte address 2).toNat * 256 + (addressByte address 1).toNat) * 256 +
      (addressByte address 0).toNat = address % 2 ^ 24 := by
  simp only [toNat_addressByte]
  omega

theorem commandFor_of_lt {address : Nat} (op : UInt8) (h : address < 2 ^ 24) :
    commandFor op address = op :: bspSpiFlashHwSendAddress address 3 := by
  have hlimit : sflashAddress128M = 16777215 := rfl
  rw [commandFor, if_neg (by omega)]

section Commands

variable {c : N25q} (hmode : c.fourByte = false)

include hmode

/-- A command of three bytes carries its address up to 16 megabytes. -/
theorem location_three (op : UInt8) (address : Nat) (rest : List UInt8) :
    c.location (op :: bspSpiFlashHwSendAddress address 3 ++ rest) = some (address % 2 ^ 24) := by
  have hcap : capacity = 33554432 := rfl
  have hloc := Nor.location_eq hmode op (addressByte address 2) (addressByte address 1)
    (addressByte address 0) rest
  rw [threeBytes_eq, Nat.mod_eq_of_lt (by rw [hcap]; omega)] at hloc
  exact hloc

theorem payload_three (op : UInt8) (address : Nat) (rest : List UInt8) :
    c.payload (op :: bspSpiFlashHwSendAddress address 3 ++ rest) = rest :=
  Nor.payload_eq hmode op _ _ _ rest

/-- The write is enabled before a program and an erase. -/
theorem enabled_select : (c.select [0x06]).fourByte = false ∧
    (c.select [0x06]).writeEnabled = true ∧ (c.select [0x06]).cells = c.cells :=
  ⟨hmode, rfl, rfl⟩

/-- An erase reaches a sector of the first half. -/
theorem cells_eraseSector (sectorNo : Nat) :
    (bspHwSpiFlashEraseSector sectorNo c).cells =
      (FlashOp.erase (sectorNo % 256)).apply c.cells := by
  rcases enabled_select hmode with ⟨hmode', henabled, hcells⟩
  have hloc := location_three hmode' 0xD8 (sectorNo * 65536) []
  have hpayload := payload_three hmode' 0xD8 (sectorNo * 65536) []
  rw [List.append_nil] at hloc hpayload
  rw [bspHwSpiFlashEraseSector, eraseCommand]
  rw [Nor.cells_select_erase henabled (by decide) hloc hpayload, hcells]
  have hsector : sectorNo * 65536 % 2 ^ 24 / 65536 = sectorNo % 256 := by omega
  rw [hsector]
  rfl

/-- A page program does what it should in the first half. -/
theorem cells_writePage {pageNo : Nat} (hpage : pageNo < 65536) {data : List UInt8}
    (hdata : data.length ≤ pageSize) :
    (bspHwSpiFlashWritePage pageNo data c).cells =
      (FlashOp.program pageNo data).apply c.cells := by
  have hps : pageSize = 256 := rfl
  rcases enabled_select hmode with ⟨hmode', henabled, hcells⟩
  have hloc := location_three hmode' 0x02 (pageNo * pageSize) data
  have hpayload := payload_three hmode' 0x02 (pageNo * pageSize) data
  rw [bspHwSpiFlashWritePage, programCommand, commandFor_of_lt _ (by rw [hps]; omega)]
  rw [List.cons_append] at hloc hpayload ⊢
  rw [Nor.cells_select_program henabled (by decide) hloc, hpayload, hcells]
  funext a
  have hstart : pageNo * pageSize % 2 ^ 24 = pageNo * 256 := by
    rw [hps]
    omega
  have halign : pageNo * 256 % 256 = 0 := Nat.mul_mod_left pageNo 256
  have hlatched := Nor.latched_of_le halign hdata (Nat.mod_lt a (by decide : 0 < 256))
  rw [hstart, Nor.programmed, hlatched, Nat.mul_div_cancel _ (by decide)]
  simp only [FlashOp.apply, hps]
  by_cases hsame : a / 256 = pageNo
  · rw [if_pos hsame]
    by_cases hlt : a % 256 < data.length
    · rw [if_pos hlt, if_pos ⟨hsame, hlt⟩]
    · rw [if_neg hlt, if_neg fun h => hlt h.2]
  · rw [if_neg hsame, if_neg fun h => hsame h.1]

/-- A read begins at its address in the first half. -/
theorem read_eq {address : Nat} (h : address < 2 ^ 24) (size : Nat) :
    bspHwSpiFlashRead address size c =
      (List.range size).map fun i => c.cells ((address + i) % capacity) := by
  have hread := Nor.read_eq hmode (addressByte address 2) (addressByte address 1)
    (addressByte address 0) [] size
  have hcap : capacity = 33554432 := rfl
  rw [threeBytes_eq, Nat.mod_eq_of_lt h, Nat.mod_eq_of_lt (by rw [hcap]; omega)] at hread
  rw [bspHwSpiFlashRead, readCommand, commandFor_of_lt _ h]
  simp only [List.length_nil, Nat.zero_add] at hread
  exact hread

end Commands

/-! ### Which locations can be reached -/

/-- The commands for a location carry, in the address field of the mode the chip is in,
    exactly this location. -/
structure Addressed (c : N25q) (address : Nat) : Prop where
  erase : c.location (eraseCommand (address / 65536)) = some (address / 65536 * 65536)
  program : c.location (programCommand (address / pageSize)) = some (address / pageSize * pageSize)
  read : c.location (readCommand address) = some address

theorem addressed_iff {c : N25q} (hmode : c.fourByte = false) (address : Nat) :
    Addressed c address ↔ address < 2 ^ 24 := by
  have hps : pageSize = 256 := rfl
  have hloc : ∀ (op : UInt8) a, a < 2 ^ 24 →
      c.location (op :: bspSpiFlashHwSendAddress a 3) = some a := by
    intro op a ha
    have hthree := location_three hmode op a []
    rw [List.append_nil, Nat.mod_eq_of_lt ha] at hthree
    exact hthree
  constructor
  · exact fun h => Nor.location_lt hmode h.read
  · intro h
    refine ⟨hloc _ _ (by omega), ?_, ?_⟩
    · have hpage : address / pageSize * pageSize < 2 ^ 24 := by
        rw [hps]
        omega
      rw [programCommand, commandFor_of_lt _ hpage, hloc _ _ hpage]
    · rw [readCommand, commandFor_of_lt _ h, hloc _ _ h]

/-- A page that is written to an erased sector is read back, and a program changes no other
    page and an erase no other sector. -/
structure PageStored (c : N25q) (pageNo : Nat) : Prop where
  readBack : ∀ data : List UInt8, data.length ≤ pageSize →
    (∀ a, a / 65536 = pageNo / pagesInOneSector → c.cells a = 0xFF) →
      bspHwSpiFlashRead (pageNo * pageSize) data.length (bspHwSpiFlashWritePage pageNo data c) =
        data
  program : ∀ data : List UInt8, data.length ≤ pageSize → ∀ a, a / pageSize ≠ pageNo →
    (bspHwSpiFlashWritePage pageNo data c).cells a = c.cells a
  erase : ∀ a, a / 65536 ≠ pageNo / pagesInOneSector →
    (bspHwSpiFlashEraseSector (pageNo / pagesInOneSector) c).cells a = c.cells a

theorem pageStored_of_lt {c : N25q} (hmode : c.fourByte = false) {pageNo : Nat}
    (hpage : pageNo < 65536) : PageStored c pageNo := by
  have hps : pageSize = 256 := rfl
  have hpp : pagesInOneSector = 256 := rfl
  have hcap : capacity = 33554432 := rfl
  refine ⟨fun data hdata hblank => ?_, fun data hdata a ha => ?_, fun a ha => ?_⟩
  · have hkept : (bspHwSpiFlashWritePage pageNo data c).fourByte = false :=
      fourByte_call hmode (.writePage pageNo data)
    rw [read_eq hkept (by rw [hps]; omega), cells_writePage hmode hpage hdata]
    refine List.ext_getElem (by simp) fun i hi hi' => ?_
    -- the byte lies in the page, and its cell was erased
    have hcell : (pageNo * pageSize + i) % capacity = pageNo * 256 + i := by
      rw [hps, hcap]
      omega
    have hin : (pageNo * 256 + i) / pageSize = pageNo ∧
        (pageNo * 256 + i) % pageSize < data.length := by
      rw [hps] at hdata ⊢
      omega
    have hplace : (pageNo * 256 + i) % pageSize = i := by
      rw [hps] at hdata ⊢
      omega
    have herased : c.cells (pageNo * 256 + i) = 0xFF := hblank _ (by rw [hpp]; omega)
    rw [List.getElem_map, List.getElem_range, hcell]
    simp only [FlashOp.apply]
    rw [if_pos hin, hplace, herased, erased_and, List.getD_eq_getElem _ _ hi']
  · rw [cells_writePage hmode hpage hdata]
    simp only [FlashOp.apply]
    rw [if_neg fun h => ha h.1]
  · rw [cells_eraseSector hmode]
    simp only [FlashOp.apply]
    rw [if_neg]
    rw [hpp] at ha ⊢
    omega

/-- A chip whose bits are all cleared. -/
def clearedChip : N25q := ⟨fun _ => 0, false, false, false⟩

/-- In the second half, an erase reaches a sector of the first one. -/
theorem not_pageStored_of_le {pageNo : Nat} (hpage : 65536 ≤ pageNo) :
    ¬ PageStored (run clearedChip []) pageNo := by
  intro h
  have hpp : pagesInOneSector = 256 := rfl
  have herase := h.erase (pageNo / pagesInOneSector % 256 * 65536) (by rw [hpp]; omega)
  rw [cells_eraseSector (fourByte_run clearedChip [])] at herase
  simp only [FlashOp.apply] at herase
  rw [if_pos (by omega)] at herase
  have hzero : (run clearedChip []).cells (pageNo / pagesInOneSector % 256 * 65536) = 0 := rfl
  rw [hzero] at herase
  exact absurd herase (by decide)

/-- For every location and every page of the flash, and for the chip behind any calls of the
    driver, the commands carry the location and the page is stored, if and only if both are in
    the first 16 megabytes. -/
theorem addressedAndStored_iff (address pageNo : Nat) :
    (address < capacity → ∀ c calls, Addressed (run c calls) address) ∧
      (pageNo < pageCount → ∀ c calls, PageStored (run c calls) pageNo) ↔
    (address < capacity → address < 2 ^ 24) ∧ (pageNo < pageCount → pageNo < 65536) := by
  refine and_congr (forall_congr' fun _ => ?_) (forall_congr' fun _ => ?_)
  · constructor
    · exact fun h => (addressed_iff (fourByte_run clearedChip []) address).mp (h clearedChip [])
    · exact fun h c calls => (addressed_iff (fourByte_run c calls) address).mpr h
  · constructor
    · intro h
      by_contra hlarge
      exact not_pageStored_of_le (Nat.le_of_not_lt hlarge) (h clearedChip [])
    · exact fun h c calls => pageStored_of_lt (fourByte_run c calls) h

/-- The first location above 16 megabytes is not carried by a command. -/
theorem not_addressed_secondHalf :
    ¬ ((0x1000000 < capacity → ∀ c calls, Addressed (run c calls) 0x1000000) ∧
      (65536 < pageCount → ∀ c calls, PageStored (run c calls) 65536)) := by
  intro h
  have hread := (h.1 (by decide) clearedChip []).read
  exact absurd (Nor.location_lt (fourByte_run clearedChip []) hread) (by decide)

end Spi

end RtosLwip
