import Mathlib.Algebra.Group.Nat.Defs
import Mathlib.Data.List.Basic
import Mathlib.Data.List.GetD

/-!
# A Serial NOR Flash

A flash chip on a serial bus. While it is selected, the first byte it receives is the
command, and the bytes behind it are the address, three or four of them in the mode the
chip is in, and data. A byte is sent back for each one received: for a read it is, behind
the address, the next byte of the memory.

What a command changes is changed when the chip is deselected. A program and an erase
must be enabled before, and take this back. A page program puts its bytes into a buffer
of one page, from the place of its address on and around at the end, and then clears
bits of the page. The mode is changed by a command of its own. A reset, which must be
enabled as well, goes back to three bytes.

How long the chip is busy is left out.

## Main definitions

* `Nor`: The chip.
* `Nor.location`: The location that a command addresses.
* `Nor.select`: What is received while the chip is selected once.
* `Nor.read`: What is sent back.

## Theorems

* `Nor.fourByte_select`: What keeps the mode.
* `Nor.cells_select_program`, `Nor.cells_select_erase`: What is programmed and erased.
* `Nor.read_eq`: What is read.
-/

namespace RtosLwip

/-- The commands of a serial flash. -/
inductive NorCommand where
  | writeEnable
  | writeDisable
  | enterFourByte
  | exitFourByte
  | resetEnable
  | resetMemory
  | read
  | pageProgram
  | sectorErase
  | other
  deriving DecidableEq

/-- The command for the first byte that is received. -/
def NorCommand.ofByte (b : UInt8) : NorCommand :=
  if b = 0x06 then .writeEnable
  else if b = 0x04 then .writeDisable
  else if b = 0xB7 then .enterFourByte
  else if b = 0xE9 then .exitFourByte
  else if b = 0x66 then .resetEnable
  else if b = 0x99 then .resetMemory
  else if b = 0x03 then .read
  else if b = 0x02 then .pageProgram
  else if b = 0xD8 then .sectorErase
  else .other

/-- A flash chip of `size` bytes. -/
structure Nor (size : Nat) where
  cells : Nat → UInt8
  fourByte : Bool
  writeEnabled : Bool
  resetEnabled : Bool

namespace Nor

variable {size : Nat}

/-- The number of bytes of an address. -/
def addressBytes (c : Nor size) : Nat := if c.fourByte then 4 else 3

/-- The number that some bytes stand for, the highest one first. -/
def bigEndian (bytes : List UInt8) : Nat := bytes.foldl (fun n b => n * 256 + b.toNat) 0

/-- The location that a command addresses, if its address is complete. -/
def location (c : Nor size) (sent : List UInt8) : Option Nat :=
  if 1 + c.addressBytes ≤ sent.length then
    some (bigEndian ((sent.drop 1).take c.addressBytes) % size)
  else none

/-- The data of a command. -/
def payload (c : Nor size) (sent : List UInt8) : List UInt8 := sent.drop (1 + c.addressBytes)

/-- The byte of the page buffer for a place in the page, when data goes into it from `offset`
    on: the last one that is put there. -/
def latched (offset : Nat) (data : List UInt8) (place : Nat) : Option UInt8 :=
  let first := (place + 256 - offset % 256) % 256
  if first < data.length then
    some (data.getD (first + 256 * ((data.length - 1 - first) / 256)) 0)
  else none

/-- The memory behind a page program. -/
def programmed (cells : Nat → UInt8) (start : Nat) (data : List UInt8) : Nat → UInt8 := fun a =>
  if a / 256 = start / 256 then
    match latched start data (a % 256) with
    | some b => cells a &&& b
    | none => cells a
  else cells a

/-- What is received while the chip is selected once. -/
def select (c : Nor size) (sent : List UInt8) : Nor size :=
  match sent.head?.map NorCommand.ofByte with
  | some .writeEnable => { c with writeEnabled := true, resetEnabled := false }
  | some .writeDisable => { c with writeEnabled := false, resetEnabled := false }
  | some .enterFourByte => { c with fourByte := true, resetEnabled := false }
  | some .exitFourByte => { c with fourByte := false, resetEnabled := false }
  | some .resetEnable => { c with resetEnabled := true }
  | some .resetMemory =>
      if c.resetEnabled then
        { c with fourByte := false, writeEnabled := false, resetEnabled := false }
      else c
  | some .pageProgram =>
      match c.writeEnabled, c.location sent with
      | true, some start =>
          { c with
            cells := programmed c.cells start (c.payload sent)
            writeEnabled := false
            resetEnabled := false }
      | _, _ => { c with resetEnabled := false }
  | some .sectorErase =>
      match c.writeEnabled, c.location sent, c.payload sent with
      | true, some start, [] =>
          { c with
            cells := fun a => if a / 65536 = start / 65536 then 0xFF else c.cells a
            writeEnabled := false
            resetEnabled := false }
      | _, _, _ => { c with resetEnabled := false }
  | some .read | some .other | none => { c with resetEnabled := false }

/-- The byte that is sent back for byte number `k` of what is received. -/
def output (c : Nor size) (received : List UInt8) (k : Nat) : UInt8 :=
  match received.head?.map NorCommand.ofByte, c.location received with
  | some .read, some start =>
      if 1 + c.addressBytes ≤ k then c.cells ((start + (k - (1 + c.addressBytes))) % size)
      else 0xFF
  | _, _ => 0xFF

/-- What is sent back for `n` further bytes behind a command. -/
def read (c : Nor size) (sent : List UInt8) (n : Nat) : List UInt8 :=
  (List.range n).map fun i => c.output (sent ++ List.replicate n 0xFF) (sent.length + i)

/-- A page that is put into the buffer from its beginning on. -/
theorem latched_of_le {offset : Nat} {data : List UInt8} {place : Nat}
    (hoffset : offset % 256 = 0) (hdata : data.length ≤ 256) (hplace : place < 256) :
    latched offset data place =
      if place < data.length then some (data.getD place 0) else none := by
  have hfirst : (place + 256 - offset % 256) % 256 = place := by omega
  unfold latched
  rw [hfirst]
  by_cases hlt : place < data.length
  · have hzero : (data.length - 1 - place) / 256 = 0 := by omega
    simp only [if_pos hlt, hzero]
    rfl
  · simp only [if_neg hlt]

/-- Only a command for it goes over to four bytes. -/
theorem fourByte_select {c : Nor size} (hmode : c.fourByte = false) {op : UInt8}
    (hop : NorCommand.ofByte op ≠ .enterFourByte) (rest : List UInt8) :
    (c.select (op :: rest)).fourByte = false := by
  unfold select
  rw [List.head?_cons, Option.map_some]
  cases hcommand : NorCommand.ofByte op with
  | enterFourByte => exact absurd hcommand hop
  | writeEnable | writeDisable | exitFourByte | resetEnable | read | other =>
      first | exact hmode | rfl
  | resetMemory =>
      dsimp only
      split
      · rfl
      · exact hmode
  | pageProgram =>
      dsimp only
      split <;> exact hmode
  | sectorErase =>
      dsimp only
      split <;> exact hmode

/-- A program that is enabled clears bits of its page. -/
theorem cells_select_program {c : Nor size} (henabled : c.writeEnabled = true) {op : UInt8}
    (hop : NorCommand.ofByte op = .pageProgram) {rest : List UInt8} {start : Nat}
    (hstart : c.location (op :: rest) = some start) :
    (c.select (op :: rest)).cells = programmed c.cells start (c.payload (op :: rest)) := by
  unfold select
  rw [List.head?_cons, Option.map_some, hop]
  dsimp only
  rw [henabled, hstart]

/-- An erase that is enabled, and has nothing behind its address, sets the bits of its
    sector. -/
theorem cells_select_erase {c : Nor size} (henabled : c.writeEnabled = true) {op : UInt8}
    (hop : NorCommand.ofByte op = .sectorErase) {rest : List UInt8} {start : Nat}
    (hstart : c.location (op :: rest) = some start) (hnone : c.payload (op :: rest) = []) :
    (c.select (op :: rest)).cells =
      fun a => if a / 65536 = start / 65536 then 0xFF else c.cells a := by
  unfold select
  rw [List.head?_cons, Option.map_some, hop]
  dsimp only
  rw [henabled, hstart, hnone]

/-! ### Commands with an address of three bytes -/

section ThreeBytes

variable {c : Nor size} (hmode : c.fourByte = false)

include hmode

theorem addressBytes_three : c.addressBytes = 3 := by rw [addressBytes, hmode]; rfl

/-- An address of three bytes is below 2^24. -/
theorem location_lt {sent : List UInt8} {start : Nat} (h : c.location sent = some start) :
    start < 2 ^ 24 := by
  unfold location at h
  split at h
  · rw [addressBytes_three hmode] at h
    have hlt : bigEndian ((sent.drop 1).take 3) < 2 ^ 24 := by
      rcases (sent.drop 1) with _ | ⟨x, _ | ⟨y, _ | ⟨z, rest⟩⟩⟩
      all_goals simp only [List.take_succ_cons, List.take_zero, List.take_nil, bigEndian,
        List.foldl_cons, List.foldl_nil]
      · decide
      · have hx := x.toNat_lt
        omega
      · have hx := x.toNat_lt
        have hy := y.toNat_lt
        omega
      · have hx := x.toNat_lt
        have hy := y.toNat_lt
        have hz := z.toNat_lt
        omega
    rw [← Option.some.inj h]
    exact Nat.lt_of_le_of_lt (Nat.mod_le _ _) hlt
  · exact absurd h nofun

theorem location_eq (op x y z : UInt8) (rest : List UInt8) :
    c.location (op :: x :: y :: z :: rest) =
      some (((x.toNat * 256 + y.toNat) * 256 + z.toNat) % size) := by
  rw [location, addressBytes_three hmode, if_pos (by simp only [List.length_cons]; omega)]
  simp [bigEndian]

theorem payload_eq (op x y z : UInt8) (rest : List UInt8) :
    c.payload (op :: x :: y :: z :: rest) = rest := by
  rw [payload, addressBytes_three hmode]
  rfl

/-- A read sends the memory from its location on. What is received behind the address takes
    up the first bytes of it. -/
theorem read_eq (x y z : UInt8) (behind : List UInt8) (n : Nat) :
    c.read (0x03 :: x :: y :: z :: behind) n = (List.range n).map fun i => c.cells
      ((((x.toNat * 256 + y.toNat) * 256 + z.toNat) % size + (behind.length + i)) % size) := by
  refine List.map_congr_left fun i _ => ?_
  simp only [List.cons_append, List.length_cons]
  unfold output
  have hread : NorCommand.ofByte 0x03 = .read := by decide
  rw [location_eq hmode, List.head?_cons, Option.map_some, hread, addressBytes_three hmode]
  have hplace : behind.length + 1 + 1 + 1 + 1 + i - (1 + 3) = behind.length + i := by omega
  dsimp only
  rw [if_pos (by omega), hplace]

end ThreeBytes

end Nor

end RtosLwip
