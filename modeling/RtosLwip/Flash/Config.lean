import Mathlib.Data.List.Basic

/-!
# The Persisted Configuration

The runtime configuration as far as a firmware update is concerned, and the
internal flash it is saved to. The update record `firmUpdateInfo` sits at the
beginning of the configuration; what else is persisted is a parameter `ρ`,
since an update neither reads nor writes it.

The internal flash (EFC) is programmed in pages of 512 bytes. An erase covers
16 pages, and `efcFlashProgram` issues one when the page it is given is the
first of such a block. As with the SPI flash, an operation is recorded when it
is issued and its outcome is looked up by its position.

## Main definitions

* `FmType`, `FmUpdate`: The pending-update record.
* `RuntimeCfg`: The persisted configuration.
* `efcFlashProgram`: Programming the internal flash.
* `bspCfgSave`: Saving the configuration.
* `cancelUpdate`: Clearing the pending-update record.
-/

namespace RtosLwip

/-- `EXT_FM_T`, the firmware a pending update is for. -/
inductive FmType where
  | none
  | rtos
  | fpga
  | unknown
  deriving DecidableEq, Repr

/-- `EXT_FM_UPDATE`, the pending-update record. -/
structure FmUpdate where
  type : FmType
  isWrite : Bool
  size : Nat
  deriving DecidableEq, Repr

/-- The record after `memset` with zero. -/
def FmUpdate.zero : FmUpdate := ⟨.none, false, 0⟩

/-- The persisted part of `EXT_RUNTIME_CFG`. -/
structure RuntimeCfg (ρ : Type) where
  firmUpdateInfo : FmUpdate
  rest : ρ
  deriving DecidableEq, Repr

/-- `CANCEL_UPDATE`: clear the record, so that it will not be written to flash. -/
def cancelUpdate {ρ : Type} (cfg : RuntimeCfg ρ) : RuntimeCfg ρ :=
  { cfg with firmUpdateInfo := .zero }

namespace Flash

/-- `FLASH_ERASE_COUNT`, the pages of one erase block. -/
def eraseCount : Nat := 16

/-- `FLASH_START_PAGE_OS`. -/
def startPageOs : Nat := 256

/-- `FLASH_START_PAGE_CONFIGURATION`. -/
def startPageConfiguration : Nat := 2016

/-- `FLASH_START_PAGE_CONFIG_BACKUP`. -/
def startPageConfigBackup : Nat := 2032

/-- `EXT_CFG_TYPE`: the configuration or its backup. -/
inductive CfgType where
  | main
  | backup
  deriving DecidableEq, Repr

/-- An operation issued to the internal flash. -/
inductive EfcOp (ρ : Type) where
  | erase (page : Nat)
  | write (page : Nat) (data : List UInt8)
  | writeCfg (page : Nat) (cfg : RuntimeCfg ρ)
  deriving DecidableEq, Repr

variable {ρ : Type}

/-- Issue one operation to the internal flash. -/
def efcIssue (ok : Nat → Bool) (op : EfcOp ρ) (ops : List (EfcOp ρ)) : Bool × List (EfcOp ρ) :=
  (ok ops.length, ops ++ [op])

/-- `efcFlashProgram`: erase the block when the page is its first, then write.
    True stands for `EXIT_SUCCESS`. -/
def efcFlashProgram (ok : Nat → Bool) (page : Nat) (op : EfcOp ρ) (ops : List (EfcOp ρ)) :
    Bool × List (EfcOp ρ) :=
  if page % eraseCount = 0 then
    let e := efcIssue ok (.erase page) ops
    if e.1 then efcIssue ok op e.2 else (false, e.2)
  else
    efcIssue ok op ops

/-- `bspCfgSave`. -/
def bspCfgSave (ok : Nat → Bool) (cfg : RuntimeCfg ρ) (cfgType : CfgType)
    (ops : List (EfcOp ρ)) : Bool × List (EfcOp ρ) :=
  let startPage := match cfgType with
    | .main => startPageConfiguration
    | .backup => startPageConfigBackup
  efcFlashProgram ok startPage (.writeCfg startPage cfg) ops

end Flash

end RtosLwip
