import RtosLwip.Board.Operation
import RtosLwip.Boot.Update
import RtosLwip.Flash.Flashd

/-!
# The Configuration across a Boot

One run of the bootloader, `bspHwInit(BOOT_MODE_BOOTLOADER)` and `_bootUpdate`.
The first reads the configuration, the second clears the update record in it and
saves the whole of it. What is saved is what the first has made of it.

It does not leave it as it was. "In order to make old bootloader compatible with
new RTOS" the settings of the serial line are replaced by the default ones, the
check of the magic bytes is not reached, and the destination address and its MAC
address are worked out anew, perhaps from the DIP switches. None of it matters to
the bootloader, and all of it is saved behind an update.

The configuration block is followed through the operations of a run: an
operation on it that succeeds erases it, fills it with a configuration, or with
something else.

## Main definitions

* `StoredCfg`: The fields of the configuration that are saved, besides the record.
* `bspCfgRead`, `extCfgFromFactory`, `bspHwInit`: From the flash to the memory.
* `bootRun`: One run of the bootloader.
* `CfgBlock`: What the configuration block holds.
* `PreservesConfig`: What a run should do.
* `KeptByBootloader`: The configurations that `bspHwInit` leaves alone.

## Theorems

* `leaves_bspCfgSave`: A save that succeeds leaves what it saved.
* `bootRun_preserves_iff`: When a run preserves the configuration.
-/

namespace RtosLwip

namespace Boot

open Flash
open Cmd (MacAddress VideoConfig Rs232Cfg FmVersion isMulticast)
open Board (dipAddress multicastMac)

/-- `MuxNmosID` -/
structure NmosId where
  uuid : Vector UInt8 16
  seconds : UInt32
  nanoSeconds : UInt32
  deriving DecidableEq

/-- `EXT_RUNTIME_CFG` up to `EXT_RUNTIME_CFG_WRITE_SIZE`, without the update
    record. -/
structure StoredCfg where
  magic : UInt8 × UInt8
  isTx : UInt8
  rs232Cfg : Rs232Cfg
  user : Vector UInt8 16
  password : Vector UInt8 16
  superUser : Vector UInt8 16
  superPassword : Vector UInt8 16
  isStoreDefaultCfg : UInt8
  isMCast : UInt8
  isUpdate : UInt8
  isDipOn : UInt8
  netMode : UInt8
  «local» : VideoConfig
  ipMask : UInt32
  ipGateway : UInt32
  ipMulticast : UInt32
  isMacConfiged : UInt8
  isMacConfiged2 : UInt8
  dest : VideoConfig
  name : Vector UInt8 32
  model : Vector UInt8 32
  version : FmVersion
  httpPort : UInt16
  isConfigFpga : UInt8
  nodeID : NmosId
  deviceID : NmosId
  ipSvr811 : UInt32
  portSvr811 : UInt16
  endMagic : UInt8 × UInt8
  deriving DecidableEq

/-- A saved configuration. -/
abbrev SavedCfg := RtosLwip.RuntimeCfg StoredCfg

/-- `boot_mode` -/
inductive BootMode where
  | bootloader
  | rtos
  deriving DecidableEq

/-- The settings of the serial line that the bootloader works with. -/
def defaultRs232Cfg : Rs232Cfg := ⟨57600, 8, 0, 1⟩

/-- The magic bytes, `EXT_MAGIC_VALUE_A` and `EXT_MAGIC_VALUE_B`, are in place. -/
def StoredCfg.magicOk (cfg : StoredCfg) : Bool :=
  cfg.magic = (0xA5, 0x5A) && cfg.endMagic = (0x5A, 0xA5)

/-- A text printed into an array, with its NUL. What is behind stays. -/
def printInto {n : Nat} (buf : Vector UInt8 n) (text : List UInt8) : Vector UInt8 n :=
  Vector.ofFn fun i => ((text ++ [0])[i.val]?).getD buf[i.val]

/-- The configuration after `memset`. -/
def StoredCfg.zero : StoredCfg where
  magic := (0, 0)
  isTx := 0
  rs232Cfg := ⟨0, 0, 0, 0⟩
  user := .replicate 16 0
  password := .replicate 16 0
  superUser := .replicate 16 0
  superPassword := .replicate 16 0
  isStoreDefaultCfg := 0
  isMCast := 0
  isUpdate := 0
  isDipOn := 0
  netMode := 0
  «local» := ⟨.zero, 0, 0, 0, 0, 0⟩
  ipMask := 0
  ipGateway := 0
  ipMulticast := 0
  isMacConfiged := 0
  isMacConfiged2 := 0
  dest := ⟨.zero, 0, 0, 0, 0, 0⟩
  name := .replicate 32 0
  model := .replicate 32 0
  version := ⟨0, 0, 0⟩
  httpPort := 0
  isConfigFpga := 0
  nodeID := ⟨.replicate 16 0, 0, 0⟩
  deviceID := ⟨.replicate 16 0, 0, 0⟩
  ipSvr811 := 0
  portSvr811 := 0
  endMagic := (0, 0)

/-- `extTxMulticastIP2Mac` -/
def extTxMulticastIP2Mac (cfg : StoredCfg) : StoredCfg :=
  if isMulticast cfg.dest.ip then { cfg with dest.mac := multicastMac cfg.dest.ip } else cfg

/-- `ETHERNET_CONF_ETHADDR0` to `ETHERNET_CONF_ETHADDR5`, where the fifth byte tells a
    transmitter from a receiver. -/
def ethernetConfEthaddr (addr4 : UInt8) : MacAddress :=
  #v[0x00, 0x04, 0x25, 0x1C, addr4, 0x02]

/-- `extCfgFromFactory`. `ids` are the identities that `extNmosIdGenerate` comes
    up with. -/
def extCfgFromFactory (ids : NmosId × NmosId) (cfg : SavedCfg) : SavedCfg :=
  let tx := cfg.rest.isTx ≠ 0
  { firmUpdateInfo := .zero
    rest := extTxMulticastIP2Mac {
      cfg.rest with
      magic := (0xA5, 0x5A)
      name := printInto cfg.rest.name (ascii "SdiOverIP-767")
      model := printInto cfg.rest.model (ascii "500767")
      version := ⟨0, 1, 1⟩
      user := printInto cfg.rest.user (ascii "admin")
      password := printInto cfg.rest.password (ascii "admin")
      superUser := printInto cfg.rest.superUser (ascii "muxlab")
      superPassword := printInto cfg.rest.superPassword (ascii "muxlab")
      isMCast := 1
      ipMulticast := 0xEF640101
      isUpdate := 0
      isDipOn := 1
      isMacConfiged := 0
      «local» := {
        mac := ethernetConfEthaddr (if tx then 0x10 else 0xA0)
        ip := if tx then 0xC0A8A979 else 0xC0A8A941
        vport := if tx then 40000 else 48000
        aport := if tx then 40010 else 48010
        dport := if tx then 40020 else 48020
        sport := if tx then 40030 else 48030 }
      dest := {
        mac := ethernetConfEthaddr 0xA0
        ip := 0xEF640101
        vport := 48000
        aport := 48010
        dport := 48020
        sport := 48030 }
      ipGateway := 0xC0A8A901
      ipSvr811 := 0xC0A8A832
      portSvr811 := 3840
      ipMask := 0xFFFFFF00
      rs232Cfg := defaultRs232Cfg
      netMode := 1
      httpPort := 80
      nodeID := ids.1
      deviceID := ids.2
      isConfigFpga := 1
      endMagic := (0x5A, 0xA5) } }

/-- `bspCfgRead`, where `read` is what the flash delivers, if it delivers anything.
    The bootloader returns before the magic bytes are looked at. -/
def bspCfgRead (mode : BootMode) (read : Option SavedCfg) (cfg : SavedCfg) : Bool × SavedCfg :=
  match read with
  | none => (false, cfg)
  | some stored =>
    match mode with
    | .bootloader => (true, { stored with rest.rs232Cfg := defaultRs232Cfg })
    | .rtos => (stored.rest.magicOk, stored)

/-- The destination address that `bspHwInit` comes to. -/
def destAddress (switches : Fin 16) (cfg : StoredCfg) : UInt32 :=
  if cfg.isMCast ≠ 0 ∧ cfg.isDipOn ≠ 0 then dipAddress switches else cfg.ipMulticast

/-- `bspHwInit`, as far as the configuration is concerned. `mac` is the random MAC
    address. -/
def bspHwInit (mode : BootMode) (mac : MacAddress) (ids : NmosId × NmosId) (switches : Fin 16)
    (read : Option SavedCfg) : SavedCfg :=
  let r := bspCfgRead mode read ⟨.zero, .zero⟩
  let cfg := if r.1 then r.2 else extCfgFromFactory ids r.2
  let cfg :=
    if cfg.rest.isMacConfiged = 0 ∧ mode = .rtos then { cfg with rest.local.mac := mac } else cfg
  { cfg with
    rest := extTxMulticastIP2Mac { cfg.rest with dest.ip := destAddress switches cfg.rest } }

/-- One run of the bootloader: `bspHwInit` and `_bootUpdate`. -/
def bootRun (hw : BootHw) (fuel : Nat) (mac : MacAddress) (ids : NmosId × NmosId)
    (switches : Fin 16) (read : Option SavedCfg) (st : BootState StoredCfg) :
    Option (Nat × SavedCfg × BootState StoredCfg) :=
  bootUpdate hw fuel (bspHwInit .bootloader mac ids switches read) st

/-- What the configuration block, the 16 pages from `FLASH_START_PAGE_CONFIGURATION`
    on, holds. -/
inductive CfgBlock (ρ : Type) where
  | holds (cfg : RtosLwip.RuntimeCfg ρ)
  | erased
  | other

variable {ρ : Type}

/-- An operation erases or writes a page of the configuration block. -/
def touchesCfg : EfcOp ρ → Bool
  | .erase page => page = startPageConfiguration
  | .write page data =>
    page < startPageConfiguration + eraseCount &&
      startPageConfiguration * iflashPageSize < page * iflashPageSize + data.length
  | .writeCfg page _ => page = startPageConfiguration

/-- What an operation that succeeds leaves of the configuration block. Without an
    erase before it a write leaves neither what was there nor what is written. -/
def CfgBlock.after (op : EfcOp ρ) (block : CfgBlock ρ) : CfgBlock ρ :=
  if touchesCfg op then
    match op, block with
    | .erase _, _ => .erased
    | .writeCfg _ cfg, .erased => .holds cfg
    | _, _ => .other
  else block

/-- What operations that succeed leave of the configuration block. -/
def leaves (block : CfgBlock ρ) (ops : List (EfcOp ρ)) : CfgBlock ρ :=
  ops.foldl (fun block op => block.after op) block

/-- Of the operations from position `n` on, those on the configuration block
    succeed. -/
def CfgOpsOk (ok : Nat → Bool) (n : Nat) (ops : List (EfcOp ρ)) : Prop :=
  ∀ i op, ops[i]? = some op → touchesCfg op = true → ok (n + i) = true

/-- A save whose operations succeed leaves what it saved. -/
theorem leaves_bspCfgSave {ok : Nat → Bool} {cfg : RtosLwip.RuntimeCfg ρ}
    {base copied added : List (EfcOp ρ)}
    (hadd : (bspCfgSave ok cfg .main (base ++ copied)).2 = base ++ added)
    (hok : CfgOpsOk ok base.length added) (block : CfgBlock ρ) :
    leaves block added = .holds cfg := by
  simp only [bspCfgSave, efcFlashProgram, efcIssue] at hadd
  rw [if_pos (by decide)] at hadd
  by_cases herase : ok (base ++ copied).length = true
  · simp only [herase, if_true, List.append_assoc, List.append_cancel_left_eq] at hadd
    rw [← hadd, leaves, List.foldl_append]
    rfl
  · -- the erase is among the operations that succeed
    simp only [herase, if_false, Bool.false_eq_true, List.append_assoc,
      List.append_cancel_left_eq] at hadd
    refine absurd ?_ herase
    rw [List.length_append]
    refine hok copied.length (.erase startPageConfiguration) ?_ rfl
    rw [← hadd, List.getElem?_append_right (Nat.le_refl _), Nat.sub_self]
    rfl

/-- The record names an image. -/
def Pending (cfg : SavedCfg) : Prop :=
  cfg.firmUpdateInfo.type = .rtos ∨ cfg.firmUpdateInfo.type = .fpga

/-- What one run of the bootloader should do with the configuration it finds, however
    it is read and whatever comes of the copy. A pending update leaves every field
    outside of the record as it was, provided that the operations on the
    configuration block succeed. Nothing is done about a corrupt configuration. -/
def PreservesConfig (switches : Fin 16) (stored : SavedCfg) : Prop :=
  ∀ (hw : BootHw) (fuel : Nat) (mac : MacAddress) (ids : NmosId × NmosId)
    (read : Option SavedCfg) (st st' : BootState StoredCfg) (length : Nat) (cfg : SavedCfg),
    (read = none ∨ read = some stored) →
    bootRun hw fuel mac ids switches read st = some (length, cfg, st') →
    ∃ added, st'.efcOps = st.efcOps ++ added ∧
      (Pending stored → CfgOpsOk hw.efc st.efcOps.length added →
        ∃ left, leaves (.holds stored) added = .holds left ∧ left.rest = stored.rest) ∧
      (stored.rest.magicOk = false → st' = st)

/-- The configurations that `bspHwInit` leaves alone in the bootloader: valid, with
    the default serial line, and with the destination it works out. -/
structure KeptByBootloader (switches : Fin 16) (cfg : StoredCfg) : Prop where
  magic : cfg.magicOk = true
  rs232Cfg : cfg.rs232Cfg = defaultRs232Cfg
  destIp : cfg.dest.ip = destAddress switches cfg
  destMac : isMulticast cfg.dest.ip = true → cfg.dest.mac = multicastMac cfg.dest.ip

variable {switches : Fin 16} {stored : SavedCfg}

/-- What `bspHwInit` makes of the configuration it reads in the bootloader. -/
theorem bspHwInit_bootloader (mac : MacAddress) (ids : NmosId × NmosId) :
    (bspHwInit .bootloader mac ids switches (some stored)).firmUpdateInfo = stored.firmUpdateInfo ∧
      ((bspHwInit .bootloader mac ids switches (some stored)).rest = stored.rest ↔
        stored.rest.rs232Cfg = defaultRs232Cfg ∧
        stored.rest.dest.ip = destAddress switches stored.rest ∧
        (isMulticast stored.rest.dest.ip = true →
          stored.rest.dest.mac = multicastMac stored.rest.dest.ip)) := by
  have hread : bspHwInit .bootloader mac ids switches (some stored) = { stored with
      rest := extTxMulticastIP2Mac { stored.rest with
        rs232Cfg := defaultRs232Cfg
        dest.ip := destAddress switches stored.rest } } := by
    simp only [bspHwInit, bspCfgRead, if_true, reduceCtorEq, and_false, if_false]
    rfl
  rw [hread, extTxMulticastIP2Mac]
  refine ⟨rfl, ?_⟩
  rcases stored with ⟨info, cfg⟩
  rcases cfg with ⟨_, _, _, _, _, _, _, _, _, _, _, _, _, _, _, _, _, _, dest, _⟩
  rcases dest with ⟨dmac, dip, _, _, _, _⟩
  dsimp only
  split
  · rename_i hmulti
    simp only [StoredCfg.mk.injEq, VideoConfig.mk.injEq, true_and, and_true]
    refine ⟨fun ⟨hrs, hmac, hip⟩ => ⟨hrs.symm, hip.symm, fun _ => ?_⟩, fun ⟨hrs, hip, hmac⟩ => ?_⟩
    · rw [← hmac, hip]
    · rw [← hip] at hmulti ⊢
      exact ⟨hrs.symm, (hmac hmulti).symm, rfl⟩
  · rename_i hmulti
    simp only [StoredCfg.mk.injEq, VideoConfig.mk.injEq, true_and, and_true]
    refine ⟨fun ⟨hrs, hip⟩ => ⟨hrs.symm, hip.symm, fun h => ?_⟩,
      fun ⟨hrs, hip, _⟩ => ⟨hrs.symm, hip.symm⟩⟩
    exact absurd (hip ▸ h) hmulti

/-- A run that reads nothing, or a configuration without a pending update, issues
    nothing. -/
theorem bootRun_of_not_pending {hw : BootHw} {fuel : Nat} {mac : MacAddress}
    {ids : NmosId × NmosId} {read : Option SavedCfg} {st st' : BootState StoredCfg} {length : Nat}
    {cfg : SavedCfg} (hread : read = none ∨ (read = some stored ∧ ¬ Pending stored))
    (h : bootRun hw fuel mac ids switches read st = some (length, cfg, st')) : st' = st := by
  have htype : ¬ Pending (bspHwInit .bootloader mac ids switches read) := by
    rcases hread with rfl | ⟨rfl, hnot⟩
    · simp only [Pending, bspHwInit, bspCfgRead, Bool.false_eq_true, if_false, reduceCtorEq,
        and_false, extCfgFromFactory, FmUpdate.zero, or_self, not_false_eq_true]
    · rwa [Pending, (bspHwInit_bootloader mac ids).1]
  rw [Pending] at htype
  rw [bootRun, bootUpdate, if_neg htype] at h
  simp only [Option.some.injEq, Prod.mk.injEq] at h
  exact h.2.2.symm

/-- A run with a pending update ends with the configuration in memory saved. -/
theorem bootRun_of_pending {hw : BootHw} {fuel : Nat} {mac : MacAddress}
    {ids : NmosId × NmosId} {st st' : BootState StoredCfg} {length : Nat}
    {cfg : SavedCfg} (hpending : Pending stored)
    (h : bootRun hw fuel mac ids switches (some stored) st = some (length, cfg, st')) :
    cfg.rest = (bspHwInit .bootloader mac ids switches (some stored)).rest ∧
      ∃ copied added, (bspCfgSave hw.efc cfg .main (st.efcOps ++ copied)).2 = st.efcOps ++ added ∧
        st'.efcOps = st.efcOps ++ added := by
  have hinfo : (bspHwInit .bootloader mac ids switches (some stored)).firmUpdateInfo = _ :=
    (bspHwInit_bootloader mac ids).1
  rw [bootRun] at h
  generalize bspHwInit .bootloader mac ids switches (some stored) = run at hinfo h ⊢
  have htype : run.firmUpdateInfo.type = .rtos ∨ run.firmUpdateInfo.type = .fpga := by
    rw [hinfo]
    exact hpending
  rw [bootUpdate, if_pos htype] at h
  cases hcopy : bootCopy hw fuel run.firmUpdateInfo st with
  | none =>
      rw [hcopy] at h
      exact absurd h (by simp only [reduceCtorEq, not_false_eq_true])
  | some r =>
      rw [hcopy] at h
      simp only [Option.some.injEq, Prod.mk.injEq] at h
      rcases bootCopy_efcOps hw fuel _ st r.2 r.1 hcopy with ⟨copied, hc, -⟩
      rcases h with ⟨-, rfl, rfl⟩
      rcases efcFlashProgram_added hw.efc startPageConfiguration
        (.writeCfg startPageConfiguration ⟨.zero, run.rest⟩) (st.efcOps ++ copied) with
        ⟨saved, hsaved, -⟩
      have hsave : (bspCfgSave hw.efc ⟨.zero, run.rest⟩ .main (st.efcOps ++ copied)).2
          = st.efcOps ++ (copied ++ saved) := by
        rw [← List.append_assoc, ← hsaved]
        rfl
      refine ⟨rfl, copied, copied ++ saved, hsave, ?_⟩
      rw [← hsave, hc]

/-- A run preserves a configuration that `bspHwInit` leaves alone. -/
theorem preservesConfig_of_kept (h : Pending stored → KeptByBootloader switches stored.rest) :
    PreservesConfig switches stored := by
  intro hw fuel mac ids read st st' length cfg hread hrun
  by_cases hquiet : read = none ∨ (read = some stored ∧ ¬ Pending stored)
  · rw [bootRun_of_not_pending hquiet hrun]
    exact ⟨[], (List.append_nil _).symm, fun _ _ => ⟨stored, rfl, rfl⟩, fun _ => rfl⟩
  · rw [not_or, not_and, not_not] at hquiet
    have hsome := hread.resolve_left hquiet.1
    have hpending := hquiet.2 hsome
    have hkept := h hpending
    subst hsome
    rcases bootRun_of_pending hpending hrun with ⟨hrest, copied, added, hsave, hadd⟩
    refine ⟨added, hadd, fun _ hok => ⟨cfg, leaves_bspCfgSave hsave hok _, ?_⟩, fun hcorrupt => ?_⟩
    · rw [hrest, (bspHwInit_bootloader mac ids).2]
      exact ⟨hkept.rs232Cfg, hkept.destIp, hkept.destMac⟩
    · exact absurd hkept.magic (by simp only [hcorrupt, Bool.false_eq_true, not_false_eq_true])

/-- A copy of which nothing can be read ends at once. -/
theorem bootCopy_unread (info : FmUpdate) (st : BootState ρ) :
    ∃ r, bootCopy ⟨false, fun _ => false, fun _ => true, fun _ _ => 0⟩ 1 info st = some r := by
  rw [bootCopy]
  split
  · exact ⟨_, rfl⟩
  · rw [bspBootUpdateFpga, fpgaLoop]
    by_cases hsize : 0 < info.size
    · rw [if_pos hsize]
      exact ⟨_, rfl⟩
    · rw [if_neg hsize]
      exact ⟨_, rfl⟩
  · exact ⟨_, rfl⟩

/-- A configuration that is preserved with its update pending is one that
    `bspHwInit` leaves alone. The run that shows it copies nothing, since neither the
    internal flash comes up nor a read succeeds, and saves. -/
theorem kept_of_preservesConfig (h : PreservesConfig switches stored) (hpending : Pending stored) :
    KeptByBootloader switches stored.rest := by
  let st : BootState StoredCfg := ⟨⟨0, 0, 0, 0, 0, 0, [], []⟩, []⟩
  let ids : NmosId × NmosId := (StoredCfg.zero.nodeID, StoredCfg.zero.deviceID)
  have hinfo : (bspHwInit .bootloader .zero ids switches (some stored)).firmUpdateInfo = _ :=
    (bspHwInit_bootloader .zero ids).1
  have htype : (bspHwInit .bootloader .zero ids switches (some stored)).firmUpdateInfo.type = .rtos
      ∨ (bspHwInit .bootloader .zero ids switches (some stored)).firmUpdateInfo.type = .fpga := by
    rw [hinfo]
    exact hpending
  rcases bootCopy_unread stored.firmUpdateInfo st with ⟨r, hcopy⟩
  have hrun : ∃ length cfg st', bootRun ⟨false, fun _ => false, fun _ => true, fun _ _ => 0⟩ 1
      .zero ids switches (some stored) st = some (length, cfg, st') := by
    rw [bootRun, bootUpdate, if_pos htype, hinfo, hcopy]
    exact ⟨_, _, _, rfl⟩
  rcases hrun with ⟨length, cfg, st', hrun⟩
  rcases bootRun_of_pending hpending hrun with ⟨hrest, copied, added, hsave, hadd⟩
  rcases h _ 1 .zero ids (some stored) st st' length cfg (Or.inr rfl) hrun with
    ⟨added', hadd', hleft, hcorrupt⟩
  have hsame : added' = added := List.append_cancel_left (hadd'.symm.trans hadd)
  subst hsame
  have hok : CfgOpsOk (fun _ => true) st.efcOps.length added' := fun _ _ _ _ => rfl
  rcases hleft hpending hok with ⟨left, hblock, hkeep⟩
  rw [leaves_bspCfgSave hsave hok, CfgBlock.holds.injEq] at hblock
  rw [← hblock, hrest, (bspHwInit_bootloader .zero ids).2] at hkeep
  refine ⟨?_, hkeep.1, hkeep.2.1, hkeep.2.2⟩
  -- something has been saved, so the configuration was not corrupt
  by_contra hmagic
  have hquiet := hcorrupt (by simpa only [Bool.not_eq_true] using hmagic)
  rw [hquiet, List.self_eq_append_right] at hadd
  have hnone := leaves_bspCfgSave hsave hok (.erased : CfgBlock StoredCfg)
  rw [hadd] at hnone
  exact absurd hnone (by simp only [leaves, List.foldl_nil, reduceCtorEq, not_false_eq_true])

/-- A run of the bootloader preserves exactly the configurations without a pending
    update and those that `bspHwInit` leaves alone. -/
theorem bootRun_preserves_iff (switches : Fin 16) (stored : SavedCfg) :
    PreservesConfig switches stored ↔
      (Pending stored → KeptByBootloader switches stored.rest) :=
  ⟨kept_of_preservesConfig, preservesConfig_of_kept⟩

/-- A valid configuration with an update pending and the serial line at 9600 baud. -/
def slowSerialLine : SavedCfg where
  firmUpdateInfo := ⟨.rtos, true, 1024⟩
  rest := { StoredCfg.zero with
    magic := (0xA5, 0x5A)
    endMagic := (0x5A, 0xA5)
    rs232Cfg := ⟨9600, 8, 0, 1⟩ }

/-- The serial line is back at its default speed behind the update. -/
theorem not_preservesConfig_slowSerialLine :
    slowSerialLine.rest.magicOk = true ∧ ¬ PreservesConfig 0 slowSerialLine := by
  refine ⟨by decide, fun h => ?_⟩
  have hkept := kept_of_preservesConfig h (Or.inl rfl)
  exact absurd hkept.rs232Cfg (by decide)

end Boot

end RtosLwip
