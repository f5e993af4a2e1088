import RtosLwip.Base.Registers
import RtosLwip.Cmd.Handle
import RtosLwip.Media.Task

/-!
# The FPGA Driver

The part of `eosHwFpgaDrv.c` that tells the FPGA its addresses and ports, and
reads them back for display. The FPGA has one set of registers for its own side
and one for the destination; a receiver only uses the first, and keeps the
stream it receives there.

The processor stores the low byte of a number first, and so do the registers. A
MAC address is turned round on its way, and an IP address is taken out of network
order by `lwip_ntohl`, which makes it the number that an address is here.

## Main definitions

* `RegisterMap`, `localMap`, `destMap`: Where the registers are.
* `writeVideoConfig`, `readVideoConfig`: One side.
* `extFpgaConfigRegisters`: What `extFpgaConfig` writes.
* `extFgpaRegisterDebug`: What is read back.
* `extFpgaConfigParams`, `extFpgaEnable`: The other registers.

## Theorems

* `readVideoConfig_writeVideoConfig`: What is written is read back.
* `readVideoConfig_writeVideoConfig_other`: The other side is left alone.
-/

namespace RtosLwip

namespace Board

open Cmd Registers

/-- `EXT_RUNTIME_CFG`, as the commands know it. -/
abbrev RuntimeCfg := Cmd.RuntimeCfg

abbrev FpgaRegisters := Nat → UInt8

/-- `EXT_FPGA_REG_MAC`, `EXT_FPGA_REG_IP` and the four ports, of one side. -/
structure RegisterMap where
  mac : Nat
  ip : Nat
  vport : Nat
  aport : Nat
  dport : Nat
  sport : Nat

/-- `EXT_FPGA_REG_MAC` and the others. -/
def localMap : RegisterMap := ⟨56, 52, 62, 76, 80, 84⟩

/-- `EXT_FPGA_REG_DEST_MAC` and the others. -/
def destMap : RegisterMap := ⟨68, 64, 74, 78, 82, 86⟩

/-- `EXT_FPGA_REG_ETHERNET_RESET` -/
def regEthernetReset : Nat := 0

/-- `EXT_FPGA_REG_ENABLE` -/
def regEnable : Nat := 3

/-- A 16-bit number in memory. -/
def shortBytes (v : UInt16) : List UInt8 := [v.toUInt8, (v >>> 8).toUInt8]

/-- A 32-bit number in memory. -/
def integerBytes (v : UInt32) : List UInt8 :=
  shortBytes v.toUInt16 ++ shortBytes (v >>> 16).toUInt16

/-- `_changeByteOrderOfMac` -/
def changeByteOrderOfMac (mac : MacAddress) : MacAddress := mac.reverse

/-- `_extFpgaReadShort` -/
def extFpgaReadShort (address : Nat) (regs : FpgaRegisters) : UInt16 := le16 (readAt address 2 regs)

/-- `_extFpgaReadInteger` -/
def extFpgaReadInteger (address : Nat) (regs : FpgaRegisters) : UInt32 :=
  le32 (readAt address 4 regs)

/-- A MAC address as `_extFpgaRegisterRead` leaves it. -/
def extFpgaReadMac (address : Nat) (regs : FpgaRegisters) : MacAddress :=
  ⟨(readAt address 6 regs).toArray, by rw [List.size_toArray, length_readAt]⟩

/-- The values of one side, with their registers and in the order in which they are
    written. -/
def sideValues (m : RegisterMap) (v : VideoConfig) : List (Nat × List UInt8) :=
  [(m.mac, (changeByteOrderOfMac v.mac).toList), (m.ip, integerBytes v.ip),
    (m.vport, shortBytes v.vport), (m.aport, shortBytes v.aport), (m.dport, shortBytes v.dport),
    (m.sport, shortBytes v.sport)]

/-- `_extFpgaRegisterWrite`, `_extFpgaWriteInteger` and `_extFpgaWriteShort` for one
    side. -/
def writeVideoConfig (m : RegisterMap) (v : VideoConfig) (regs : FpgaRegisters) : FpgaRegisters :=
  writeAll (sideValues m v) regs

/-- One side, as `extFgpaRegisterDebug` reads it. -/
def readVideoConfig (m : RegisterMap) (regs : FpgaRegisters) : VideoConfig where
  mac := changeByteOrderOfMac (extFpgaReadMac m.mac regs)
  ip := extFpgaReadInteger m.ip regs
  vport := extFpgaReadShort m.vport regs
  aport := extFpgaReadShort m.aport regs
  dport := extFpgaReadShort m.dport regs
  sport := extFpgaReadShort m.sport regs

/-- The addresses and ports that `extFgpaRegisterDebug` displays. Only a transmitter
    has a destination. -/
def extFgpaRegisterDebug (isTx : Bool) (regs : FpgaRegisters) : VideoConfig × Option VideoConfig :=
  (readVideoConfig localMap regs, if isTx then some (readVideoConfig destMap regs) else none)

/-- The MAC address of a multicast group: the low 23 bits of its address. -/
def multicastMac (ip : UInt32) : MacAddress :=
  #v[0x01, 0x00, 0x5E, ipPart ip 1 &&& 0x7F, ipPart ip 2, ipPart ip 3]

/-- `extNetMulticastIP4Mac` -/
def extNetMulticastIP4Mac (ip : UInt32) : Option MacAddress :=
  if isMulticast ip then some (multicastMac ip) else none

/-- The address that a transmitter sends from: that of the network interface, once it
    has one. -/
def localIp (cfg : RuntimeCfg) : UInt32 := if cfg.netifIp = 0 then cfg.local.ip else cfg.netifIp

/-- Set the reset bit of a receiver and take it back. -/
def resetEthernet (regs : FpgaRegisters) : FpgaRegisters :=
  let regs := writeAt regEthernetReset [regs regEthernetReset ||| 2] regs
  writeAt regEthernetReset [regs regEthernetReset &&& 0xFD] regs

/-- The registers that `extFpgaConfig` writes. A receiver that finds its address
    there takes the rest to be there as well. -/
def extFpgaConfigRegisters (cfg : RuntimeCfg) (regs : FpgaRegisters) : FpgaRegisters :=
  if cfg.isTransmitter then
    let regs := writeVideoConfig localMap { cfg.local with ip := localIp cfg } regs
    writeVideoConfig destMap
      { cfg.dest with mac := (extNetMulticastIP4Mac cfg.dest.ip).getD cfg.dest.mac } regs
  else
    resetEthernet
      (if extFpgaReadInteger localMap.ip regs ≠ cfg.dest.ip then
        writeVideoConfig localMap cfg.dest regs
      else regs)

/-- `extFpgaEnable` -/
def extFpgaEnable (isEnable : UInt8) (regs : FpgaRegisters) : FpgaRegisters :=
  writeAt regEnable [if isEnable = 0 then 0 else 0xFF] regs

/-- `_translateFrameRate` to the FPGA. -/
def translateFrameRateBack (rate : UInt8) : UInt8 :=
  ((Media.frameRateTable.find? fun e => e.2 = rate).map (·.1)).getD 0

/-- `EXT_FPGA_FLAGS_MCU_ENABLE` -/
def flagsMcuEnable : UInt8 := 0x43

/-- The registers that `extFpgaConfigParams` writes. The depth is read where it should
    be written. -/
def paramsValues (p : RunTimeParam) : List (Nat × List UInt8) :=
  [(6, shortBytes p.vWidth), (8, shortBytes p.vHeight), (10, [translateFrameRateBack p.vFrameRate]),
    (11, [p.vColorSpace]), (13, [p.vIsSegmented]), (regEnable, [flagsMcuEnable])]

/-- `extFpgaConfigParams` -/
def extFpgaConfigParams (p : RunTimeParam) (regs : FpgaRegisters) : FpgaRegisters :=
  writeAll (paramsValues p) regs

@[simp] theorem length_shortBytes (v : UInt16) : (shortBytes v).length = 2 := rfl

@[simp] theorem length_integerBytes (v : UInt32) : (integerBytes v).length = 4 := rfl

theorem le16_shortBytes (v : UInt16) (rest : List UInt8) : le16 (shortBytes v ++ rest) = v :=
  le16_bytes16 v rest

theorem le32_integerBytes (v : UInt32) : le32 (integerBytes v) = v := by
  have hbytes : integerBytes v = bytes32 v := (bytes32_eq v).symm
  rw [hbytes, le32_bytes32]

/-- The registers of one side are apart from each other. -/
def RegisterMap.Separate (m : RegisterMap) : Prop :=
  [(m.mac, 6), (m.ip, 4), (m.vport, 2), (m.aport, 2), (m.dport, 2), (m.sport, 2)].Pairwise
    fun a b => a.1 + a.2 ≤ b.1 ∨ b.1 + b.2 ≤ a.1

instance (m : RegisterMap) : Decidable m.Separate := inferInstanceAs (Decidable (List.Pairwise _ _))

theorem separate_localMap : localMap.Separate := by decide

theorem separate_destMap : destMap.Separate := by decide

theorem pairwise_sideValues {m : RegisterMap} (h : m.Separate) (v : VideoConfig) :
    (sideValues m v).Pairwise Apart := by
  have hlen : (sideValues m v).map (fun w => (w.1, w.2.length)) =
      [(m.mac, 6), (m.ip, 4), (m.vport, 2), (m.aport, 2), (m.dport, 2), (m.sport, 2)] := by
    simp only [sideValues, List.map_cons, List.map_nil, Vector.length_toList, length_integerBytes,
      length_shortBytes]
  rw [RegisterMap.Separate, ← hlen] at h
  have hpair := List.pairwise_map.mp h
  exact hpair

/-- What is written to one side is read back. -/
theorem readVideoConfig_writeVideoConfig {m : RegisterMap} (h : m.Separate) (v : VideoConfig)
    (regs : FpgaRegisters) : readVideoConfig m (writeVideoConfig m v regs) = v := by
  have hread : ∀ w ∈ sideValues m v, readAt w.1 w.2.length (writeVideoConfig m v regs) = w.2 :=
    fun w hw => readAt_writeAll_self (pairwise_sideValues h v) hw regs
  simp only [sideValues, List.mem_cons, List.not_mem_nil, or_false, forall_eq_or_imp, forall_eq,
    length_integerBytes, length_shortBytes, Vector.length_toList] at hread
  obtain ⟨hmac, hip, hvport, haport, hdport, hsport⟩ := hread
  have hmac' : extFpgaReadMac m.mac (writeVideoConfig m v regs) = changeByteOrderOfMac v.mac := by
    apply Vector.toList_inj.mp
    rw [← hmac]
    rfl
  have hport : ∀ p : UInt16, le16 (shortBytes p) = p := fun p => by
    rw [← List.append_nil (shortBytes p), le16_shortBytes]
  rw [readVideoConfig, hmac', extFpgaReadInteger, hip, le32_integerBytes]
  simp only [extFpgaReadShort, hvport, haport, hdport, hsport, hport, changeByteOrderOfMac,
    Vector.reverse_reverse]

theorem readVideoConfig_congr {m : RegisterMap} {regs regs' : FpgaRegisters}
    (h : ∀ r ∈ [(m.mac, 6), (m.ip, 4), (m.vport, 2), (m.aport, 2), (m.dport, 2), (m.sport, 2)],
      readAt r.1 r.2 regs' = readAt r.1 r.2 regs) :
    readVideoConfig m regs' = readVideoConfig m regs := by
  simp only [List.mem_cons, List.not_mem_nil, or_false, forall_eq_or_imp, forall_eq] at h
  obtain ⟨hmac, hip, hvport, haport, hdport, hsport⟩ := h
  simp only [readVideoConfig, extFpgaReadMac, extFpgaReadInteger, extFpgaReadShort, hmac, hip,
    hvport, haport, hdport, hsport]

/-- Nothing but the addresses and ports is written where a side has its registers. -/
theorem readVideoConfig_writeAll {m : RegisterMap} (values : List (Nat × List UInt8))
    (regs : FpgaRegisters)
    (h : ∀ r ∈ [(m.mac, 6), (m.ip, 4), (m.vport, 2), (m.aport, 2), (m.dport, 2), (m.sport, 2)],
      ∀ v ∈ values, r.1 + r.2 ≤ v.1 ∨ v.1 + v.2.length ≤ r.1) :
    readVideoConfig m (writeAll values regs) = readVideoConfig m regs :=
  readVideoConfig_congr fun r hr => readAt_writeAll_other values r.1 r.2 regs (h r hr)

/-- The destination is written somewhere else. -/
theorem readVideoConfig_writeVideoConfig_other (v : VideoConfig) (regs : FpgaRegisters) :
    readVideoConfig localMap (writeVideoConfig destMap v regs) = readVideoConfig localMap regs := by
  refine readVideoConfig_writeAll _ _ ?_
  simp [sideValues, localMap, destMap]

theorem readVideoConfig_extFpgaConfigParams {m : RegisterMap} (hm : m = localMap ∨ m = destMap)
    (p : RunTimeParam) (regs : FpgaRegisters) :
    readVideoConfig m (extFpgaConfigParams p regs) = readVideoConfig m regs := by
  refine readVideoConfig_writeAll _ _ ?_
  rcases hm with rfl | rfl <;> simp [paramsValues, localMap, destMap, regEnable]

theorem readVideoConfig_extFpgaEnable {m : RegisterMap} (hm : m = localMap ∨ m = destMap)
    (isEnable : UInt8) (regs : FpgaRegisters) :
    readVideoConfig m (extFpgaEnable isEnable regs) = readVideoConfig m regs := by
  refine readVideoConfig_writeAll [(regEnable, [if isEnable = 0 then 0 else 0xFF])] regs ?_
  rcases hm with rfl | rfl <;> simp [localMap, destMap, regEnable]

theorem readVideoConfig_resetEthernet (regs : FpgaRegisters) :
    readVideoConfig localMap (resetEthernet regs) = readVideoConfig localMap regs := by
  have hone : ∀ (value : UInt8) (regs : FpgaRegisters),
      readVideoConfig localMap (writeAt regEthernetReset [value] regs) =
        readVideoConfig localMap regs := by
    intro value regs
    refine readVideoConfig_writeAll [(regEthernetReset, [value])] regs ?_
    simp [localMap, regEthernetReset]
  rw [resetEthernet, hone, hone]

/-- The address in the register is the one that is displayed. -/
theorem extFpgaReadInteger_ip (regs : FpgaRegisters) :
    extFpgaReadInteger localMap.ip regs = (readVideoConfig localMap regs).ip := rfl

end Board

end RtosLwip
