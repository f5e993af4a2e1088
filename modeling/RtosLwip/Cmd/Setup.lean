import RtosLwip.Cmd.Responses

/-!
# Applying the Parameters

The merge of `udpCmdSetup.c`: what `extJsonRequestParse` has read into the
scratch configuration is compared with the configuration of the device, and
what is given and different is taken over. The functions differ in how they
tell that a value is given.

Which groups of parameters have changed decides what is saved and which part of
the hardware is configured anew.

## Main definitions

* `Effect`: What a command does besides changing the configuration.
* `checkIntegerField`, `checkShortField`, `checkBoolField`: One value.
* `compareSystemCfg`, `compareRs232Config`, `compareProtocolConfig`,
  `compareMediaCfg`: The groups.
* `extCmdConnect`: Start or stop.
* `applyParams`: All of them, with what they cause.
-/

namespace RtosLwip

namespace Cmd

/-- What a command does outside of the parser and of the configuration. -/
inductive Effect where
  /-- `udp_sendto` -/
  | sendto (frame : List UInt8) (ip : UInt32) (port : UInt16)
  /-- `extMediaPostEvent(EXT_MEDIA_EVENT_ACK)` -/
  | mediaAck
  /-- `extRs232Write` of one byte -/
  | rs232Write (value : UInt8)
  /-- `bspCfgSave` -/
  | cfgSave
  | rs232Config
  | fpgaConfig
  | fpgaConfigParams
  | fpgaEnable (isEnable : UInt8)
  /-- `extLwipGroupMgr` -/
  | groupMgr (gAddress : UInt32) (isAdd : Bool)
  deriving DecidableEq

/-- `_SETUP_TYPE`, the types that are ever set. -/
inductive SetupType where
  | system
  | rs232
  | protocol
  | media
  deriving DecidableEq

/-- The configuration with `_setupType` and the effects so far. -/
structure Setup where
  cfg : RuntimeCfg
  types : List SetupType
  effects : List Effect
  deriving DecidableEq

namespace Setup

/-- `SETUP_SET_TYPE`, where something has changed. -/
def setType (type : SetupType) (changed : Bool) (s : Setup) : Setup :=
  if changed then { s with types := type :: s.types } else s

@[simp] theorem setType_cfg (type : SetupType) (changed : Bool) (s : Setup) :
    (s.setType type changed).cfg = s.cfg := by
  unfold setType
  split <;> rfl

@[simp] theorem setType_effects (type : SetupType) (changed : Bool) (s : Setup) :
    (s.setType type changed).effects = s.effects := by
  unfold setType
  split <;> rfl

end Setup

/-- `_checkIntegerField`: The value afterwards, and whether it has changed. -/
def checkIntegerField (dest src : UInt32) : UInt32 × Bool :=
  if src ≠ 0 ∧ src ≠ dest then (src, true) else (dest, false)

/-- `_checkShortField` -/
def checkShortField (dest src : UInt16) : UInt16 × Bool :=
  if src ≠ 0 ∧ src ≠ dest then (src, true) else (dest, false)

/-- `_checkBoolField`. `FIELD_REAL_VALUE` is taken off where `isBool` is set. -/
def checkBoolField (dest src : UInt8) (isBool : Bool) : UInt8 × Bool :=
  if src ≠ 0 then
    if isBool then
      if dest ≠ src - 1 then (src - 1, true) else (dest, false)
    else
      if dest ≠ src then (src, true) else (dest, false)
  else (dest, false)

/-- `extCmnNewDestIpEffective` -/
def extCmnNewDestIpEffective (newIp : UInt32) (s : Setup) : Setup :=
  let cfg := { s.cfg with dest.ip := newIp }
  if s.cfg.isTransmitter then
    { s with cfg, effects := s.effects ++ [.fpgaConfig] }
  else
    { s with
      cfg := extTxMulticastIP2Mac cfg
      effects := s.effects ++ [.groupMgr s.cfg.dest.ip false, .fpgaConfig] }

/-- `EXT_CFG_SET_DHCP`: Only the lowest bit is written. -/
def setDhcp (value : UInt8) (cfg : RuntimeCfg) : RuntimeCfg :=
  { cfg with netMode := if value = 0 then cfg.netMode &&& 0xFE else cfg.netMode ||| 1 }

/-- The DHCP part of `_compareSystemCfg`. -/
def compareNetMode (rx : RuntimeCfg) (s : Setup) : Setup :=
  if rx.netMode ≠ 0 ∧ s.cfg.netMode ≠ rx.netMode - 1 then
    { s with cfg := setDhcp (rx.netMode - 1) s.cfg }.setType .system true
  else s

/-- The three addresses of `_compareSystemCfg`. -/
def compareAddresses (rx : RuntimeCfg) (s : Setup) : Setup :=
  let take (old new : UInt32) := if new ≠ ipaddrNone then new else old
  { s with
    cfg := {
      s.cfg with
      local.ip := take s.cfg.local.ip rx.local.ip
      ipMask := take s.cfg.ipMask rx.ipMask
      ipGateway := take s.cfg.ipGateway rx.ipGateway } }.setType .system
    (rx.local.ip ≠ ipaddrNone || rx.ipMask ≠ ipaddrNone || rx.ipGateway ≠ ipaddrNone)

/-- The MAC address of `_compareSystemCfg`. -/
def compareMac (rx : RuntimeCfg) (s : Setup) : Setup :=
  if ¬ rx.local.mac.isNull ∧ s.cfg.local.mac ≠ rx.local.mac then
    { s with
      cfg := { s.cfg with local.mac := rx.local.mac, isMacConfiged := 1 } }.setType .system true
  else s

/-- The name of `_compareSystemCfg`. -/
def compareName (rx : RuntimeCfg) (s : Setup) : Setup :=
  if rx.name.val ≠ [] ∧ ¬ strcasecmpEq s.cfg.name.val rx.name.val then
    { s with cfg := { s.cfg with name := .copy 31 rx.name.val } }.setType .system true
  else s

/-- The DIP switch of `_compareSystemCfg`. When it is turned off, the address
    that was kept for this becomes the destination. -/
def compareDip (rx : RuntimeCfg) (s : Setup) : Setup :=
  let r := checkBoolField s.cfg.isDipOn rx.isDipOn true
  let s := { s with cfg := { s.cfg with isDipOn := r.1 } }
  if r.2 then
    (if s.cfg.dipOn then s else extCmnNewDestIpEffective s.cfg.ipMulticast s).setType .system true
  else s

/-- `_compareSystemCfg` -/
def compareSystemCfg (rx : RuntimeCfg) (s : Setup) : Setup :=
  compareDip rx (compareName rx (compareMac rx (compareAddresses rx (compareNetMode rx s))))

/-- `_compareRs232Config` -/
def compareRs232Config (rx : RuntimeCfg) (s : Setup) : Setup :=
  let baudRate := checkIntegerField s.cfg.rs232Cfg.baudRate rx.rs232Cfg.baudRate
  let charLength := checkBoolField s.cfg.rs232Cfg.charLength rx.rs232Cfg.charLength false
  let stopbits := checkBoolField s.cfg.rs232Cfg.stopbits rx.rs232Cfg.stopbits false
  let parityType := checkBoolField s.cfg.rs232Cfg.parityType rx.rs232Cfg.parityType true
  { s with
    cfg := {
      s.cfg with
      rs232Cfg := ⟨baudRate.1, charLength.1, parityType.1, stopbits.1⟩ } }.setType .rs232
    (baudRate.2 || charLength.2 || stopbits.2 || parityType.2)

/-- The multicast flag of `_compareProtocolConfig`. -/
def compareIsMCast (rx : RuntimeCfg) (s : Setup) : Setup :=
  let r := checkBoolField s.cfg.isMCast rx.isMCast true
  { s with cfg := { s.cfg with isMCast := r.1 } }.setType .protocol r.2

/-- The multicast address of `_compareProtocolConfig`. With the DIP switch on
    it is only kept. -/
def compareMulticast (rx : RuntimeCfg) (s : Setup) : Setup :=
  if rx.dest.ip ≠ ipaddrNone ∧ rx.dest.ip ≠ s.cfg.ipMulticast then
    let s := { s with cfg := { s.cfg with ipMulticast := rx.dest.ip } }
    (if s.cfg.dipOn then s else extCmnNewDestIpEffective s.cfg.ipMulticast s).setType .system true
  else s

/-- The ports of `_compareProtocolConfig`. -/
def comparePorts (rx : RuntimeCfg) (s : Setup) : Setup :=
  let vport := checkShortField s.cfg.dest.vport rx.dest.vport
  let aport := checkShortField s.cfg.dest.aport rx.dest.aport
  let dport := checkShortField s.cfg.dest.dport rx.dest.dport
  let sport := checkShortField s.cfg.dest.sport rx.dest.sport
  { s with
    cfg := {
      s.cfg with
      dest := ⟨s.cfg.dest.mac, s.cfg.dest.ip, vport.1, aport.1, dport.1, sport.1⟩ } }.setType
    .protocol (vport.2 || aport.2 || dport.2 || sport.2)

/-- `_compareProtocolConfig` -/
def compareProtocolConfig (rx : RuntimeCfg) (s : Setup) : Setup :=
  comparePorts rx (compareMulticast rx (compareIsMCast rx s))

/-- `_compareMediaCfg`, which leaves out `isConnect`. -/
def compareMediaCfg (rx : RuntimeCfg) (s : Setup) : Setup :=
  let old := s.cfg.runtime
  let new := rx.runtime
  let vWidth := checkShortField old.vWidth new.vWidth
  let vHeight := checkShortField old.vHeight new.vHeight
  let vFrameRate := checkBoolField old.vFrameRate new.vFrameRate false
  let vDepth := checkBoolField old.vDepth new.vDepth false
  let vColorSpace := checkBoolField old.vColorSpace new.vColorSpace true
  let vIsInterlaced := checkBoolField old.vIsInterlaced new.vIsInterlaced true
  let vIsSegmented := checkBoolField old.vIsSegmented new.vIsSegmented true
  let aSampleRate := checkShortField old.aSampleRate new.aSampleRate
  let aChannels := checkBoolField old.aChannels new.aChannels false
  let aDepth := checkBoolField old.aDepth new.aDepth false
  { s with
    cfg := {
      s.cfg with
      runtime := {
        vWidth := vWidth.1
        vHeight := vHeight.1
        vFrameRate := vFrameRate.1
        vColorSpace := vColorSpace.1
        vDepth := vDepth.1
        vIsInterlaced := vIsInterlaced.1
        vIsSegmented := vIsSegmented.1
        aSampleRate := aSampleRate.1
        aChannels := aChannels.1
        aDepth := aDepth.1
        isConnect := old.isConnect } } }.setType .media
    (vWidth.2 || vHeight.2 || vFrameRate.2 || vDepth.2 || vColorSpace.2 || vIsInterlaced.2 ||
      vIsSegmented.2 || aSampleRate.2 || aChannels.2 || aDepth.2)

/-- The four comparisons. -/
def compareAll (rx : RuntimeCfg) (run : RuntimeCfg) : Setup :=
  compareMediaCfg rx (compareProtocolConfig rx (compareRs232Config rx
    (compareSystemCfg rx ⟨run, [], []⟩)))

/-- `extCmdConnect` -/
def extCmdConnect (cfg : RuntimeCfg) (isStart : UInt8) : List Effect :=
  if cfg.isTransmitter then [.fpgaEnable isStart]
  else if isMulticast cfg.dest.ip then [.groupMgr cfg.dest.ip (isStart ≠ 0)]
  else []

/-- What `extIpCmdSetupParams` saves and configures behind its reply. -/
def setupEffects (rx : RuntimeCfg) (s : Setup) : List Effect :=
  (if .system ∈ s.types then [.cfgSave] else []) ++
    (if .rs232 ∈ s.types then [.cfgSave, .rs232Config] else []) ++
    (if .protocol ∈ s.types then [.cfgSave, .fpgaConfig] else []) ++
    (if .media ∈ s.types then [.fpgaConfigParams] else []) ++
    (if rx.runtime.isConnect ≠ 0 then extCmdConnect s.cfg (rx.runtime.isConnect - 1) else [])

end Cmd

end RtosLwip
