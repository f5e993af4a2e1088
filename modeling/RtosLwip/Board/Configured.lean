import RtosLwip.Board.MulticastMac

/-!
# The Registers Follow the Configuration

A transmitter writes all its addresses and ports whenever the FPGA is configured. A
receiver first reads its IP address back, and where that is the one it would write
it leaves out the rest. Its MAC address follows the IP address, but the ports do not:
a command that changes a port has the FPGA configured, and nothing is written. Nor is
anything written at a start-up that finds the IP address in the registers.

## Main definitions

* `configured`: What the registers are meant to hold.
* `InStep`: They do.
* `Configures`: A change that ends in `extFpgaConfig`.
* `Rewritten`: A change that gives a receiver no other port.

## Theorems

* `merge_read`, `merge_transmitter`: What a merge leaves in the registers.
* `inStep_step`: What a change that has the FPGA configured leaves there.
* `inStep_iff`: When the registers follow the configuration.
-/

namespace RtosLwip

namespace Board

open Cmd

/-- What the registers are meant to hold: on a transmitter the local side and the
    destination, on a receiver the destination. -/
def configured (cfg : RuntimeCfg) : VideoConfig × Option VideoConfig :=
  if cfg.isTransmitter then
    ({ cfg.local with ip := localIp cfg },
      some { cfg.dest with mac := (extNetMulticastIP4Mac cfg.dest.ip).getD cfg.dest.mac })
  else (cfg.dest, none)

/-- The registers hold the configuration. -/
def InStep (b : Board) : Prop :=
  extFgpaRegisterDebug b.cfg.isTransmitter b.fpga = configured b.cfg

instance (b : Board) : Decidable (InStep b) := inferInstanceAs (Decidable (_ = _))

/-- A change in which `extFpgaConfig` is called. -/
def Configures (b : Board) : Change → Prop
  | .command datagram ip port => .fpgaConfig ∈ (extUdpCmdThread b.dev datagram ip port).2
  | .period switches _ =>
      b.cfg.multicast ∧ b.cfg.dipOn ∧ dipAddress switches ≠ b.cfg.dest.ip
  | .startUp _ _ _ => True

/-- The ports of a message are not given, or the ones that are configured. -/
structure SamePorts (rx run : RuntimeCfg) : Prop where
  vport : rx.dest.vport = 0 ∨ rx.dest.vport = run.dest.vport
  aport : rx.dest.aport = 0 ∨ rx.dest.aport = run.dest.aport
  dport : rx.dest.dport = 0 ∨ rx.dest.dport = run.dest.dport
  sport : rx.dest.sport = 0 ∨ rx.dest.sport = run.dest.sport

/-- A receiver is given no other port, and a start-up finds another IP address in the
    registers, or the whole destination. -/
def Rewritten (b : Board) : Change → Prop
  | .command datagram _ _ =>
      b.cfg.isTransmitter = false → ∀ rx ∈ setupRequest b.dev datagram, SamePorts rx b.cfg
  | .period _ _ => True
  | .startUp mac switches _ =>
      b.flash.isTransmitter = false →
        extFpgaReadInteger localMap.ip b.fpga ≠ (bspHwInit mac switches b.flash).dest.ip ∨
          readVideoConfig localMap b.fpga = (bspHwInit mac switches b.flash).dest

/-- What `extFpgaConfig` makes of the registers of a receiver. -/
def sync (held new : VideoConfig) : VideoConfig := if held.ip ≠ new.ip then new else held

theorem readVideoConfig_receiver {cfg : RuntimeCfg} (hrx : cfg.isTx = 0) (regs : FpgaRegisters) :
    readVideoConfig localMap (extFpgaConfigRegisters cfg regs) =
      sync (readVideoConfig localMap regs) cfg.dest := by
  unfold extFpgaConfigRegisters RuntimeCfg.isTransmitter sync
  rw [if_neg (by simp [hrx]), readVideoConfig_resetEthernet, extFpgaReadInteger_ip]
  split
  · exact readVideoConfig_writeVideoConfig separate_localMap cfg.dest regs
  · rfl

/-- A transmitter writes everything. -/
theorem debug_transmitter {cfg : RuntimeCfg} (htx : cfg.isTx ≠ 0) (regs : FpgaRegisters) :
    extFgpaRegisterDebug cfg.isTransmitter (extFpgaConfigRegisters cfg regs) = configured cfg := by
  have hon : cfg.isTransmitter = true := decide_eq_true htx
  unfold extFgpaRegisterDebug configured extFpgaConfigRegisters
  simp only [if_pos hon]
  rw [readVideoConfig_writeVideoConfig_other, readVideoConfig_writeVideoConfig separate_localMap,
    readVideoConfig_writeVideoConfig separate_destMap]

theorem inStep_receiver_iff {b : Board} (hrx : b.cfg.isTx = 0) :
    InStep b ↔ readVideoConfig localMap b.fpga = b.cfg.dest := by
  have hoff : b.cfg.isTransmitter = false := decide_eq_false (not_not.mpr hrx)
  unfold InStep extFgpaRegisterDebug configured
  rw [hoff]
  simp only [Bool.false_eq_true, if_false, Prod.mk.injEq, and_true]

theorem configured_congr {cfg cfg' : RuntimeCfg} (htx : cfg'.isTx = cfg.isTx)
    (hlocal : cfg'.local = cfg.local) (hdest : cfg'.dest = cfg.dest)
    (hip : cfg'.netifIp = cfg.netifIp) : configured cfg' = configured cfg := by
  unfold configured localIp RuntimeCfg.isTransmitter
  rw [htx, hlocal, hdest, hip]

theorem checkShortField_same_iff (dest src : UInt16) :
    (checkShortField dest src).1 = dest ↔ src = 0 ∨ src = dest := by
  unfold checkShortField
  by_cases h : src ≠ 0 ∧ src ≠ dest
  · rw [if_pos h]
    exact iff_of_false h.2 fun hn => hn.elim h.1 h.2
  · rw [if_neg h]
    refine iff_of_true rfl ?_
    by_contra hn
    rw [not_or] at hn
    exact h hn

theorem checkShortField_changed_iff (dest src : UInt16) :
    (checkShortField dest src).2 = false ↔ src = 0 ∨ src = dest := by
  unfold checkShortField
  by_cases h : src ≠ 0 ∧ src ≠ dest
  · rw [if_pos h]
    exact iff_of_false nofun fun hn => hn.elim h.1 h.2
  · rw [if_neg h]
    refine iff_of_true rfl ?_
    by_contra hn
    rw [not_or] at hn
    exact h hn

section Merge

variable (rx run : RuntimeCfg)

theorem multicastStage_ports : (multicastStage rx run).cfg.dest.vport = run.dest.vport ∧
    (multicastStage rx run).cfg.dest.aport = run.dest.aport ∧
    (multicastStage rx run).cfg.dest.dport = run.dest.dport ∧
    (multicastStage rx run).cfg.dest.sport = run.dest.sport := by
  rw [multicastStage_dest, systemStage_dest]
  exact ⟨rfl, rfl, rfl, rfl⟩

theorem compareAll_dest_multicastStage : (compareAll rx run).cfg.dest =
    ⟨(multicastStage rx run).cfg.dest.mac, (multicastStage rx run).cfg.dest.ip,
      (checkShortField run.dest.vport rx.dest.vport).1,
      (checkShortField run.dest.aport rx.dest.aport).1,
      (checkShortField run.dest.dport rx.dest.dport).1,
      (checkShortField run.dest.sport rx.dest.sport).1⟩ := by
  have hports := multicastStage_ports rx run
  rw [compareAll_eq, compareMediaCfg_cfg, comparePorts_cfg]
  dsimp only
  rw [hports.1, hports.2.1, hports.2.2.1, hports.2.2.2]

/-- The ports stay as they are exactly if the message gives no others. -/
theorem compareAll_dest_eq_iff : (compareAll rx run).cfg.dest = (multicastStage rx run).cfg.dest ↔
    SamePorts rx run := by
  have hports := multicastStage_ports rx run
  rw [compareAll_dest_multicastStage]
  generalize (multicastStage rx run).cfg.dest = d at hports
  obtain ⟨mac, ip, vport, aport, dport, sport⟩ := d
  obtain ⟨rfl, rfl, rfl, rfl⟩ := hports
  simp only [VideoConfig.mk.injEq, true_and, checkShortField_same_iff]
  exact ⟨fun ⟨h1, h2, h3, h4⟩ => ⟨h1, h2, h3, h4⟩, fun ⟨h1, h2, h3, h4⟩ => ⟨h1, h2, h3, h4⟩⟩

theorem mem_types_setType (t type : SetupType) (changed : Bool) (s : Setup) :
    t ∈ (s.setType type changed).types ↔ (changed = true ∧ t = type) ∨ t ∈ s.types := by
  unfold Setup.setType
  cases changed <;> simp

theorem protocol_mem_compareMediaCfg (s : Setup) :
    .protocol ∈ (compareMediaCfg rx s).types ↔ .protocol ∈ s.types := by
  unfold compareMediaCfg
  simp only [mem_types_setType, reduceCtorEq, and_false, false_or]

theorem protocol_mem_comparePorts (s : Setup) (h : .protocol ∉ (comparePorts rx s).types) :
    ((checkShortField s.cfg.dest.vport rx.dest.vport).2 ||
      (checkShortField s.cfg.dest.aport rx.dest.aport).2 ||
      (checkShortField s.cfg.dest.dport rx.dest.dport).2 ||
      (checkShortField s.cfg.dest.sport rx.dest.sport).2) = false := by
  by_contra hn
  refine h ?_
  unfold comparePorts
  exact (mem_types_setType _ _ _ _).mpr (Or.inl ⟨Bool.not_eq_false _ ▸ hn, rfl⟩)

/-- Another port has the FPGA configured. -/
theorem samePorts_of_not_protocol (h : .protocol ∉ (compareAll rx run).types) :
    SamePorts rx run := by
  have hports := multicastStage_ports rx run
  rw [compareAll_eq, protocol_mem_compareMediaCfg] at h
  have hsame := protocol_mem_comparePorts rx _ h
  rw [hports.1, hports.2.1, hports.2.2.1, hports.2.2.2] at hsame
  simp only [Bool.or_eq_false_iff, checkShortField_changed_iff] at hsame
  exact ⟨hsame.1.1.1, hsame.1.1.2, hsame.1.2, hsame.2⟩

end Merge

theorem applyNewDest_fpga (old : UInt32) (cfg : RuntimeCfg) (b : Board) :
    (applyNewDest old cfg b).fpga = extFpgaConfigRegisters cfg b.fpga := by
  unfold applyNewDest extFpgaConfig
  split <;> rfl

/-- Behind a merge the FPGA is configured for another port, and the rest of its
    registers has nothing to do with the addresses. -/
theorem finishMerge_read {m : RegisterMap} (hm : m = localMap ∨ m = destMap)
    (rx run : RuntimeCfg) (b : Board) :
    readVideoConfig m (finishMerge rx run b).fpga = readVideoConfig m
      (if .protocol ∈ (compareAll rx run).types then
        extFpgaConfigRegisters (compareAll rx run).cfg b.fpga
      else b.fpga) := by
  unfold finishMerge
  generalize compareAll rx run = s
  have hsystem : ∀ b : Board, (((if .system ∈ s.types then [Effect.cfgSave] else []).map
      (s.cfg, ·)).foldl perform b).fpga = b.fpga := by
    intro b
    split <;> rfl
  have hrs232 : ∀ b : Board, (((if .rs232 ∈ s.types then [Effect.cfgSave, .rs232Config] else []).map
      (s.cfg, ·)).foldl perform b).fpga = b.fpga := by
    intro b
    split <;> rfl
  have hprotocol : ∀ b : Board, (((if .protocol ∈ s.types then [Effect.cfgSave, .fpgaConfig]
      else []).map (s.cfg, ·)).foldl perform b).fpga =
        if .protocol ∈ s.types then extFpgaConfigRegisters s.cfg b.fpga else b.fpga := by
    intro b
    split <;> rfl
  have hmedia : ∀ b : Board, readVideoConfig m (((if .media ∈ s.types then
      [Effect.fpgaConfigParams] else []).map (s.cfg, ·)).foldl perform b).fpga =
        readVideoConfig m b.fpga := by
    intro b
    split
    · exact readVideoConfig_extFpgaConfigParams hm _ _
    · rfl
  have hconnect : ∀ b : Board, readVideoConfig m (((if rx.runtime.isConnect ≠ 0 then
      extCmdConnect s.cfg (rx.runtime.isConnect - 1)
        else []).map (s.cfg, ·)).foldl perform b).fpga =
        readVideoConfig m b.fpga := by
    intro b
    unfold extCmdConnect
    split
    · split
      · exact readVideoConfig_extFpgaEnable hm _ _
      · split <;> rfl
    · rfl
  unfold setupEffects
  simp only [List.map_append, List.foldl_append]
  rw [hconnect, hmedia, hprotocol, hrs232, hsystem]

section Receiver

/-- A receiver whose destination was in the registers has its new one there, MAC address
    included. -/
theorem sync_destMac {v : VideoConfig} (h : isMulticast v.ip = true → v.mac = multicastMac v.ip)
    (newIp : UInt32) :
    sync v { v with ip := newIp, mac := destMac 0 v.mac newIp } =
      { v with ip := newIp, mac := destMac 0 v.mac newIp } := by
  unfold sync
  split
  · rfl
  · rename_i hsame
    have hip : v.ip = newIp := not_not.mp hsame
    have hmac : destMac 0 v.mac newIp = v.mac := by
      by_cases hm : isMulticast newIp = true
      · rw [destMac_of_multicast rfl hm, h (hip ▸ hm), hip]
      · exact if_neg fun hn => hm hn.2
    rw [hmac, ← hip]

variable {rx run : RuntimeCfg} {b : Board}

theorem mapped_systemStage (hrx : run.isTx = 0) (hmapped : Mapped run) :
    Mapped (systemStage rx run).cfg := by
  intro hm
  rw [systemStage_dest] at hm ⊢
  dsimp only at hm ⊢
  by_cases hoff : DipTurnedOff rx run.isDipOn
  · rw [if_pos hoff] at hm ⊢
    rw [if_pos hoff]
    exact destMac_of_multicast hrx hm _
  · rw [if_neg hoff] at hm ⊢
    rw [if_neg hoff]
    exact hmapped hm

/-- The new destinations of a merge are in the registers of a receiver. -/
theorem mergeDest_read (hrx : run.isTx = 0) (hmapped : Mapped run)
    (hheld : readVideoConfig localMap b.fpga = run.dest) :
    readVideoConfig localMap (mergeDest rx run b).fpga = (multicastStage rx run).cfg.dest := by
  have hsystem : readVideoConfig localMap (if DipTurnedOff rx run.isDipOn then
      applyNewDest run.dest.ip (systemStage rx run).cfg b else b).fpga =
        (systemStage rx run).cfg.dest := by
    by_cases hoff : DipTurnedOff rx run.isDipOn
    · rw [if_pos hoff, applyNewDest_fpga,
        readVideoConfig_receiver ((systemStage_isTx rx run).trans hrx), hheld, systemStage_dest,
        if_pos hoff, if_pos hoff, hrx]
      exact sync_destMac hmapped run.ipMulticast
    · rw [if_neg hoff, hheld, systemStage_dest, if_neg hoff, if_neg hoff]
  unfold mergeDest
  dsimp only
  by_cases hgiven : DestGiven rx run
  · rw [if_pos hgiven, applyNewDest_fpga,
      readVideoConfig_receiver ((multicastStage_isTx rx run).trans hrx), hsystem,
      multicastStage_dest, if_pos hgiven, if_pos hgiven, hrx]
    exact sync_destMac (mapped_systemStage hrx hmapped) rx.dest.ip
  · rw [if_neg hgiven, hsystem, multicastStage_dest, if_neg hgiven, if_neg hgiven]

/-- But the ports are left out. -/
theorem merge_read (hrx : run.isTx = 0) (hmapped : Mapped run)
    (hheld : readVideoConfig localMap b.fpga = run.dest) :
    readVideoConfig localMap (finishMerge rx run (mergeDest rx run b)).fpga =
      (multicastStage rx run).cfg.dest := by
  have htx : (compareAll rx run).cfg.isTx = 0 := by
    rw [compareAll_cfg]
    exact hrx
  have hmoved : readVideoConfig localMap (mergeDest rx run b).fpga =
      (multicastStage rx run).cfg.dest := mergeDest_read hrx hmapped hheld
  rw [finishMerge_read (Or.inl rfl)]
  split
  · rw [readVideoConfig_receiver htx, hmoved, compareAll_dest_multicastStage]
    exact if_neg fun hn => hn rfl
  · exact hmoved

end Receiver

theorem fpgaConfig_mem_setupEffects (rx : RuntimeCfg) (s : Setup) :
    .fpgaConfig ∈ setupEffects rx s ↔ .protocol ∈ s.types := by
  have hconnect : .fpgaConfig ∉ if rx.runtime.isConnect ≠ 0 then
      extCmdConnect s.cfg (rx.runtime.isConnect - 1) else [] := by
    unfold extCmdConnect
    split
    · split
      · simp
      · split <;> simp
    · exact List.not_mem_nil
  unfold setupEffects
  by_cases hp : .protocol ∈ s.types
  · simp [hp]
  · refine iff_of_false (fun h => ?_) hp
    rw [if_neg hp, List.append_nil] at h
    rcases List.mem_append.mp h with h | h
    · rcases List.mem_append.mp h with h | h
      · rcases List.mem_append.mp h with h | h
        · split at h <;> simp at h
        · split at h <;> simp at h
      · split at h <;> simp at h
    · exact hconnect h

theorem debug_finishMerge (isTx : Bool) (rx run : RuntimeCfg) (b : Board) :
    extFgpaRegisterDebug isTx (finishMerge rx run b).fpga = extFgpaRegisterDebug isTx
      (if .protocol ∈ (compareAll rx run).types then
        extFpgaConfigRegisters (compareAll rx run).cfg b.fpga
      else b.fpga) := by
  unfold extFgpaRegisterDebug
  rw [finishMerge_read (Or.inl rfl), finishMerge_read (Or.inr rfl)]

/-- A merge that has the FPGA configured leaves a transmitter with its configuration in
    the registers. -/
theorem merge_transmitter {rx run : RuntimeCfg} (htx : run.isTx ≠ 0) (b : Board)
    (hconf : .fpgaConfig ∈ (compareAll rx run).effects ++ setupEffects rx (compareAll rx run)) :
    extFgpaRegisterDebug (compareAll rx run).cfg.isTransmitter
      (finishMerge rx run (mergeDest rx run b)).fpga = configured (compareAll rx run).cfg := by
  have hfinal : (compareAll rx run).cfg.isTx ≠ 0 := by
    rw [compareAll_cfg]
    exact htx
  have hmulticast : (multicastStage rx run).cfg.isTx ≠ 0 := (multicastStage_isTx rx run) ▸ htx
  have hsystem : (systemStage rx run).cfg.isTx ≠ 0 := (systemStage_isTx rx run) ▸ htx
  have hon : ∀ cfg : RuntimeCfg, cfg.isTx ≠ 0 → cfg.isTransmitter = true :=
    fun _ h => decide_eq_true h
  have hdebug : ∀ (cfg : RuntimeCfg) (regs : FpgaRegisters), cfg.isTx ≠ 0 →
      extFgpaRegisterDebug true (extFpgaConfigRegisters cfg regs) = configured cfg := by
    intro cfg regs h
    have hall := debug_transmitter h regs
    rwa [hon cfg h] at hall
  rw [debug_finishMerge]
  by_cases hp : .protocol ∈ (compareAll rx run).types
  · rw [if_pos hp]
    exact debug_transmitter hfinal _
  · -- nothing has changed behind the last new destination
    rw [if_neg hp, hon _ hfinal]
    have hdest := (compareAll_dest_eq_iff rx run).mpr (samePorts_of_not_protocol rx run hp)
    have hlocal : (compareAll rx run).cfg.local = (multicastStage rx run).cfg.local ∧
        (multicastStage rx run).cfg.local = (systemStage rx run).cfg.local := by
      constructor
      · rw [compareAll_eq, compareMediaCfg_cfg, comparePorts_cfg]
      · rw [multicastStage, compareMulticast_cfg, compareIsMCast_cfg, compareRs232Config_cfg]
    have hip : (compareAll rx run).cfg.netifIp = (multicastStage rx run).cfg.netifIp := by
      rw [compareAll_cfg, multicastStage_netifIp]
    rw [configured_congr ((multicastStage_isTx rx run).trans (by rw [compareAll_cfg])).symm
      hlocal.1 hdest hip]
    unfold mergeDest
    dsimp only
    by_cases hgiven : DestGiven rx run
    · rw [if_pos hgiven, applyNewDest_fpga]
      exact hdebug _ _ hmulticast
    · rw [if_neg hgiven]
      have hsame : (multicastStage rx run).cfg.dest = (systemStage rx run).cfg.dest := by
        rw [multicastStage_dest, if_neg hgiven, if_neg hgiven]
      rw [configured_congr ((multicastStage_isTx rx run).trans (systemStage_isTx rx run).symm)
        hlocal.2 hsame ((multicastStage_netifIp rx run).trans (systemStage_netifIp rx run).symm)]
      by_cases hoff : DipTurnedOff rx run.isDipOn
      · rw [if_pos hoff, applyNewDest_fpga]
        exact hdebug _ _ hsystem
      · -- the FPGA was not configured at all
        rw [compareAll_effects, multicastStage_effects, systemStage_effects, if_neg hoff,
          if_neg hgiven, List.nil_append, List.nil_append, fpgaConfig_mem_setupEffects] at hconf
        exact absurd hconf hp

/-- The role is that of the flash, and a receiver holds its destination in the
    registers, with the MAC address of the group. -/
structure Held (b : Board) : Prop where
  role : b.flash.isTx = b.cfg.isTx
  mapped : b.cfg.isTx = 0 → Mapped b.cfg
  dest : b.cfg.isTx = 0 → readVideoConfig localMap b.fpga = b.cfg.dest

theorem isTransmitter_eq_false_iff {cfg : RuntimeCfg} :
    cfg.isTransmitter = false ↔ cfg.isTx = 0 := by
  unfold RuntimeCfg.isTransmitter
  exact decide_eq_false_iff_not.trans not_not

theorem held_of_inStep {b : Board} (hrole : b.flash.isTx = b.cfg.isTx)
    (hmapped : b.cfg.isTx = 0 → Mapped b.cfg) (h : b.cfg.isTx = 0 → InStep b) : Held b :=
  ⟨hrole, hmapped, fun hrx => (inStep_receiver_iff hrx).mp (h hrx)⟩

theorem command_fpga_of_request {b : Board} {datagram : List UInt8} {rx : RuntimeCfg}
    (h : setupRequest b.dev datagram = some rx) (ip : UInt32) (port : UInt16) :
    (b.command datagram ip port).fpga = (finishMerge rx b.cfg (mergeDest rx b.cfg b)).fpga := by
  unfold command
  rw [h, ← foldl_mergeTrace]

/-- The FPGA is configured if the effects of the merge say so. -/
theorem configures_command_iff {b : Board} {datagram : List UInt8} (ip : UInt32) (port : UInt16) :
    Configures b (.command datagram ip port) ↔ ∃ rx, setupRequest b.dev datagram = some rx ∧
      .fpgaConfig ∈ (compareAll rx b.cfg).effects ++ setupEffects rx (compareAll rx b.cfg) := by
  have hsetup : ∀ effects : List Effect,
      .fpgaConfig ∈ effects.filter isSetup ↔ .fpgaConfig ∈ effects := by
    intro effects
    rw [List.mem_filter]
    exact and_iff_left rfl
  change .fpgaConfig ∈ (extUdpCmdThread b.dev datagram ip port).2 ↔ _
  rw [← hsetup]
  cases hrequest : setupRequest b.dev datagram with
  | none =>
      rw [(thread_of_no_request hrequest ip port).2]
      exact iff_of_false List.not_mem_nil fun ⟨_, h, _⟩ => absurd h nofun
  | some rx =>
      rw [(thread_of_request hrequest ip port).2, hsetup]
      exact ⟨fun h => ⟨rx, rfl, h⟩, fun ⟨_, h, hconf⟩ => Option.some.inj h ▸ hconf⟩

/-- What a command does to a receiver, whether it has the FPGA configured or not. -/
theorem inStep_command_receiver {b : Board} (hrx : b.cfg.isTx = 0) (h : Held b)
    {datagram : List UInt8} {rx : RuntimeCfg} (hrequest : setupRequest b.dev datagram = some rx)
    (ip : UInt32) (port : UInt16) :
    InStep (b.command datagram ip port) ↔ SamePorts rx b.cfg := by
  have hcfg := command_cfg_of_request b ip port hrequest
  have hrx' : (b.command datagram ip port).cfg.isTx = 0 := by
    rw [hcfg, compareAll_cfg]
    exact hrx
  rw [inStep_receiver_iff hrx', hcfg, command_fpga_of_request hrequest,
    merge_read hrx (h.mapped hrx) (h.dest hrx), eq_comm]
  exact compareAll_dest_eq_iff rx b.cfg

/-- What a command does to a transmitter that it has the FPGA configured of. -/
theorem inStep_command_transmitter {b : Board} (htx : b.cfg.isTx ≠ 0) {datagram : List UInt8}
    {ip : UInt32} {port : UInt16} (hconf : Configures b (.command datagram ip port)) :
    InStep (b.command datagram ip port) := by
  obtain ⟨rx, hrequest, hconf⟩ := (configures_command_iff ip port).mp hconf
  unfold InStep
  rw [command_cfg_of_request b ip port hrequest, command_fpga_of_request hrequest]
  exact merge_transmitter htx b hconf

/-- A command that does not have the FPGA configured gives no other port. -/
theorem rewritten_of_not_configures {b : Board} {datagram : List UInt8} {ip : UInt32}
    {port : UInt16} (h : ¬ Configures b (.command datagram ip port)) :
    Rewritten b (.command datagram ip port) := by
  intro _ rx hrequest
  refine samePorts_of_not_protocol rx b.cfg fun hp => h ?_
  refine (configures_command_iff ip port).mpr ⟨rx, hrequest, ?_⟩
  exact List.mem_append_right _ ((fpgaConfig_mem_setupEffects rx _).mpr hp)

theorem command_isTx (b : Board) (datagram : List UInt8) (ip : UInt32) (port : UInt16) :
    (b.command datagram ip port).cfg.isTx = b.cfg.isTx := by
  cases h : setupRequest b.dev datagram with
  | none =>
      obtain ⟨ip', port', hcfg⟩ := command_cfg_of_none b ip port h
      rw [hcfg]
  | some rx =>
      rw [command_cfg_of_request b ip port h, compareAll_cfg]

theorem held_command {b : Board} (h : Held b) {datagram : List UInt8} {ip : UInt32}
    {port : UInt16} (hC : Rewritten b (.command datagram ip port)) :
    Held (b.command datagram ip port) := by
  have htx := command_isTx b datagram ip port
  have hrole : (b.command datagram ip port).flash.isTx =
      (b.command datagram ip port).cfg.isTx := by
    rcases command_flash b ip port datagram with hflash | hflash
    · rw [hflash, htx]
      exact h.role
    · rw [hflash]
  cases hrequest : setupRequest b.dev datagram with
  | none =>
      obtain ⟨ip', port', hcfg⟩ := command_cfg_of_none b ip port hrequest
      have hfpga : (b.command datagram ip port).fpga = b.fpga := by
        unfold command
        rw [hrequest]
      refine ⟨hrole, ?_, ?_⟩
      · rw [hcfg]
        exact h.mapped
      · rw [hcfg, hfpga]
        exact h.dest
  | some rx =>
      refine held_of_inStep hrole (fun hrx => ?_) fun hrx => ?_
      · rw [htx] at hrx
        rw [command_cfg_of_request b ip port hrequest,
          mapped_compareAll_iff rx b.cfg (h.mapped hrx)]
        intro hon
        rw [isTransmitter_eq_false_iff.mpr hrx] at hon
        exact absurd hon Bool.false_ne_true
      · rw [htx] at hrx
        rw [inStep_command_receiver hrx h hrequest]
        exact hC (isTransmitter_eq_false_iff.mpr hrx) rx hrequest

theorem period_fpga {b : Board} {switches : Fin 16} {runtime : RunTimeParam}
    (hdip : Configures b (.period switches runtime)) :
    (b.periodJobCallback switches runtime).fpga =
      extFpgaConfigRegisters (destined (dipAddress switches) b.cfg) b.fpga := by
  have hmoved : (b.newDestIpEffective (dipAddress switches)).fpga =
      extFpgaConfigRegisters (destined (dipAddress switches) b.cfg) b.fpga := by
    rw [newDestIpEffective_eq, setCfg, applyNewDest_fpga]
  have hboard : (if b.cfg.multicast ∧ b.cfg.dipOn ∧ dipAddress switches ≠ b.cfg.dest.ip then
      b.newDestIpEffective (dipAddress switches) else b) =
        b.newDestIpEffective (dipAddress switches) := if_pos hdip
  unfold periodJobCallback
  rw [hboard, setCfg, hmoved]

/-- The address of the DIP switches is in the registers when it takes effect. -/
theorem inStep_period {b : Board} (h : Held b) {switches : Fin 16} {runtime : RunTimeParam}
    (hdip : Configures b (.period switches runtime)) :
    InStep (b.periodJobCallback switches runtime) := by
  have hcfg : (b.periodJobCallback switches runtime).cfg =
      { destined (dipAddress switches) b.cfg with runtime } :=
    (period_cfg b switches runtime).trans (if_pos hdip)
  have hdest : (b.periodJobCallback switches runtime).cfg.dest =
      (destined (dipAddress switches) b.cfg).dest := by
    rw [hcfg]
  have htx : (b.periodJobCallback switches runtime).cfg.isTx = b.cfg.isTx := by
    rw [hcfg]
    rfl
  by_cases hrx : b.cfg.isTx = 0
  · have hold : (destined (dipAddress switches) b.cfg).isTx = 0 := hrx
    rw [inStep_receiver_iff (htx.trans hrx), period_fpga hdip, hdest, readVideoConfig_receiver hold,
      h.dest hrx, destined, hrx]
    exact sync_destMac (h.mapped hrx) (dipAddress switches)
  · have hnew : (destined (dipAddress switches) b.cfg).isTx ≠ 0 := hrx
    have hrole : (b.periodJobCallback switches runtime).cfg.isTransmitter =
        (destined (dipAddress switches) b.cfg).isTransmitter := by
      rw [hcfg]
      rfl
    -- the runtime parameters are not in these registers
    have hsame : configured (b.periodJobCallback switches runtime).cfg =
        configured (destined (dipAddress switches) b.cfg) := by
      rw [hcfg]
      exact configured_congr rfl rfl rfl rfl
    unfold InStep
    rw [hrole, hsame, period_fpga hdip]
    exact debug_transmitter hnew b.fpga

theorem held_period {b : Board} (h : Held b) (switches : Fin 16) (runtime : RunTimeParam) :
    Held (b.periodJobCallback switches runtime) := by
  by_cases hdip : Configures b (.period switches runtime)
  · have hcfg := (period_cfg b switches runtime).trans (if_pos hdip)
    refine held_of_inStep ?_ (fun hrx => ?_) fun _ => inStep_period h hdip
    · rw [period_flash, hcfg]
      exact h.role
    · rw [hcfg] at hrx ⊢
      refine (mapped_destined_iff (dipAddress switches) b.cfg).mpr fun hon => ?_
      exact absurd hrx (decide_eq_true_iff.mp hon)
  · have hboard : b.periodJobCallback switches runtime = b.setCfg { b.cfg with runtime } := by
      unfold periodJobCallback
      rw [if_neg (c := b.cfg.multicast ∧ _) hdip]
    rw [hboard]
    exact ⟨h.role, h.mapped, h.dest⟩

/-- The second time the address is there. -/
theorem readVideoConfig_twice {cfg cfg' : RuntimeCfg} (hrx : cfg.isTx = 0) (hrx' : cfg'.isTx = 0)
    (hdest : cfg'.dest = cfg.dest) (regs : FpgaRegisters) :
    readVideoConfig localMap (extFpgaConfigRegisters cfg' (extFpgaConfigRegisters cfg regs)) =
      sync (readVideoConfig localMap regs) cfg.dest := by
  rw [readVideoConfig_receiver hrx', readVideoConfig_receiver hrx, hdest]
  unfold sync
  by_cases hip : (readVideoConfig localMap regs).ip = cfg.dest.ip
  · rw [if_neg (not_not.mpr hip), if_neg (not_not.mpr hip)]
  · rw [if_pos hip, if_neg (not_not.mpr rfl)]

/-- What a start-up leaves in the registers: they are written twice. -/
theorem startUp_fpga (mac : MacAddress) (switches : Fin 16) (address : UInt32) (b : Board) :
    (b.startUp mac switches address).fpga =
      let regs := extFpgaConfigRegisters (b.startUp mac switches address).cfg
        (extFpgaConfigRegisters (bspHwInit mac switches b.flash) b.fpga)
      if b.flash.isTx = 0 then regs else extFpgaEnable 1 regs := by
  have htx := bspHwInit_isTx mac switches b.flash
  rw [startUp_cfg]
  unfold startUp RuntimeCfg.isTransmitter
  dsimp only
  rw [htx]
  by_cases h : b.flash.isTx = 0
  · simp [h, extFpgaConfig]
  · simp [h, extFpgaConfig]

theorem inStep_startUp (mac : MacAddress) (switches : Fin 16) (address : UInt32) (b : Board) :
    InStep (b.startUp mac switches address) ↔ Rewritten b (.startUp mac switches address) := by
  have hrole := bspHwInit_isTx mac switches b.flash
  have hcfg := startUp_cfg b mac switches address
  have htx : (b.startUp mac switches address).cfg.isTx = b.flash.isTx := by
    rw [hcfg]
    exact hrole
  have hdest : (b.startUp mac switches address).cfg.dest =
      (bspHwInit mac switches b.flash).dest := by
    rw [hcfg]
  change _ ↔ (b.flash.isTransmitter = false →
    extFpgaReadInteger localMap.ip b.fpga ≠ (bspHwInit mac switches b.flash).dest.ip ∨
      readVideoConfig localMap b.fpga = (bspHwInit mac switches b.flash).dest)
  by_cases hrx : b.flash.isTx = 0
  · rw [inStep_receiver_iff (htx.trans hrx), startUp_fpga, if_pos hrx,
      readVideoConfig_twice (hrole.trans hrx) (htx.trans hrx) hdest, hdest,
      isTransmitter_eq_false_iff, extFpgaReadInteger_ip]
    generalize (bspHwInit mac switches b.flash).dest = new
    generalize readVideoConfig localMap b.fpga = held
    unfold sync
    by_cases hip : held.ip = new.ip
    · rw [if_neg (not_not.mpr hip)]
      exact ⟨fun h _ => Or.inr h, fun h => (h hrx).resolve_left (not_not.mpr hip)⟩
    · rw [if_pos hip]
      exact iff_of_true rfl fun _ => Or.inl hip
  · refine iff_of_true ?_ fun hoff => absurd (isTransmitter_eq_false_iff.mp hoff) hrx
    have hon : (b.startUp mac switches address).cfg.isTx ≠ 0 := htx ▸ hrx
    unfold InStep
    rw [startUp_fpga, if_neg hrx, ← debug_transmitter hon
      (extFpgaConfigRegisters (bspHwInit mac switches b.flash) b.fpga)]
    unfold extFgpaRegisterDebug
    rw [readVideoConfig_extFpgaEnable (Or.inl rfl), readVideoConfig_extFpgaEnable (Or.inr rfl)]

theorem held_startUp {mac : MacAddress} {switches : Fin 16} {address : UInt32} {b : Board}
    (h : Rewritten b (.startUp mac switches address)) : Held (b.startUp mac switches address) := by
  have hcfg := startUp_cfg b mac switches address
  refine held_of_inStep ?_ (fun _ => ?_) fun _ => (inStep_startUp mac switches address b).mpr h
  · rw [startUp_flash, hcfg]
    exact (bspHwInit_isTx mac switches b.flash).symm
  · rw [hcfg]
    exact mapped_extTxMulticastIP2Mac _

theorem held_step (b : Board) (c : Change) (h : Held b) (hC : Rewritten b c) : Held (b.step c) := by
  cases c with
  | command datagram ip port => exact held_command h hC
  | period switches runtime => exact held_period h switches runtime
  | startUp mac switches address => exact held_startUp hC

/-- Behind a change that has the FPGA configured the registers hold the configuration
    exactly if they have been written anew. -/
theorem inStep_step (b : Board) (c : Change) (h : Held b) (hconf : Configures b c) :
    InStep (b.step c) ↔ Rewritten b c := by
  cases c with
  | command datagram ip port =>
      change InStep (b.command datagram ip port) ↔ _
      by_cases hrx : b.cfg.isTx = 0
      · obtain ⟨rx, hrequest, -⟩ := (configures_command_iff ip port).mp hconf
        rw [inStep_command_receiver hrx h hrequest]
        constructor
        · intro hsame _ rx' hrx'
          rw [Option.mem_def, hrequest] at hrx'
          exact Option.some.inj hrx' ▸ hsame
        · intro hC
          exact hC (isTransmitter_eq_false_iff.mpr hrx) rx hrequest
      · refine iff_of_true (inStep_command_transmitter hrx hconf) fun hoff => ?_
        exact absurd (isTransmitter_eq_false_iff.mp hoff) hrx
  | period switches runtime =>
      change InStep (b.periodJobCallback switches runtime) ↔ True
      exact iff_true_intro (inStep_period h hconf)
  | startUp mac switches address => exact inStep_startUp mac switches address b

theorem rewritten_of_unconfigured (b : Board) (c : Change) (_ : Held b) (h : ¬ Configures b c) :
    Rewritten b c := by
  cases c with
  | command datagram ip port => exact rewritten_of_not_configures h
  | period switches runtime => exact trivial
  | startUp mac switches address => exact absurd trivial h

/-- From a start-up on the registers hold the configuration behind every change that has
    the FPGA configured, exactly if a receiver is given no other port, and each of its
    start-ups finds another IP address in the registers, or the whole destination. -/
theorem inStep_iff (b : Board) (mac : MacAddress) (switches : Fin 16) (address : UInt32)
    (cs : List Change) :
    (∀ past c, past ++ [c] <+: .startUp mac switches address :: cs →
      Configures (run step b past) c → InStep (run step b (past ++ [c]))) ↔
      Meets step Rewritten b (.startUp mac switches address :: cs) := by
  have hstart : (Configures b (.startUp mac switches address) →
      InStep (b.step (.startUp mac switches address))) ↔
      Rewritten b (.startUp mac switches address) := by
    rw [← inStep_startUp]
    exact ⟨fun h => h trivial, fun h _ => h⟩
  rw [observed_cons, hstart]
  refine and_congr_right fun hC => ?_
  exact observed_iff_meets held_step inStep_step rewritten_of_unconfigured _ (held_startUp hC) cs

/-- A `set_param` command for a receiver with factory settings, for another video port. -/
def setVideoPort : List UInt8 := extIpCmdResponseTailCalculate
  (ascii "\x7b\"targ\":\"02:00:00:00:00:01\",\"cmd\":\"set_param\",\"login-ack\":\"admin\"," ++
    ascii "\"pwd-msg\":\"admin\",\"data\":[\x7b\"vidPort\":39000\x7d]") true

/-- The FPGA is configured, and still has the old port. -/
theorem not_inStep_videoPort :
    Configures (run step (factory 0) [.startUp #v[2, 0, 0, 0, 0, 1] 1 0xC0A8A941])
      (.command setVideoPort 0xC0A8A80A 5000) ∧
    ¬ InStep (run step (factory 0) [.startUp #v[2, 0, 0, 0, 0, 1] 1 0xC0A8A941,
      .command setVideoPort 0xC0A8A80A 5000]) := by
  refine ⟨?_, by decide +kernel⟩
  change .fpgaConfig ∈ (extUdpCmdThread _ setVideoPort 0xC0A8A80A 5000).2
  decide +kernel

end Board

end RtosLwip
