import RtosLwip.Base.Run
import RtosLwip.Board.Fpga
import RtosLwip.Cmd.Unchanged

/-!
# Operating the Board

What changes the configuration of a device while it runs, and what goes with it:
the copy in flash, the registers of the FPGA and the multicast groups that a
receiver has joined.

A `set_param` command is carried out in stages. The hardware is told about a new
destination in the middle of it, with the configuration as it is then, so every
effect is paired with the configuration that it is carried out with.

The groups are counted the way the stack counts them: each join of a group adds
one use, each leave takes one away, and the group is left for good with the last
one. The address of all systems can be neither joined nor left.

## Main definitions

* `setupRequest`: The parameters of a datagram that are merged.
* `mergeTrace`: The effects of the merge, each with its configuration.
* `Board`: A device with its hardware.
* `Board.perform`: One effect.
* `Board.command`, `Board.periodJobCallback`, `Board.startUp`: What the environment
  causes.
* `Change`, `step`: One of them.
* `Operation`, `operate`: The command line as well.

## Theorems

* `setupRequest_eq_some_iff`: What is merged.
* `command_cfg`: The configuration after a command.
* `map_snd_mergeTrace`, `effects_command`: The trace is what the command causes.
-/

namespace RtosLwip

/-- A device, with the configuration in its flash, the registers of its FPGA and the
    uses of the groups it has joined. `connected` is not part of the source: it is the
    last `isConnect` that a command has given. -/
structure Board where
  dev : Cmd.Device
  flash : Cmd.RuntimeCfg
  fpga : Board.FpgaRegisters
  uses : UInt32 → Nat
  connected : Bool

namespace Board

open Cmd

/-- The parameters that `extIpCmdSetupParams` merges, if it gets that far with a
    datagram. -/
def setupRequest (dev : Device) (datagram : List UInt8) : Option RuntimeCfg :=
  match parseDatagram dev datagram with
  | (false, _) => none
  | (true, p) =>
      if commandOf p.cmd.val = some .setParams then
        match extJsonIsResponse p with
        | (true, _) => none
        | (false, p) =>
            match extIpCmdIsLocal dev.cfg p with
            | (false, _) => none
            | (true, p) =>
                match extJsonRequestParse dev.cfg p with
                | .error _ => none
                | .ok (rx, _) => some rx
      else none

/-- The effects that a stage adds, with the configuration that it leaves. -/
def added (before after : Setup) : List (RuntimeCfg × Effect) :=
  (after.effects.drop before.effects.length).map (after.cfg, ·)

/-- The merge after the system parameters. -/
def systemStage (rx run : RuntimeCfg) : Setup := compareSystemCfg rx ⟨run, [], []⟩

/-- The merge after the multicast address. -/
def multicastStage (rx run : RuntimeCfg) : Setup :=
  compareMulticast rx (compareIsMCast rx (compareRs232Config rx (systemStage rx run)))

/-- The effects of a merge, with the configuration that each is carried out with. -/
def mergeTrace (rx run : RuntimeCfg) : List (RuntimeCfg × Effect) :=
  added ⟨run, [], []⟩ (systemStage rx run) ++
    added (systemStage rx run) (multicastStage rx run) ++
      (setupEffects rx (compareAll rx run)).map ((compareAll rx run).cfg, ·)

/-- The address that no one joins: `allsystems` -/
def allsystems : UInt32 := 0xE0000001

/-- `extLwipGroupMgr`, with `igmp_joingroup` and `igmp_leavegroup`: the number of uses
    of each group. -/
def extLwipGroupMgr (gAddress : UInt32) (isAdd : Bool) (uses : UInt32 → Nat) : UInt32 → Nat :=
  if isMulticast gAddress ∧ gAddress ≠ allsystems then
    Function.update uses gAddress (if isAdd then uses gAddress + 1 else uses gAddress - 1)
  else uses

/-- The address from the DIP switches: `bspMultiAddressFromDipSwitch` within
    239.100.1.0. -/
def dipAddress (switches : Fin 16) : UInt32 :=
  0xEF640100 + if switches = 0 then 16 else switches.val.toUInt32

abbrev cfg (b : Board) : RuntimeCfg := b.dev.cfg

/-- The board with another configuration. -/
def setCfg (cfg : RuntimeCfg) (b : Board) : Board := { b with dev := { b.dev with cfg } }

/-- A board that has been given the factory settings. -/
def factory (isTx : UInt8) : Board where
  dev := .factory isTx
  flash := (Device.factory isTx).cfg
  fpga := fun _ => 0
  uses := fun _ => 0
  connected := false

/-- `extFpgaConfig`. A receiver joins its group once the network interface has an
    address. -/
def extFpgaConfig (cfg : RuntimeCfg) (b : Board) : Board :=
  { b with
    fpga := extFpgaConfigRegisters cfg b.fpga
    uses :=
      if ¬ cfg.isTransmitter ∧ isMulticast cfg.dest.ip ∧ cfg.netifIp ≠ 0 then
        extLwipGroupMgr cfg.dest.ip true b.uses
      else b.uses }

/-- An effect, with the configuration that it is carried out with. -/
def perform (b : Board) : RuntimeCfg × Effect → Board
  | (cfg, .cfgSave) => { b with flash := cfg }
  | (cfg, .fpgaConfig) => extFpgaConfig cfg b
  | (cfg, .fpgaConfigParams) => { b with fpga := extFpgaConfigParams cfg.runtime b.fpga }
  | (_, .fpgaEnable isEnable) => { b with fpga := extFpgaEnable isEnable b.fpga }
  | (_, .groupMgr gAddress isAdd) => { b with uses := extLwipGroupMgr gAddress isAdd b.uses }
  -- these have no part in the board
  | (_, .rs232Config) => b
  | (_, .rs232Write _) => b
  | (_, .sendto _ _ _) => b
  | (_, .mediaAck) => b

/-- `extCmnNewDestIpEffective`, with its effects. -/
def newDestIpEffective (newIp : UInt32) (b : Board) : Board :=
  let s := extCmnNewDestIpEffective newIp ⟨b.cfg, [], []⟩
  ((added ⟨b.cfg, [], []⟩ s).foldl perform b).setCfg s.cfg

/-- A command datagram: the merge, if there is one, and what the command does to the
    device. -/
def command (datagram : List UInt8) (ip : UInt32) (port : UInt16) (b : Board) : Board :=
  let dev := (extUdpCmdThread b.dev datagram ip port).1
  match setupRequest b.dev datagram with
  | none => { b with dev }
  | some rx =>
      { (mergeTrace rx b.cfg).foldl perform b with
        dev
        connected :=
          if rx.runtime.isConnect ≠ 0 then rx.runtime.isConnect - 1 ≠ 0 else b.connected }

/-- `_periodJobCallback`: the DIP switches, and then the poll of the FPGA, which may
    change the runtime parameters. -/
def periodJobCallback (switches : Fin 16) (runtime : RunTimeParam) (b : Board) : Board :=
  let b :=
    if b.cfg.multicast ∧ b.cfg.dipOn ∧ dipAddress switches ≠ b.cfg.dest.ip then
      b.newDestIpEffective (dipAddress switches)
    else b
  b.setCfg { b.cfg with runtime }

/-- The configuration that `bspHwInit` comes to: what was saved, perhaps with a random
    MAC address, and the destination address anew. -/
def bspHwInit (mac : MacAddress) (switches : Fin 16) (flash : RuntimeCfg) : RuntimeCfg :=
  let cfg := { flash with runtime := RuntimeCfg.zero.runtime, netifIp := 0 }
  let cfg := if cfg.isMacConfiged = 0 then { cfg with local.mac := mac } else cfg
  extTxMulticastIP2Mac {
    cfg with
    dest.ip := if cfg.multicast ∧ cfg.dipOn then dipAddress switches else cfg.ipMulticast }

/-- A reset of the processor. The FPGA is configured before the network starts, and
    again when the interface has got its address. -/
def startUp (mac : MacAddress) (switches : Fin 16) (address : UInt32) (b : Board) : Board :=
  let cfg := bspHwInit mac switches b.flash
  -- _tcpip_init_done
  let b := extFpgaConfig cfg { b with uses := fun _ => 0, connected := false }
  -- _extStackUp
  let cfg := { cfg with netifIp := address }
  let b := extFpgaConfig cfg { b with dev := { Device.factory cfg.isTx with cfg } }
  if cfg.isTransmitter then { b with fpga := extFpgaEnable 1 b.fpga } else b

/-- `_extVideoConfigParse`, of the arguments behind the name of the command. The two
    ports that it does not know are not looked at afterwards. -/
def extVideoConfigParse : List (List UInt8) → Option VideoConfig
  | [] => some ⟨.zero, ipaddrNone, 0, 0, 0, 0⟩
  | mac :: args =>
      let r := extMacAddressParse .zero mac
      if ¬ r.2 then none
      else
        match args with
        | [] => some ⟨r.1, ipaddrNone, 0, 0, 0, 0⟩
        | ip :: args =>
            if ipaddrAddr ip = ipaddrNone then none
            else
              match args with
              | [] => some ⟨r.1, ipaddrAddr ip, 0, 0, 0, 0⟩
              | vport :: args =>
                  match scanInt vport, args with
                  | none, _ => none
                  | some v, [] => some ⟨r.1, ipaddrAddr ip, (fitU32 v).toUInt16, 0, 0, 0⟩
                  | some v, aport :: _ =>
                      (scanInt aport).map fun a =>
                        ⟨r.1, ipaddrAddr ip, (fitU32 v).toUInt16, (fitU32 a).toUInt16, 0, 0⟩

/-- `extVideoConfigCopy` -/
def extVideoConfigCopy (dest src : VideoConfig) : VideoConfig :=
  let ip := if src.ip ≠ ipaddrNone then src.ip else dest.ip
  { dest with
    ip
    mac := (extNetMulticastIP4Mac ip).getD src.mac
    vport := if src.vport ≠ 0 then src.vport else dest.vport
    aport := if src.aport ≠ 0 then src.aport else dest.aport }

/-- `cmnCmdDestInfo`. Without arguments it only displays the destination. -/
def cmnCmdDestInfo (args : List (List UInt8)) (b : Board) : Board :=
  if args = [] then b
  else
    match extVideoConfigParse args with
    | none => b
    | some vCfg =>
        let cfg := { b.cfg with dest := extVideoConfigCopy b.cfg.dest vCfg }
        let cfg :=
          if ¬ cfg.isTransmitter ∧ ¬ isMulticast cfg.dest.ip then
            { cfg with «local» := extVideoConfigCopy cfg.local vCfg }
          else cfg
        { b.setCfg cfg with flash := cfg }

/-- The effects that the hardware and the stack see: all but messages. -/
def isSetup : Effect → Bool
  | .sendto _ _ _ => false
  | .mediaAck => false
  | .rs232Write _ => false
  | .cfgSave => true
  | .rs232Config => true
  | .fpgaConfig => true
  | .fpgaConfigParams => true
  | .fpgaEnable _ => true
  | .groupMgr _ _ => true

/-- What changes the configuration without anyone at the console: a command datagram,
    the periodic job with the positions of the DIP switches, and a reset. -/
inductive Change where
  | command (datagram : List UInt8) (ip : UInt32) (port : UInt16)
  | period (switches : Fin 16) (runtime : RunTimeParam)
  | startUp (mac : MacAddress) (switches : Fin 16) (address : UInt32)

def step (b : Board) : Change → Board
  | .command datagram ip port => b.command datagram ip port
  | .period switches runtime => b.periodJobCallback switches runtime
  | .startUp mac switches address => b.startUp mac switches address

/-- A change, a new destination address from anywhere else, or the command line. -/
inductive Operation where
  | change (c : Change)
  | newDestIp (newIp : UInt32)
  | destInfo (args : List (List UInt8))

def operate (b : Board) : Operation → Board
  | .change c => b.step c
  | .newDestIp newIp => b.newDestIpEffective newIp
  | .destInfo args => b.cmnCmdDestInfo args

section Commands

variable {dev : Device} {datagram : List UInt8}

/-- What is merged are the parameters of a `set_param` command that is carried out. -/
theorem setupRequest_eq_some_iff {rx : RuntimeCfg} : setupRequest dev datagram = some rx ↔
    (parseDatagram dev datagram).1 = true ∧
      commandOf (parseDatagram dev datagram).2.cmd.val = some .setParams ∧
      Acts dev.cfg (parseDatagram dev datagram).2 ∧
      (parseDatagram dev datagram).2.doc.scratch = rx := by
  unfold setupRequest
  rcases parseDatagram dev datagram with ⟨_ | _, p⟩
  · exact iff_of_false nofun fun h => Bool.false_ne_true h.1
  dsimp only
  by_cases hcmd : commandOf p.cmd.val = some .setParams
  · rw [if_pos hcmd]
    unfold Acts
    rw [hcmd]
    dsimp only
    obtain ⟨q, hq, hin, -⟩ := extJsonIsResponse_eq p
    rw [hq]
    cases hreply : p.doc.isReply with
    | true => exact iff_of_false nofun fun h => Bool.false_ne_true h.2.2.1.1.symm
    | false =>
        obtain ⟨r, hr, hrin⟩ := extIpCmdIsLocal_eq dev.cfg q
        rw [Parser.doc_eq hin, Parser.target_eq hin] at hr
        dsimp only
        rw [hr]
        cases hlogin : p.doc.authenticated dev.cfg with
        | false => exact iff_of_false nofun fun h => Bool.false_ne_true h.2.2.1.2.1
        | true =>
            by_cases htarget : p.target = dev.cfg.local.mac
            · rw [decide_eq_true htarget]
              have hparse := extJsonRequestParse_eq dev.cfg r
              rw [Parser.doc_eq (hrin.trans hin)] at hparse
              cases hacc : p.doc.acceptable dev.cfg with
              | false =>
                  obtain ⟨t, ht, -⟩ := hparse.2 hacc
                  simp only [Bool.and_self, ht]
                  exact iff_of_false nofun fun h => Bool.false_ne_true h.2.2.1.2.2.2
              | true =>
                  obtain ⟨t, ht, -⟩ := hparse.1 hacc
                  simp only [Bool.and_self, ht, Option.some.injEq]
                  exact ⟨fun h => ⟨trivial, trivial, ⟨trivial, trivial, htarget, trivial⟩, h⟩,
                    fun h => h.2.2.2⟩
            · rw [decide_eq_false htarget]
              exact iff_of_false nofun fun h => htarget h.2.2.1.2.2.1
  · rw [if_neg hcmd]
    exact iff_of_false nofun fun h => hcmd h.2.1

/-- A handler other than that of `set_param` changes no more than the server, and only
    sends messages. -/
theorem handler_other (cfg : RuntimeCfg) (p : Parser) {c : Command} (hc : c ≠ .setParams) :
    (∃ ip port, (c.handler cfg p).cfg = { cfg with ipSvr811 := ip, portSvr811 := port }) ∧
      (c.handler cfg p).effects.filter isSetup = [] := by
  cases c with
  | setParams => exact absurd rfl hc
  | getParams =>
      simp only [Command.handler, extCmdGetParams]
      split
      · exact ⟨⟨cfg.ipSvr811, cfg.portSvr811, rfl⟩, rfl⟩
      · split
        · exact ⟨⟨cfg.ipSvr811, cfg.portSvr811, rfl⟩, rfl⟩
        · exact ⟨⟨_, _, rfl⟩, rfl⟩
  | sendRs232 =>
      have hnone : ∀ bytes : List UInt8, (bytes.map Effect.rs232Write).filter isSetup = [] := by
        intro bytes
        rw [List.filter_eq_nil_iff]
        intro e he
        obtain ⟨b, -, rfl⟩ := List.mem_map.mp he
        exact Bool.false_ne_true
      have hsame : (extIpCmdSendRsData cfg p).cfg = cfg ∧
          (extIpCmdSendRsData cfg p).effects.filter isSetup = [] := by
        unfold extIpCmdSendRsData
        dsimp only
        repeat' split
        all_goals first | exact ⟨rfl, rfl⟩ | exact ⟨rfl, hnone _⟩
      exact ⟨⟨cfg.ipSvr811, cfg.portSvr811, hsame.1⟩, hsame.2⟩
  | securityCheck =>
      have hsame : (extIpCmdSecurityCheck cfg p).cfg = cfg := by
        unfold extIpCmdSecurityCheck
        dsimp only
        repeat' split
        all_goals rfl
      refine ⟨⟨cfg.ipSvr811, cfg.portSvr811, hsame⟩, ?_⟩
      rw [Command.handler, extIpCmdSecurityCheck_effects]
      rfl

theorem filter_reply (out : List UInt8) (ip : UInt32) (port : UInt16) :
    (if out = [] then [] else [Effect.sendto out ip port]).filter isSetup = [] := by
  split <;> rfl

/-- Without a merge a datagram changes no more than the server, and only sends
    messages. -/
theorem thread_of_no_request (h : setupRequest dev datagram = none) (ip : UInt32) (port : UInt16) :
    (∃ ip' port', (extUdpCmdThread dev datagram ip port).1.cfg =
      { dev.cfg with ipSvr811 := ip', portSvr811 := port' }) ∧
      (extUdpCmdThread dev datagram ip port).2.filter isSetup = [] := by
  have hsame : ∃ ip' port', dev.cfg = { dev.cfg with ipSvr811 := ip', portSvr811 := port' } :=
    ⟨dev.cfg.ipSvr811, dev.cfg.portSvr811, rfl⟩
  cases hparsed : (parseDatagram dev datagram).1 with
  | false =>
      obtain ⟨hcfg, heff⟩ := unaffected_of_not_parsed ip port hparsed
      rw [hcfg]
      refine ⟨hsame, ?_⟩
      rcases heff with heff | ⟨heff, -⟩ | ⟨heff, -⟩ <;> rw [heff] <;> rfl
  | true =>
      obtain ⟨p, -, -, hcfg, -, heff⟩ := extUdpCmdThread_of_parsed ip port hparsed
      rw [hcfg, heff, List.filter_append, filter_reply, List.append_nil]
      cases hcmd : commandOf (parseDatagram dev datagram).2.cmd.val with
      | none =>
          have hfailed : extJsonHandle dev.cfg (parseDatagram dev datagram).2 =
              parseFailed dev.cfg (parseDatagram dev datagram).2 (ascii "No command '" ++
                (parseDatagram dev datagram).2.cmd.val ++ ascii "' is found!") [] := by
            rw [extJsonHandle, hcmd]
          rw [hfailed]
          exact ⟨hsame, rfl⟩
      | some c =>
          by_cases hc : c = .setParams
          · rw [hc] at hcmd
            have hno : ¬ Acts dev.cfg (parseDatagram dev datagram).2 := by
              intro hacts
              have hsome := setupRequest_eq_some_iff.mpr ⟨hparsed, hcmd, hacts, rfl⟩
              rw [h] at hsome
              exact absurd hsome nofun
            rcases extJsonHandle_cases dev.cfg (parseDatagram dev datagram).2 with
              ⟨-, ⟨-, hcfg', hnone⟩, -⟩ | ⟨-, -, _, ho, -⟩ | ⟨hyes, -⟩
            · rw [hcfg', hnone]
              exact ⟨hsame, rfl⟩
            · rw [ho]
              exact ⟨hsame, rfl⟩
            · exact absurd hyes hno
          · have hsettle : ∀ o : Outcome, o.settle.cfg = o.cfg ∧ o.settle.effects = o.effects := by
              intro o
              rw [Outcome.settle]
              split <;> exact ⟨rfl, rfl⟩
            have hhandle : extJsonHandle dev.cfg (parseDatagram dev datagram).2 =
                (c.handler dev.cfg (parseDatagram dev datagram).2).settle := by
              rw [extJsonHandle, hcmd]
            rw [hhandle, (hsettle _).1, (hsettle _).2]
            exact handler_other dev.cfg _ hc

/-- A merge leaves the merged configuration, and its effects are those of the merge. -/
theorem thread_of_request {rx : RuntimeCfg} (h : setupRequest dev datagram = some rx)
    (ip : UInt32) (port : UInt16) :
    (extUdpCmdThread dev datagram ip port).1.cfg = (compareAll rx dev.cfg).cfg ∧
      (extUdpCmdThread dev datagram ip port).2.filter isSetup =
        ((compareAll rx dev.cfg).effects ++ setupEffects rx (compareAll rx dev.cfg)).filter
          isSetup := by
  obtain ⟨hparsed, hcmd, hacts, rfl⟩ := setupRequest_eq_some_iff.mp h
  obtain ⟨-, -, hcfg', heff'⟩ := extJsonHandle_setParams hcmd hacts
  obtain ⟨p, -, -, hcfg, -, heff⟩ := extUdpCmdThread_of_parsed ip port hparsed
  rw [hcfg, heff, hcfg', heff', List.filter_append, filter_reply, List.append_nil]
  exact ⟨rfl, rfl⟩

end Commands

/-- The effects of a new destination, which takes the place of an old one. -/
def newDestEffects (isTx : UInt8) (old : UInt32) : List Effect :=
  if isTx ≠ 0 then [.fpgaConfig] else [.groupMgr old false, .fpgaConfig]

theorem newDest_effects (newIp : UInt32) (s : Setup) :
    (extCmnNewDestIpEffective newIp s).effects =
      s.effects ++ newDestEffects s.cfg.isTx s.cfg.dest.ip := by
  unfold extCmnNewDestIpEffective newDestEffects
  by_cases htx : s.cfg.isTx = 0
  · simp [htx, RuntimeCfg.isTransmitter]
  · simp [htx, RuntimeCfg.isTransmitter]

section Merge

variable (rx run : RuntimeCfg)

/-- A new multicast address is given, and the DIP switch ends up off. -/
abbrev DestGiven : Prop :=
  NewMulticast rx run.ipMulticast ∧ (checkBoolField run.isDipOn rx.isDipOn true).1 = 0

/-- The address that a merge moves into the destination. -/
def mergedDest : Option UInt32 :=
  if DestGiven rx run then some rx.dest.ip
  else if DipTurnedOff rx run.isDipOn then some run.ipMulticast
  else none

theorem compareAll_dest_ip :
    (compareAll rx run).cfg.dest.ip = (mergedDest rx run).getD run.dest.ip := by
  rw [compareAll_dest]
  unfold mergedDest DestGiven
  dsimp only
  split
  · rfl
  · split <;> rfl

theorem systemStage_dest : (systemStage rx run).cfg.dest =
    { run.dest with
      ip := if DipTurnedOff rx run.isDipOn then run.ipMulticast else run.dest.ip
      mac :=
        if DipTurnedOff rx run.isDipOn then destMac run.isTx run.dest.mac run.ipMulticast
        else run.dest.mac } := by
  simp only [systemStage, compareSystemCfg, compareDip_cfg, compareName_cfg, compareMac_cfg,
    compareAddresses_cfg, compareNetMode_cfg]

theorem systemStage_effects : (systemStage rx run).effects =
    if DipTurnedOff rx run.isDipOn then newDestEffects run.isTx run.dest.ip else [] := by
  have hearly : (compareName rx (compareMac rx (compareAddresses rx (compareNetMode rx
      ⟨run, [], []⟩)))).effects = [] := by
    unfold compareName compareMac compareAddresses compareNetMode
    repeat' split
    all_goals simp
  have hcfg : (compareName rx (compareMac rx (compareAddresses rx (compareNetMode rx
      ⟨run, [], []⟩)))).cfg.isDipOn = run.isDipOn ∧
      (compareName rx (compareMac rx (compareAddresses rx (compareNetMode rx
        ⟨run, [], []⟩)))).cfg.isTx = run.isTx ∧
      (compareName rx (compareMac rx (compareAddresses rx (compareNetMode rx
        ⟨run, [], []⟩)))).cfg.dest = run.dest := by
    simp only [compareName_cfg, compareMac_cfg, compareAddresses_cfg, compareNetMode_cfg, and_self]
  unfold systemStage compareSystemCfg
  generalize compareName rx (compareMac rx (compareAddresses rx (compareNetMode rx
    ⟨run, [], []⟩))) = s at hearly hcfg
  unfold compareDip DipTurnedOff
  rw [hcfg.1]
  generalize checkBoolField run.isDipOn rx.isDipOn true = r
  obtain ⟨isDipOn, _ | _⟩ := r
  · simpa using hearly
  · by_cases h : isDipOn = 0
    · simp [h, RuntimeCfg.dipOn, newDest_effects, hearly, hcfg.2.1, hcfg.2.2]
    · simp [h, RuntimeCfg.dipOn, hearly]

theorem multicastStage_dest : (multicastStage rx run).cfg.dest =
    { (systemStage rx run).cfg.dest with
      ip := if DestGiven rx run then rx.dest.ip else (systemStage rx run).cfg.dest.ip
      mac :=
        if DestGiven rx run then destMac run.isTx (systemStage rx run).cfg.dest.mac rx.dest.ip
        else (systemStage rx run).cfg.dest.mac } := by
  simp only [multicastStage, systemStage, compareSystemCfg, compareMulticast_cfg,
    compareIsMCast_cfg, compareRs232Config_cfg, compareDip_cfg, compareName_cfg, compareMac_cfg,
    compareAddresses_cfg, compareNetMode_cfg, DestGiven]

theorem multicastStage_effects : (multicastStage rx run).effects = (systemStage rx run).effects ++
    if DestGiven rx run then newDestEffects run.isTx (systemStage rx run).cfg.dest.ip else [] := by
  have hearly : (compareIsMCast rx (compareRs232Config rx (systemStage rx run))).effects =
      (systemStage rx run).effects := by
    unfold compareIsMCast compareRs232Config
    rw [Setup.setType_effects, Setup.setType_effects]
  have hcfg : (compareIsMCast rx (compareRs232Config rx (systemStage rx run))).cfg.ipMulticast =
      run.ipMulticast ∧
      (compareIsMCast rx (compareRs232Config rx (systemStage rx run))).cfg.isDipOn =
        (checkBoolField run.isDipOn rx.isDipOn true).1 ∧
      (compareIsMCast rx (compareRs232Config rx (systemStage rx run))).cfg.isTx = run.isTx ∧
      (compareIsMCast rx (compareRs232Config rx (systemStage rx run))).cfg.dest.ip =
        (systemStage rx run).cfg.dest.ip := by
    simp only [systemStage, compareSystemCfg, compareIsMCast_cfg, compareRs232Config_cfg,
      compareDip_cfg, compareName_cfg, compareMac_cfg, compareAddresses_cfg, compareNetMode_cfg,
      and_self]
  unfold multicastStage
  generalize compareIsMCast rx (compareRs232Config rx (systemStage rx run)) = s at hearly hcfg
  obtain ⟨hip, hdip, htx, hdest⟩ := hcfg
  unfold compareMulticast DestGiven
  rw [hip, ← hdip]
  by_cases hnew : NewMulticast rx run.ipMulticast
  · by_cases h : s.cfg.isDipOn = 0
    · simp [hnew, h, RuntimeCfg.dipOn, newDest_effects, hearly, htx, hdest]
    · simp [hnew, h, RuntimeCfg.dipOn, hearly]
  · simp [hnew, hearly]

theorem compareAll_eq : compareAll rx run = compareMediaCfg rx (comparePorts rx
    (multicastStage rx run)) := rfl

theorem compareAll_effects : (compareAll rx run).effects = (multicastStage rx run).effects := by
  rw [compareAll_eq]
  unfold compareMediaCfg comparePorts
  rw [Setup.setType_effects, Setup.setType_effects]

/-- The trace of a merge holds its effects, in their order. -/
theorem map_snd_mergeTrace : (mergeTrace rx run).map Prod.snd =
    (compareAll rx run).effects ++ setupEffects rx (compareAll rx run) := by
  have hsnd : ∀ (cfg : RuntimeCfg) (effects : List Effect),
      (effects.map (cfg, ·)).map Prod.snd = effects := by
    intro cfg effects
    rw [List.map_map]
    exact List.map_id' effects
  unfold mergeTrace added
  rw [List.map_append, List.map_append, hsnd, hsnd, hsnd, compareAll_effects,
    multicastStage_effects, List.drop_left, List.length_nil, List.drop_zero]

/-- What a command causes besides messages is what is carried out on the board. -/
theorem effects_command (dev : Device) (datagram : List UInt8) (ip : UInt32) (port : UInt16) :
    (extUdpCmdThread dev datagram ip port).2.filter isSetup =
      ((setupRequest dev datagram).elim [] fun rx => (mergeTrace rx dev.cfg).map Prod.snd).filter
        isSetup := by
  cases h : setupRequest dev datagram with
  | none => exact (thread_of_no_request h ip port).2
  | some rx => rw [Option.elim_some, map_snd_mergeTrace, (thread_of_request h ip port).2]

theorem systemStage_isTx : (systemStage rx run).cfg.isTx = run.isTx := by
  simp only [systemStage, compareSystemCfg, compareDip_cfg, compareName_cfg, compareMac_cfg,
    compareAddresses_cfg, compareNetMode_cfg]

theorem systemStage_netifIp : (systemStage rx run).cfg.netifIp = run.netifIp := by
  simp only [systemStage, compareSystemCfg, compareDip_cfg, compareName_cfg, compareMac_cfg,
    compareAddresses_cfg, compareNetMode_cfg]

theorem multicastStage_isTx : (multicastStage rx run).cfg.isTx = run.isTx := by
  simp only [multicastStage, compareMulticast_cfg, compareIsMCast_cfg, compareRs232Config_cfg,
    systemStage_isTx]

theorem multicastStage_netifIp : (multicastStage rx run).cfg.netifIp = run.netifIp := by
  simp only [multicastStage, compareMulticast_cfg, compareIsMCast_cfg, compareRs232Config_cfg,
    systemStage_netifIp]

end Merge

/-- A new destination takes effect: a receiver leaves the group of the old one, and the
    FPGA is configured. -/
def applyNewDest (old : UInt32) (cfg : RuntimeCfg) (b : Board) : Board :=
  extFpgaConfig cfg
    (if cfg.isTransmitter then b else { b with uses := extLwipGroupMgr old false b.uses })

theorem foldl_newDestEffects (old : UInt32) (cfg : RuntimeCfg) (b : Board) :
    ((newDestEffects cfg.isTx old).map (cfg, ·)).foldl perform b = applyNewDest old cfg b := by
  unfold newDestEffects applyNewDest RuntimeCfg.isTransmitter
  by_cases htx : cfg.isTx = 0
  · simp [htx, perform]
  · simp [htx, perform]

/-- The configuration with a new destination. -/
def destined (newIp : UInt32) (cfg : RuntimeCfg) : RuntimeCfg :=
  { cfg with dest.ip := newIp, dest.mac := destMac cfg.isTx cfg.dest.mac newIp }

theorem newDestIpEffective_eq (newIp : UInt32) (b : Board) : b.newDestIpEffective newIp =
    (applyNewDest b.cfg.dest.ip (destined newIp b.cfg) b).setCfg (destined newIp b.cfg) := by
  unfold newDestIpEffective added
  dsimp only
  rw [newDest_effects, extCmnNewDestIpEffective_cfg, List.nil_append, List.length_nil,
    List.drop_zero, ← foldl_newDestEffects]
  rfl

/-- The effects behind the merge. -/
def finishMerge (rx run : RuntimeCfg) (b : Board) : Board :=
  ((setupEffects rx (compareAll rx run)).map ((compareAll rx run).cfg, ·)).foldl perform b

/-- The new destinations of a merge: that of the DIP switch, and that which is given. -/
def mergeDest (rx run : RuntimeCfg) (b : Board) : Board :=
  let b :=
    if DipTurnedOff rx run.isDipOn then applyNewDest run.dest.ip (systemStage rx run).cfg b else b
  if DestGiven rx run then
    applyNewDest (systemStage rx run).cfg.dest.ip (multicastStage rx run).cfg b
  else b

/-- The merge on the board: the new destinations, and the rest. -/
theorem foldl_mergeTrace (rx run : RuntimeCfg) (b : Board) :
    (mergeTrace rx run).foldl perform b = finishMerge rx run (mergeDest rx run b) := by
  have hif : ∀ (q : Prop) [Decidable q] (effects : List Effect) (cfg : RuntimeCfg) (b : Board),
      ((if q then effects else []).map (cfg, ·)).foldl perform b =
        if q then (effects.map (cfg, ·)).foldl perform b else b := by
    intro q _ effects cfg b
    split <;> rfl
  have hsystem := foldl_newDestEffects run.dest.ip (systemStage rx run).cfg
  have hmulticast :=
    foldl_newDestEffects (systemStage rx run).cfg.dest.ip (multicastStage rx run).cfg
  rw [systemStage_isTx] at hsystem
  rw [multicastStage_isTx] at hmulticast
  unfold mergeTrace added
  rw [List.foldl_append, List.foldl_append, multicastStage_effects, List.drop_left,
    systemStage_effects, List.length_nil, List.drop_zero, hif, hif, hsystem, hmulticast]
  rfl

/-- Effects with one configuration leave it in the flash, or the flash as it was. -/
theorem foldl_perform_flash (cfg : RuntimeCfg) (effects : List Effect) (b : Board) :
    ((effects.map (cfg, ·)).foldl perform b).flash = b.flash ∨
      ((effects.map (cfg, ·)).foldl perform b).flash = cfg := by
  induction effects generalizing b with
  | nil => exact Or.inl rfl
  | cons e rest ih =>
      have hone : (b.perform (cfg, e)).flash = b.flash ∨ (b.perform (cfg, e)).flash = cfg := by
        cases e
        case cfgSave => exact Or.inr rfl
        all_goals exact Or.inl rfl
      rw [List.map_cons, List.foldl_cons]
      rcases ih (b.perform (cfg, e)) with h | h
      · rw [h]
        exact hone
      · exact Or.inr h

theorem applyNewDest_flash (old : UInt32) (cfg : RuntimeCfg) (b : Board) :
    (applyNewDest old cfg b).flash = b.flash := by
  unfold applyNewDest extFpgaConfig
  split <;> rfl

theorem mergeDest_flash (rx run : RuntimeCfg) (b : Board) :
    (mergeDest rx run b).flash = b.flash := by
  have hmoved : ∀ (q : Prop) [Decidable q] (old : UInt32) (cfg : RuntimeCfg) (b : Board),
      (if q then applyNewDest old cfg b else b).flash = b.flash := by
    intro q _ old cfg b
    split
    · exact applyNewDest_flash old cfg b
    · rfl
  unfold mergeDest
  rw [hmoved, hmoved]

section Steps

variable (b : Board) {datagram : List UInt8} (ip : UInt32) (port : UInt16)

/-- The configuration after a command. -/
theorem command_cfg_of_request {rx : RuntimeCfg} (h : setupRequest b.dev datagram = some rx) :
    (b.command datagram ip port).cfg = (compareAll rx b.cfg).cfg := by
  unfold command
  rw [h]
  exact (thread_of_request h ip port).1

theorem command_cfg_of_none (h : setupRequest b.dev datagram = none) :
    ∃ ip' port', (b.command datagram ip port).cfg =
      { b.cfg with ipSvr811 := ip', portSvr811 := port' } := by
  unfold command
  rw [h]
  exact (thread_of_no_request h ip port).1

/-- A command saves what it has merged, or nothing. -/
theorem command_flash (datagram : List UInt8) : (b.command datagram ip port).flash = b.flash ∨
    (b.command datagram ip port).flash = (b.command datagram ip port).cfg := by
  cases h : setupRequest b.dev datagram with
  | none =>
      unfold command
      rw [h]
      exact Or.inl rfl
  | some rx =>
      have hflash : (b.command datagram ip port).flash =
          ((mergeTrace rx b.cfg).foldl perform b).flash := by
        unfold command
        rw [h]
      rw [hflash, command_cfg_of_request b ip port h, foldl_mergeTrace]
      rcases foldl_perform_flash (compareAll rx b.cfg).cfg
        (setupEffects rx (compareAll rx b.cfg)) (mergeDest rx b.cfg b) with h | h
      · exact Or.inl (h.trans (mergeDest_flash rx b.cfg b))
      · exact Or.inr h

/-- The configuration after the periodic job. -/
theorem period_cfg (switches : Fin 16) (runtime : RunTimeParam) :
    (b.periodJobCallback switches runtime).cfg =
      if b.cfg.multicast ∧ b.cfg.dipOn ∧ dipAddress switches ≠ b.cfg.dest.ip then
        { destined (dipAddress switches) b.cfg with runtime }
      else { b.cfg with runtime } := by
  unfold periodJobCallback
  dsimp only
  split
  · rw [newDestIpEffective_eq]
    rfl
  · rfl

theorem period_flash (switches : Fin 16) (runtime : RunTimeParam) :
    (b.periodJobCallback switches runtime).flash = b.flash := by
  unfold periodJobCallback
  dsimp only
  split
  · rw [newDestIpEffective_eq]
    exact applyNewDest_flash _ _ _
  · rfl

/-- The configuration after a reset. -/
theorem startUp_cfg (mac : MacAddress) (switches : Fin 16) (address : UInt32) :
    (b.startUp mac switches address).cfg =
      { bspHwInit mac switches b.flash with netifIp := address } := by
  unfold startUp
  dsimp only
  split <;> rfl

theorem extTxMulticastIP2Mac_eq (cfg : RuntimeCfg) : extTxMulticastIP2Mac cfg =
    { cfg with dest.mac := (extNetMulticastIP4Mac cfg.dest.ip).getD cfg.dest.mac } := by
  unfold extTxMulticastIP2Mac extNetMulticastIP4Mac
  dsimp only
  split <;> rfl

/-- What a reset keeps of the saved configuration, and where it sends. -/
theorem bspHwInit_fields (mac : MacAddress) (switches : Fin 16) (flash : RuntimeCfg) :
    (bspHwInit mac switches flash).isMCast = flash.isMCast ∧
      (bspHwInit mac switches flash).isDipOn = flash.isDipOn ∧
      (bspHwInit mac switches flash).ipMulticast = flash.ipMulticast ∧
      (bspHwInit mac switches flash).dest.ip =
        if flash.multicast ∧ flash.dipOn then dipAddress switches else flash.ipMulticast := by
  unfold bspHwInit
  rw [extTxMulticastIP2Mac_eq]
  dsimp only
  split <;> exact ⟨rfl, rfl, rfl, rfl⟩

theorem bspHwInit_isTx (mac : MacAddress) (switches : Fin 16) (flash : RuntimeCfg) :
    (bspHwInit mac switches flash).isTx = flash.isTx := by
  unfold bspHwInit
  rw [extTxMulticastIP2Mac_eq]
  dsimp only
  split <;> rfl

theorem bspHwInit_netifIp (mac : MacAddress) (switches : Fin 16) (flash : RuntimeCfg) :
    (bspHwInit mac switches flash).netifIp = 0 := by
  unfold bspHwInit
  rw [extTxMulticastIP2Mac_eq]
  dsimp only
  split <;> rfl

theorem startUp_flash (mac : MacAddress) (switches : Fin 16) (address : UInt32) :
    (b.startUp mac switches address).flash = b.flash := by
  unfold startUp
  dsimp only
  split <;> rfl

end Steps

end Board

end RtosLwip
