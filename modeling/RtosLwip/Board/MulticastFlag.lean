import RtosLwip.Board.Operation

/-!
# The Multicast Flag

A device that works with multicast addresses is meant to have one, or none at all.
The parser checks an address that a command gives, but only if the flag is on
already. A command that turns it on goes unchecked, whether the address is in the
same command or was given before.

Once the flag is on the check is enough: with the DIP switch off the destination is
the address that is kept for this, so it is of the same kind.

## Main definitions

* `GroupOrNone`: A multicast address, or none.
* `MulticastConfigured`: The flag goes with the addresses.
* `RejectsBreaking`: What would break this is rejected.
* `FlagChecked`: The flag is turned on with an address of the right kind.

## Theorems

* `multicastConfigured_step`: What one change keeps.
* `multicastConfigured_iff`: When the flag always goes with the addresses.
-/

namespace RtosLwip

namespace Board

open Cmd

/-- A multicast address, or none. -/
def GroupOrNone (ip : UInt32) : Prop := isMulticast ip = true ∨ ip = 0

instance (ip : UInt32) : Decidable (GroupOrNone ip) := inferInstanceAs (Decidable (_ ∨ _))

/-- With the flag on, the address that is kept for the DIP switch is a multicast address
    or none, and with the DIP switch off so is the destination. -/
def MulticastConfigured (cfg : RuntimeCfg) : Prop :=
  cfg.multicast = true →
    GroupOrNone cfg.ipMulticast ∧ (cfg.dipOn = false → GroupOrNone cfg.dest.ip)

instance (cfg : RuntimeCfg) : Decidable (MulticastConfigured cfg) :=
  inferInstanceAs (Decidable (_ → _ ∧ (_ → _)))

/-- A `set_param` command whose parameters would break this when they are merged is
    answered with an error, and that is all. -/
def RejectsBreaking (b : Board) : Change → Prop
  | .command datagram ip port =>
      let p := (parseDatagram b.dev datagram).2
      let r := extUdpCmdThread b.dev datagram ip port
      (parseDatagram b.dev datagram).1 = true → commandOf p.cmd.val = some .setParams →
        p.doc.isReply = false → ¬ MulticastConfigured (compareAll p.doc.scratch b.cfg).cfg →
          b.command datagram ip port = { b with dev := r.1 } ∧ r.1.cfg = b.cfg ∧
            r.2 = [.sendto r.1.parser.out ip port] ∧ IsErrorReply r.1.cfg r.1.parser
  | .period _ _ => True
  | .startUp _ _ _ => True

/-- A command that turns the flag on gives a multicast address or none, or it gives no
    address and such a one is configured. -/
def FlagChecked (b : Board) : Change → Prop
  | .command datagram _ _ =>
      ∀ rx ∈ setupRequest b.dev datagram,
        b.cfg.multicast = false → (checkBoolField b.cfg.isMCast rx.isMCast true).1 ≠ 0 →
          GroupOrNone (if rx.dest.ip ≠ ipaddrNone then rx.dest.ip else b.cfg.ipMulticast)
  | .period _ _ => True
  | .startUp _ _ _ => True

/-- With the DIP switch off the destination is the address that is kept for this, and
    as long as the flag goes with the addresses, it does so in the flash. -/
structure Backed (b : Board) : Prop where
  dest : b.cfg.dipOn = false → b.cfg.dest.ip = b.cfg.ipMulticast
  flash : MulticastConfigured b.cfg → b.flash.multicast = true → GroupOrNone b.flash.ipMulticast

theorem compareAll_ipMulticast (rx run : RuntimeCfg) : (compareAll rx run).cfg.ipMulticast =
    if rx.dest.ip ≠ ipaddrNone then rx.dest.ip else run.ipMulticast := by
  rw [compareAll_cfg]
  dsimp only
  by_cases hnone : rx.dest.ip = ipaddrNone
  · rw [if_neg fun h => h.1 hnone, if_neg (not_not.mpr hnone)]
  · rw [if_pos hnone]
    by_cases hsame : rx.dest.ip = run.ipMulticast
    · rw [if_neg fun h => h.2 hsame, hsame]
    · rw [if_pos ⟨hnone, hsame⟩]

/-- A merge that leaves the DIP switch off leaves the destination with the address that
    is kept for this. -/
theorem compareAll_backed (rx run : RuntimeCfg)
    (h : run.dipOn = false → run.dest.ip = run.ipMulticast) :
    (compareAll rx run).cfg.dipOn = false →
      (compareAll rx run).cfg.dest.ip = (compareAll rx run).cfg.ipMulticast := by
  intro hoff
  have hzero : (checkBoolField run.isDipOn rx.isDipOn true).1 = 0 := by
    rw [compareAll_cfg] at hoff
    exact not_not.mp (decide_eq_false_iff_not.mp hoff)
  rw [compareAll_dest, compareAll_cfg]
  dsimp only
  by_cases hnew : NewMulticast rx run.ipMulticast
  · rw [if_pos ⟨hnew, hzero⟩, if_pos hnew]
  · rw [if_neg fun hgiven => hnew hgiven.1, if_neg hnew]
    by_cases hturned : DipTurnedOff rx run.isDipOn
    · rw [if_pos hturned]
    · rw [if_neg hturned]
      -- the DIP switch was off before
      refine h (decide_eq_false fun hon => hturned ⟨?_, hzero⟩)
      rw [checkBoolField_changed_iff, hzero]
      exact Ne.symm hon

/-- The check of an address that the message gives. -/
theorem groupOrNone_of_acceptable {d : Doc} {run : RuntimeCfg} (hacc : d.acceptable run = true)
    (hon : run.multicast = true) (hgiven : d.scratch.dest.ip ≠ ipaddrNone) :
    GroupOrNone d.scratch.dest.ip := by
  have hvalid : validMcastIp run (d.ipAddress .mcastIp) = true := by
    unfold Doc.acceptable at hacc
    simp only [Bool.and_eq_true] at hacc
    exact hacc.1.1.1.1.1.2
  have hfound : (d.ipAddress .mcastIp).2 = true := by
    by_contra hn
    refine hgiven ?_
    change (d.ipAddress .mcastIp).1 = ipaddrNone
    unfold Doc.ipAddress at hn ⊢
    cases hs : d.stringIn .mcastIp 64 with
    | none => rfl
    | some s =>
        rw [hs] at hn
        exact absurd rfl hn
  unfold validMcastIp at hvalid
  rw [hfound, hon] at hvalid
  unfold GroupOrNone
  by_contra hn
  rw [not_or] at hn
  have hip : d.scratch.dest.ip = (d.ipAddress .mcastIp).1 := rfl
  rw [hip] at hn
  simp [hn.1, hn.2] at hvalid

/-- After a merge the flag goes with the addresses, if it was on before, or turned on
    with the right ones. -/
theorem multicastConfigured_compareAll {d : Doc} {run : RuntimeCfg}
    (hacc : d.acceptable run = true) (hrun : MulticastConfigured run)
    (hbacked : run.dipOn = false → run.dest.ip = run.ipMulticast) :
    MulticastConfigured (compareAll d.scratch run).cfg ↔
      (run.multicast = false → (checkBoolField run.isMCast d.scratch.isMCast true).1 ≠ 0 →
        GroupOrNone
          (if d.scratch.dest.ip ≠ ipaddrNone then d.scratch.dest.ip else run.ipMulticast)) := by
  have hflag : (compareAll d.scratch run).cfg.multicast = true ↔
      (checkBoolField run.isMCast d.scratch.isMCast true).1 ≠ 0 := by
    rw [compareAll_cfg]
    exact decide_eq_true_iff
  have hdest := compareAll_backed d.scratch run hbacked
  unfold MulticastConfigured
  rw [hflag, ← compareAll_ipMulticast]
  constructor
  · intro h _ hon
    exact (h hon).1
  · intro h hon
    have hgroup : GroupOrNone (compareAll d.scratch run).cfg.ipMulticast := by
      cases hold : run.multicast with
      | false => exact h hold hon
      | true =>
          rw [compareAll_ipMulticast]
          split
          · exact groupOrNone_of_acceptable hacc hold ‹_›
          · exact (hrun hold).1
    refine ⟨hgroup, fun hoff => ?_⟩
    rw [hdest hoff]
    exact hgroup

/-- What is in flash after a command is what was there, or the configuration that it leaves. -/
theorem command_flash_group (b : Board) (datagram : List UInt8) (ip : UInt32) (port : UInt16)
    (hb : Backed b) (h : MulticastConfigured b.cfg)
    (hnew : MulticastConfigured (b.command datagram ip port).cfg)
    (hon : (b.command datagram ip port).flash.multicast = true) :
    GroupOrNone (b.command datagram ip port).flash.ipMulticast := by
  rcases command_flash b ip port datagram with hsame | hsame
  · rw [hsame] at hon ⊢
    exact hb.flash h hon
  · rw [hsame] at hon ⊢
    exact (hnew hon).1

/-- A command keeps the flag with the addresses exactly if it checks the flag. -/
theorem multicastConfigured_command (b : Board) (datagram : List UInt8) (ip : UInt32)
    (port : UInt16) (hb : Backed b) (h : MulticastConfigured b.cfg) :
    Backed (b.command datagram ip port) ∧ (MulticastConfigured (b.command datagram ip port).cfg ↔
      FlagChecked b (.command datagram ip port)) := by
  have hsaved := command_flash_group b datagram ip port hb h
  cases hrequest : setupRequest b.dev datagram with
  | none =>
      -- no `set_param` command that is carried out: of the configuration only the peer may change
      obtain ⟨ip', port', hcfg⟩ := command_cfg_of_none b ip port hrequest
      refine ⟨⟨?_, hsaved⟩, iff_of_true ?_ fun rx hrx => ?_⟩
      · rw [hcfg]
        exact hb.dest
      · rw [hcfg]
        exact h
      · rw [hrequest] at hrx
        exact absurd hrx (Option.not_mem_none rx)
  | some rx =>
      have hcfg := command_cfg_of_request b ip port hrequest
      refine ⟨⟨?_, hsaved⟩, ?_⟩
      · rw [hcfg]
        exact compareAll_backed rx b.cfg hb.dest
      · -- the parser has found the address of the command acceptable, but for the old flag
        unfold FlagChecked
        simp only [hrequest, Option.mem_def, Option.some.injEq, forall_eq']
        obtain ⟨-, hcmd, hacts, rfl⟩ := setupRequest_eq_some_iff.mp hrequest
        unfold Acts at hacts
        rw [hcmd] at hacts
        rw [hcfg]
        exact multicastConfigured_compareAll hacts.2.2.2 h hb.dest

/-- The periodic job looks at the DIP switch, and keeps the flag with the addresses. -/
theorem multicastConfigured_period (b : Board) (switches : Fin 16) (runtime : RunTimeParam)
    (hb : Backed b) (h : MulticastConfigured b.cfg) :
    Backed (b.periodJobCallback switches runtime) ∧
      MulticastConfigured (b.periodJobCallback switches runtime).cfg := by
  have hsaved : (b.periodJobCallback switches runtime).flash.multicast = true →
      GroupOrNone (b.periodJobCallback switches runtime).flash.ipMulticast := by
    rw [period_flash b switches runtime]
    exact hb.flash h
  by_cases hdip : b.cfg.multicast ∧ b.cfg.dipOn ∧ dipAddress switches ≠ b.cfg.dest.ip
  · -- the DIP switch is on, so nothing is asked of the destination
    have hcfg := (period_cfg b switches runtime).trans (if_pos hdip)
    have hon : b.cfg.dipOn ≠ false := by
      rw [hdip.2.1]
      exact Bool.false_ne_true.symm
    refine ⟨⟨?_, fun _ => hsaved⟩, ?_⟩
    · rw [hcfg]
      exact fun hoff => absurd hoff hon
    · rw [hcfg]
      exact fun hmulticast => ⟨(h hmulticast).1, fun hoff => absurd hoff hon⟩
  · have hcfg := (period_cfg b switches runtime).trans (if_neg hdip)
    refine ⟨⟨?_, fun _ => hsaved⟩, ?_⟩
    · rw [hcfg]
      exact hb.dest
    · rw [hcfg]
      exact h

/-- At a start the configuration is read out of flash, where the flag goes with the addresses. -/
theorem multicastConfigured_startUp (b : Board) (mac : MacAddress) (switches : Fin 16)
    (address : UInt32) (hb : Backed b) (h : MulticastConfigured b.cfg) :
    Backed (b.startUp mac switches address) ∧
      MulticastConfigured (b.startUp mac switches address).cfg := by
  have hcfg := startUp_cfg b mac switches address
  obtain ⟨hflag, hdip, hip, hdest⟩ := bspHwInit_fields mac switches b.flash
  -- with the DIP switch off the destination is the address that was kept
  have hoff : (b.startUp mac switches address).cfg.dipOn = false →
      (b.startUp mac switches address).cfg.dest.ip =
        (b.startUp mac switches address).cfg.ipMulticast := by
    rw [hcfg]
    intro hoff
    have hoff' : b.flash.dipOn = false := by
      rw [RuntimeCfg.dipOn, ← hdip]
      exact hoff
    dsimp only
    rw [hdest, hip, hoff']
    exact if_neg fun hn => Bool.false_ne_true hn.2
  refine ⟨⟨hoff, ?_⟩, fun hon => ?_⟩
  · rw [startUp_flash b mac switches address]
    exact fun _ => hb.flash h
  · have hgroup : GroupOrNone (b.startUp mac switches address).cfg.ipMulticast := by
      rw [hcfg] at hon ⊢
      dsimp only
      rw [hip]
      refine hb.flash h ?_
      rw [RuntimeCfg.multicast, ← hflag]
      exact hon
    exact ⟨hgroup, fun hdipOff => hoff hdipOff ▸ hgroup⟩

/-- A change keeps the flag with the addresses exactly if it checks the flag. -/
theorem multicastConfigured_step (b : Board) (c : Change) (hb : Backed b)
    (h : MulticastConfigured b.cfg) :
    Backed (b.step c) ∧ (MulticastConfigured (b.step c).cfg ↔ FlagChecked b c) := by
  cases c with
  | command datagram ip port => exact multicastConfigured_command b datagram ip port hb h
  | period switches runtime =>
      obtain ⟨hbacked, hnew⟩ := multicastConfigured_period b switches runtime hb h
      exact ⟨hbacked, iff_true_intro hnew⟩
  | startUp mac switches address =>
      obtain ⟨hbacked, hnew⟩ := multicastConfigured_startUp b mac switches address hb h
      exact ⟨hbacked, iff_true_intro hnew⟩

/-- As long as the flag goes with the addresses, what would break this was rejected. -/
theorem rejectsBreaking_of_configured (b : Board) (c : Change)
    (h : MulticastConfigured (b.step c).cfg) : RejectsBreaking b c := by
  cases c with
  | period switches runtime => exact trivial
  | startUp mac switches address => exact trivial
  | command datagram ip port =>
      intro hparsed hcmd hreply hbreaks
      have hno : ¬ Acts b.dev.cfg (parseDatagram b.dev datagram).2 := by
        intro hacts
        have hrequest := setupRequest_eq_some_iff.mpr ⟨hparsed, hcmd, hacts, rfl⟩
        refine hbreaks ?_
        rw [← command_cfg_of_request b ip port hrequest]
        exact h
      have hnone : setupRequest b.dev datagram = none := by
        cases hrequest : setupRequest b.dev datagram with
        | none => rfl
        | some rx => exact absurd (setupRequest_eq_some_iff.mp hrequest).2.2.1 hno
      refine ⟨by rw [command, hnone], ?_⟩
      rcases extJsonHandle_cases b.dev.cfg (parseDatagram b.dev datagram).2 with
        ⟨-, hrefused, hstatus⟩ | ⟨-, ⟨-, hyes⟩, -⟩ | ⟨hyes, -⟩
      · exact answered_of_refused ip port hparsed hrefused hstatus
      · exact absurd (hreply.symm.trans hyes) Bool.false_ne_true
      · exact absurd hyes hno

theorem factory_fields (isTx : UInt8) : (factory isTx).cfg.ipMulticast = 0xEF640101 ∧
    (factory isTx).cfg.dest.ip = 0xEF640101 ∧ (factory isTx).cfg.dipOn = true := by
  simp only [factory, Device.factory, extCfgFromFactory, extTxMulticastIP2Mac_eq]
  exact ⟨trivial, trivial, rfl⟩

/-- The flag goes with the addresses all along, and what would break this is rejected,
    exactly if every command that turns the flag on has an address of the right kind. -/
theorem multicastConfigured_iff (isTx : UInt8) (cs : List Change) :
    ((∀ past, past <+: cs → MulticastConfigured (run step (factory isTx) past).cfg) ∧
      ∀ past c, past ++ [c] <+: cs → RejectsBreaking (run step (factory isTx) past) c) ↔
      Meets step FlagChecked (factory isTx) cs := by
  have hgroup : isMulticast 0xEF640101 = true := by decide
  obtain ⟨hip, hdest, hon⟩ := factory_fields isTx
  have hstart : MulticastConfigured (factory isTx).cfg :=
    fun _ => ⟨Or.inl (hip ▸ hgroup), fun _ => Or.inl (hdest ▸ hgroup)⟩
  have hbacked : Backed (factory isTx) :=
    ⟨fun hoff => absurd (hon.symm.trans hoff) Bool.false_ne_true.symm,
      fun _ _ => Or.inl (hip ▸ hgroup)⟩
  rw [← always_iff_meets multicastConfigured_step _ hbacked hstart cs]
  refine and_iff_left_of_imp fun h past c hpast => ?_
  have hnext := h _ hpast
  rw [run_append] at hnext
  exact rejectsBreaking_of_configured _ c hnext

/-- A `set_param` command for a receiver with factory settings. -/
def setParam (data : String) : List UInt8 := extIpCmdResponseTailCalculate
  (ascii "\x7b\"targ\":\"00:04:25:1c:a0:02\",\"cmd\":\"set_param\",\"login-ack\":\"admin\"," ++
    ascii "\"pwd-msg\":\"admin\",\"data\":[\x7b" ++ ascii data ++ ascii "\x7d]") true

/-- The flag is turned off, and then turned on together with an address that is no
    multicast address. -/
theorem not_multicastConfigured_turnedOn :
    ¬ MulticastConfigured (run step (factory 0)
      [.command (setParam "\"isMCAST\":0") 0xC0A8A80A 5000,
        .command (setParam "\"isMCAST\":1,\"MCASTip\":\"192.168.1.1\"") 0xC0A8A80A 5000]).cfg := by
  decide +kernel

end Board

end RtosLwip
