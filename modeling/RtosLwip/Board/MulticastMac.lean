import RtosLwip.Board.Operation

/-!
# The MAC Address of the Destination

A multicast destination has a MAC address of its own, made of the low 23 bits of the
IP address. Wherever the destination is configured the MAC address is worked out with
it, for transmitters and receivers: with the factory settings, at the start-up, and
by the command line. Only `extCmnNewDestIpEffective` does so for receivers alone. A
transmitter that is given another group by the DIP switches or by a command keeps the
MAC address of the old one, and goes on to tell its peers about it.

## Main definitions

* `Mapped`: The MAC address goes with the IP address.
* `movedDest`: The address that an operation moves into the destination.
* `Remapped`: On a transmitter, it has the MAC address that is there.

## Theorems

* `mapped_operate`: What one operation keeps.
* `mapped_iff`: When the MAC address always goes with the IP address.
-/

namespace RtosLwip

namespace Board

open Cmd

/-- A multicast destination has the MAC address of its group. -/
def Mapped (cfg : RuntimeCfg) : Prop :=
  isMulticast cfg.dest.ip = true → cfg.dest.mac = multicastMac cfg.dest.ip

instance (cfg : RuntimeCfg) : Decidable (Mapped cfg) := inferInstanceAs (Decidable (_ → _))

/-- The address that an operation moves into the destination with
    `extCmnNewDestIpEffective`, of which the last one counts. -/
def movedDest (b : Board) : Operation → Option UInt32
  | .change (.command datagram _ _) =>
      (setupRequest b.dev datagram).bind fun rx => mergedDest rx b.cfg
  | .change (.period switches _) =>
      if b.cfg.multicast ∧ b.cfg.dipOn ∧ dipAddress switches ≠ b.cfg.dest.ip then
        some (dipAddress switches)
      else none
  | .change (.startUp _ _ _) => none
  | .newDestIp newIp => some newIp
  | .destInfo _ => none

/-- What is moved into the destination of a transmitter is no group, or one whose MAC
    address is there. -/
def Remapped (b : Board) (op : Operation) : Prop :=
  b.cfg.isTransmitter = true → ∀ ip ∈ movedDest b op, isMulticast ip = true →
    b.cfg.dest.mac = multicastMac ip

theorem destMac_of_multicast {isTx : UInt8} (htx : isTx = 0) {ip : UInt32}
    (h : isMulticast ip = true) (mac : MacAddress) : destMac isTx mac ip = multicastMac ip := by
  rw [destMac, if_pos ⟨htx, h⟩, groupMac, multicastMac]

theorem destMac_of_transmitter {isTx : UInt8} (htx : isTx ≠ 0) (mac : MacAddress) (ip : UInt32) :
    destMac isTx mac ip = mac :=
  if_neg fun h => htx h.1

theorem mapped_extTxMulticastIP2Mac (cfg : RuntimeCfg) : Mapped (extTxMulticastIP2Mac cfg) := by
  intro h
  unfold extTxMulticastIP2Mac at h ⊢
  dsimp only at h ⊢
  by_cases hm : isMulticast cfg.dest.ip = true
  · rw [if_pos hm]
    rfl
  · rw [if_neg hm] at h
    exact absurd h hm

/-- A new destination has the MAC address of its group on a receiver, and on a
    transmitter if it is there. -/
theorem mapped_destined_iff (newIp : UInt32) (cfg : RuntimeCfg) : Mapped (destined newIp cfg) ↔
    (cfg.isTransmitter = true → isMulticast newIp = true → cfg.dest.mac = multicastMac newIp) := by
  unfold Mapped destined RuntimeCfg.isTransmitter
  by_cases htx : cfg.isTx = 0
  · exact iff_of_true (fun h => destMac_of_multicast htx h _) fun h =>
      absurd htx (decide_eq_true_iff.mp h)
  · dsimp only
    rw [destMac_of_transmitter htx]
    exact ⟨fun h _ => h, fun h => h (decide_eq_true_iff.mpr htx)⟩

/-- The same for the destination of a merge. -/
theorem mapped_compareAll_iff (rx run : RuntimeCfg) (h : Mapped run) :
    Mapped (compareAll rx run).cfg ↔
      (run.isTransmitter = true → ∀ ip ∈ mergedDest rx run, isMulticast ip = true →
        run.dest.mac = multicastMac ip) := by
  unfold Mapped mergedDest RuntimeCfg.isTransmitter DestGiven
  rw [compareAll_dest]
  dsimp only
  by_cases htx : run.isTx = 0
  · -- a receiver works the MAC address out
    refine iff_of_true ?_ fun h => absurd htx (decide_eq_true_iff.mp h)
    by_cases hgiven : NewMulticast rx run.ipMulticast ∧
        (checkBoolField run.isDipOn rx.isDipOn true).1 = 0
    · rw [if_pos hgiven, if_pos hgiven]
      exact fun hm => destMac_of_multicast htx hm _
    · rw [if_neg hgiven, if_neg hgiven]
      by_cases hoff : DipTurnedOff rx run.isDipOn
      · rw [if_pos hoff, if_pos hoff]
        exact fun hm => destMac_of_multicast htx hm _
      · rw [if_neg hoff, if_neg hoff]
        exact h
  · -- a transmitter keeps the old one
    simp only [destMac_of_transmitter htx, ite_self, true_implies, decide_not, ne_eq, htx,
      decide_false, Bool.not_false]
    by_cases hgiven : NewMulticast rx run.ipMulticast ∧
        (checkBoolField run.isDipOn rx.isDipOn true).1 = 0
    · simp only [if_pos hgiven, Option.mem_def, Option.some.injEq, forall_eq']
    · simp only [if_neg hgiven]
      by_cases hoff : DipTurnedOff rx run.isDipOn
      · simp only [if_pos hoff, Option.mem_def, Option.some.injEq, forall_eq']
      · simp only [if_neg hoff, Option.mem_def, reduceCtorEq, false_implies, implies_true]
        exact iff_of_true h trivial

theorem mapped_extVideoConfigCopy (dest src : VideoConfig)
    (h : isMulticast (extVideoConfigCopy dest src).ip = true) :
    (extVideoConfigCopy dest src).mac = multicastMac (extVideoConfigCopy dest src).ip := by
  unfold extVideoConfigCopy at h ⊢
  dsimp only at h ⊢
  rw [extNetMulticastIP4Mac, if_pos h, Option.getD_some]

theorem remapped_of_none {b : Board} {op : Operation} (h : movedDest b op = none) :
    Remapped b op := by
  intro _ ip hip
  rw [h] at hip
  exact absurd hip (Option.not_mem_none ip)

theorem remapped_iff_of_some {b : Board} {op : Operation} {newIp : UInt32}
    (h : movedDest b op = some newIp) : Remapped b op ↔
      (b.cfg.isTransmitter = true → isMulticast newIp = true →
        b.cfg.dest.mac = multicastMac newIp) := by
  unfold Remapped
  simp only [h, Option.mem_def, Option.some.injEq, forall_eq']

/-- After an operation the MAC address goes with the IP address exactly if it is worked
    out, or the right one. -/
theorem mapped_operate (b : Board) (op : Operation) (h : Mapped b.cfg) :
    Mapped (b.operate op).cfg ↔ Remapped b op := by
  cases op with
  | change c =>
      cases c with
      | command datagram ip port =>
          change Mapped (b.command datagram ip port).cfg ↔ _
          cases hrequest : setupRequest b.dev datagram with
          | none =>
              obtain ⟨ip', port', hcfg⟩ := command_cfg_of_none b ip port hrequest
              refine iff_of_true ?_ (remapped_of_none (by rw [movedDest, hrequest]; rfl))
              rw [hcfg]
              exact h
          | some rx =>
              have hmoved : movedDest b (.change (.command datagram ip port)) =
                  mergedDest rx b.cfg := by
                rw [movedDest, hrequest]
                rfl
              rw [command_cfg_of_request b ip port hrequest, Remapped, hmoved]
              exact mapped_compareAll_iff rx b.cfg h
      | period switches runtime =>
          change Mapped (b.periodJobCallback switches runtime).cfg ↔ _
          rw [period_cfg]
          by_cases hdip : b.cfg.multicast ∧ b.cfg.dipOn ∧ dipAddress switches ≠ b.cfg.dest.ip
          · have hmoved : movedDest b (.change (.period switches runtime)) =
                some (dipAddress switches) := if_pos hdip
            rw [if_pos hdip, remapped_iff_of_some hmoved]
            exact mapped_destined_iff (dipAddress switches) b.cfg
          · have hmoved : movedDest b (.change (.period switches runtime)) = none := if_neg hdip
            rw [if_neg hdip]
            exact iff_of_true h (remapped_of_none hmoved)
      | startUp mac switches address =>
          refine iff_of_true ?_ (remapped_of_none rfl)
          change Mapped (b.startUp mac switches address).cfg
          rw [startUp_cfg]
          exact mapped_extTxMulticastIP2Mac _
  | newDestIp newIp =>
      change Mapped (b.newDestIpEffective newIp).cfg ↔ _
      rw [newDestIpEffective_eq, remapped_iff_of_some rfl]
      exact mapped_destined_iff newIp b.cfg
  | destInfo args =>
      refine iff_of_true ?_ (remapped_of_none rfl)
      change Mapped (b.cmnCmdDestInfo args).cfg
      unfold cmnCmdDestInfo
      by_cases hargs : args = []
      · rw [if_pos hargs]
        exact h
      · rw [if_neg hargs]
        rcases extVideoConfigParse args with _ | vCfg
        · exact h
        · dsimp only
          split
          · exact mapped_extVideoConfigCopy _ _
          · exact mapped_extVideoConfigCopy _ _

/-- The MAC address goes with the IP address all along exactly if a transmitter is
    given no group whose MAC address it does not hold. -/
theorem mapped_iff (isTx : UInt8) (ops : List Operation) :
    (∀ past, past <+: ops → Mapped (run operate (factory isTx) past).cfg) ↔
      Meets operate Remapped (factory isTx) ops := by
  have hstep : ∀ (b : Board) (op : Operation), True → Mapped b.cfg →
      True ∧ (Mapped (b.operate op).cfg ↔ Remapped b op) :=
    fun b op _ h => ⟨trivial, mapped_operate b op h⟩
  refine always_iff_meets hstep (factory isTx) trivial ?_ ops
  exact mapped_extTxMulticastIP2Mac _

/-- A transmitter whose DIP switches are set to 2. -/
theorem not_mapped_dipSwitch :
    ¬ Mapped (run operate (factory 1) [.change (.period 2 RuntimeCfg.zero.runtime)]).cfg := by
  decide +kernel

end Board

end RtosLwip
