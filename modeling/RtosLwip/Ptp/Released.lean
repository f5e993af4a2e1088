import Mathlib.Data.List.Perm.Subperm
import Mathlib.Data.List.Nodup
import RtosLwip.Ptp.NetPath

/-!
# What a Shutdown Gives Back

`_doInit` closes the network before it opens it, so that a round through the
faulty state starts from nothing. Whether `ptpNetShutdown` gives back all that
earlier rounds have acquired depends on what it finds.

It goes by the pointers. An exit of `ptpNetInit` behind the first `udp_new`
removes what was created, but leaves the pointers as they are, and the next
shutdown removes the same pcbs again. It leaves one group, the default one, and
nobody ever leaves the other: after one successful start the membership in the
peer group stays for good. And it leaves the queues as they are, so a pbuf that
waits there is lost when `ptpNetInit` sets the queues back.

These three are all there is. As long as none of them is the case when a
shutdown comes, every pcb that was allocated is there or was removed once, and
every pbuf that a callback got was freed once or waits: `Sound`.

## Main definitions

* `Clear`: Nothing that `ptpNetInit` acquires is held.
* `Released`: What is asked of a run.
* `Ready`, `ShutsReady`: What a shutdown has to find.
* `Sound`: The ledgers of the pcbs and of the pbufs.

## Theorems

* `ptpNetInit_cases`: The ways through `ptpNetInit`.
* `ptpNetShutdown_clear_iff`: A shutdown gives everything back exactly if it was ready.
* `sound_step`: The ledgers are kept.
* `released_iff`: A run is as it should be exactly if its shutdowns are ready.
* `not_clear_of_joined`: The peer group is never left.
-/

namespace RtosLwip

namespace PtpNet

open Ptp (Channel)

/-- The pcbs that the pointers name. -/
def NetPath.pointers (n : NetPath) : List UdpPcb := n.eventPcb.toList ++ n.generalPcb.toList

/-- The pbufs that wait in the queues. -/
def NetPath.waiting (n : NetPath) : List Pbuf := n.eventQ.contents ++ n.generalQ.contents

/-- Nothing of what `ptpNetInit` acquires is held: no pcb, no membership, no pbuf. -/
def Clear (d : Daemon) : Prop :=
  d.stack.pcbs = [] ∧ d.stack.uses defaultPtpDomainAddress = 0 ∧
    d.stack.uses peerPtpDomainAddress = 0 ∧ d.netPath.waiting = []

/-- Every pbuf that a callback got was freed once, or waits in a queue and was not. -/
def FreedOnce (d : Daemon) : Prop :=
  ∀ n < d.stack.received, d.stack.freed.count n + (d.netPath.waiting.map (·.id)).count n = 1

/-- The event is a call of `ptpNetShutdown`. -/
def Shuts (d : Daemon) (e : Event) : Prop := e = .shutdown ∧ d.phase = .running

/-- Behind every `ptpNetShutdown` of the run nothing is held, and all along the run no pcb is
    removed twice and every pbuf is freed once. -/
def Released (evs : List Event) : Prop :=
  (∀ past e, past ++ [e] <+: evs → Shuts (run step .start past) e →
    Clear (run step .start (past ++ [e]))) ∧
  ∀ past, past <+: evs →
    (run step .start past).stack.removed.Nodup ∧ FreedOnce (run step .start past)

/-- What a shutdown can give back: the pointers name the pcbs that are there, nothing waits in
    the queues, and the peer group was not joined. -/
def Ready (d : Daemon) : Prop :=
  d.stack.pcbs = d.netPath.pointers ∧ d.stack.uses peerPtpDomainAddress = 0 ∧
    d.netPath.waiting = []

/-- A shutdown only comes when the daemon is ready for it. -/
def ShutsReady (d : Daemon) (e : Event) : Prop := Shuts d e → Ready d

/-! ### The pbufs -/

/-- The pbufs that were freed, and those that wait. -/
def pbufs (d : Daemon) : List Nat := d.stack.freed ++ d.netPath.waiting.map (·.id)

/-- The daemon without its queues and what came out of them. -/
def withoutQueues (d : Daemon) : Daemon :=
  { d with
    netPath := { d.netPath with eventQ := .start, generalQ := .start }
    stack := { d.stack with received := 0, freed := [] } }

theorem netRecv_spec (queue : BufQueue) (s : Stack) :
    (netRecv queue s).2.1.contents = queue.contents.tail ∧
      (netRecv queue s).2.2 =
        { s with freed := s.freed ++ queue.contents.head?.toList.map (·.id) } := by
  rcases Ring.get_spec queue with ⟨hfirst, hrest⟩
  rcases hget : queue.get with ⟨_ | p, queue'⟩
  · rw [hget] at hfirst hrest
    rw [← hrest, ← hfirst, netRecv, netQGet, hget]
    exact ⟨rfl, by rw [Option.toList_none, List.map_nil, List.append_nil]⟩
  · rw [hget] at hfirst hrest
    rw [← hrest, ← hfirst, netRecv, netQGet, hget]
    -- whatever its length, the pbuf is freed
    dsimp only
    split
    · exact ⟨rfl, rfl⟩
    · split
      · exact ⟨rfl, rfl⟩
      · exact ⟨rfl, rfl⟩

theorem foldl_pbufFree (l : List Pbuf) (s : Stack) :
    l.foldl (fun s p => pbufFree p s) s = { s with freed := s.freed ++ l.map (·.id) } := by
  induction l generalizing s with
  | nil => rw [List.foldl_nil, List.map_nil, List.append_nil]
  | cons p rest ih =>
      rw [List.foldl_cons, ih, pbufFree, List.map_cons]
      simp only [List.append_assoc, List.cons_append, List.nil_append]

theorem netQEmpty_spec (queue : BufQueue) (s : Stack) :
    (netQEmpty queue s).1.contents = [] ∧
      (netQEmpty queue s).2 = { s with freed := s.freed ++ queue.contents.map (·.id) } := by
  rcases Ring.drain_spec queue with ⟨hall, hnone⟩
  refine ⟨hnone, ?_⟩
  rw [netQEmpty, foldl_pbufFree, hall]

/-- What waits once a queue was replaced. -/
theorem waiting_setQueue (n : NetPath) (ch : Channel) (queue : BufQueue) :
    ∃ before after, n.waiting = before ++ (n.queue ch).contents ++ after ∧
      (n.setQueue ch queue).waiting = before ++ queue.contents ++ after := by
  cases ch with
  | event => exact ⟨[], n.generalQ.contents, rfl, rfl⟩
  | general =>
      refine ⟨n.eventQ.contents, [], ?_, ?_⟩
      · rw [List.append_nil]
        rfl
      · rw [List.append_nil]
        rfl

/-- A pbuf that is taken out of a queue is freed, so none of them goes astray. -/
theorem pbufs_ptpNetRecv (ch : Channel) (d : Daemon) :
    (pbufs (ptpNetRecv ch d)).Perm (pbufs d) := by
  rcases netRecv_spec (d.netPath.queue ch) d.stack with ⟨hrest, hfreed⟩
  rcases waiting_setQueue d.netPath ch (netRecv (d.netPath.queue ch) d.stack).2.1 with
    ⟨before, after, hwaiting, hwaiting'⟩
  have hpbufs : pbufs (ptpNetRecv ch d) =
      (netRecv (d.netPath.queue ch) d.stack).2.2.freed ++
        (d.netPath.setQueue ch (netRecv (d.netPath.queue ch) d.stack).2.1).waiting.map (·.id) :=
    rfl
  rw [hpbufs, pbufs, hwaiting, hwaiting', hrest, hfreed]
  cases (d.netPath.queue ch).contents with
  | nil =>
      rw [List.tail_nil, List.head?_nil, Option.toList_none, List.map_nil, List.append_nil]
  | cons p rest =>
      simp only [List.tail_cons, List.head?_cons, Option.toList_some, List.map_append,
        List.map_cons, List.map_nil, List.append_assoc, List.cons_append, List.nil_append]
      exact List.Perm.append_left _ List.perm_middle.symm

theorem withoutQueues_ptpNetRecv (ch : Channel) (d : Daemon) :
    withoutQueues (ptpNetRecv ch d) = withoutQueues d := by
  rcases netRecv_spec (d.netPath.queue ch) d.stack with ⟨-, hfreed⟩
  rw [ptpNetRecv, hfreed]
  cases ch <;> rfl

theorem received_ptpNetRecv (ch : Channel) (d : Daemon) :
    (ptpNetRecv ch d).stack.received = d.stack.received := by
  rcases netRecv_spec (d.netPath.queue ch) d.stack with ⟨-, hfreed⟩
  rw [ptpNetRecv, hfreed]

/-- Emptying a queue frees what was in it. -/
theorem pbufs_ptpNetEmptyEventQ (d : Daemon) : pbufs (ptpNetEmptyEventQ d) = pbufs d := by
  rcases netQEmpty_spec d.netPath.eventQ d.stack with ⟨hnone, hfreed⟩
  rw [pbufs, pbufs, NetPath.waiting, NetPath.waiting, ptpNetEmptyEventQ, hfreed]
  simp only [hnone, List.nil_append, List.map_append, List.append_assoc]

theorem withoutQueues_ptpNetEmptyEventQ (d : Daemon) :
    withoutQueues (ptpNetEmptyEventQ d) = withoutQueues d := by
  rw [ptpNetEmptyEventQ, (netQEmpty_spec d.netPath.eventQ d.stack).2]
  rfl

theorem received_ptpNetEmptyEventQ (d : Daemon) :
    (ptpNetEmptyEventQ d).stack.received = d.stack.received := by
  rw [ptpNetEmptyEventQ, (netQEmpty_spec d.netPath.eventQ d.stack).2]

/-- What a callback gets is freed or waits. -/
theorem pbufs_udpRecvCallback (ch : Channel) (p : Pbuf) (d : Daemon) :
    (pbufs (udpRecvCallback ch p d)).Perm (pbufs d ++ [p.id]) := by
  rcases Ring.put_spec (d.netPath.queue ch) p with ⟨-, hroom, hcontents⟩ | ⟨-, hfull⟩
  · rcases hput : Ring.put (d.netPath.queue ch) p with ⟨room, queue⟩
    rw [hput] at hroom hcontents
    dsimp only at hroom hcontents
    subst hroom
    rcases waiting_setQueue d.netPath ch queue with ⟨before, after, hwaiting, hwaiting'⟩
    have hpbufs : pbufs (udpRecvCallback ch p d) =
        d.stack.freed ++ (d.netPath.setQueue ch queue).waiting.map (·.id) := by
      rw [udpRecvCallback, netQPut, hput]
      rfl
    rw [hpbufs, pbufs, hwaiting, hwaiting', hcontents]
    simp only [List.map_append, List.map_cons, List.map_nil, List.append_assoc]
    refine List.Perm.append_left _ (List.Perm.append_left _ (List.Perm.append_left _ ?_))
    exact List.perm_append_comm
  · rw [udpRecvCallback, netQPut, hfull]
    simp only [pbufs, pbufFree, List.append_assoc]
    exact List.Perm.append_left _ List.perm_append_comm

theorem withoutQueues_udpRecvCallback (ch : Channel) (p : Pbuf) (d : Daemon) :
    withoutQueues (udpRecvCallback ch p d) = withoutQueues d ∧
      (udpRecvCallback ch p d).stack.received = d.stack.received := by
  rw [udpRecvCallback]
  split
  · cases ch <;> exact ⟨rfl, rfl⟩
  · exact ⟨rfl, rfl⟩

/-! ### The sockets -/

/-- The pcbs and memberships. Each pcb that was allocated is there or was removed, and not
    twice. The pointers name the pcbs that are there, or else they were left behind by a
    `ptpNetInit` that gave up. Packets only go to pcbs that are there. The default group is
    joined once at most, and then its address is known. -/
structure Sockets (d : Daemon) : Prop where
  ledger : (d.stack.pcbs ++ d.stack.removed).Perm (List.range d.stack.allocated)
  tied : d.stack.pcbs = d.netPath.pointers ∨
    (d.stack.pcbs = [] ∧ ∃ pcb ∈ d.netPath.pointers, pcb ∈ d.stack.removed)
  active : ∀ x ∈ d.stack.udpPcbs, x.1 ∈ d.stack.pcbs
  addr : d.netPath.multicastAddr = 0 ∨ d.netPath.multicastAddr = defaultPtpDomainAddress
  uses : d.stack.uses defaultPtpDomainAddress ≤ if d.netPath.multicastAddr = 0 then 0 else 1

/-- The queues have no part in it. -/
theorem Sockets.congr {d d' : Daemon} (h : Sockets d) (hsame : withoutQueues d' = withoutQueues d) :
    Sockets d' := by
  have hpcbs : d'.stack.pcbs = d.stack.pcbs := congrArg (·.stack.pcbs) hsame
  have hremoved : d'.stack.removed = d.stack.removed := congrArg (·.stack.removed) hsame
  have hallocated : d'.stack.allocated = d.stack.allocated := congrArg (·.stack.allocated) hsame
  have hactive : d'.stack.udpPcbs = d.stack.udpPcbs := congrArg (·.stack.udpPcbs) hsame
  have huses : d'.stack.uses = d.stack.uses := congrArg (·.stack.uses) hsame
  have haddr : d'.netPath.multicastAddr = d.netPath.multicastAddr :=
    congrArg (·.netPath.multicastAddr) hsame
  have hpointers : d'.netPath.pointers = d.netPath.pointers :=
    congrArg (·.netPath.pointers) hsame
  refine ⟨?_, ?_, ?_, ?_, ?_⟩
  · rw [hpcbs, hremoved, hallocated]
    exact h.ledger
  · rw [hpcbs, hpointers, hremoved]
    exact h.tied
  · rw [hactive, hpcbs]
    exact h.active
  · rw [haddr]
    exact h.addr
  · rw [haddr, huses]
    exact h.uses

/-- The uses of the groups behind a shutdown. -/
def usesLeft (d : Daemon) : UInt32 → Nat :=
  if d.netPath.multicastAddr ≠ 0 then (igmpLeavegroup d.netPath.multicastAddr d.stack).uses
  else d.stack.uses

/-- One pcb after the other is removed. -/
theorem foldl_udpRemove (l : List UdpPcb) (s : Stack) :
    l.foldl (fun s pcb => udpRemove pcb s) s =
      { s with
        pcbs := s.pcbs.filter (· ∉ l)
        removed := s.removed ++ l
        udpPcbs := s.udpPcbs.filter (·.1 ∉ l) } := by
  induction l generalizing s with
  | nil => simp
  | cons pcb rest ih =>
      rw [List.foldl_cons, ih, udpRemove]
      simp [List.filter_filter, Bool.and_comm]

/-- A shutdown removes the pcbs that the pointers name, whether or not they are there. -/
theorem ptpNetShutdown_stack (d : Daemon) : (ptpNetShutdown d).stack =
    { d.stack with
      pcbs := d.stack.pcbs.filter (· ∉ d.netPath.pointers)
      removed := d.stack.removed ++ d.netPath.pointers
      udpPcbs := d.stack.udpPcbs.filter (·.1 ∉ d.netPath.pointers)
      uses := usesLeft d } := by
  have hleft : (if d.netPath.multicastAddr ≠ 0 then
      igmpLeavegroup d.netPath.multicastAddr d.stack else d.stack) =
      { d.stack with uses := usesLeft d } := by
    unfold usesLeft
    split <;> rfl
  have hpcbs : (ptpNetShutdown d).stack = d.netPath.pointers.foldl
      (fun s pcb => udpRemove pcb s) { d.stack with uses := usesLeft d } := by
    rw [← hleft]
    unfold ptpNetShutdown NetPath.pointers
    -- each of the two pointers may be NULL
    cases d.netPath.eventPcb with
    | none => cases d.netPath.generalPcb <;> rfl
    | some event => cases d.netPath.generalPcb <;> rfl
  rw [hpcbs, foldl_udpRemove]

theorem peer_ne_default : peerPtpDomainAddress ≠ defaultPtpDomainAddress := by decide

/-- The one group that a shutdown leaves is not that of the peers. -/
theorem usesLeft_peer {d : Daemon} (h : d.netPath.multicastAddr = 0 ∨
    d.netPath.multicastAddr = defaultPtpDomainAddress) :
    usesLeft d peerPtpDomainAddress = d.stack.uses peerPtpDomainAddress := by
  unfold usesLeft
  rcases h with haddr | haddr
  · rw [if_neg (not_not.mpr haddr)]
  · have hne : d.netPath.multicastAddr ≠ 0 := by
      rw [haddr]
      decide
    rw [if_pos hne, haddr, igmpLeavegroup]
    dsimp only
    rw [Function.update_of_ne peer_ne_default]

/-- The default group is left whenever it was joined. -/
theorem usesLeft_default {d : Daemon} (h : Sockets d) :
    usesLeft d defaultPtpDomainAddress = 0 := by
  have huses := h.uses
  unfold usesLeft
  rcases h.addr with haddr | haddr
  · rw [if_pos haddr] at huses
    rw [if_neg (not_not.mpr haddr)]
    omega
  · have hne : d.netPath.multicastAddr ≠ 0 := by
      rw [haddr]
      decide
    rw [if_neg hne] at huses
    rw [if_pos hne, haddr, igmpLeavegroup]
    dsimp only
    rw [Function.update_self]
    omega

/-- A shutdown finds everything exactly if it was ready, and otherwise something is left or a
    pcb is removed for the second time. -/
theorem ptpNetShutdown_clear_iff {d : Daemon} (h : Sockets d) :
    (Clear (ptpNetShutdown d) ∧ (ptpNetShutdown d).stack.removed.Nodup) ↔ Ready d := by
  rw [Clear, Ready, ptpNetShutdown_stack]
  dsimp only
  rw [usesLeft_default h, usesLeft_peer h.addr]
  have hwaiting : (ptpNetShutdown d).netPath.waiting = d.netPath.waiting := rfl
  rw [hwaiting]
  constructor
  · rintro ⟨⟨-, -, hpeer, hnone⟩, hnodup⟩
    refine ⟨?_, hpeer, hnone⟩
    rcases h.tied with htied | ⟨-, pcb, hnamed, hgone⟩
    · exact htied
    · -- a pointer that was left behind names a pcb that is gone
      exact absurd hnamed (List.disjoint_of_nodup_append hnodup hgone)
  · rintro ⟨htied, hpeer, hnone⟩
    have hledger := h.ledger
    rw [htied] at hledger
    have hnodup : (d.stack.removed ++ d.netPath.pointers).Nodup :=
      (List.perm_append_comm.trans hledger).nodup_iff.mpr List.nodup_range
    refine ⟨⟨?_, rfl, hpeer, hnone⟩, hnodup⟩
    rw [htied, List.filter_eq_nil_iff]
    intro pcb hpcb
    rw [decide_eq_true_eq]
    exact not_not.mpr hpcb

/-- Behind a shutdown no pointer names a pcb, and no address is known. -/
structure Shut (d : Daemon) : Prop where
  clear : Clear d
  event : d.netPath.eventPcb = none
  general : d.netPath.generalPcb = none
  addr : d.netPath.multicastAddr = 0

theorem sockets_ptpNetShutdown {d : Daemon} (h : Sockets d) (hready : Ready d) :
    Sockets (ptpNetShutdown d) ∧ Shut (ptpNetShutdown d) := by
  rcases (ptpNetShutdown_clear_iff h).mpr hready with ⟨hclear, -⟩
  refine ⟨⟨?_, .inl hclear.1, ?_, .inl rfl, ?_⟩, ⟨hclear, rfl, rfl, rfl⟩⟩
  · rw [hclear.1, ptpNetShutdown_stack, List.nil_append]
    have hledger := h.ledger
    rw [hready.1] at hledger
    exact List.perm_append_comm.trans hledger
  · intro x hx
    rw [ptpNetShutdown_stack] at hx ⊢
    rw [List.mem_filter, decide_eq_true_eq] at hx
    refine List.mem_filter.mpr ⟨h.active x hx.1, ?_⟩
    rw [decide_eq_true_eq]
    exact hx.2
  · rw [ptpNetShutdown_stack]
    dsimp only
    rw [usesLeft_default h]
    exact Nat.zero_le _

/-! ### Opening -/

/-- The stack once both pcbs were allocated. -/
def withPcbs (s : Stack) : Stack :=
  { s with
    allocated := s.allocated + 2
    pcbs := s.pcbs ++ [s.allocated, s.allocated + 1] }

/-- The pointers once both pcbs were allocated, with the queues empty. -/
def NetPath.withPcbs (n : NetPath) (s : Stack) : NetPath :=
  { n with
    unicastAddr := 0
    eventPcb := some s.allocated
    generalPcb := some (s.allocated + 1)
    eventQ := netQInit n.eventQ
    generalQ := netQInit n.generalQ }

/-- `ptpNetInit` gets as far as a pcb. -/
def Creates (env : InitEnv) : Prop := env.interfaceAddr ≠ 0 ∧ env.newEvent = true

/-- The ways through `ptpNetInit`: no pcb is created; one is created, and removed again;
    both are created, and removed again; or everything is opened. -/
theorem ptpNetInit_cases (env : InitEnv) (d : Daemon) :
    (¬ Creates env ∧ ∃ eventPcb, (eventPcb = d.netPath.eventPcb ∨ eventPcb = none) ∧
      ptpNetInit env d = (false, { d with netPath := { d.netPath with
        eventPcb := eventPcb
        eventQ := netQInit d.netPath.eventQ
        generalQ := netQInit d.netPath.generalQ } })) ∨
    (Creates env ∧ env.newGeneral = false ∧
      ptpNetInit env d = (false, { d with
        netPath := { d.netPath with
          eventPcb := some d.stack.allocated
          generalPcb := none
          eventQ := netQInit d.netPath.eventQ
          generalQ := netQInit d.netPath.generalQ }
        stack := udpRemove d.stack.allocated (udpNew true d.stack).2 })) ∨
    (Creates env ∧ env.newGeneral = true ∧ (env.atonDefault = false ∨ env.atonPeer = false) ∧
      ∃ addr s, ((addr = d.netPath.multicastAddr ∧ s = withPcbs d.stack) ∨
        (addr = defaultPtpDomainAddress ∧
          s = igmpJoingroup defaultPtpDomainAddress env.joinDefault (withPcbs d.stack))) ∧
        ptpNetInit env d = (false, { d with
          netPath := { d.netPath.withPcbs d.stack with multicastAddr := addr }
          stack := udpRemove d.stack.allocated (udpRemove (d.stack.allocated + 1) s) })) ∨
    (Creates env ∧ env.newGeneral = true ∧ env.atonDefault = true ∧ env.atonPeer = true ∧
      ptpNetInit env d = (true, { d with
        netPath := { d.netPath.withPcbs d.stack with
          multicastAddr := defaultPtpDomainAddress
          peerMulticastAddr := peerPtpDomainAddress }
        stack := udpBind (d.stack.allocated + 1) .general env.bindGeneral
          (udpBind d.stack.allocated .event env.bindEvent
            (igmpJoingroup peerPtpDomainAddress env.joinPeer
              (igmpJoingroup defaultPtpDomainAddress env.joinDefault (withPcbs d.stack)))) })) := by
  have hboth : (udpNew true (udpNew true d.stack).2).2 = withPcbs d.stack := by
    simp only [udpNew, withPcbs, if_true, List.append_assoc, List.cons_append, List.nil_append]
  by_cases hiface : env.interfaceAddr = 0
  · exact .inl ⟨fun h => h.1 hiface, _, .inl rfl, by rw [ptpNetInit, if_pos hiface]⟩
  cases hevent : env.newEvent with
  | false =>
      refine .inl ⟨fun h => ?_, none, .inr rfl, ?_⟩
      · exact absurd (hevent.symm.trans h.2) nofun
      · rw [ptpNetInit, if_neg hiface, hevent]
        rfl
  | true =>
      have hcreates : Creates env := ⟨hiface, hevent⟩
      cases hgeneral : env.newGeneral with
      | false =>
          refine .inr (.inl ⟨hcreates, rfl, ?_⟩)
          rw [ptpNetInit, if_neg hiface, hevent, hgeneral]
          rfl
      | true =>
          refine .inr (.inr ?_)
          cases hdefault : env.atonDefault with
          | false =>
              refine .inl ⟨hcreates, rfl, .inl rfl, _, _, .inl ⟨rfl, rfl⟩, ?_⟩
              rw [ptpNetInit, if_neg hiface, hevent, hgeneral, hdefault, ← hboth]
              rfl
          | true =>
              cases hpeer : env.atonPeer with
              | false =>
                  refine .inl ⟨hcreates, rfl, .inr rfl, _, _, .inr ⟨rfl, rfl⟩, ?_⟩
                  rw [ptpNetInit, if_neg hiface, hevent, hgeneral, hdefault, hpeer, ← hboth]
                  rfl
              | true =>
                  refine .inr ⟨hcreates, rfl, rfl, rfl, ?_⟩
                  rw [ptpNetInit, if_neg hiface, hevent, hgeneral, hdefault, hpeer, ← hboth]
                  rfl
section

variable {d d' : Daemon} {made : List UdpPcb}

/-- The pcbs that were created are removed again, but the pointers still name them. -/
theorem Sockets.gaveUp (h : Sockets d) (hnone : d.stack.pcbs = [])
    (hmade : List.range d'.stack.allocated = List.range d.stack.allocated ++ made)
    (hne : made ≠ []) (hpcbs : d'.stack.pcbs = [])
    (hremoved : d'.stack.removed.Perm (d.stack.removed ++ made))
    (hpointers : d'.netPath.pointers = made) (hactive : d'.stack.udpPcbs = [])
    (haddr : d'.netPath.multicastAddr = 0 ∨ d'.netPath.multicastAddr = defaultPtpDomainAddress)
    (huses : d'.stack.uses defaultPtpDomainAddress ≤
      if d'.netPath.multicastAddr = 0 then 0 else 1) : Sockets d' := by
  have hledger := h.ledger
  rw [hnone, List.nil_append] at hledger
  refine ⟨?_, .inr ⟨hpcbs, ?_⟩, ?_, haddr, huses⟩
  · rw [hpcbs, List.nil_append, hmade]
    exact hremoved.trans (hledger.append_right made)
  · rcases List.exists_mem_of_ne_nil made hne with ⟨pcb, hpcb⟩
    rw [hpointers]
    exact ⟨pcb, hpcb, hremoved.mem_iff.mpr (List.mem_append_right _ hpcb)⟩
  · rw [hactive]
    nofun

/-- The pcbs that were created are there, and the pointers name them. -/
theorem Sockets.opened (h : Sockets d) (hnone : d.stack.pcbs = [])
    (hmade : List.range d'.stack.allocated = List.range d.stack.allocated ++ made)
    (hpcbs : d'.stack.pcbs = made) (hremoved : d'.stack.removed = d.stack.removed)
    (hpointers : d'.netPath.pointers = made) (hactive : ∀ x ∈ d'.stack.udpPcbs, x.1 ∈ made)
    (haddr : d'.netPath.multicastAddr = 0 ∨ d'.netPath.multicastAddr = defaultPtpDomainAddress)
    (huses : d'.stack.uses defaultPtpDomainAddress ≤
      if d'.netPath.multicastAddr = 0 then 0 else 1) : Sockets d' := by
  have hledger := h.ledger
  rw [hnone, List.nil_append] at hledger
  refine ⟨?_, .inl (hpcbs.trans hpointers.symm), ?_, haddr, huses⟩
  · rw [hpcbs, hremoved, hmade]
    exact List.perm_append_comm.trans (hledger.append_right made)
  · rw [hpcbs]
    exact hactive

end

section

variable (group : UInt32) (pcb : UdpPcb) (ch : Channel) (ok : Bool) (s : Stack)

/-- A join changes nothing but the uses. -/
theorem igmpJoingroup_eq : ∃ uses, igmpJoingroup group ok s = { s with uses := uses } ∧
    s.uses group ≤ uses group ∧ uses group ≤ s.uses group + 1 ∧
      ∀ other, other ≠ group → uses other = s.uses other := by
  unfold igmpJoingroup
  split
  · have hself : Function.update s.uses group (s.uses group + 1) group = s.uses group + 1 :=
      Function.update_self _ _ _
    refine ⟨_, rfl, ?_, Nat.le_of_eq hself, fun other hne => Function.update_of_ne hne _ _⟩
    rw [hself]
    exact Nat.le_succ _
  · exact ⟨s.uses, rfl, Nat.le_refl _, Nat.le_succ _, fun _ _ => rfl⟩

/-- A binding changes nothing but the list of the pcbs that packets go to. -/
theorem udpBind_eq : ∃ active, udpBind pcb ch ok s = { s with udpPcbs := active } ∧
    ∀ x ∈ active, x.1 = pcb ∨ x ∈ s.udpPcbs := by
  unfold udpBind
  split
  · refine ⟨_, rfl, fun x hx => ?_⟩
    rcases List.mem_cons.mp hx with rfl | hx
    · exact .inl rfl
    · exact .inr hx
  · exact ⟨s.udpPcbs, rfl, fun x hx => .inr hx⟩

end

theorem range_add_two (n : Nat) : List.range (n + 2) = List.range n ++ [n, n + 1] := by
  rw [List.range_succ, List.range_succ, List.append_assoc]
  rfl

/-- Whatever becomes of it, `ptpNetInit` accounts for the pcbs that it creates. -/
theorem sockets_ptpNetInit (env : InitEnv) {d : Daemon} (h : Sockets d) (hshut : Shut d) :
    Sockets (ptpNetInit env d).2 := by
  rcases hshut with ⟨⟨hpcbs, hdefault, -, -⟩, hevent, hgeneral, haddr⟩
  -- A daemon that is shut has no pcb, so none is active.
  have hactive : d.stack.udpPcbs = [] := by
    refine List.eq_nil_iff_forall_not_mem.mpr fun x hx => ?_
    have hmem := h.active x hx
    rw [hpcbs] at hmem
    exact absurd hmem List.not_mem_nil
  have hlist := range_add_two d.stack.allocated
  have hne : defaultPtpDomainAddress ≠ 0 := by decide
  rcases igmpJoingroup_eq defaultPtpDomainAddress env.joinDefault (withPcbs d.stack) with
    ⟨uses, hjoin, -, huse, -⟩
  have huse' : uses defaultPtpDomainAddress ≤ 1 :=
    Nat.le_trans huse (Nat.succ_le_succ (Nat.le_of_eq hdefault))
  -- It fails at the first pcb, at the second, at a group or an address, or not at all.
  rcases ptpNetInit_cases env d with ⟨-, eventPcb, hptr, heq⟩ | ⟨-, -, heq⟩ |
    ⟨-, -, -, addr, s, hs, heq⟩ | ⟨-, -, -, -, heq⟩
  · -- the pointers are as they were, or NULL as well
    have hnull : eventPcb = none := by
      rcases hptr with rfl | rfl
      · exact hevent
      · rfl
    rw [heq, hnull]
    refine ⟨h.ledger, .inl ?_, h.active, h.addr, h.uses⟩
    simp only [hpcbs, NetPath.pointers, hgeneral, Option.toList_none, List.append_nil]
  · -- the first pcb is removed again
    rw [heq]
    have hmade : [d.stack.allocated] ≠ [] := nofun
    refine h.gaveUp hpcbs List.range_succ hmade ?_ (.refl _) rfl ?_ h.addr ?_
    · simp [udpRemove, udpNew, hpcbs]
    · simp [udpRemove, udpNew, hactive]
    · rw [if_pos haddr]
      exact Nat.le_of_eq hdefault
  · -- the two pcbs are removed in the other order
    have hsame : s.pcbs = [d.stack.allocated, d.stack.allocated + 1] ∧
        s.removed = d.stack.removed ∧ s.allocated = d.stack.allocated + 2 ∧ s.udpPcbs = [] := by
      rcases hs with ⟨-, rfl⟩ | ⟨-, rfl⟩
      · exact ⟨by rw [withPcbs, hpcbs]; rfl, rfl, rfl, hactive⟩
      · rw [hjoin]
        exact ⟨by rw [withPcbs, hpcbs]; rfl, rfl, rfl, hactive⟩
    rcases hsame with ⟨hs1, hs2, hs3, hs4⟩
    rw [heq]
    have hmade : [d.stack.allocated, d.stack.allocated + 1] ≠ [] := nofun
    refine h.gaveUp hpcbs ?_ hmade ?_ ?_ rfl ?_ ?_ ?_
    · dsimp only [udpRemove]
      rw [hs3, hlist]
    · simp [udpRemove, hs1]
    · simp only [udpRemove, hs2, List.append_assoc]
      exact List.Perm.append_left _ (List.Perm.swap _ _ _)
    · simp [udpRemove, hs4]
    · rcases hs with ⟨rfl, -⟩ | ⟨rfl, -⟩
      · exact .inl haddr
      · exact .inr rfl
    · rcases hs with ⟨rfl, rfl⟩ | ⟨rfl, rfl⟩
      · rw [haddr]
        exact Nat.le_of_eq hdefault
      · rw [hjoin]
        dsimp only [udpRemove]
        rw [if_neg hne]
        exact huse'
  · -- both pcbs stay, and are bound
    rcases igmpJoingroup_eq peerPtpDomainAddress env.joinPeer { withPcbs d.stack with uses := uses }
      with ⟨uses', hjoin', -, -, hother⟩
    rcases udpBind_eq d.stack.allocated .event env.bindEvent { withPcbs d.stack with uses := uses' }
      with ⟨active, hbind, hmem⟩
    rcases udpBind_eq (d.stack.allocated + 1) .general env.bindGeneral
      { withPcbs d.stack with uses := uses', udpPcbs := active } with ⟨active', hbind', hmem'⟩
    rw [heq, hjoin, hjoin', hbind, hbind']
    refine h.opened hpcbs hlist ?_ rfl rfl ?_ (.inr rfl) ?_
    · dsimp only [withPcbs]
      rw [hpcbs, List.nil_append]
    · intro x hx
      rcases hmem' x hx with hx | hx
      · exact List.mem_cons_of_mem _ (List.mem_singleton.mpr hx)
      · rcases hmem x hx with hx | hx
        · rw [hx]
          exact List.mem_cons_self
        · rw [withPcbs, hactive] at hx
          exact absurd hx List.not_mem_nil
    · rw [if_neg hne]
      dsimp only
      rw [hother _ peer_ne_default.symm]
      exact huse'

/-- The queues start out empty, and no pbuf is touched. -/
theorem queues_ptpNetInit (env : InitEnv) (d : Daemon) :
    (ptpNetInit env d).2.netPath.waiting = [] ∧
      (ptpNetInit env d).2.stack.freed = d.stack.freed ∧
      (ptpNetInit env d).2.stack.received = d.stack.received := by
  have hempty : ∀ n : NetPath, n.eventQ = netQInit d.netPath.eventQ →
      n.generalQ = netQInit d.netPath.generalQ → n.waiting = [] := by
    intro n hevent hgeneral
    rw [NetPath.waiting, hevent, hgeneral, netQInit, netQInit, Ring.contents_clear,
      Ring.contents_clear, List.append_nil]
  rcases igmpJoingroup_eq defaultPtpDomainAddress env.joinDefault (withPcbs d.stack) with
    ⟨uses, hjoin, -⟩
  rcases ptpNetInit_cases env d with ⟨-, eventPcb, -, heq⟩ | ⟨-, -, heq⟩ |
    ⟨-, -, -, addr, s, hs, heq⟩ | ⟨-, -, -, -, heq⟩
  · rw [heq]
    exact ⟨hempty _ rfl rfl, rfl, rfl⟩
  · rw [heq]
    exact ⟨hempty _ rfl rfl, rfl, rfl⟩
  · rw [heq]
    refine ⟨hempty _ rfl rfl, ?_⟩
    rcases hs with ⟨-, rfl⟩ | ⟨-, rfl⟩
    · exact ⟨rfl, rfl⟩
    · rw [hjoin]
      exact ⟨rfl, rfl⟩
  · rcases igmpJoingroup_eq peerPtpDomainAddress env.joinPeer { withPcbs d.stack with uses := uses }
      with ⟨uses', hjoin', -⟩
    rcases udpBind_eq d.stack.allocated .event env.bindEvent { withPcbs d.stack with uses := uses' }
      with ⟨active, hbind, -⟩
    rcases udpBind_eq (d.stack.allocated + 1) .general env.bindGeneral
      { withPcbs d.stack with uses := uses', udpPcbs := active } with ⟨active', hbind', -⟩
    rw [heq, hjoin, hjoin', hbind, hbind']
    exact ⟨hempty _ rfl rfl, rfl, rfl⟩

/-! ### Runs -/

/-- What holds as long as every shutdown comes when the daemon is ready for it. -/
structure Sound (d : Daemon) : Prop where
  sockets : Sockets d
  pbufs : (pbufs d).Perm (List.range d.stack.received)
  shut : d.phase = .shut → Shut d

theorem sound_start : Sound .start where
  sockets := ⟨.refl _, .inl rfl, nofun, .inl rfl, Nat.le_refl _⟩
  pbufs := .refl _
  shut := nofun

/-- The phase only matters to what is held when the daemon is between the two calls. -/
theorem Sound.setPhase {d : Daemon} (hsockets : Sockets d)
    (hpbufs : (PtpNet.pbufs d).Perm (List.range d.stack.received)) {phase : Phase}
    (hphase : phase ≠ .shut) : Sound { d with phase := phase } where
  sockets := ⟨hsockets.ledger, hsockets.tied, hsockets.active, hsockets.addr, hsockets.uses⟩
  pbufs := hpbufs
  shut := fun h => absurd h hphase

theorem sound_arrive (ch : Channel) (totLen : Nat) {d : Daemon} (h : Sound d) :
    Sound (arrive ch totLen d) := by
  unfold arrive
  split
  case isFalse => exact h
  case isTrue hbound =>
    rcases hbound with ⟨x, hx, -⟩
    have hsame := withoutQueues_udpRecvCallback ch ⟨d.stack.received, totLen⟩
      { d with stack.received := d.stack.received + 1 }
    refine ⟨h.sockets.congr hsame.1, ?_, fun hphase => ?_⟩
    · -- the new pbuf has the next number
      rw [hsame.2, List.range_succ]
      refine (pbufs_udpRecvCallback ch _ _).trans ?_
      exact h.pbufs.append_right [d.stack.received]
    · -- while the daemon is between the two calls, there is no pcb to deliver to
      have hphase' : d.phase = .shut :=
        (congrArg (·.phase) hsame.1.symm : d.phase = _).trans hphase
      have hmem := h.sockets.active x hx
      rw [(h.shut hphase').clear.1] at hmem
      exact absurd hmem List.not_mem_nil

/-- What a step can do: something happens where the daemon is, or nothing does. -/
theorem step_cases (d : Daemon) (e : Event) :
    (∃ ch totLen, step d e = arrive ch totLen d) ∨
    (d.phase = .running ∧ ∃ ch, step d e = ptpNetRecv ch d) ∨
    (Shuts d e ∧ step d e = { ptpNetShutdown d with phase := .shut }) ∨
    (d.phase = .shut ∧ ∃ env, step d e = { (ptpNetInit env d).2 with
      phase := if (ptpNetInit env d).1 then .opened else .running }) ∨
    (d.phase = .opened ∧ step d e = { ptpNetEmptyEventQ d with phase := .running }) ∨
    step d e = d := by
  unfold step
  split
  case h_1 ch totLen => exact .inl ⟨ch, totLen, rfl⟩
  case h_2 ch hphase => exact .inr (.inl ⟨hphase, ch, rfl⟩)
  case h_3 hphase => exact .inr (.inr (.inl ⟨⟨rfl, hphase⟩, rfl⟩))
  case h_4 env hphase => exact .inr (.inr (.inr (.inl ⟨hphase, env, rfl⟩)))
  case h_5 hphase => exact .inr (.inr (.inr (.inr (.inl ⟨hphase, rfl⟩))))
  case h_6 => exact .inr (.inr (.inr (.inr (.inr rfl))))

theorem sound_step (d : Daemon) (e : Event) (h : Sound d) (hready : ShutsReady d e) :
    Sound (step d e) := by
  rcases step_cases d e with ⟨ch, totLen, heq⟩ | ⟨hphase, ch, heq⟩ | ⟨hshuts, heq⟩ |
    ⟨hphase, env, heq⟩ | ⟨-, heq⟩ | heq
  · rw [heq]
    exact sound_arrive ch totLen h
  · have hsame := withoutQueues_ptpNetRecv ch d
    rw [heq]
    refine ⟨h.sockets.congr hsame, ?_, fun hshut => ?_⟩
    · rw [received_ptpNetRecv]
      exact (pbufs_ptpNetRecv ch d).trans h.pbufs
    · have hkept : (ptpNetRecv ch d).phase = d.phase := congrArg (·.phase) hsame
      rw [hkept, hphase] at hshut
      exact absurd hshut nofun
  · rcases sockets_ptpNetShutdown h.sockets (hready hshuts) with ⟨hsockets, hshut⟩
    rw [heq]
    refine ⟨⟨hsockets.ledger, hsockets.tied, hsockets.active, hsockets.addr, hsockets.uses⟩, ?_,
      fun _ => ⟨hshut.clear, hshut.event, hshut.general, hshut.addr⟩⟩
    -- the queues are left as they are
    have hpbufs := h.pbufs
    rw [pbufs] at hpbufs ⊢
    rw [ptpNetShutdown_stack]
    exact hpbufs
  · have hshut := h.shut hphase
    rcases queues_ptpNetInit env d with ⟨hwaiting, hfreed, hreceived⟩
    rw [heq]
    refine Sound.setPhase (sockets_ptpNetInit env h.sockets hshut) ?_ ?_
    · have hpbufs := h.pbufs
      rw [pbufs, hshut.clear.2.2.2] at hpbufs
      rw [pbufs, hwaiting, hfreed, hreceived]
      exact hpbufs
    · split
      · nofun
      · nofun
  · rw [heq]
    refine Sound.setPhase (h.sockets.congr (withoutQueues_ptpNetEmptyEventQ d)) ?_ nofun
    rw [pbufs_ptpNetEmptyEventQ, received_ptpNetEmptyEventQ]
    exact h.pbufs
  · rw [heq]
    exact h

/-- All along a run that is ready for its shutdowns, nothing is removed or freed twice, and
    nothing is lost. -/
theorem Sound.settled {d : Daemon} (h : Sound d) : d.stack.removed.Nodup ∧ FreedOnce d := by
  constructor
  · have hnodup := h.sockets.ledger.nodup_iff.mpr List.nodup_range
    exact (List.nodup_append'.mp hnodup).2.1
  · intro n hn
    have hcount := h.pbufs.count_eq n
    rw [PtpNet.pbufs, List.count_append] at hcount
    rw [hcount]
    exact List.count_eq_one_of_mem List.nodup_range (List.mem_range.mpr hn)

theorem sound_of_meets (evs : List Event) (hmeets : Meets step ShutsReady .start evs) :
    Sound (run step .start evs) :=
  meets_invariant (fun d e h hready => sound_step d e h hready) .start sound_start evs hmeets

/-- Behind a shutdown it shows whether the daemon was ready for it. -/
theorem clear_step_iff {d : Daemon} {e : Event} (h : Sound d) (hshuts : Shuts d e) :
    (Clear (step d e) ∧ (step d e).stack.removed.Nodup) ↔ ShutsReady d e := by
  have hstep : step d e = { ptpNetShutdown d with phase := .shut } := by
    rcases hshuts with ⟨rfl, hphase⟩
    unfold step
    rw [hphase]
  rw [hstep]
  refine (ptpNetShutdown_clear_iff h.sockets).trans ⟨fun hready _ => hready, fun hready => ?_⟩
  exact hready hshuts

/-- Whatever arrives and whatever fails: behind every `ptpNetShutdown` nothing is held, no pcb
    is removed twice and every pbuf is freed once, exactly if every `ptpNetShutdown` comes when
    the pointers name the pcbs that are there, the queues are empty and the peer group was not
    joined. -/
theorem released_iff (evs : List Event) : Released evs ↔ Meets step ShutsReady .start evs := by
  have hobserved := observed_iff_meets (I := Sound) (O := Shuts)
    (R := fun d => Clear d ∧ d.stack.removed.Nodup) (fun d e h hC => sound_step d e h hC)
    (fun d e h hO => clear_step_iff h hO) (fun d e _ hO hshuts => absurd hshuts hO)
    Daemon.start sound_start evs
  constructor
  · rintro ⟨hclear, hkept⟩
    refine hobserved.mp fun past e hpast hshuts => ⟨hclear past e hpast hshuts, ?_⟩
    exact (hkept _ hpast).1
  · intro hmeets
    refine ⟨fun past e hpast hshuts => (hobserved.mpr hmeets past e hpast hshuts).1, ?_⟩
    rintro past ⟨rest, rfl⟩
    exact (sound_of_meets past ((meets_append Daemon.start past rest).mp hmeets).1).settled

/-- The peer group has at least so many uses, and it is not the one that a shutdown leaves. -/
def PeerUses (n : Nat) (d : Daemon) : Prop :=
  (d.netPath.multicastAddr = 0 ∨ d.netPath.multicastAddr = defaultPtpDomainAddress) ∧
    n ≤ d.stack.uses peerPtpDomainAddress

theorem PeerUses.congr {n : Nat} {d d' : Daemon} (h : PeerUses n d)
    (hsame : withoutQueues d' = withoutQueues d) : PeerUses n d' := by
  have huses : d'.stack.uses = d.stack.uses := congrArg (·.stack.uses) hsame
  have haddr : d'.netPath.multicastAddr = d.netPath.multicastAddr :=
    congrArg (·.netPath.multicastAddr) hsame
  rw [PeerUses, huses, haddr]
  exact h

theorem peerUses_ptpNetInit {n : Nat} (env : InitEnv) {d : Daemon} (h : PeerUses n d) :
    PeerUses n (ptpNetInit env d).2 := by
  rcases igmpJoingroup_eq defaultPtpDomainAddress env.joinDefault (withPcbs d.stack) with
    ⟨uses, hjoin, -, -, hother⟩
  have hkept : uses peerPtpDomainAddress = d.stack.uses peerPtpDomainAddress :=
    hother _ peer_ne_default
  rcases ptpNetInit_cases env d with ⟨-, eventPcb, -, heq⟩ | ⟨-, -, heq⟩ |
    ⟨-, -, -, addr, s, hs, heq⟩ | ⟨-, -, -, -, heq⟩
  · rw [heq]
    exact h
  · rw [heq]
    exact h
  · rw [heq]
    rcases hs with ⟨rfl, rfl⟩ | ⟨rfl, rfl⟩
    · exact h
    · rw [hjoin]
      exact ⟨.inr rfl, Nat.le_trans h.2 (Nat.le_of_eq hkept.symm)⟩
  · rcases igmpJoingroup_eq peerPtpDomainAddress env.joinPeer { withPcbs d.stack with uses := uses }
      with ⟨uses', hjoin', hmore, -, -⟩
    rcases udpBind_eq d.stack.allocated .event env.bindEvent { withPcbs d.stack with uses := uses' }
      with ⟨active, hbind, -⟩
    rcases udpBind_eq (d.stack.allocated + 1) .general env.bindGeneral
      { withPcbs d.stack with uses := uses', udpPcbs := active } with ⟨active', hbind', -⟩
    rw [heq, hjoin, hjoin', hbind, hbind']
    exact ⟨.inr rfl, Nat.le_trans h.2 (Nat.le_trans (Nat.le_of_eq hkept.symm) hmore)⟩

theorem peerUses_step {n : Nat} (d : Daemon) (e : Event) (h : PeerUses n d) :
    PeerUses n (step d e) := by
  rcases step_cases d e with ⟨ch, totLen, heq⟩ | ⟨-, ch, heq⟩ | ⟨-, heq⟩ |
    ⟨-, env, heq⟩ | ⟨-, heq⟩ | heq
  · rw [heq, arrive]
    split
    · exact h.congr (withoutQueues_udpRecvCallback ch _ _).1
    · exact h
  · rw [heq]
    exact h.congr (withoutQueues_ptpNetRecv ch d)
  · rw [heq]
    refine ⟨.inl rfl, ?_⟩
    dsimp only
    rw [ptpNetShutdown_stack]
    dsimp only
    rw [usesLeft_peer h.1]
    exact h.2
  · rw [heq]
    exact peerUses_ptpNetInit env h
  · have hkept : PeerUses n (ptpNetEmptyEventQ d) := h.congr (withoutQueues_ptpNetEmptyEventQ d)
    rw [heq]
    exact hkept
  · rw [heq]
    exact h

/-- The peer group is never left: once it was joined, nothing is given back completely any
    more. -/
theorem not_clear_of_joined (past evs : List Event)
    (h : 0 < (run step .start past).stack.uses peerPtpDomainAddress) :
    ¬ Clear (run step .start (past ++ evs)) := by
  have haddr : PeerUses 0 (run step .start past) :=
    run_invariant (fun d e hd => peerUses_step d e hd) Daemon.start ⟨.inl rfl, Nat.zero_le _⟩ past
  have hstill : PeerUses 1 (run step .start (past ++ evs)) := by
    rw [run_append]
    exact run_invariant (fun d e hd => peerUses_step d e hd) _ ⟨haddr.1, h⟩ evs
  intro hclear
  have hzero := hclear.2.2.1
  have hone := hstill.2
  omega

/-- The interface is up, but there is no memory for the second pcb. -/
def oneOnly : InitEnv where
  interfaceAddr := 0xC0A8A602
  newEvent := true
  newGeneral := false
  atonDefault := true
  joinDefault := true
  atonPeer := true
  joinPeer := true
  bindEvent := true
  bindGeneral := true

/-- Two rounds through `_doInit`, of which the first runs out of memory between the two pcbs:
    the second round removes the first pcb again. -/
theorem not_released_oneOnly : ¬ Released [.shutdown, .init oneOnly, .shutdown] := by
  intro h
  exact absurd (h.2 _ (List.prefix_refl _)).1 (by decide)

end PtpNet

end RtosLwip
