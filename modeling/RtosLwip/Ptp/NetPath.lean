import RtosLwip.Base.Ring
import RtosLwip.Base.Run
import RtosLwip.Ptp.Net

/-!
# What the PTP Network Holds

`ptpNet.c` as the owner of things that belong to the stack: two UDP pcbs, the
memberships in two multicast groups, and the pbufs that wait in two queues. The
step model only asks whether the network could be initialised; here
`ptpNetInit` and `ptpNetShutdown` are followed through all their exits.

What the calls into the stack return is the environment's choice. A `udp_pcb`
goes by the number of its allocation and a pbuf by the number of its reception,
so that it can be said of each of them what became of it. `udp_remove` puts the
memory back into the pool without asking whether it is there already; the calls
are recorded, one by one.

The daemon is one thread, and the stack, which calls the receive callbacks, is
another. So the events are the calls of the daemon in the order of `_doInit`,
and the arrival of packets between any two of them. An event the daemon is not
at does not happen.

`inet_aton` never fails on the two constants it is called with. The exits for
this are modelled all the same.

## Main definitions

* `NetPath`, `Stack`, `Daemon`: The pointers, the stack behind them, and the two together.
* `netQPut`, `netQGet`, `netQEmpty`, `netRecv`: The queues.
* `ptpNetInit`, `ptpNetShutdown`: Opening and closing.
* `step`: A call of the daemon, or the arrival of a packet.

## Theorems

* `netQPut_holds`, `netQGet_holds`, `netQEmpty_holds`: The queue is that of the step model.
-/

namespace RtosLwip

namespace PtpNet

open Ptp (Channel ptpPacketSize ptpPbufQueueSize)

/-- A pbuf that a receive callback got, with its `tot_len`. -/
structure Pbuf where
  id : Nat
  totLen : Nat
  deriving DecidableEq, Repr, Inhabited

/-- `BufQueue`. -/
abbrev BufQueue := Ring Pbuf ptpPbufQueueSize

/-- A `udp_pcb`, by the number of its allocation. -/
abbrev UdpPcb := Nat

/-- `DEFAULT_PTP_DOMAIN_ADDRESS`: 224.0.1.129 -/
def defaultPtpDomainAddress : UInt32 := 0xE0000181

/-- `PEER_PTP_DOMAIN_ADDRESS`: 224.0.0.107 -/
def peerPtpDomainAddress : UInt32 := 0xE000006B

/-- `NetPath`. A pcb that is NULL is none, and `IPADDR_ANY` is 0. -/
structure NetPath where
  multicastAddr : UInt32
  peerMulticastAddr : UInt32
  unicastAddr : UInt32
  eventPcb : Option UdpPcb
  generalPcb : Option UdpPcb
  eventQ : BufQueue
  generalQ : BufQueue

/-- The stack, as far as the daemon has dealings with it. -/
structure Stack where
  /-- How many pcbs `udp_new` has allocated. -/
  allocated : Nat
  /-- The pcbs that are there. -/
  pcbs : List UdpPcb
  /-- The pcbs that `udp_remove` was called with. -/
  removed : List UdpPcb
  /-- The pcbs that packets are handed to: bound to the port of a channel, with the
      callback of the channel. -/
  udpPcbs : List (UdpPcb × Channel)
  /-- How many uses the IGMP groups have. -/
  uses : UInt32 → Nat
  /-- How many pbufs the receive callbacks got. -/
  received : Nat
  /-- The pbufs that were freed. -/
  freed : List Nat

/-- Where the daemon is: in `ptpStateMachine`, between `ptpNetShutdown` and `ptpNetInit`,
    or between `ptpNetInit` and `initClock`. -/
inductive Phase where
  | running
  | shut
  | opened
  deriving DecidableEq, Repr

/-- The daemon and the stack. -/
structure Daemon where
  netPath : NetPath
  stack : Stack
  phase : Phase

/-- A queue that nothing was put into. -/
def BufQueue.start : BufQueue where
  head := ⟨0, by decide⟩
  tail := ⟨0, by decide⟩
  slot := fun _ => default

/-- The daemon after `ptpd_init`. -/
def Daemon.start : Daemon where
  netPath := ⟨0, 0, 0, none, none, .start, .start⟩
  stack := ⟨0, [], [], [], fun _ => 0, 0, []⟩
  phase := .running

/-- `_netQInit`. -/
def netQInit (queue : BufQueue) : BufQueue := queue.clear

/-- `_netQPut`. -/
def netQPut (queue : BufQueue) (pbuf : Pbuf) : Bool × BufQueue := queue.put pbuf

/-- `_netQGet`. -/
def netQGet (queue : BufQueue) : Option Pbuf × BufQueue := queue.get

/-- `pbuf_free`. -/
def pbufFree (p : Pbuf) (s : Stack) : Stack := { s with freed := s.freed ++ [p.id] }

/-- `_netQEmpty`. -/
def netQEmpty (queue : BufQueue) (s : Stack) : BufQueue × Stack :=
  let r := queue.drain
  (r.2, r.1.foldl (fun s p => pbufFree p s) s)

/-- The queue of a channel. -/
def NetPath.queue (n : NetPath) : Channel → BufQueue
  | .event => n.eventQ
  | .general => n.generalQ

/-- Another queue for a channel. -/
def NetPath.setQueue (n : NetPath) (ch : Channel) (queue : BufQueue) : NetPath :=
  match ch with
  | .event => { n with eventQ := queue }
  | .general => { n with generalQ := queue }

/-- `_udpRecvEventCallback` and `_udpRecvGeneralCallback`: a packet for which there is no
    room is freed. -/
def udpRecvCallback (ch : Channel) (p : Pbuf) (d : Daemon) : Daemon :=
  match netQPut (d.netPath.queue ch) p with
  | (true, queue) => { d with netPath := d.netPath.setQueue ch queue }
  | (false, _) => { d with stack := pbufFree p d.stack }

/-- `_netRecv`: the length, the queue and the stack. What is copied has no part in who owns
    the pbuf. -/
def netRecv (queue : BufQueue) (s : Stack) : Nat × BufQueue × Stack :=
  match netQGet queue with
  | (none, queue) => (0, queue, s)
  | (some p, queue) =>
    if ptpPacketSize < p.totLen then
      (0, queue, pbufFree p s)
    else if p.totLen = 0 then
      (0, queue, pbufFree p s)
    else
      (p.totLen, queue, pbufFree p s)

/-- `ptpNetRecvEvent` and `ptpNetRecvGeneral`. -/
def ptpNetRecv (ch : Channel) (d : Daemon) : Daemon :=
  let r := netRecv (d.netPath.queue ch) d.stack
  { d with netPath := d.netPath.setQueue ch r.2.1, stack := r.2.2 }

/-- `ptpNetEmptyEventQ`. -/
def ptpNetEmptyEventQ (d : Daemon) : Daemon :=
  let r := netQEmpty d.netPath.eventQ d.stack
  { d with netPath.eventQ := r.1, stack := r.2 }

/-- `udp_new`. -/
def udpNew (ok : Bool) (s : Stack) : Option UdpPcb × Stack :=
  if ok then
    (some s.allocated,
      { s with allocated := s.allocated + 1, pcbs := s.pcbs ++ [s.allocated] })
  else
    (none, s)

/-- `udp_remove`. -/
def udpRemove (pcb : UdpPcb) (s : Stack) : Stack :=
  { s with
    pcbs := s.pcbs.filter (· ≠ pcb)
    removed := s.removed ++ [pcb]
    udpPcbs := s.udpPcbs.filter (·.1 ≠ pcb) }

/-- `udp_recv` and `udp_bind`, which puts the pcb onto the list of the active ones, unless
    the port is taken. -/
def udpBind (pcb : UdpPcb) (ch : Channel) (ok : Bool) (s : Stack) : Stack :=
  if ok then { s with udpPcbs := (pcb, ch) :: s.udpPcbs } else s

/-- `igmp_joingroup`, which may fail. -/
def igmpJoingroup (group : UInt32) (ok : Bool) (s : Stack) : Stack :=
  if ok then { s with uses := Function.update s.uses group (s.uses group + 1) } else s

/-- `igmp_leavegroup`. A group without uses is none of the interface's. -/
def igmpLeavegroup (group : UInt32) (s : Stack) : Stack :=
  { s with uses := Function.update s.uses group (s.uses group - 1) }

/-- What the calls of `ptpNetInit` into the stack return. -/
structure InitEnv where
  interfaceAddr : UInt32
  newEvent : Bool
  newGeneral : Bool
  atonDefault : Bool
  joinDefault : Bool
  atonPeer : Bool
  joinPeer : Bool
  bindEvent : Bool
  bindGeneral : Bool

/-- `ptpNetShutdown`. `udp_disconnect` has no part in what is held. -/
def ptpNetShutdown (d : Daemon) : Daemon :=
  let s := d.stack
  let s := if d.netPath.multicastAddr ≠ 0 then igmpLeavegroup d.netPath.multicastAddr s else s
  let s := match d.netPath.eventPcb with
    | some pcb => udpRemove pcb s
    | none => s
  let s := match d.netPath.generalPcb with
    | some pcb => udpRemove pcb s
    | none => s
  { d with
    netPath :=
      { d.netPath with eventPcb := none, generalPcb := none, multicastAddr := 0, unicastAddr := 0 }
    stack := s }

/-- `ptpNetInit`: whether it succeeded, and the daemon. The exits leave the pointers as they
    are. -/
def ptpNetInit (env : InitEnv) (d : Daemon) : Bool × Daemon :=
  let n := { d.netPath with
    eventQ := netQInit d.netPath.eventQ
    generalQ := netQInit d.netPath.generalQ }
  let s := d.stack
  if env.interfaceAddr = 0 then
    (false, { d with netPath := n })
  else
    let r := udpNew env.newEvent s
    let n := { n with eventPcb := r.1 }
    let s := r.2
    match r.1 with
    | none => (false, { d with netPath := n, stack := s })
    | some eventPcb =>
      let r := udpNew env.newGeneral s
      let n := { n with generalPcb := r.1 }
      let s := r.2
      match r.1 with
      | none => (false, { d with netPath := n, stack := udpRemove eventPcb s })
      | some generalPcb =>
        let n := { n with unicastAddr := 0 }
        if env.atonDefault = false then
          (false, { d with netPath := n, stack := udpRemove eventPcb (udpRemove generalPcb s) })
        else
          let n := { n with multicastAddr := defaultPtpDomainAddress }
          let s := igmpJoingroup defaultPtpDomainAddress env.joinDefault s
          if env.atonPeer = false then
            (false, { d with netPath := n, stack := udpRemove eventPcb (udpRemove generalPcb s) })
          else
            let n := { n with peerMulticastAddr := peerPtpDomainAddress }
            let s := igmpJoingroup peerPtpDomainAddress env.joinPeer s
            let s := udpBind eventPcb .event env.bindEvent s
            let s := udpBind generalPcb .general env.bindGeneral s
            (true, { d with netPath := n, stack := s })

/-- A packet arrives: it is handed to the callback of a pcb that is bound to the port, or
    else the stack keeps it. -/
def arrive (ch : Channel) (totLen : Nat) (d : Daemon) : Daemon :=
  if ∃ x ∈ d.stack.udpPcbs, x.2 = ch then
    udpRecvCallback ch ⟨d.stack.received, totLen⟩
      { d with stack.received := d.stack.received + 1 }
  else
    d

/-- What happens next: a packet arrives, the daemon looks into a queue, or it goes through
    `_doInit`, which shuts the network down, initialises it, and if that succeeds comes to
    `initClock`. -/
inductive Event where
  | arrive (ch : Channel) (totLen : Nat)
  | recv (ch : Channel)
  | shutdown
  | init (env : InitEnv)
  | initClock

/-- One step. -/
def step (d : Daemon) (e : Event) : Daemon :=
  match e, d.phase with
  | .arrive ch totLen, _ => arrive ch totLen d
  | .recv ch, .running => ptpNetRecv ch d
  | .shutdown, .running => { ptpNetShutdown d with phase := .shut }
  | .init env, .shut =>
    let r := ptpNetInit env d
    -- a failure leads to the faulty state, and from there to `_doInit` again
    { r.2 with phase := if r.1 then .opened else .running }
  | .initClock, .opened => { ptpNetEmptyEventQ d with phase := .running }
  | _, _ => d

/-! ### The queue of the step model -/

/-- The two queues are the same, but for what is in their places. -/
structure Holds (f : Pbuf → Ptp.Packet) (queue : BufQueue) (q : Ptp.BufQueue) : Prop where
  head : q.head = queue.head
  tail : q.tail = queue.tail
  length : q.pbuf.length = ptpPbufQueueSize
  slot : ∀ i, q.pbuf[i.val]? = some (f (queue.slot i))

section

variable {f : Pbuf → Ptp.Packet} {queue : BufQueue} {q : Ptp.BufQueue}

theorem netQInit_holds (h : Holds f queue q) : Holds f (netQInit queue) (Ptp.netQInit q) :=
  ⟨rfl, rfl, h.length, h.slot⟩

theorem Holds.next_head_iff (h : Holds f queue q) :
    (q.head + 1) % ptpPbufQueueSize ≠ q.tail ↔ Ring.next queue.head ≠ queue.tail := by
  rw [h.head, h.tail, Ne, Ne, Ring.next_eq_iff]

theorem Holds.tail_iff (h : Holds f queue q) : q.tail ≠ q.head ↔ queue.tail ≠ queue.head := by
  rw [h.head, h.tail, Ne, Ne, Fin.ext_iff]

theorem netQPut_holds (h : Holds f queue q) (p : Pbuf) :
    (Ptp.netQPut q (f p)).1 = (netQPut queue p).1 ∧
      Holds f (netQPut queue p).2 (Ptp.netQPut q (f p)).2 := by
  by_cases hroom : Ring.next queue.head ≠ queue.tail
  · rw [netQPut, Ring.put, if_pos hroom, Ptp.netQPut, if_pos (h.next_head_iff.mpr hroom)]
    refine ⟨rfl, ⟨?_, h.tail, ?_, fun i => ?_⟩⟩
    · simp only [Ring.next, h.head]
    · simp only [List.length_set, h.length]
    · -- the place at the new head, and the other places
      by_cases hi : i = Ring.next queue.head
      · have hlen : (q.head + 1) % ptpPbufQueueSize < q.pbuf.length := by
          rw [h.length]
          exact Nat.mod_lt _ (by decide)
        have hval : (Ring.next queue.head).val = (q.head + 1) % ptpPbufQueueSize := by
          rw [h.head, Ring.next]
        rw [hi]
        simp only [hval, List.getElem?_set_self hlen, Function.update_self]
      · have hval : (q.head + 1) % ptpPbufQueueSize ≠ i.val := fun hval => by
          rw [h.head] at hval
          exact hi (Fin.ext hval.symm)
        simp only [List.getElem?_set_ne hval, h.slot, Function.update_of_ne hi]
  · rw [netQPut, Ring.put, if_neg hroom, Ptp.netQPut,
      if_neg (fun hne => hroom (h.next_head_iff.mp hne))]
    exact ⟨rfl, h⟩

theorem netQGet_holds (h : Holds f queue q) :
    (Ptp.netQGet q).1 = (netQGet queue).1.map f ∧
      Holds f (netQGet queue).2 (Ptp.netQGet q).2 := by
  by_cases hsome : queue.tail ≠ queue.head
  · rw [netQGet, Ring.get, if_pos hsome, Ptp.netQGet, if_pos (h.tail_iff.mpr hsome)]
    have hval : (q.tail + 1) % ptpPbufQueueSize = (Ring.next queue.tail).val := by
      rw [h.tail, Ring.next]
    refine ⟨?_, ⟨h.head, hval, h.length, h.slot⟩⟩
    simp only [hval, List.getD_eq_getElem?_getD, h.slot, Option.getD_some, Option.map_some]
  · rw [netQGet, Ring.get, if_neg hsome, Ptp.netQGet,
      if_neg (fun hne => hsome (h.tail_iff.mp hne))]
    exact ⟨rfl, h⟩

theorem netQEmptyLoop_holds (fuel : Nat) (queue : BufQueue) (q : Ptp.BufQueue)
    (h : Holds f queue q) : Holds f (Ring.drainLoop fuel queue).2 (Ptp.netQEmptyLoop fuel q) := by
  induction fuel generalizing queue q with
  | zero => exact h
  | succ fuel ih =>
      by_cases hsome : queue.tail ≠ queue.head
      · have hget : queue.get =
            (some (queue.slot (Ring.next queue.tail)),
              { queue with tail := Ring.next queue.tail }) :=
          if_pos hsome
        rw [Ring.drainLoop, hget, Ptp.netQEmptyLoop, if_pos (h.tail_iff.mpr hsome)]
        refine ih _ _ ⟨h.head, ?_, h.length, h.slot⟩
        simp only [h.tail, Ring.next]
      · have hget : queue.get = (none, queue) := if_neg hsome
        rw [Ring.drainLoop, hget, Ptp.netQEmptyLoop,
          if_neg (fun hne => hsome (h.tail_iff.mp hne))]
        exact h

theorem netQEmpty_holds (h : Holds f queue q) (s : Stack) :
    Holds f (netQEmpty queue s).1 (Ptp.netQEmpty q) :=
  netQEmptyLoop_holds _ queue q h

/-- `_netRecv` returns a length, and the step model the packet or none. -/
theorem netRecv_holds (hf : ∀ p, (f p).payload.length = p.totLen) (h : Holds f queue q)
    (s : Stack) :
    ((Ptp.netRecv q).1.map (·.payload.length)).getD 0 = (netRecv queue s).1 ∧
      Holds f (netRecv queue s).2.1 (Ptp.netRecv q).2 := by
  rcases netQGet_holds h with ⟨hfirst, hrest⟩
  rcases hget : netQGet queue with ⟨_ | p, queue'⟩
  · rcases hget' : Ptp.netQGet q with ⟨p', q'⟩
    rw [hget, hget'] at hfirst hrest
    subst hfirst
    simp only [netRecv, hget, Ptp.netRecv, hget', Option.map_none, Option.getD_none, true_and]
    exact hrest
  · rcases hget' : Ptp.netQGet q with ⟨p', q'⟩
    rw [hget, hget'] at hfirst hrest
    subst hfirst
    simp only [netRecv, hget, Ptp.netRecv, hget', Option.map_some, hf]
    -- too long, empty, or taken
    split
    · exact ⟨rfl, hrest⟩
    · split
      · exact ⟨rfl, hrest⟩
      · simp only [Option.map_some, Option.getD_some, hf, true_and]
        exact hrest

end

end PtpNet

end RtosLwip
