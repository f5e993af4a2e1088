import RtosLwip.Base.Answers
import RtosLwip.Ptp.NetPath

/-!
# The Packet Queue is a Bounded FIFO

The queue between the receive callback, which puts packets in, and the state machine,
which gets them out, looks whether there are any, and empties it. By what its
functions return and by the packets they free it cannot be told from a list of at
most `PBUF_QUEUE_MASK` packets, whatever the order of the calls is: this is the ring
of `Base.Ring` with one of its places left free.

What a FIFO does with its packets needs no ring any more. The packets that came in
are those that went out and behind them those that are still there, in their order.

## Main definitions

* `QueueOp`, `QueueAnswer`: The functions of the queue, and what they tell.
* `queueStep`: A call, for the queue of the source.
* `fifoStep`: A call, for a list.
* `cameIn`, `wentOut`: The packets that were taken, returned and freed.

## Theorems

* `queueStep_fifo`: One call.
* `cameIn_eq`: What becomes of the packets.
* `queue_isFifo`: Every order of calls.
-/

namespace RtosLwip

namespace PtpNet

open Ptp (ptpPbufQueueSize)

/-- `PBUF_QUEUE_MASK` -/
def pbufQueueMask : Nat := ptpPbufQueueSize - 1

/-- `_netQCheck` -/
def netQCheck (queue : BufQueue) : Bool := queue.tail ≠ queue.head

/-- A call of a function of the queue. -/
inductive QueueOp where
  | put (pbuf : Pbuf)
  | get
  | check
  | empty
  deriving DecidableEq, Repr

/-- What a call returns, and for the last one the pbufs it frees. -/
inductive QueueAnswer where
  | put (retval : Bool)
  | get (pbuf : Option Pbuf)
  | check (retval : Bool)
  | empty (freed : List Nat)
  deriving DecidableEq, Repr

/-- A call for the queue of the source, and for the stack that frees the pbufs. -/
def queueStep (s : BufQueue × Stack) : QueueOp → QueueAnswer × BufQueue × Stack
  | .put pbuf => (.put (netQPut s.1 pbuf).1, (netQPut s.1 pbuf).2, s.2)
  | .get => (.get (netQGet s.1).1, (netQGet s.1).2, s.2)
  | .check => (.check (netQCheck s.1), s)
  | .empty => (.empty ((netQEmpty s.1 s.2).2.freed.drop s.2.freed.length), netQEmpty s.1 s.2)

/-- A call for a list of at most `PBUF_QUEUE_MASK` packets, the oldest one first. -/
def fifoStep (packets : List Pbuf) : QueueOp → QueueAnswer × List Pbuf
  | .put pbuf =>
    if packets.length < pbufQueueMask then (.put true, packets ++ [pbuf])
    else (.put false, packets)
  | .get => (.get packets.head?, packets.tail)
  | .check => (.check (packets ≠ []), packets)
  | .empty => (.empty (packets.map (·.id)), [])

/-- The packets that were taken. -/
def cameIn : List QueueOp → List QueueAnswer → List Nat
  | .put pbuf :: ops, .put true :: as => pbuf.id :: cameIn ops as
  | _ :: ops, _ :: as => cameIn ops as
  | _, _ => []

/-- The packets that were returned or freed. -/
def wentOut (as : List QueueAnswer) : List Nat :=
  as.flatMap fun
    | .get (some pbuf) => [pbuf.id]
    | .empty freed => freed
    | _ => []

/-- `pbuf_free` of one packet after the other. -/
theorem freed_foldl (packets : List Pbuf) (s : Stack) :
    (packets.foldl (fun s p => pbufFree p s) s).freed = s.freed ++ packets.map (·.id) := by
  induction packets generalizing s with
  | nil => rw [List.foldl_nil, List.map_nil, List.append_nil]
  | cons p rest ih =>
      rw [List.foldl_cons, ih, pbufFree, List.map_cons, List.append_assoc, List.singleton_append]

/-- The queue and a list are the same FIFO. -/
def SameFifo (s : BufQueue × Stack) (packets : List Pbuf) : Prop := s.1.contents = packets

/-- A call on the queue is the call on its contents. -/
theorem queueStep_fifo (s : BufQueue × Stack) (packets : List Pbuf) (o : QueueOp)
    (h : SameFifo s packets) :
    (queueStep s o).1 = (fifoStep packets o).1 ∧
      SameFifo (queueStep s o).2 (fifoStep packets o).2 := by
  subst h
  cases o with
  | put pbuf =>
      have hsize : pbufQueueMask + 1 = ptpPbufQueueSize := rfl
      rcases Ring.put_spec s.1 pbuf with ⟨hroom, htrue, hcontents⟩ | ⟨hfull, heq⟩
      · rw [fifoStep, if_pos (by omega)]
        exact ⟨congrArg QueueAnswer.put htrue, hcontents⟩
      · rw [fifoStep, if_neg (by omega)]
        exact ⟨congrArg (QueueAnswer.put ∘ Prod.fst) heq, congrArg (Ring.contents ∘ Prod.snd) heq⟩
  | get =>
      rcases Ring.get_spec s.1 with ⟨hfirst, hrest⟩
      exact ⟨congrArg QueueAnswer.get hfirst, hrest⟩
  | check =>
      refine ⟨congrArg QueueAnswer.check ?_, rfl⟩
      exact decide_eq_decide.mpr (not_congr (Ring.contents_eq_nil_iff s.1).symm)
  | empty =>
      rcases Ring.drain_spec s.1 with ⟨hall, hnone⟩
      refine ⟨congrArg QueueAnswer.empty ?_, hnone⟩
      rw [netQEmpty, freed_foldl, hall, List.drop_left]

/-- What came into a FIFO is what went out of it, and behind that what is still there. -/
theorem cameIn_eq (packets : List Pbuf) (ops : List QueueOp) :
    packets.map (·.id) ++ cameIn ops (answers fifoStep packets ops)
      = wentOut (answers fifoStep packets ops) ++ (after fifoStep packets ops).map (·.id) := by
  induction ops generalizing packets with
  | nil => exact (List.append_nil _).trans (List.nil_append _).symm
  | cons o rest ih =>
      rw [after_cons, answers]
      cases o with
      | put pbuf =>
          by_cases hroom : packets.length < pbufQueueMask
          · have hstep : fifoStep packets (.put pbuf) = (.put true, packets ++ [pbuf]) :=
              if_pos hroom
            have hrest := ih (packets ++ [pbuf])
            rw [List.map_append, List.append_assoc] at hrest
            rw [hstep]
            exact hrest
          · have hstep : fifoStep packets (.put pbuf) = (.put false, packets) := if_neg hroom
            rw [hstep]
            exact ih packets
      | get =>
          cases packets with
          | nil => exact ih []
          | cons p packets => exact congrArg (p.id :: ·) (ih packets)
      | check => exact ih packets
      | empty =>
          have hrest := ih []
          rw [List.map_nil, List.nil_append] at hrest
          exact (congrArg (packets.map (·.id) ++ ·) hrest).trans (List.append_assoc _ _ _).symm

/-- No call makes a FIFO longer than `PBUF_QUEUE_MASK`. -/
theorem length_fifo_le (packets : List Pbuf) (h : packets.length ≤ pbufQueueMask)
    (ops : List QueueOp) : (after fifoStep packets ops).length ≤ pbufQueueMask := by
  refine run_invariant (I := fun l : List Pbuf => l.length ≤ pbufQueueMask) (fun l o hl => ?_) _
    h ops
  cases o with
  | put pbuf =>
      rw [fifoStep]
      split
      · rw [List.length_append]
        exact Nat.succ_le_of_lt ‹_›
      · exact hl
  | get =>
      have hlen : l.tail.length = l.length - 1 := List.length_tail
      exact Nat.le_trans (Nat.le_of_eq hlen) (Nat.le_trans (Nat.sub_le _ _) hl)
  | check => exact hl
  | empty => exact Nat.zero_le _

/-- A queue that was initialised is a bounded FIFO: its functions answer as those of a list
    of at most `PBUF_QUEUE_MASK` packets do, a packet that it refuses leaves it as it is, and
    what it took is what it returned or freed, with what it still holds behind. -/
theorem queue_isFifo (queue : BufQueue) (s : Stack) (ops : List QueueOp) :
    let as := answers queueStep (netQInit queue, s) ops
    let queue' := (after queueStep (netQInit queue, s) ops).1
    as = answers fifoStep [] ops ∧ queue'.contents = after fifoStep [] ops ∧
      queue'.contents.length ≤ pbufQueueMask ∧
      (∀ pbuf, (netQPut queue' pbuf).1 = false → (netQPut queue' pbuf).2 = queue') ∧
      cameIn ops as = wentOut as ++ queue'.contents.map (·.id) := by
  have hinit : SameFifo (netQInit queue, s) [] := Ring.contents_clear queue
  rcases answers_eq_of_simulates queueStep_fifo _ _ hinit ops with ⟨hanswers, hcontents⟩
  have hcontents' : (after queueStep (netQInit queue, s) ops).1.contents = after fifoStep [] ops :=
    hcontents
  have hcame := cameIn_eq [] ops
  rw [List.map_nil, List.nil_append] at hcame
  refine ⟨hanswers, hcontents', ?_, fun pbuf hfalse => ?_, ?_⟩
  · rw [hcontents']
    exact length_fifo_le [] (Nat.zero_le _) ops
  · rcases Ring.put_spec (after queueStep (netQInit queue, s) ops).1 pbuf with
      ⟨-, htrue, -⟩ | ⟨-, heq⟩
    · exact absurd (htrue.symm.trans hfalse) (by decide)
    · exact congrArg Prod.snd heq
  · rw [hanswers, hcontents']
    exact hcame

end PtpNet

end RtosLwip
