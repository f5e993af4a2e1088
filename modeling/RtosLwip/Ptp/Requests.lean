import RtosLwip.Ptp.RoundTrip
import RtosLwip.Ptp.Steps

/-!
# The Requests a Port Has Sent

The part of a port that its requests are about: the two sequence counters, the
interval between delay requests, and the requests that went to the network.
`ledger` takes a port to it, and this file says, once for each function of the
daemon, what becomes of it. Most functions leave it alone.

A counter is one ahead of the request sent last, for the number is counted up
behind the packing. This is what `Counts` says, and every step keeps it, across
the wrap of the 16-bit counter.

## Main definitions

* `Ledger`, `ledger`: What the requests of a port are about.
* `Counts`: The counters are one ahead of the last requests.
* `Keeps`: A ledger that keeps its interval, and keeps counting.

## Theorems

* `ledger_toState`: Entering a state.
* `keeps_issueDelayReq`, `keeps_issuePDelayReq`: Sending a request.
* `keeps_dispatch`, `ledger_dispatch_of_accepted`: Handling a message.
* `moves_ptpStateMachine`, `counts_engineStep`: A whole step.
-/

namespace RtosLwip

namespace Ptp

/-- The messages of a type that were handed to the network, newest first. -/
def sentOf (type : MsgType) (history : List Effect) : List (List UInt8) :=
  history.filterMap fun e => match e with
    | .sent t bytes => if t = type then some bytes else none
    | _ => none

/-- What the requests of a port are about. -/
structure Ledger where
  sentDelayReq : Int16
  sentPDelayReq : Int16
  interval : Int8
  obufLength : Nat
  delayReqs : List (List UInt8)
  pDelayReqs : List (List UInt8)

/-- The ledger of a port. -/
def ledger (s : Port) : Ledger where
  sentDelayReq := s.clock.sentDelayReqSequenceId
  sentPDelayReq := s.clock.sentPDelayReqSequenceId
  interval := s.clock.portDS.logMinDelayReqInterval
  obufLength := s.clock.msgObuf.length
  delayReqs := sentOf .delayReq s.history
  pDelayReqs := sentOf .pDelayReq s.history

/-- The sequence number of a packed message. -/
def sequenceOf (bytes : List UInt8) : Int16 := (msgUnpackHeader bytes).sequenceId

/-- The counters are one ahead of the requests sent last, and there is room in
    the buffer for the next. -/
structure Counts (l : Ledger) : Prop where
  room : MsgType.pDelayReq.length ≤ l.obufLength
  delayReq : ∀ bytes, l.delayReqs.head? = some bytes → sequenceOf bytes = l.sentDelayReq - 1
  pDelayReq : ∀ bytes, l.pDelayReqs.head? = some bytes → sequenceOf bytes = l.sentPDelayReq - 1

/-- A ledger that keeps its interval, and keeps counting. -/
structure Keeps (l l' : Ledger) : Prop where
  counts : Counts l → Counts l'
  interval : l'.interval = l.interval

namespace Keeps

theorem of_eq {l l' : Ledger} (h : l' = l) : Keeps l l' := by
  subst h
  exact ⟨id, rfl⟩

theorem trans {l m n : Ledger} (h : Keeps l m) (h' : Keeps m n) : Keeps l n :=
  ⟨fun hl => h'.counts (h.counts hl), h'.interval.trans h.interval⟩

end Keeps

/-- The counts do not look at the interval. -/
theorem counts_interval {l : Ledger} (v : Int8) (h : Counts l) :
    Counts { l with interval := v } :=
  ⟨h.room, h.delayReq, h.pDelayReq⟩

section Frame

variable (env : StepEnv) (s : Port)

@[simp] theorem ledger_timerExpired (t : Timer) :
    ledger (timerExpired env t s).2 = ledger s := by
  simp only [timerExpired]
  split
  · split
    · rfl
    · rfl
  · split
    · rfl
    · rfl

@[simp] theorem ledger_initClock : ledger (initClock s) = ledger s := by
  simp only [initClock]
  split
  · rfl
  · rfl

@[simp] theorem ledger_leaveState (state : PtpState) : ledger (leaveState state s) = ledger s := by
  simp only [leaveState]
  split
  · exact ledger_initClock s
  · split
    · rfl
    · rw [ledger_initClock]
      split
      · rfl
      · rfl
      · rfl
  · split
    · rfl
    · rw [ledger_initClock]
      split
      · rfl
      · rfl
      · rfl
  · exact ledger_initClock s
  · exact ledger_initClock s
  · exact ledger_initClock s
  · rfl

/-- What entering a state does: a master goes back to the default interval. -/
def Ledger.enter (state : PtpState) (l : Ledger) : Ledger :=
  match state with
  | .preMaster | .master => { l with interval := defaultDelayReqInterval }
  | _ => l

theorem ledger_enterState (state : PtpState) :
    ledger (enterState env state s) = (ledger s).enter state := by
  cases state with
  | initializing => rfl
  | faulty => rfl
  | disabled => rfl
  | listening => rfl
  | slave => rfl
  | passive =>
      simp only [enterState]
      split
      · rfl
      · rfl
  | uncalibrated =>
      simp only [enterState]
      split
      · rfl
      · rfl
      · rfl
  | preMaster =>
      simp only [enterState]
      split
      · rfl
      · rfl
  | master =>
      simp only [enterState]
      split
      · rfl
      · rfl

theorem ledger_toState (state : PtpState) :
    ledger (toState env state s) = (ledger s).enter state := by
  rw [toState, ledger_enterState, ledger_leaveState]
  rfl

/-- The fields only the servo writes are not in the ledger. -/
theorem ledger_servoFields (tms tsm offset delay peer : TimeInternal) (ofm owd : Filter)
    (fault selected : Bool) :
    ledger { s with clock := { s.clock with
      tms := tms
      tsm := tsm
      currentDS := ⟨s.clock.currentDS.stepsRemoved, offset, delay⟩
      portDS.peerMeanPathDelay := peer
      ofmFilt := ofm
      owdFilt := owd
      events.synchronizationFault := fault
      events.masterClockSelected := selected } } = ledger s := rfl

@[simp] theorem ledger_updateOffset (a b c : TimeInternal) :
    ledger (updateOffset a b c s) = ledger s := by
  unfold updateOffset
  dsimp only
  generalize subTime (subTime a b) c = tms
  generalize subtractDelay s.clock tms = offset
  generalize filter offset.nanoseconds s.clock.ofmFilt = f
  split
  · exact ledger_servoFields s tms _ offset _ _ _ _ _ _
  · split
    · exact ledger_servoFields s tms _ ⟨offset.seconds, f.1⟩ _ _ f.2 _ _ _
    · split
      · exact ledger_servoFields s tms _ ⟨offset.seconds, f.1⟩ _ _ f.2 _ _ _
      · exact ledger_servoFields s tms _ ⟨offset.seconds, f.1⟩ _ _ f.2 _ _ _

@[simp] theorem ledger_updateDelay (a b c : TimeInternal) :
    ledger (updateDelay a b c s) = ledger s := by
  unfold updateDelay
  dsimp only
  generalize subTime (subTime b a) c = tsm
  generalize div2Time (addTime s.clock.tms tsm) = delay
  generalize filter delay.nanoseconds s.clock.owdFilt = f
  split
  · rfl
  · split
    · exact ledger_servoFields s _ tsm _ delay _ _ _ _ _
    · exact ledger_servoFields s _ tsm _ ⟨delay.seconds, f.1⟩ _ _ f.2 _ _

@[simp] theorem ledger_updatePeerDelay (c : TimeInternal) (twoStep : Bool) :
    ledger (updatePeerDelay c twoStep s) = ledger s := by
  unfold updatePeerDelay
  dsimp only
  generalize div2Time _ = delay
  generalize filter delay.nanoseconds s.clock.owdFilt = f
  split
  · exact ledger_servoFields s _ _ _ _ delay _ _ _ _
  · exact ledger_servoFields s _ _ _ _ ⟨delay.seconds, f.1⟩ _ f.2 _ _

@[simp] theorem ledger_updateClock : ledger (updateClock env s) = ledger s := by
  unfold updateClock
  dsimp only
  split
  · split
    · rfl
    · split
      · rfl
      · exact ledger_initClock _
  · split
    · rfl
    · rfl

/-! ### Sending -/

/-- The ledger with a message handed to the network. -/
def Ledger.sent (type : MsgType) (bytes : List UInt8) (l : Ledger) : Ledger :=
  { l with
    delayReqs := if type = .delayReq then bytes :: l.delayReqs else l.delayReqs
    pDelayReqs := if type = .pDelayReq then bytes :: l.pDelayReqs else l.pDelayReqs }

/-- A send reports a success, and leaves the message in the ledger. -/
theorem ledger_sendPacked (m : Outgoing) (time : TimeInternal) (r : Nat × TimeInternal × Port)
    (h : sendPacked env m.type (m.pack s.clock s.clock.msgObuf) time s = r) :
    r.1 ≠ 0 ∧ ledger r.2.2
      = (ledger s).sent m.type ((m.pack s.clock s.clock.msgObuf).take m.type.length) := by
  subst h
  have hlen := length_pack s.clock s.clock.msgObuf m
  refine ⟨?_, ?_⟩
  · change m.type.length ≠ 0
    cases m
    all_goals exact Nat.noConfusion
  · cases m
    all_goals
      simp only [ledger, sendPacked, netSend, Port.log, hlen]
      rfl

theorem sequenceOf_take {n : Nat} (h : 32 ≤ n) (buf : List UInt8) :
    sequenceOf (buf.take n) = sequenceOf buf := by
  simp only [sequenceOf, msgUnpackHeader, load16, load8_take _ _ _ (by omega : 30 < n),
    load8_take _ _ _ (by omega : 30 + 1 < n)]

theorem sequenceOf_pack (c : PtpClock) (m : Outgoing) {buf : List UInt8}
    (h : MsgType.pDelayReq.length ≤ buf.length) :
    sequenceOf ((m.pack c buf).take m.type.length) = m.sequenceId c := by
  have hroom : headerLength ≤ buf.length := Nat.le_trans (by decide : headerLength ≤ 54) h
  rw [sequenceOf_take, sequenceOf, unpackHeader_pack c buf m hroom]
  cases m
  all_goals exact Nat.le_of_ble_eq_true rfl

/-- Messages that are no requests leave the requests alone. -/
theorem sent_of_ne (type : MsgType) (h : type ≠ .delayReq) (h' : type ≠ .pDelayReq)
    (bytes : List UInt8) (l : Ledger) : l.sent type bytes = l := by
  rw [Ledger.sent, if_neg h, if_neg h']

/-- A request that was packed with the counter, and the counter advanced. -/
theorem keeps_delayReq {l : Ledger} {bytes : List UInt8}
    (h : Counts l → sequenceOf bytes = l.sentDelayReq) :
    Keeps l { l.sent .delayReq bytes with sentDelayReq := l.sentDelayReq + 1 } := by
  refine ⟨fun hc => ⟨hc.room, fun b hb => ?_, hc.pDelayReq⟩, rfl⟩
  rw [← Option.some.inj hb, h hc]
  exact (Int16.add_sub_cancel _ _).symm

theorem keeps_pDelayReq {l : Ledger} {bytes : List UInt8}
    (h : Counts l → sequenceOf bytes = l.sentPDelayReq) :
    Keeps l { l.sent .pDelayReq bytes with sentPDelayReq := l.sentPDelayReq + 1 } := by
  refine ⟨fun hc => ⟨hc.room, hc.delayReq, fun b hb => ?_⟩, rfl⟩
  rw [← Option.some.inj hb, h hc]
  exact (Int16.add_sub_cancel _ _).symm

theorem keeps_issueDelayReq : Keeps (ledger s) (ledger (issueDelayReq env s)) := by
  unfold issueDelayReq
  dsimp only
  generalize fromInternalTime (env.time .delayReq) (env.localStamp .delayReq) = t
  generalize hr : sendPacked env .delayReq (msgPackDelayReq s.clock s.clock.msgObuf t)
    (env.time .delayReq) s = r
  rcases ledger_sendPacked env s (.delayReq t) _ r hr with ⟨hlen, hledger⟩
  rw [if_neg hlen]
  have hkeeps := keeps_delayReq fun hc : Counts (ledger s) =>
    sequenceOf_pack s.clock (.delayReq t) hc.room
  have hnext : ∀ u : Port, ledger u = { ledger r.2.2 with
      sentDelayReq := (ledger r.2.2).sentDelayReq + 1 } → Keeps (ledger s) (ledger u) := by
    intro u hu
    rw [hu, hledger]
    exact hkeeps
  split
  · exact hnext _ rfl
  · exact hnext _ rfl

theorem keeps_issuePDelayReq : Keeps (ledger s) (ledger (issuePDelayReq env s)) := by
  unfold issuePDelayReq
  dsimp only
  generalize fromInternalTime (env.time .pDelayReq) (env.localStamp .pDelayReq) = t
  generalize hr : sendPacked env .pDelayReq (msgPackPDelayReq s.clock s.clock.msgObuf t)
    (env.time .pDelayReq) s = r
  rcases ledger_sendPacked env s (.pDelayReq t) _ r hr with ⟨hlen, hledger⟩
  rw [if_neg hlen]
  have hkeeps := keeps_pDelayReq fun hc : Counts (ledger s) =>
    sequenceOf_pack s.clock (.pDelayReq t) hc.room
  have hnext : ∀ u : Port, ledger u = { ledger r.2.2 with
      sentPDelayReq := (ledger r.2.2).sentPDelayReq + 1 } → Keeps (ledger s) (ledger u) := by
    intro u hu
    rw [hu, hledger]
    exact hkeeps
  split
  · exact hnext _ rfl
  · exact hnext _ rfl

theorem keeps_issueDelayReqTimerExpired :
    Keeps (ledger s) (ledger (issueDelayReqTimerExpired env s)) := by
  unfold issueDelayReqTimerExpired
  split
  · split
    · exact .of_eq rfl
    · have hlook := Keeps.of_eq (ledger_timerExpired env s .delayReqInterval)
      dsimp only
      generalize timerExpired env .delayReqInterval s = r at hlook ⊢
      split
      · exact hlook.trans (keeps_issueDelayReq env (timerStart env _ _ r.2))
      · exact hlook
  · have hlook := Keeps.of_eq (ledger_timerExpired env s .pDelayReqInterval)
    dsimp only
    generalize timerExpired env .pDelayReqInterval s = r at hlook ⊢
    split
    · exact hlook.trans (keeps_issuePDelayReq env (timerStart env _ _ r.2))
    · exact hlook
  · exact .of_eq rfl

theorem ledger_issueFollowup (time : TimeInternal) :
    ledger (issueFollowup env time s) = ledger s := by
  unfold issueFollowup
  dsimp only
  generalize fromInternalTime time (env.localStamp .followUp) = t
  generalize hr : sendPacked env .followUp (msgPackFollowUp s.clock s.clock.msgObuf t) .zero s = r
  rcases ledger_sendPacked env s (.followUp t) _ r hr with ⟨hlen, hledger⟩
  rw [if_neg hlen, hledger]
  exact sent_of_ne .followUp (by decide) (by decide) _ _

theorem ledger_issueSync : ledger (issueSync env s) = ledger s := by
  unfold issueSync
  dsimp only
  generalize fromInternalTime (env.time .sync) (env.localStamp .sync) = t
  generalize hr : sendPacked env .sync (msgPackSync s.clock s.clock.msgObuf t) (env.time .sync) s
    = r
  rcases ledger_sendPacked env s (.sync t) _ r hr with ⟨hlen, hledger⟩
  replace hledger := hledger.trans (sent_of_ne .sync (by decide) (by decide) _ _)
  rw [if_neg hlen]
  split
  · rw [ledger_issueFollowup]
    exact hledger
  · exact hledger

theorem ledger_issueAnnounce : ledger (issueAnnounce env s) = ledger s := by
  unfold issueAnnounce
  dsimp only
  generalize hr : sendPacked env .announce (msgPackAnnounce s.clock s.clock.msgObuf) .zero s = r
  rcases ledger_sendPacked env s .announce _ r hr with ⟨hlen, hledger⟩
  rw [if_neg hlen]
  exact hledger.trans (sent_of_ne .announce (by decide) (by decide) _ _)

theorem ledger_issueDelayResp (time : TimeInternal) (header : MsgHeader) :
    ledger (issueDelayResp env time header s) = ledger s := by
  unfold issueDelayResp
  dsimp only
  generalize fromInternalTime time (env.localStamp .delayResp) = t
  generalize hr : sendPacked env .delayResp (msgPackDelayResp s.clock s.clock.msgObuf header t)
    .zero s = r
  rcases ledger_sendPacked env s (.delayResp header t) _ r hr with ⟨hlen, hledger⟩
  rw [if_neg hlen, hledger]
  exact sent_of_ne .delayResp (by decide) (by decide) _ _

theorem ledger_issuePDelayResp (time : TimeInternal) (header : MsgHeader) :
    ledger (issuePDelayResp env time header s).2 = ledger s := by
  unfold issuePDelayResp
  dsimp only
  generalize fromInternalTime time (env.localStamp .pDelayResp) = t
  generalize hr : sendPacked env .pDelayResp (msgPackPDelayResp s.clock.msgObuf header t) time s
    = r
  rcases ledger_sendPacked env s (.pDelayResp header t) _ r hr with ⟨hlen, hledger⟩
  replace hledger := hledger.trans (sent_of_ne .pDelayResp (by decide) (by decide) _ _)
  rw [if_neg hlen]
  split
  · exact hledger
  · exact hledger

theorem ledger_issuePDelayRespFollowUp (time : TimeInternal) (header : MsgHeader) :
    ledger (issuePDelayRespFollowUp env time header s) = ledger s := by
  unfold issuePDelayRespFollowUp
  dsimp only
  generalize fromInternalTime time (env.localStamp .pDelayRespFollowUp) = t
  generalize hr : sendPacked env .pDelayRespFollowUp
    (msgPackPDelayRespFollowUp s.clock.msgObuf header t) .zero s = r
  rcases ledger_sendPacked env s (.pDelayRespFollowUp header t) _ r hr with ⟨hlen, hledger⟩
  rw [if_neg hlen, hledger]
  exact sent_of_ne .pDelayRespFollowUp (by decide) (by decide) _ _

/-! ### Handling -/

theorem ledger_fault : ledger (toState env .faulty s) = ledger s := ledger_toState env s .faulty

theorem ledger_handleAnnounce (m : Message) (isFromSelf : Bool) :
    ledger (handleAnnounce env m isFromSelf s) = ledger s := by
  unfold handleAnnounce announceFollowing
  split
  · exact ledger_fault env s
  · split
    · rfl
    · split
      · rfl
      · rfl
      · rfl
      · split
        · rfl
        · rfl
      · split
        · rfl
        · rfl
      · rfl
      · rfl
      · rfl
      · rfl

/-- The servo follows an offset, and then the delay request timer is looked
    at. -/
theorem keeps_steered {u : Port} (hu : ledger u = ledger s) (a b c : TimeInternal) :
    Keeps (ledger s) (ledger (issueDelayReqTimerExpired env (updateClock env
      (updateOffset a b c u)))) := by
  have hkeeps := keeps_issueDelayReqTimerExpired env (updateClock env (updateOffset a b c u))
  rwa [ledger_updateClock, ledger_updateOffset, hu] at hkeeps

theorem keeps_handleSync (m : Message) (isFromSelf : Bool) :
    Keeps (ledger s) (ledger (handleSync env m isFromSelf s)) := by
  have hfollow : Keeps (ledger s) (ledger (syncFollowing env m isFromSelf s)) := by
    unfold syncFollowing
    by_cases hself : isFromSelf = true
    · rw [if_pos hself]
      exact .of_eq rfl
    · rw [if_neg hself]
      by_cases hpar : isFromCurrentParent m s = false
      · rw [if_pos hpar]
        exact .of_eq rfl
      · rw [if_neg hpar]
        dsimp only
        by_cases htwo : isTwoStep m = true
        · rw [if_pos htwo]
          exact .of_eq rfl
        · rw [if_neg htwo]
          refine keeps_steered env s ?_ _ _ _
          rfl
  unfold handleSync
  split
  · exact .of_eq (ledger_fault env s)
  · split
    · exact hfollow
    · exact hfollow
    · exact keeps_issueDelayReqTimerExpired env s
    · exact .of_eq rfl

theorem keeps_handleFollowUp (m : Message) (isFromSelf : Bool) :
    Keeps (ledger s) (ledger (handleFollowUp env m isFromSelf s)) := by
  have hfollow : Keeps (ledger s) (ledger (followUpFollowing env m s)) := by
    unfold followUpFollowing
    by_cases hwait : s.clock.waitingForFollowUp = false
    · rw [if_pos hwait]
      exact .of_eq rfl
    · rw [if_neg hwait]
      by_cases hpar : isFromCurrentParent m s = false
      · rw [if_pos hpar]
        exact .of_eq rfl
      · rw [if_neg hpar]
        by_cases hseq : s.clock.recvSyncSequenceId ≠ m.header.sequenceId
        · rw [if_pos hseq]
          exact .of_eq rfl
        · rw [if_neg hseq]
          refine keeps_steered env s ?_ _ _ _
          rfl
  unfold handleFollowUp
  split
  · exact .of_eq (ledger_fault env s)
  · split
    · exact .of_eq rfl
    · split
      · exact hfollow
      · exact hfollow
      · exact keeps_issueDelayReqTimerExpired env s
      · exact .of_eq rfl

theorem ledger_handleDelayReq (m : Message) :
    ledger (handleDelayReq env m s) = ledger s := by
  unfold handleDelayReq
  split
  · split
    · exact ledger_fault env s
    · split
      · exact ledger_issueDelayResp env s _ _
      · rfl
  · rfl

theorem ledger_handlePDelayReq (m : Message) (isFromSelf : Bool) :
    ledger (handlePDelayReq env m isFromSelf s) = ledger s := by
  have hanswer : ledger (answerPDelayReq env m isFromSelf s) = ledger s := by
    have hresp := ledger_issuePDelayResp env s m.time m.header
    unfold answerPDelayReq
    dsimp only
    generalize issuePDelayResp env m.time m.header s = r at hresp ⊢
    split
    · rfl
    · split
      · rw [ledger_issuePDelayRespFollowUp, hresp]
      · exact hresp
  unfold handlePDelayReq
  split
  · split
    · exact ledger_fault env s
    · split
      · exact hanswer
      · exact hanswer
      · exact hanswer
      · rfl
  · rfl

theorem ledger_handlePDelayResp (m : Message) (isFromSelf : Bool) :
    ledger (handlePDelayResp env m isFromSelf s) = ledger s := by
  have haccept : ledger (acceptPDelayResp env m isFromSelf s) = ledger s := by
    unfold acceptPDelayResp
    dsimp only
    split
    · rfl
    · split
      · split
        · rfl
        · exact ledger_updatePeerDelay _ _ _
      · rfl
  unfold handlePDelayResp
  split
  · split
    · exact ledger_fault env s
    · split
      · exact haccept
      · exact haccept
      · rfl
  · rfl

theorem ledger_handlePDelayRespFollowUp (m : Message) :
    ledger (handlePDelayRespFollowUp env m s) = ledger s := by
  have haccept : ledger (acceptPDelayRespFollowUp env m s) = ledger s := by
    have hwait : ∀ (u : Port) (b : Bool),
        ledger { u with clock.waitingForPDelayRespFollowUp := b } = ledger u := fun _ _ => rfl
    unfold acceptPDelayRespFollowUp
    dsimp only
    split
    · rfl
    · split
      · rw [hwait, ledger_updatePeerDelay]
        rfl
      · rfl
  unfold handlePDelayRespFollowUp
  split
  · split
    · exact ledger_fault env s
    · split
      · exact haccept
      · exact haccept
      · rfl
  · rfl

/-- Whether a DelayResp is for the latest request of this port, and from its
    parent. -/
def MatchesDelayReq (m : Message) (s : Port) : Prop :=
  s.clock.sentDelayReqSequenceId.toInt - 1 = m.header.sequenceId.toInt ∧
  isSamePortIdentity s.clock.portDS.portIdentity
    (msgUnpackDelayResp m.buf).requestingPortIdentity = true ∧
  isFromCurrentParent m s = true

instance (m : Message) (s : Port) : Decidable (MatchesDelayReq m s) :=
  inferInstanceAs (Decidable (_ ∧ _))

/-- What becomes of the port when a DelayResp is accepted. -/
def acceptDelayResp (m : Message) (s : Port) : Port :=
  let resp := msgUnpackDelayResp m.buf
  let recieved := toInternalTime s.clock.timestampDelayReqRecieve resp.timestamp
  let s := { s with clock.timestampDelayReqRecieve := recieved }
  let s := updateDelay s.clock.timestampDelayReqSend s.clock.timestampDelayReqRecieve
    (scaledNanosecondsToInternalTime m.header.correctionfield) s
  { s with clock.portDS.logMinDelayReqInterval := m.header.logMessageInterval }

theorem delayRespFollowing_eq (m : Message) :
    delayRespFollowing m s = if MatchesDelayReq m s then acceptDelayResp m s else s := rfl

theorem ledger_acceptDelayResp (m : Message) : ledger (acceptDelayResp m s)
    = { ledger s with interval := m.header.logMessageInterval } := by
  have hset : ∀ (u : Port) (v : Int8),
      ledger { u with clock.portDS.logMinDelayReqInterval := v }
        = { ledger u with interval := v } := fun _ _ => rfl
  unfold acceptDelayResp
  dsimp only
  rw [hset, ledger_updateDelay]
  rfl

/-- Whether a message is a DelayResp that the port accepts. -/
def AcceptsDelayResp (m : Message) (s : Port) : Prop :=
  MsgType.ofCode m.header.messageType = some .delayResp ∧
  s.clock.portDS.delayMechanism = .e2e ∧
  MsgType.delayResp.length ≤ m.buf.length ∧
  (s.clock.portDS.portState = .uncalibrated ∨ s.clock.portDS.portState = .slave) ∧
  MatchesDelayReq m s

instance (m : Message) (s : Port) : Decidable (AcceptsDelayResp m s) :=
  inferInstanceAs (Decidable (_ ∧ _))

/-- A DelayResp that is accepted brings an interval along. -/
theorem ledger_dispatch_of_accepted {m : Message} (h : AcceptsDelayResp m s) :
    ledger (dispatch env m s) = { ledger s with interval := m.header.logMessageInterval } := by
  rcases h with ⟨htype, hmech, hlen, hst, hmatch⟩
  have hfollow : delayRespFollowing m s = acceptDelayResp m s := by
    rw [delayRespFollowing_eq, if_pos hmatch]
  rw [← ledger_acceptDelayResp, ← hfollow]
  unfold dispatch handleDelayResp
  dsimp only
  rw [htype, hmech]
  dsimp only
  rw [if_neg (Nat.not_lt.mpr hlen)]
  rcases hst with hst | hst
  · rw [hst]
  · rw [hst]

/-- Nothing else in a message changes the interval. -/
theorem keeps_dispatch {m : Message} (h : ¬ AcceptsDelayResp m s) :
    Keeps (ledger s) (ledger (dispatch env m s)) := by
  unfold dispatch
  dsimp only
  generalize hself : isSamePortIdentity s.clock.portDS.portIdentity m.header.sourcePortIdentity
    = isFromSelf
  cases htype : MsgType.ofCode m.header.messageType with
  | none => exact .of_eq rfl
  | some type =>
      cases type with
      | announce => exact .of_eq (ledger_handleAnnounce env s m isFromSelf)
      | sync => exact keeps_handleSync env s m isFromSelf
      | followUp => exact keeps_handleFollowUp env s m isFromSelf
      | delayReq => exact .of_eq (ledger_handleDelayReq env s m)
      | pDelayReq => exact .of_eq (ledger_handlePDelayReq env s m isFromSelf)
      | pDelayResp => exact .of_eq (ledger_handlePDelayResp env s m isFromSelf)
      | pDelayRespFollowUp => exact .of_eq (ledger_handlePDelayRespFollowUp env s m)
      | management => exact .of_eq rfl
      | signaling => exact .of_eq rfl
      | delayResp =>
          dsimp only
          unfold handleDelayResp
          split
          next hmech =>
            split
            next hshort => exact .of_eq (ledger_fault env s)
            next hlong =>
              have hfollow : (s.clock.portDS.portState = .uncalibrated ∨
                  s.clock.portDS.portState = .slave) → delayRespFollowing m s = s := by
                intro hst
                rw [delayRespFollowing_eq, if_neg]
                intro hmatch
                exact h ⟨htype, hmech, Nat.le_of_not_lt hlong, hst, hmatch⟩
              split
              next hst => exact .of_eq (by rw [hfollow (Or.inl hst)])
              next hst => exact .of_eq (by rw [hfollow (Or.inr hst)])
              next => exact .of_eq rfl
          next => exact .of_eq rfl

/-- The interval of the DelayResp that a look into the queues accepts. -/
def acceptedBy (env : StepEnv) (s : Port) : Option Int8 :=
  let r := receive (arrive env s)
  match r.1 with
  | .message m => if AcceptsDelayResp m r.2 then some m.header.logMessageInterval else none
  | _ => none

theorem ledger_udpRecvCallback (ch : Channel) (p : Packet) :
    ledger (udpRecvCallback ch p s) = ledger s := by
  cases ch with
  | event => rfl
  | general => rfl

theorem ledger_arrive : ledger (arrive env s) = ledger s := by
  unfold arrive
  induction env.arrivals generalizing s with
  | nil => rfl
  | cons p rest ih => rw [List.foldl_cons, ih, ledger_udpRecvCallback]

theorem ledger_receive : ledger (receive s).2 = ledger s := by
  simp only [receive]
  split
  · rfl
  · split
    · rfl
    · split
      · rfl
      · rfl

/-- The effect of a step on the ledger: it keeps counting, and the interval is
    `v`, or the one it was. -/
structure Advances (v : Option Int8) (l l' : Ledger) : Prop where
  counts : Counts l → Counts l'
  interval : l'.interval = v.getD l.interval

theorem advances_handle : Advances (acceptedBy env s) (ledger s) (ledger (handle env s)) := by
  have hreceive : ledger (receive (arrive env s)).2 = ledger s := by
    rw [ledger_receive, ledger_arrive]
  simp only [handle, acceptedBy]
  generalize receive (arrive env s) = r at hreceive ⊢
  cases r.1 with
  | nothing =>
      simp only [hreceive]
      exact ⟨id, rfl⟩
  | short =>
      simp only [ledger_fault, hreceive]
      exact ⟨id, rfl⟩
  | message m =>
      have hlog : ledger (r.2.log (.received m)) = ledger s := hreceive
      dsimp only
      by_cases h : AcceptsDelayResp m r.2
      · rw [if_pos h, ledger_dispatch_of_accepted env (r.2.log (.received m)) h, hlog]
        exact ⟨counts_interval _, rfl⟩
      · rw [if_neg h]
        have hkeeps := keeps_dispatch env (r.2.log (.received m)) h
        rw [hlog] at hkeeps
        exact ⟨hkeeps.counts, hkeeps.interval⟩

/-! ### The parts of a step -/

theorem ledger_bmc : ledger (bmc s).2 = ledger s := by
  unfold bmc bmcStateDecision
  dsimp only
  repeat' split
  all_goals rfl

theorem ledger_stateDecision : ledger (stateDecision s) = ledger s := by
  have hbmc : ledger (bmc { s with clock.events.stateDecisionEvent := false }).2 = ledger s :=
    ledger_bmc _
  have hset : ∀ (u : Port) (r : PtpState),
      ledger { u with clock.recommendedState := r } = ledger u := fun _ _ => rfl
  unfold stateDecision
  generalize bmc { s with clock.events.stateDecisionEvent := false } = r at hbmc ⊢
  dsimp only
  split
  case h_7 => rfl
  all_goals
    split
    · rw [hset, hbmc]
    · rfl

/-- The ledger, or the ledger of a port that has become a master. -/
def Becomes (l l' : Ledger) : Prop := l' = l ∨ l' = { l with interval := defaultDelayReqInterval }

theorem becomes_toState (state : PtpState) : Becomes (ledger s) (ledger (toState env state s)) := by
  rw [ledger_toState]
  cases state
  case preMaster => exact Or.inr rfl
  case master => exact Or.inr rfl
  all_goals exact Or.inl rfl

theorem becomes_applyRecommended :
    Becomes (ledger s) (ledger (applyRecommended env s)) := by
  unfold applyRecommended
  split
  · split
    · have hlook := ledger_timerExpired env s .qualificationTimeout
      dsimp only
      generalize timerExpired env .qualificationTimeout s = r at hlook ⊢
      split
      · rw [← hlook]
        exact becomes_toState env _ _
      · exact Or.inl hlook
    · exact Or.inl rfl
    · exact becomes_toState env s _
  · split
    · exact becomes_toState env s _
    · exact Or.inl rfl
  · split
    · dsimp only
      split
      · exact Or.inl (ledger_toState env
          { s with clock.events.masterClockSelected := false } .slave)
      · exact Or.inl rfl
    · -- neither fault nor change makes a master
      have hfault := ledger_toState env { s with clock.events.synchronizationFault := false }
        .uncalibrated
      dsimp only
      generalize toState env .uncalibrated
        { s with clock.events.synchronizationFault := false } = u at hfault ⊢
      left
      split
      · split
        · exact (ledger_toState env { u with clock.events.masterClockChanged := false }
            .uncalibrated).trans hfault
        · exact hfault
      · split
        · exact ledger_toState env { s with clock.events.masterClockChanged := false } .uncalibrated
        · rfl
    · exact Or.inl (ledger_toState env s .uncalibrated)
  · split
    · exact becomes_toState env s _
    · exact Or.inl rfl
  · exact Or.inl rfl

theorem becomes_announceReceiptTimeout :
    Becomes (ledger s) (ledger (announceReceiptTimeout env s)) := by
  have hforget : ledger (forgetMasters s) = ledger s := rfl
  unfold announceReceiptTimeout
  dsimp only
  generalize forgetMasters s = u at hforget ⊢
  rw [← hforget]
  split
  · exact becomes_toState env { m1 u with clock.recommendedState := .master } .master
  · split
    · exact becomes_toState env u .listening
    · exact Or.inl rfl

theorem ledger_masterTimers : ledger (masterTimers env s) = ledger s := by
  have hsync := ledger_timerExpired env s .syncInterval
  unfold masterTimers
  dsimp only
  generalize timerExpired env .syncInterval s = r at hsync ⊢
  have hissue : ledger (if r.1 = true then issueSync env r.2 else r.2) = ledger s := by
    split
    · rw [ledger_issueSync, hsync]
    · exact hsync
  generalize (if r.1 = true then issueSync env r.2 else r.2) = u at hissue ⊢
  have hannounce := ledger_timerExpired env u .announceInterval
  generalize timerExpired env .announceInterval u = q at hannounce ⊢
  split
  · rw [ledger_issueAnnounce, hannounce, hissue]
  · rw [hannounce, hissue]

theorem ledger_doInit : ledger (doInit env s).2 = ledger s ∨
    ledger (doInit env s).2 = { ledger s with interval := defaultDelayReqInterval } := by
  have hpack : ∀ u : Port,
      ledger { u with clock.msgObuf := msgPackHeader u.clock u.clock.msgObuf } = ledger u := by
    intro u
    simp only [ledger, length_msgPackHeader]
  have hm1 : ∀ u : Port, ledger (m1 u) = ledger u := fun _ => rfl
  simp only [doInit]
  split
  · exact Or.inl rfl
  · right
    rw [hpack, hm1, ledger_initClock]
    rfl

/-- The interval of the DelayResp that the actions of a state accept. -/
def acceptedIn (env : StepEnv) (s : Port) : Option Int8 := (handling env s).bind (acceptedBy env)

/-- The interval of the DelayResp that a step accepts. -/
def accepted (env : StepEnv) (s : Port) : Option Int8 :=
  acceptedIn env (applyRecommended env (stateDecision { s with clock.messageActivity := false }))

/-- The effect of a step on the ledger: it keeps counting, and the interval is
    the one it was, the default, or that of the DelayResp accepted. -/
structure Moves (v : Option Int8) (l l' : Ledger) : Prop where
  counts : Counts l → Counts l'
  interval : l'.interval = l.interval ∨ l'.interval = defaultDelayReqInterval ∨
    v = some l'.interval

theorem Becomes.moves {l l' : Ledger} (h : Becomes l l') (v : Option Int8) : Moves v l l' := by
  rcases h with rfl | rfl
  · exact ⟨id, Or.inl rfl⟩
  · exact ⟨counts_interval _, Or.inr (Or.inl rfl)⟩

theorem Advances.moves {v : Option Int8} {l l' : Ledger} (h : Advances v l l') :
    Moves v l l' := by
  refine ⟨h.counts, ?_⟩
  have hinterval := h.interval
  cases v with
  | none => exact Or.inl hinterval
  | some i => exact Or.inr (Or.inr (congrArg some hinterval.symm))

theorem moves_doState : Moves (acceptedIn env s) (ledger s) (ledger (doState env s)) := by
  -- the states that wait for Announces: the timeout, or a message
  have hwatch : handling env s = (if (timerExpired env .announceReceipt s).1 then none
        else some (timerExpired env .announceReceipt s).2) →
      Moves (acceptedIn env s) (ledger s) (ledger (if (timerExpired env .announceReceipt s).1 then
        announceReceiptTimeout env (timerExpired env .announceReceipt s).2
        else handle env (timerExpired env .announceReceipt s).2)) := by
    intro hhand
    have hlook := ledger_timerExpired env s .announceReceipt
    rw [acceptedIn, hhand]
    generalize timerExpired env .announceReceipt s = r at hlook ⊢
    rw [← hlook]
    split
    · exact (becomes_announceReceiptTimeout env r.2).moves _
    · exact (advances_handle env r.2).moves
  cases hst : s.clock.portDS.portState with
  | initializing =>
      simp only [doState, hst]
      have hinit := ledger_doInit env s
      generalize doInit env s = r at hinit ⊢
      have hinit' : Becomes (ledger s) (ledger r.2) := hinit
      split
      · rw [ledger_toState]
        exact hinit'.moves _
      · rw [ledger_toState]
        exact hinit'.moves _
  | faulty =>
      simp only [doState, hst]
      exact (becomes_toState env s .initializing).moves _
  | disabled =>
      simp only [doState, acceptedIn, handling, hst]
      exact (advances_handle env s).moves
  | listening =>
      simp only [doState, hst]
      exact hwatch (by simp only [handling, hst])
  | uncalibrated =>
      simp only [doState, hst]
      exact hwatch (by simp only [handling, hst])
  | slave =>
      simp only [doState, hst]
      exact hwatch (by simp only [handling, hst])
  | passive =>
      simp only [doState, hst]
      exact hwatch (by simp only [handling, hst])
  | preMaster =>
      simp only [doState, hst]
      exact ⟨id, Or.inl rfl⟩
  | master =>
      simp only [doState, acceptedIn, handling, hst]
      have hhandle := advances_handle env (masterTimers env s)
      have hrequest := keeps_issueDelayReqTimerExpired env (handle env (masterTimers env s))
      rw [ledger_masterTimers] at hhandle
      have hmoves := hhandle.moves
      exact ⟨fun hc => hrequest.counts (hmoves.counts hc), hrequest.interval ▸ hmoves.interval⟩

/-- What a step does to the ledger. -/
theorem moves_ptpStateMachine :
    Moves (accepted env s) (ledger s) (ledger (ptpStateMachine env s)) := by
  have hdecide : ledger (stateDecision { s with clock.messageActivity := false }) = ledger s :=
    ledger_stateDecision _
  have happly := becomes_applyRecommended env
    (stateDecision { s with clock.messageActivity := false })
  have hdo := moves_doState env (applyRecommended env
    (stateDecision { s with clock.messageActivity := false }))
  rw [hdecide] at happly
  rw [ptpStateMachine, accepted]
  generalize applyRecommended env (stateDecision { s with clock.messageActivity := false }) = u
    at happly hdo ⊢
  rcases happly with heq | heq
  · rw [heq] at hdo
    exact hdo
  · rw [heq] at hdo
    refine ⟨fun hc => hdo.counts (counts_interval _ hc), ?_⟩
    rcases hdo.interval with h | h
    · exact Or.inr (Or.inl h)
    · exact Or.inr h

end Frame

/-- Every event keeps counting. -/
theorem counts_engineStep (s : Port) (ev : Event) (h : Counts (ledger s)) :
    Counts (ledger (engineStep s ev)) := by
  cases ev with
  | step env => exact (moves_ptpStateMachine env s).counts h
  | packet ch p =>
      rw [engineStep, ledger_udpRecvCallback]
      exact h
  | expire t => exact h

end Ptp

end RtosLwip
