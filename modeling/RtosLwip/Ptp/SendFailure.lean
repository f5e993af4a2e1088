import RtosLwip.Ptp.Engine

/-!
# Failed Sends

`_netSend` notices when the packet cannot be allocated, filled or sent, jumps to
its end, and returns the length there as it does after a send that worked. So
the functions that issue messages take a failed send for a good one: they count
the message, and where the message has a time of egress they use what is in the
variable for it, which is the time from before the send.

## Main definitions

* `Sending`: What the port issues.
* `FailsSafely`: What is wanted of an issue whose send fails.
* `NothingToUndo`: An issue that has no counter, no time and no follow-up.

## Theorems

* `handed_sendPacked`: What a send does, whatever becomes of the packet.
* `time_of_transmit_none`: A failed send leaves the caller's time alone.
* `counted_issueSync` and the others: The message is counted in any case.
* `failsSafely_iff`: When an issue fails safely.
-/

namespace RtosLwip

namespace Ptp

/-- What the port issues. The answer to a PDelayReq is taken with the follow-up
    that the handler of the PDelayReq sends after it. -/
inductive Sending where
  | pDelayReq
  | delayReq
  | announce
  | sync
  | followUp (time : TimeInternal)
  | pDelayResp (m : Message)
  | delayResp (time : TimeInternal) (header : MsgHeader)
  | pDelayRespFollowUp (time : TimeInternal) (header : MsgHeader)

namespace Sending

/-- The type of the message issued. -/
def type : Sending → MsgType
  | pDelayReq => .pDelayReq
  | delayReq => .delayReq
  | announce => .announce
  | sync => .sync
  | followUp _ => .followUp
  | pDelayResp _ => .pDelayResp
  | delayResp _ _ => .delayResp
  | pDelayRespFollowUp _ _ => .pDelayRespFollowUp

/-- Issue it. -/
def run (env : StepEnv) (s : Port) : Sending → Port
  | pDelayReq => issuePDelayReq env s
  | delayReq => issueDelayReq env s
  | announce => issueAnnounce env s
  | sync => issueSync env s
  | followUp time => issueFollowup env time s
  | pDelayResp m => answerPDelayReq env m false s
  | delayResp time header => issueDelayResp env time header s
  | pDelayRespFollowUp time header => issuePDelayRespFollowUp env time header s

/-- The number of follow-ups the issue may send: a follow-up itself is one. -/
def followUps : Sending → Nat
  | followUp _ | pDelayRespFollowUp _ _ => 1
  | _ => 0

end Sending

/-- The sequence counters of what the port issues. -/
def sentCounters (c : PtpClock) : List Int16 :=
  [c.sentPDelayReqSequenceId, c.sentDelayReqSequenceId, c.sentAnnounceSequenceId,
    c.sentSyncSequenceId]

/-- The times of egress the port keeps. -/
def egressTimes (c : PtpClock) : List TimeInternal := [c.pdelayT1, c.timestampDelayReqSend]

/-- A follow-up was handed to the network. -/
def Effect.isFollowUp : Effect → Bool
  | .sent .followUp _ | .sent .pDelayRespFollowUp _ => true
  | _ => false

/-- The number of follow-ups handed to the network. -/
def followUpsSent (s : Port) : Nat := s.history.countP Effect.isFollowUp

/-- What is wanted of an issue whose send fails: the port goes to the faulty
    state, nothing is counted, no time of egress is stored, and no follow-up is
    sent for the message. -/
def FailsSafely (env : StepEnv) (i : Sending) (s : Port) : Prop :=
  (i.run env s).clock.portDS.portState = .faulty ∧
  sentCounters (i.run env s).clock = sentCounters s.clock ∧
  egressTimes (i.run env s).clock = egressTimes s.clock ∧
  followUpsSent (i.run env s) = followUpsSent s + i.followUps

/-- The time that the answer to a PDelayReq hands to its follow-up after a send
    that failed: the time of receipt, with the latency added. -/
def answerTime (m : Message) (s : Port) : TimeInternal :=
  if m.time.seconds ≠ 0 then addTime m.time s.clock.outboundLatency else m.time

/-- An issue that keeps no counter and no time, and after which no follow-up is
    due. -/
def NothingToUndo (s : Port) : Sending → Prop
  | .pDelayReq | .delayReq | .announce | .sync => False
  | .followUp _ | .delayResp _ _ | .pDelayRespFollowUp _ _ => True
  | .pDelayResp m => ¬ ((answerTime m s).seconds ≠ 0 ∧ isTwoStep m = true)

variable {env : StepEnv}

/-- What a send does, whatever becomes of the packet: it reports the length of
    the message, touches the buffer only, and leaves the message in the
    history. -/
structure Handed (type : MsgType) (s : Port) (r : Nat × TimeInternal × Port) : Prop where
  length_ne : r.1 ≠ 0
  clock : ∃ buf, r.2.2.clock = { s.clock with msgObuf := buf }
  history : ∃ bytes, r.2.2.history = .sent type bytes :: s.history

theorem handed_sendPacked {type : MsgType} (htype : type.length ≠ 0) (buf : List UInt8)
    (time : TimeInternal) (s : Port) {r : Nat × TimeInternal × Port}
    (h : sendPacked env type buf time s = r) : Handed type s r := by
  subst h
  exact ⟨htype, ⟨buf, rfl⟩, _, rfl⟩

/-- A failed send leaves the time of the caller's variable alone. -/
theorem time_of_transmit_none {type : MsgType} (h : env.transmit type = none)
    {buf : List UInt8} {time : TimeInternal} {s : Port} {r : Nat × TimeInternal × Port}
    (hr : sendPacked env type buf time s = r) : r.2.1 = time := by
  subst hr
  rw [sendPacked, netSend, h]
  rfl

namespace Handed

variable {type : MsgType} {s : Port} {r : Nat × TimeInternal × Port}

theorem portState (h : Handed type s r) :
    r.2.2.clock.portDS.portState = s.clock.portDS.portState := by
  rcases h.clock with ⟨buf, hclock⟩
  rw [hclock]

theorem sentCounters (h : Handed type s r) : sentCounters r.2.2.clock = sentCounters s.clock := by
  rcases h.clock with ⟨buf, hclock⟩
  rw [hclock]
  rfl

theorem egressTimes (h : Handed type s r) : egressTimes r.2.2.clock = egressTimes s.clock := by
  rcases h.clock with ⟨buf, hclock⟩
  rw [hclock]
  rfl

theorem followUpsSent (h : Handed type s r) : followUpsSent r.2.2
    = followUpsSent s + if (Effect.sent type []).isFollowUp then 1 else 0 := by
  rcases h.history with ⟨bytes, hhist⟩
  rw [Ptp.followUpsSent, hhist, List.countP_cons]
  cases type
  all_goals rfl

end Handed

/-- An issue that does no more than hand its message to the network fails safely
    where the port is faulty already. -/
theorem failsSafely_of_handed (i : Sending) {s : Port} {r : Nat × TimeInternal × Port}
    (h : Handed i.type s r) (hrun : i.run env s = r.2.2)
    (hcount : (if (Effect.sent i.type []).isFollowUp then 1 else 0) = i.followUps) :
    FailsSafely env i s ↔ s.clock.portDS.portState = .faulty := by
  rw [FailsSafely, hrun, h.portState, h.sentCounters, h.egressTimes, h.followUpsSent, hcount]
  exact and_iff_left ⟨rfl, rfl, rfl⟩

/-- An issue that has counted its message does not fail safely. -/
theorem not_failsSafely_of_counted {i : Sending} {s : Port}
    (h : sentCounters (i.run env s).clock ≠ sentCounters s.clock) : ¬ FailsSafely env i s :=
  fun hsafe => h hsafe.2.1

theorem succ_ne_self (a : Int16) : a + 1 ≠ a := by
  intro h
  simp at h

/-! ### What the issues do -/

theorem handed_issueFollowup (time : TimeInternal) (s : Port) :
    ∃ r, Handed .followUp s r ∧ issueFollowup env time s = r.2.2 := by
  unfold issueFollowup
  dsimp only
  generalize hr : sendPacked env .followUp _ .zero s = r
  have hsent := handed_sendPacked (by decide) _ _ _ hr
  exact ⟨r, hsent, if_neg hsent.length_ne⟩

theorem handed_issueDelayResp (time : TimeInternal) (header : MsgHeader) (s : Port) :
    ∃ r, Handed .delayResp s r ∧ issueDelayResp env time header s = r.2.2 := by
  unfold issueDelayResp
  dsimp only
  generalize hr : sendPacked env .delayResp _ .zero s = r
  have hsent := handed_sendPacked (by decide) _ _ _ hr
  exact ⟨r, hsent, if_neg hsent.length_ne⟩

theorem handed_issuePDelayRespFollowUp (time : TimeInternal) (header : MsgHeader) (s : Port) :
    ∃ r, Handed .pDelayRespFollowUp s r ∧ issuePDelayRespFollowUp env time header s = r.2.2 := by
  unfold issuePDelayRespFollowUp
  dsimp only
  generalize hr : sendPacked env .pDelayRespFollowUp _ .zero s = r
  have hsent := handed_sendPacked (by decide) _ _ _ hr
  exact ⟨r, hsent, if_neg hsent.length_ne⟩

/-- The answer to a PDelayReq whose send fails, with the time it hands on. -/
theorem handed_issuePDelayResp (h : env.transmit .pDelayResp = none) (m : Message) (s : Port) :
    ∃ r, Handed .pDelayResp s r ∧
      issuePDelayResp env m.time m.header s = (answerTime m s, r.2.2) := by
  unfold issuePDelayResp
  dsimp only
  generalize hr : sendPacked env .pDelayResp _ m.time s = r
  have hsent := handed_sendPacked (by decide) _ _ _ hr
  refine ⟨r, hsent, ?_⟩
  rcases hsent.clock with ⟨buf, hclock⟩
  rw [if_neg hsent.length_ne, time_of_transmit_none h hr, answerTime, hclock]
  split
  · rfl
  · rfl

theorem counted_issuePDelayReq (s : Port) :
    (issuePDelayReq env s).clock.sentPDelayReqSequenceId
      = s.clock.sentPDelayReqSequenceId + 1 := by
  unfold issuePDelayReq
  dsimp only
  generalize hr : sendPacked env .pDelayReq _ _ s = r
  have hsent := handed_sendPacked (by decide) _ _ _ hr
  rcases hsent.clock with ⟨buf, hclock⟩
  rw [if_neg hsent.length_ne]
  split
  · simp only [Port.log, hclock]
  · simp only [Port.log, hclock]

theorem counted_issueDelayReq (s : Port) :
    (issueDelayReq env s).clock.sentDelayReqSequenceId = s.clock.sentDelayReqSequenceId + 1 := by
  unfold issueDelayReq
  dsimp only
  generalize hr : sendPacked env .delayReq _ _ s = r
  have hsent := handed_sendPacked (by decide) _ _ _ hr
  rcases hsent.clock with ⟨buf, hclock⟩
  rw [if_neg hsent.length_ne]
  split
  · simp only [hclock]
  · simp only [hclock]

theorem counted_issueAnnounce (s : Port) :
    (issueAnnounce env s).clock.sentAnnounceSequenceId = s.clock.sentAnnounceSequenceId + 1 := by
  unfold issueAnnounce
  dsimp only
  generalize hr : sendPacked env .announce _ _ s = r
  have hsent := handed_sendPacked (by decide) _ _ _ hr
  rcases hsent.clock with ⟨buf, hclock⟩
  rw [if_neg hsent.length_ne]
  simp only [hclock]

theorem counted_issueSync (s : Port) :
    (issueSync env s).clock.sentSyncSequenceId = s.clock.sentSyncSequenceId + 1 := by
  unfold issueSync
  dsimp only
  generalize hr : sendPacked env .sync _ _ s = r
  have hsent := handed_sendPacked (by decide) _ _ _ hr
  rcases hsent.clock with ⟨buf, hclock⟩
  rw [if_neg hsent.length_ne]
  split
  · rcases @handed_issueFollowup env (addTime r.2.1 r.2.2.clock.outboundLatency)
      { r.2.2 with clock.sentSyncSequenceId := r.2.2.clock.sentSyncSequenceId + 1 }
      with ⟨r', hfollow, heq⟩
    rcases hfollow.clock with ⟨buf', hclock'⟩
    rw [heq, hclock']
    simp only [hclock]
  · simp only [hclock]

/-- An issue whose send fails does what it should exactly when there is nothing
    to undo and the port is in the faulty state already. -/
theorem failsSafely_iff (env : StepEnv) (i : Sending) (s : Port)
    (h : env.transmit i.type = none) :
    FailsSafely env i s ↔ s.clock.portDS.portState = .faulty ∧ NothingToUndo s i := by
  cases i with
  | pDelayReq =>
      refine iff_of_false (not_failsSafely_of_counted fun heq => ?_) fun hand => hand.2
      exact succ_ne_self _ ((counted_issuePDelayReq s).symm.trans (List.cons.inj heq).1)
  | delayReq =>
      refine iff_of_false (not_failsSafely_of_counted fun heq => ?_) fun hand => hand.2
      have htail := (List.cons.inj heq).2
      exact succ_ne_self _ ((counted_issueDelayReq s).symm.trans (List.cons.inj htail).1)
  | announce =>
      refine iff_of_false (not_failsSafely_of_counted fun heq => ?_) fun hand => hand.2
      have htail := (List.cons.inj (List.cons.inj heq).2).2
      exact succ_ne_self _ ((counted_issueAnnounce s).symm.trans (List.cons.inj htail).1)
  | sync =>
      refine iff_of_false (not_failsSafely_of_counted fun heq => ?_) fun hand => hand.2
      have htail := (List.cons.inj (List.cons.inj (List.cons.inj heq).2).2).2
      exact succ_ne_self _ ((counted_issueSync s).symm.trans (List.cons.inj htail).1)
  | followUp time =>
      rcases @handed_issueFollowup env time s with ⟨r, hsent, heq⟩
      exact (failsSafely_of_handed (.followUp time) hsent heq rfl).trans (and_iff_left trivial).symm
  | delayResp time header =>
      rcases @handed_issueDelayResp env time header s with ⟨r, hsent, heq⟩
      exact (failsSafely_of_handed (.delayResp time header) hsent heq rfl).trans
        (and_iff_left trivial).symm
  | pDelayRespFollowUp time header =>
      rcases @handed_issuePDelayRespFollowUp env time header s with ⟨r, hsent, heq⟩
      exact (failsSafely_of_handed (.pDelayRespFollowUp time header) hsent heq rfl).trans
        (and_iff_left trivial).symm
  | pDelayResp m =>
      rcases handed_issuePDelayResp h m s with ⟨r, hsent, heq⟩
      have hrun : Sending.run env s (.pDelayResp m)
          = if (answerTime m s).seconds ≠ 0 ∧ isTwoStep m = true then
              issuePDelayRespFollowUp env (answerTime m s) m.header r.2.2
            else r.2.2 := by
        simp only [Sending.run, answerPDelayReq, heq]
        rw [if_neg Bool.false_ne_true]
      by_cases hfollow : (answerTime m s).seconds ≠ 0 ∧ isTwoStep m = true
      · -- the follow-up goes out although the answer did not
        rw [if_pos hfollow] at hrun
        refine iff_of_false (fun hsafe => ?_) fun hand => hand.2 hfollow
        rcases @handed_issuePDelayRespFollowUp env (answerTime m s) m.header r.2.2
          with ⟨r', hsent', heq'⟩
        have hcount := hsafe.2.2.2
        rw [hrun, heq', hsent'.followUpsSent, hsent.followUpsSent] at hcount
        exact absurd hcount (Nat.succ_ne_self _)
      · rw [if_neg hfollow] at hrun
        exact (failsSafely_of_handed (.pDelayResp m) hsent hrun rfl).trans
          (and_iff_left hfollow).symm

/-- A DelayResp that a faulty port cannot send leaves it faulty. -/
theorem failsSafely_faulty :
    FailsSafely (quietEnv []) (.delayResp .zero default)
      (toState (quietEnv []) .faulty (powerUp defaultRtOpts)) :=
  (failsSafely_iff (quietEnv []) (.delayResp .zero default) _ rfl).mpr ⟨rfl, trivial⟩

/-- A master whose first Announce is due. -/
def announcingMaster : Port :=
  run engineStep (powerUp masterOpts)
    [quietStep [], .expire .announceReceipt, quietStep [], .expire .announceInterval]

/-- The Announce cannot be sent, and the master counts it and stays a master. -/
theorem not_failsSafely_announce :
    (quietEnv []).transmit (Sending.announce).type = none ∧
    ¬ FailsSafely (quietEnv []) .announce announcingMaster := by
  refine ⟨rfl, fun hsafe => ?_⟩
  exact absurd hsafe.1 (by decide +kernel)

end Ptp

end RtosLwip
