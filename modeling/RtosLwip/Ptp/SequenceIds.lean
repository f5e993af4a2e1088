import RtosLwip.Ptp.PeerDelay
import RtosLwip.Ptp.Requests

/-!
# Sequence Numbers of Responses

A response belongs to the request whose sequence number it echoes, and a port
takes a response to its latest request only. The counter of the requests is one
ahead of the latest one. The handlers subtract the one again, and there C makes
an `int` of the counter first: the difference does not wrap as the counter does.

For a counter of -32768 the difference is -32769, which is the sequence number
of no message. The latest request has the number 32767 then, and its response
is rejected.

## Main definitions

* `poweredWith`: A port that has sent some requests already.
* `latestRequest`: The sequence number of the latest request sent.
* `Echoes`: A handler takes the messages that echo a number, and no others.

## Theorems

* `counts_run`: The counters are one ahead of the latest requests in every run.
* `toInt_sub_one_eq_iff`: When the test of the handlers succeeds.
* `echoes_iff`: When the responses to the latest request are taken.
-/

namespace RtosLwip

namespace Ptp

/-- A port whose counters of requests stand at some numbers. -/
def poweredWith (rtOpts : RunTimeOpts) (delayReq pDelayReq : Int16) : Port :=
  { powerUp rtOpts with
    clock.sentDelayReqSequenceId := delayReq
    clock.sentPDelayReqSequenceId := pDelayReq }

/-- The sequence number of the latest request of a type that was sent. -/
def latestRequest (type : MsgType) (s : Port) : Option Int16 :=
  (sentOf type s.history).head?.map sequenceOf

/-- The counters are one ahead of the latest requests in every run. -/
theorem counts_run (rtOpts : RunTimeOpts) (delayReq pDelayReq : Int16) (evs : List Event) :
    Counts (ledger (run engineStep (poweredWith rtOpts delayReq pDelayReq) evs)) := by
  refine run_invariant (I := fun s => Counts (ledger s)) counts_engineStep _ ?_ evs
  refine ⟨?_, fun bytes h => ?_, fun bytes h => ?_⟩
  · change 54 ≤ (List.replicate ptpPacketSize (0 : UInt8)).length
    rw [List.length_replicate]
    decide
  · exact absurd h (Option.some_ne_none bytes).symm
  · exact absurd h (Option.some_ne_none bytes).symm

/-- The handlers' test: the number is the one before the counter, and the
    counter has one before it. -/
theorem toInt_sub_one_eq_iff (c v : Int16) :
    c.toInt - 1 = v.toInt ↔ v = c - 1 ∧ c - 1 ≠ 32767 := by
  have hlo := c.le_toInt
  have hhi := c.toInt_lt
  have hlo' := v.le_toInt
  rw [← Int16.toInt_inj, ne_eq, ← Int16.toInt_inj, Int16.toInt_sub, Int16.toInt_one,
    show (32767 : Int16).toInt = 32767 from rfl]
  by_cases hmin : c.toInt = -32768
  · rw [hmin]
    refine iff_of_false (by omega) fun h => h.2 ?_
    decide
  · rw [Int.bmod_eq_of_le (by omega) (by omega)]
    omega

/-- A handler takes the messages that echo a number, and no others, among those
    that satisfy the other checks. -/
def Echoes (q : Int16) (checks : Message → Prop) (handler taken : Message → Port) (s : Port) :
    Prop :=
  ∀ m, checks m → (m.header.sequenceId = q → handler m = taken m) ∧
    (m.header.sequenceId ≠ q → handler m = s)

/-- A handler that makes the test takes the echoes of the latest request, unless
    its number is 32767. -/
theorem echoes_iff_of_test {c : Int16} {checks : Message → Prop} {handler taken : Message → Port}
    {s : Port} (htest : ∀ m, checks m →
      handler m = if c.toInt - 1 = m.header.sequenceId.toInt then taken m else s)
    (hexists : ∃ m, checks m ∧ m.header.sequenceId = c - 1 ∧ taken m ≠ s) :
    Echoes (c - 1) checks handler taken s ↔ c - 1 ≠ 32767 := by
  simp only [toInt_sub_one_eq_iff] at htest
  constructor
  · rintro hechoes hlast
    rcases hexists with ⟨m, hchecks, hseq, hne⟩
    have htaken := (hechoes m hchecks).1 hseq
    rw [htest m hchecks, if_neg fun h => h.2 hlast] at htaken
    exact hne htaken.symm
  · intro hlast m hchecks
    rw [htest m hchecks]
    exact ⟨fun hseq => if_pos ⟨hseq, hlast⟩, fun hseq => if_neg fun h => hseq h.1⟩

/-- The checks of a DelayResp, but for its sequence number. -/
def ChecksDelayResp (s : Port) (m : Message) : Prop :=
  MsgType.delayResp.length ≤ m.buf.length ∧
  isSamePortIdentity s.clock.portDS.portIdentity
    (msgUnpackDelayResp m.buf).requestingPortIdentity = true ∧
  isFromCurrentParent m s = true

/-- The checks of a PDelayResp, but for its sequence number. -/
def ChecksPDelayResp (s : Port) (m : Message) : Prop :=
  MsgType.pDelayResp.length ≤ m.buf.length ∧
  isSamePortIdentity s.clock.portDS.portIdentity
    (msgUnpackPDelayResp m.buf).requestingPortIdentity = true

/-- The checks of a PDelayRespFollowUp, but for its sequence number. -/
def ChecksPDelayRespFollowUp (m : Message) : Prop :=
  MsgType.pDelayRespFollowUp.length ≤ m.buf.length

/-- What becomes of the port when a PDelayResp is accepted. -/
def takePDelayResp (env : StepEnv) (s : Port) (m : Message) : Port :=
  let presp := msgUnpackPDelayResp m.buf
  let correctionField := scaledNanosecondsToInternalTime m.header.correctionfield
  if isTwoStep m then
    let s := { s with
      clock.waitingForPDelayRespFollowUp := true
      clock.pdelayT4 := m.time
      clock.pdelayT2 := toInternalTime env.localTime presp.timestamp
      clock.correctionFieldPDelayResp := correctionField }
    s.log (.awaiting m)
  else
    let s := { s with
      clock.waitingForPDelayRespFollowUp := false
      clock.pdelayT4 := m.time }
    let s := s.log (.peerDelay false m s.clock.pdelayT1 s.clock.pdelayT2 s.clock.pdelayT3
      s.clock.pdelayT4)
    updatePeerDelay correctionField false s

/-- What becomes of the port when a PDelayRespFollowUp is accepted. -/
def takePDelayRespFollowUp (env : StepEnv) (s : Port) (m : Message) : Port :=
  let prespfollow := msgUnpackPDelayRespFollowUp m.buf
  let s := { s with clock.pdelayT3 := toInternalTime env.localTime prespfollow.timestamp }
  let correctionField := addTime (scaledNanosecondsToInternalTime m.header.correctionfield)
    s.clock.correctionFieldPDelayResp
  let s := s.log (.peerDelay true m s.clock.pdelayT1 s.clock.pdelayT2 s.clock.pdelayT3
    s.clock.pdelayT4)
  let s := updatePeerDelay correctionField true s
  { s with clock.waitingForPDelayRespFollowUp := false }

theorem acceptPDelayResp_eq (env : StepEnv) (m : Message) (s : Port) :
    acceptPDelayResp env m false s
      = if isCurrentPDelayReq m s ∧ isSamePortIdentity s.clock.portDS.portIdentity
          (msgUnpackPDelayResp m.buf).requestingPortIdentity = true
        then takePDelayResp env s m else s := rfl

theorem acceptPDelayRespFollowUp_eq (env : StepEnv) (m : Message) (s : Port) :
    acceptPDelayRespFollowUp env m s
      = if s.clock.waitingForPDelayRespFollowUp = false then s
        else if isCurrentPDelayReq m s then takePDelayRespFollowUp env s m else s := rfl

section Handlers

variable (env : StepEnv) {s : Port}

theorem handleDelayResp_test (hmech : s.clock.portDS.delayMechanism = .e2e)
    (hst : s.clock.portDS.portState = .uncalibrated ∨ s.clock.portDS.portState = .slave)
    (m : Message) (h : ChecksDelayResp s m) : handleDelayResp env m s
      = if s.clock.sentDelayReqSequenceId.toInt - 1 = m.header.sequenceId.toInt
        then acceptDelayResp m s else s := by
  have hfollow : delayRespFollowing m s
      = if s.clock.sentDelayReqSequenceId.toInt - 1 = m.header.sequenceId.toInt
        then acceptDelayResp m s else s := by
    rw [delayRespFollowing_eq]
    exact if_congr (and_iff_left ⟨h.2.1, h.2.2⟩) rfl rfl
  unfold handleDelayResp
  rw [hmech, ← hfollow]
  dsimp only
  rw [if_neg (Nat.not_lt.mpr h.1)]
  rcases hst with hst | hst
  · rw [hst]
  · rw [hst]

theorem handlePDelayResp_test (hmech : s.clock.portDS.delayMechanism = .p2p)
    (hst : s.clock.portDS.portState = .master ∨ s.clock.portDS.portState = .slave)
    (m : Message) (h : ChecksPDelayResp s m) : handlePDelayResp env m false s
      = if s.clock.sentPDelayReqSequenceId.toInt - 1 = m.header.sequenceId.toInt
        then takePDelayResp env s m else s := by
  have haccept : acceptPDelayResp env m false s
      = if s.clock.sentPDelayReqSequenceId.toInt - 1 = m.header.sequenceId.toInt
        then takePDelayResp env s m else s := by
    rw [acceptPDelayResp_eq]
    exact if_congr (and_iff_left h.2) rfl rfl
  unfold handlePDelayResp
  rw [hmech, ← haccept]
  dsimp only
  rw [if_neg (Nat.not_lt.mpr h.1)]
  rcases hst with hst | hst
  · rw [hst]
  · rw [hst]

theorem handlePDelayRespFollowUp_test (hmech : s.clock.portDS.delayMechanism = .p2p)
    (hst : s.clock.portDS.portState = .master ∨ s.clock.portDS.portState = .slave)
    (hwait : s.clock.waitingForPDelayRespFollowUp = true) (m : Message)
    (h : ChecksPDelayRespFollowUp m) : handlePDelayRespFollowUp env m s
      = if s.clock.sentPDelayReqSequenceId.toInt - 1 = m.header.sequenceId.toInt
        then takePDelayRespFollowUp env s m else s := by
  have haccept : acceptPDelayRespFollowUp env m s
      = if s.clock.sentPDelayReqSequenceId.toInt - 1 = m.header.sequenceId.toInt
        then takePDelayRespFollowUp env s m else s := by
    rw [acceptPDelayRespFollowUp_eq, if_neg (by rw [hwait]; decide)]
    exact if_congr Iff.rfl rfl rfl
  unfold handlePDelayRespFollowUp
  rw [hmech, ← haccept]
  dsimp only
  rw [if_neg (Nat.not_lt.mpr h)]
  rcases hst with hst | hst
  · rw [hst]
  · rw [hst]

/-- A response of the parent to this port. -/
def responseTo (s : Port) (seq : Int16) (interval : Int8) : Message where
  header := { (default : MsgHeader) with
    flagField0 := flag0TwoStep
    sourcePortIdentity := s.clock.parentDS.parentPortIdentity
    sequenceId := seq
    logMessageInterval := interval }
  time := .zero
  buf := packIdentity 44 s.clock.portDS.portIdentity (List.replicate 54 0)

theorem checks_responseTo (s : Port) (seq : Int16) (interval : Int8) :
    ChecksDelayResp s (responseTo s seq interval) ∧ ChecksPDelayResp s (responseTo s seq interval) ∧
      ChecksPDelayRespFollowUp (responseTo s seq interval) := by
  have hlen : (responseTo s seq interval).buf.length = 54 := by
    rw [responseTo, length_packIdentity, List.length_replicate]
  have hport : isSamePortIdentity s.clock.portDS.portIdentity
      (unpackResp (responseTo s seq interval).buf).requestingPortIdentity = true := by
    rw [isSamePortIdentity_iff, responseTo,
      unpackResp_packIdentity _ (Nat.le_of_eq (List.length_replicate).symm)]
  have hparent : isFromCurrentParent (responseTo s seq interval) s = true := by
    rw [isFromCurrentParent, isSamePortIdentity_iff]
    rfl
  have hroom : 54 ≤ (responseTo s seq interval).buf.length := Nat.le_of_eq hlen.symm
  exact ⟨⟨hroom, hport, hparent⟩, ⟨hroom, hport⟩, hroom⟩

theorem isTwoStep_responseTo (s : Port) (seq : Int16) (interval : Int8) :
    isTwoStep (responseTo s seq interval) = true := by
  change getFlag flag0TwoStep flag0TwoStep = true
  decide

/-- A DelayResp that is taken can change the interval. -/
theorem acceptDelayResp_ne {m : Message} (s : Port)
    (h : m.header.logMessageInterval ≠ s.clock.portDS.logMinDelayReqInterval) :
    acceptDelayResp m s ≠ s := by
  intro heq
  have hledger := ledger_acceptDelayResp s m
  rw [heq] at hledger
  exact h (congrArg Ledger.interval hledger).symm

/-- A two-step PDelayResp that is taken is waited for. -/
theorem takePDelayResp_ne {m : Message} (s : Port) (h : isTwoStep m = true) :
    takePDelayResp env s m ≠ s := by
  intro heq
  have hlen := congrArg (fun s : Port => s.history.length) heq
  simp only [takePDelayResp, if_pos h, Port.log, List.length_cons] at hlen
  omega

/-- A PDelayRespFollowUp that is taken ends the waiting. -/
theorem takePDelayRespFollowUp_ne {m : Message}
    (hwait : s.clock.waitingForPDelayRespFollowUp = true) :
    takePDelayRespFollowUp env s m ≠ s := by
  intro heq
  have hflag := congrArg (fun s : Port => s.clock.waitingForPDelayRespFollowUp) heq
  rw [hwait] at hflag
  exact Bool.false_ne_true hflag

end Handlers

/-- The number of the latest request is the one before the counter. -/
theorem latestRequest_eq {s : Port} (h : Counts (ledger s)) :
    (∀ q, latestRequest .delayReq s = some q → q = s.clock.sentDelayReqSequenceId - 1) ∧
    ∀ q, latestRequest .pDelayReq s = some q → q = s.clock.sentPDelayReqSequenceId - 1 := by
  constructor
  · intro q hq
    rcases Option.map_eq_some_iff.mp hq with ⟨bytes, hbytes, rfl⟩
    exact h.delayReq bytes hbytes
  · intro q hq
    rcases Option.map_eq_some_iff.mp hq with ⟨bytes, hbytes, rfl⟩
    exact h.pDelayReq bytes hbytes

/-- In every run, whatever the counters were, the handlers take the responses
    that echo the latest request and no others exactly when the number of this
    request is not 32767. -/
theorem echoes_iff (rtOpts : RunTimeOpts) (delayReq pDelayReq : Int16) (evs : List Event)
    (env : StepEnv) (q : Int16) :
    let s := run engineStep (poweredWith rtOpts delayReq pDelayReq) evs
    (latestRequest .delayReq s = some q → s.clock.portDS.delayMechanism = .e2e →
      (s.clock.portDS.portState = .uncalibrated ∨ s.clock.portDS.portState = .slave) →
      (Echoes q (ChecksDelayResp s) (handleDelayResp env · s) (acceptDelayResp · s) s ↔
        q ≠ 32767)) ∧
    (latestRequest .pDelayReq s = some q → s.clock.portDS.delayMechanism = .p2p →
      (s.clock.portDS.portState = .master ∨ s.clock.portDS.portState = .slave) →
      (Echoes q (ChecksPDelayResp s) (handlePDelayResp env · false s) (takePDelayResp env s) s ↔
        q ≠ 32767) ∧
      (s.clock.waitingForPDelayRespFollowUp = true →
        (Echoes q ChecksPDelayRespFollowUp (handlePDelayRespFollowUp env · s)
          (takePDelayRespFollowUp env s) s ↔ q ≠ 32767))) := by
  intro s
  have hlatest := latestRequest_eq (counts_run rtOpts delayReq pDelayReq evs)
  rw [show run engineStep (poweredWith rtOpts delayReq pDelayReq) evs = s from rfl] at hlatest
  clear_value s
  refine ⟨fun hq hmech hst => ?_, fun hq hmech hst => ⟨?_, fun hwait => ?_⟩⟩
  · -- an interval the port does not have yet tells a response that was taken
    have hother : s.clock.portDS.logMinDelayReqInterval + 1
        ≠ s.clock.portDS.logMinDelayReqInterval := by
      intro h
      simp at h
    rw [hlatest.1 q hq]
    exact echoes_iff_of_test (handleDelayResp_test env hmech hst)
      ⟨responseTo s _ _, (checks_responseTo s _ _).1, rfl, acceptDelayResp_ne s hother⟩
  · rw [hlatest.2 q hq]
    exact echoes_iff_of_test (handlePDelayResp_test env hmech hst)
      ⟨responseTo s _ 0, (checks_responseTo s _ 0).2.1, rfl,
        takePDelayResp_ne env s (isTwoStep_responseTo s _ 0)⟩
  · rw [hlatest.2 q hq]
    exact echoes_iff_of_test (handlePDelayRespFollowUp_test env hmech hst hwait)
      ⟨responseTo s _ 0, (checks_responseTo s _ 0).2.2, rfl, takePDelayRespFollowUp_ne env hwait⟩

/-- The first PDelayReq: its responses are told from others. -/
theorem echoes_first_pDelayReq :
    let s := run engineStep (poweredWith peerRtOpts 0 0) requestSteps
    Echoes 0 (ChecksPDelayResp s) (handlePDelayResp (quietEnv []) · false s)
      (takePDelayResp (quietEnv []) s) s :=
  (((echoes_iff peerRtOpts 0 0 requestSteps (quietEnv []) 0).2 (by decide +kernel)
    (by decide +kernel) (by decide +kernel)).1).mpr (by decide)

/-- The response to the PDelayReq 32767 is rejected. -/
theorem response_rejected_at_wrap :
    let s := run engineStep (poweredWith peerRtOpts 0 32767) requestSteps
    latestRequest .pDelayReq s = some 32767 ∧
    ¬ Echoes 32767 (ChecksPDelayResp s) (handlePDelayResp (quietEnv []) · false s)
      (takePDelayResp (quietEnv []) s) s := by
  intro s
  have hclock : s.clock.sentPDelayReqSequenceId = -32768 := by decide +kernel
  have hmech : s.clock.portDS.delayMechanism = .p2p := by decide +kernel
  have hst : s.clock.portDS.portState = .master := by decide +kernel
  refine ⟨by decide +kernel, fun hechoes => ?_⟩
  have htest := handlePDelayResp_test (quietEnv []) hmech (Or.inl hst) _
    (checks_responseTo s 32767 0).2.1
  rw [hclock, if_neg (by decide)] at htest
  have htaken := (hechoes _ (checks_responseTo s 32767 0).2.1).1 rfl
  exact takePDelayResp_ne _ s (isTwoStep_responseTo s 32767 0) (htaken.symm.trans htest)

end Ptp

end RtosLwip
