import RtosLwip.Ptp.Bmc

/-!
# The Protocol Engine

`ptpProtocol.c`: issuing and handling messages, entering and leaving states,
and `ptpStateMachine`, one step of the port.

The three `switch` statements of `ptpStateMachine` are the three functions
`stateDecision`, `applyRecommended` and `doState`; `_handle` is the reception
`receive` followed by `dispatch`. `ptpNetSend` and its kin never return 0, so
the branches that go to the faulty state after a failed send are there but are
never taken.

## Main definitions

* `toState`: Leaving a state and entering another.
* `issueSync`, `issueAnnounce` and the others: Sending messages.
* `handleAnnounce`, `handleSync` and the others: Handling messages.
* `receive`, `dispatch`, `handle`: The message loop.
* `doInit`: Initialisation.
* `ptpStateMachine`: One step.
-/

namespace RtosLwip

namespace Ptp

/-- The interval of the announce receipt timer. -/
def announceReceiptInterval (s : Port) : Nat :=
  s.clock.portDS.announceReceiptTimeout.toNat * pow2ms s.clock.portDS.logAnnounceInterval.toInt

/-- A random interval of the delay request timer. -/
def delayReqInterval (env : StepEnv) (s : Port) : Nat :=
  getRand env .delayReqInterval (pow2ms (s.clock.portDS.logMinDelayReqInterval.toInt + 1))

/-- A random interval of the peer delay request timer. -/
def pDelayReqInterval (env : StepEnv) (s : Port) : Nat :=
  getRand env .pDelayReqInterval (pow2ms (s.clock.portDS.logMinPdelayReqInterval.toInt + 1))

/-- The tasks of `toState` when leaving the current state for `state`. -/
def leaveState (state : PtpState) (s : Port) : Port :=
  match s.clock.portDS.portState with
  | .master =>
    timerStop .pDelayReqInterval (timerStop .announceInterval (timerStop .syncInterval
      (initClock s)))
  | .uncalibrated | .slave =>
    if state = .uncalibrated ∨ state = .slave then
      s
    else
      let s := timerStop .announceReceipt s
      let s := match s.clock.portDS.delayMechanism with
        | .e2e => timerStop .delayReqInterval s
        | .p2p => timerStop .pDelayReqInterval s
        | .disabled => s
      initClock s
  | .passive => timerStop .announceReceipt (timerStop .pDelayReqInterval (initClock s))
  | .listening => timerStop .announceReceipt (initClock s)
  | .preMaster => timerStop .qualificationTimeout (initClock s)
  | _ => s

/-- The tasks of `toState` when entering `state`. The pre-master state is
    skipped: its case falls through to the master's. -/
def enterState (env : StepEnv) (state : PtpState) (s : Port) : Port :=
  match state with
  | .initializing =>
    { s with clock.portDS.portState := .initializing, clock.recommendedState := .initializing }
  | .faulty => { s with clock.portDS.portState := .faulty }
  | .disabled => { s with clock.portDS.portState := .disabled }
  | .listening =>
    let s := timerStart env .announceReceipt (announceReceiptInterval s) s
    { s with clock.portDS.portState := .listening, clock.recommendedState := .listening }
  | .preMaster | .master =>
    let s := { s with clock.portDS.logMinDelayReqInterval := defaultDelayReqInterval }
    let s := timerStart env .syncInterval (pow2ms s.clock.portDS.logSyncInterval.toInt) s
    let s := timerStart env .announceInterval (pow2ms s.clock.portDS.logAnnounceInterval.toInt) s
    let s := match s.clock.portDS.delayMechanism with
      | .p2p => timerStart env .pDelayReqInterval (getRand env .pDelayReqInterval
          (pow2ms s.clock.portDS.logMinPdelayReqInterval.toInt + 1)) s
      | _ => s
    { s with clock.portDS.portState := .master }
  | .passive =>
    let s := timerStart env .announceReceipt (announceReceiptInterval s) s
    let s := match s.clock.portDS.delayMechanism with
      | .p2p => timerStart env .pDelayReqInterval (pDelayReqInterval env s) s
      | _ => s
    { s with clock.portDS.portState := .passive }
  | .uncalibrated =>
    let s := timerStart env .announceReceipt (announceReceiptInterval s) s
    let s := match s.clock.portDS.delayMechanism with
      | .e2e => timerStart env .delayReqInterval (delayReqInterval env s) s
      | .p2p => timerStart env .pDelayReqInterval (pDelayReqInterval env s) s
      | .disabled => s
    { s with clock.portDS.portState := .uncalibrated }
  | .slave => { s with clock.portDS.portState := .slave }

/-- `toState`. -/
def toState (env : StepEnv) (state : PtpState) (s : Port) : Port :=
  enterState env state (leaveState state { s with clock.messageActivity := true })

/-- The time of egress of a message that carries one, with the latency added. -/
def egressTime (env : StepEnv) (type : MsgType) (latency : TimeInternal) : Option TimeInternal :=
  match env.transmit type with
  | some t => if t.seconds ≠ 0 then some (addTime t latency) else none
  | none => none

/-- Put a packed message into the output buffer and hand it to the network. -/
def sendPacked (env : StepEnv) (type : MsgType) (buf : List UInt8) (time : TimeInternal)
    (s : Port) : Nat × TimeInternal × Port :=
  netSend env type type.length time { s with clock.msgObuf := buf }

/-- `__issuePDelayReq`. -/
def issuePDelayReq (env : StepEnv) (s : Port) : Port :=
  let originTimestamp := fromInternalTime (env.time .pDelayReq) (env.localStamp .pDelayReq)
  let r := sendPacked env .pDelayReq (msgPackPDelayReq s.clock s.clock.msgObuf originTimestamp)
    (env.time .pDelayReq) s
  let s := r.2.2
  if r.1 = 0 then
    toState env .faulty s
  else
    let s := s.log (.requested s.clock.sentPDelayReqSequenceId
      (egressTime env .pDelayReq s.clock.outboundLatency))
    let s := { s with clock.sentPDelayReqSequenceId := s.clock.sentPDelayReqSequenceId + 1 }
    -- the timestamp is valid
    if r.2.1.seconds ≠ 0 then
      { s with clock.pdelayT1 := addTime r.2.1 s.clock.outboundLatency }
    else
      s

/-- `__issueDelayReq`. -/
def issueDelayReq (env : StepEnv) (s : Port) : Port :=
  let originTimestamp := fromInternalTime (env.time .delayReq) (env.localStamp .delayReq)
  let r := sendPacked env .delayReq (msgPackDelayReq s.clock s.clock.msgObuf originTimestamp)
    (env.time .delayReq) s
  let s := r.2.2
  if r.1 = 0 then
    toState env .faulty s
  else
    let s := { s with clock.sentDelayReqSequenceId := s.clock.sentDelayReqSequenceId + 1 }
    if r.2.1.seconds ≠ 0 then
      { s with clock.timestampDelayReqSend := addTime r.2.1 s.clock.outboundLatency }
    else
      s

/-- `_issueDelayReqTimerExpired`. -/
def issueDelayReqTimerExpired (env : StepEnv) (s : Port) : Port :=
  match s.clock.portDS.delayMechanism with
  | .e2e =>
    if s.clock.portDS.portState ≠ .slave then
      s
    else
      let r := timerExpired env .delayReqInterval s
      if r.1 then
        issueDelayReq env (timerStart env .delayReqInterval (delayReqInterval env r.2) r.2)
      else
        r.2
  | .p2p =>
    let r := timerExpired env .pDelayReqInterval s
    if r.1 then
      issuePDelayReq env (timerStart env .pDelayReqInterval (pDelayReqInterval env r.2) r.2)
    else
      r.2
  | .disabled => s

/-- `_issueAnnounce`. -/
def issueAnnounce (env : StepEnv) (s : Port) : Port :=
  let r := sendPacked env .announce (msgPackAnnounce s.clock s.clock.msgObuf) .zero s
  let s := r.2.2
  if r.1 = 0 then
    toState env .faulty s
  else
    { s with clock.sentAnnounceSequenceId := s.clock.sentAnnounceSequenceId + 1 }

/-- `_issueFollowup`. -/
def issueFollowup (env : StepEnv) (time : TimeInternal) (s : Port) : Port :=
  let preciseOriginTimestamp := fromInternalTime time (env.localStamp .followUp)
  let r := sendPacked env .followUp
    (msgPackFollowUp s.clock s.clock.msgObuf preciseOriginTimestamp) .zero s
  if r.1 = 0 then toState env .faulty r.2.2 else r.2.2

/-- `_issueSync`. -/
def issueSync (env : StepEnv) (s : Port) : Port :=
  let originTimestamp := fromInternalTime (env.time .sync) (env.localStamp .sync)
  let r := sendPacked env .sync (msgPackSync s.clock s.clock.msgObuf originTimestamp)
    (env.time .sync) s
  let s := r.2.2
  if r.1 = 0 then
    toState env .faulty s
  else
    let s := { s with clock.sentSyncSequenceId := s.clock.sentSyncSequenceId + 1 }
    if r.2.1.seconds ≠ 0 ∧ s.clock.defaultDS.twoStepFlag then
      issueFollowup env (addTime r.2.1 s.clock.outboundLatency) s
    else
      s

/-- `_issuePDelayResp`: the time of the caller's variable, and the port. -/
def issuePDelayResp (env : StepEnv) (time : TimeInternal) (header : MsgHeader) (s : Port) :
    TimeInternal × Port :=
  let requestReceiptTimestamp := fromInternalTime time (env.localStamp .pDelayResp)
  let r := sendPacked env .pDelayResp
    (msgPackPDelayResp s.clock.msgObuf header requestReceiptTimestamp) time s
  let s := r.2.2
  if r.1 = 0 then
    (r.2.1, toState env .faulty s)
  else if r.2.1.seconds ≠ 0 then
    (addTime r.2.1 s.clock.outboundLatency, s)
  else
    (r.2.1, s)

/-- `_issueDelayResp`. The source gives the length of a PDelayResp, which is the
    same. -/
def issueDelayResp (env : StepEnv) (time : TimeInternal) (header : MsgHeader) (s : Port) : Port :=
  let requestReceiptTimestamp := fromInternalTime time (env.localStamp .delayResp)
  let r := sendPacked env .delayResp
    (msgPackDelayResp s.clock s.clock.msgObuf header requestReceiptTimestamp) .zero s
  if r.1 = 0 then toState env .faulty r.2.2 else r.2.2

/-- `_issuePDelayRespFollowUp`. -/
def issuePDelayRespFollowUp (env : StepEnv) (time : TimeInternal) (header : MsgHeader)
    (s : Port) : Port :=
  let responseOriginTimestamp := fromInternalTime time (env.localStamp .pDelayRespFollowUp)
  let r := sendPacked env .pDelayRespFollowUp
    (msgPackPDelayRespFollowUp s.clock.msgObuf header responseOriginTimestamp) .zero s
  if r.1 = 0 then toState env .faulty r.2.2 else r.2.2

/-- Whether a message comes from the current parent. -/
def isFromCurrentParent (m : Message) (s : Port) : Bool :=
  isSamePortIdentity s.clock.parentDS.parentPortIdentity m.header.sourcePortIdentity

/-- The Announce in `m` is accepted: a state decision is due. -/
def acceptAnnounce (m : Message) (s : Port) : Port :=
  { s with clock.events.stateDecisionEvent := true }.log
    (.announced m.header (msgUnpackAnnounce m.buf))

/-- `__handleAnnounce` in the uncalibrated and the slave state: an Announce of
    the parent updates the data sets, any other one goes into the table. -/
def announceFollowing (env : StepEnv) (m : Message) (s : Port) : Port :=
  let announce := msgUnpackAnnounce m.buf
  if isFromCurrentParent m s then
    let s := s1 m.header announce (acceptAnnounce m s)
    timerStart env .announceReceipt (announceReceiptInterval s) s
  else
    addForeign m.header announce (acceptAnnounce m s)

/-- `__handleAnnounce`. -/
def handleAnnounce (env : StepEnv) (m : Message) (isFromSelf : Bool) (s : Port) : Port :=
  if m.buf.length < MsgType.announce.length then
    toState env .faulty s
  else if isFromSelf then
    s
  else
    match s.clock.portDS.portState with
    | .initializing | .faulty | .disabled => s
    | .uncalibrated | .slave => announceFollowing env m s
    | .passive =>
      let s := timerStart env .announceReceipt (announceReceiptInterval s) s
      addForeign m.header (msgUnpackAnnounce m.buf) (acceptAnnounce m s)
    | .master | .preMaster | .listening =>
      addForeign m.header (msgUnpackAnnounce m.buf) (acceptAnnounce m s)

/-- Whether a message has the two-step flag. -/
def isTwoStep (m : Message) : Bool := getFlag m.header.flagField0 flag0TwoStep

/-- `__handleSync` in the uncalibrated and the slave state. -/
def syncFollowing (env : StepEnv) (m : Message) (isFromSelf : Bool) (s : Port) : Port :=
  if isFromSelf then
    s
  else if isFromCurrentParent m s = false then
    s
  else
    let s := { s with clock.timestampSyncRecieve := m.time }
    let correctionField := scaledNanosecondsToInternalTime m.header.correctionfield
    if isTwoStep m then
      let s := { s with
        clock.waitingForFollowUp := true
        clock.recvSyncSequenceId := m.header.sequenceId
        clock.correctionFieldSync := correctionField }
      s.log (.awaiting m)
    else
      let s := { s with clock.waitingForFollowUp := false }
      let originTimestamp := toInternalTime env.localTime (msgUnpackSync m.buf)
      let s := s.log (.offset false m s.clock.timestampSyncRecieve originTimestamp correctionField)
      let s := updateOffset s.clock.timestampSyncRecieve originTimestamp correctionField s
      issueDelayReqTimerExpired env (updateClock env s)

/-- `__handleSync`. -/
def handleSync (env : StepEnv) (m : Message) (isFromSelf : Bool) (s : Port) : Port :=
  if m.buf.length < MsgType.sync.length then
    toState env .faulty s
  else
    match s.clock.portDS.portState with
    | .uncalibrated | .slave => syncFollowing env m isFromSelf s
    | .passive => issueDelayReqTimerExpired env s
    | _ => s

/-- `__handleFollowUp` in the uncalibrated and the slave state. -/
def followUpFollowing (env : StepEnv) (m : Message) (s : Port) : Port :=
  if s.clock.waitingForFollowUp = false then
    s
  else if isFromCurrentParent m s = false then
    s
  else if s.clock.recvSyncSequenceId ≠ m.header.sequenceId then
    s
  else
    let s := { s with clock.waitingForFollowUp := false }
    let preciseOriginTimestamp := toInternalTime env.localTime (msgUnpackFollowUp m.buf)
    let correctionField := addTime (scaledNanosecondsToInternalTime m.header.correctionfield)
      s.clock.correctionFieldSync
    let s := s.log (.offset true m s.clock.timestampSyncRecieve preciseOriginTimestamp
      correctionField)
    let s := updateOffset s.clock.timestampSyncRecieve preciseOriginTimestamp correctionField s
    issueDelayReqTimerExpired env (updateClock env s)

/-- `__handleFollowUp`. -/
def handleFollowUp (env : StepEnv) (m : Message) (isFromSelf : Bool) (s : Port) : Port :=
  if m.buf.length < MsgType.followUp.length then
    toState env .faulty s
  else if isFromSelf then
    s
  else
    match s.clock.portDS.portState with
    | .uncalibrated | .slave => followUpFollowing env m s
    | .passive => issueDelayReqTimerExpired env s
    | _ => s

/-- `__handleDelayReq`. -/
def handleDelayReq (env : StepEnv) (m : Message) (s : Port) : Port :=
  match s.clock.portDS.delayMechanism with
  | .e2e =>
    if m.buf.length < MsgType.delayReq.length then
      toState env .faulty s
    else
      match s.clock.portDS.portState with
      | .master => issueDelayResp env m.time m.header s
      | _ => s
  | _ => s

/-- `__handleDelayResp` in the uncalibrated and the slave state. -/
def delayRespFollowing (m : Message) (s : Port) : Port :=
  let resp := msgUnpackDelayResp m.buf
  if s.clock.sentDelayReqSequenceId.toInt - 1 = m.header.sequenceId.toInt ∧
      isSamePortIdentity s.clock.portDS.portIdentity resp.requestingPortIdentity = true ∧
      isFromCurrentParent m s = true then
    let recieved := toInternalTime s.clock.timestampDelayReqRecieve resp.timestamp
    let s := { s with clock.timestampDelayReqRecieve := recieved }
    let correctionField := scaledNanosecondsToInternalTime m.header.correctionfield
    let s := updateDelay s.clock.timestampDelayReqSend s.clock.timestampDelayReqRecieve
      correctionField s
    { s with clock.portDS.logMinDelayReqInterval := m.header.logMessageInterval }
  else
    s

/-- `__handleDelayResp`. -/
def handleDelayResp (env : StepEnv) (m : Message) (s : Port) : Port :=
  match s.clock.portDS.delayMechanism with
  | .e2e =>
    if m.buf.length < MsgType.delayResp.length then
      toState env .faulty s
    else
      match s.clock.portDS.portState with
      | .uncalibrated | .slave => delayRespFollowing m s
      | _ => s
  | _ => s

/-- `__handlePDelayReq` in the states that answer. -/
def answerPDelayReq (env : StepEnv) (m : Message) (isFromSelf : Bool) (s : Port) : Port :=
  if isFromSelf then
    s
  else
    let r := issuePDelayResp env m.time m.header s
    if r.1.seconds ≠ 0 ∧ isTwoStep m = true then
      issuePDelayRespFollowUp env r.1 m.header r.2
    else
      r.2

/-- `__handlePDelayReq`. -/
def handlePDelayReq (env : StepEnv) (m : Message) (isFromSelf : Bool) (s : Port) : Port :=
  match s.clock.portDS.delayMechanism with
  | .p2p =>
    if m.buf.length < MsgType.pDelayReq.length then
      toState env .faulty s
    else
      match s.clock.portDS.portState with
      | .passive | .slave | .master => answerPDelayReq env m isFromSelf s
      | _ => s
  | _ => s

/-- Whether a message echoes the sequence number of the latest PDelayReq. -/
def isCurrentPDelayReq (m : Message) (s : Port) : Prop :=
  s.clock.sentPDelayReqSequenceId.toInt - 1 = m.header.sequenceId.toInt

instance (m : Message) (s : Port) : Decidable (isCurrentPDelayReq m s) :=
  inferInstanceAs (Decidable (_ = _))

/-- `__handlePDelayResp` in the master and the slave state. -/
def acceptPDelayResp (env : StepEnv) (m : Message) (isFromSelf : Bool) (s : Port) : Port :=
  if isFromSelf then
    s
  else
    let presp := msgUnpackPDelayResp m.buf
    if isCurrentPDelayReq m s ∧
        isSamePortIdentity s.clock.portDS.portIdentity presp.requestingPortIdentity = true then
      let correctionField := scaledNanosecondsToInternalTime m.header.correctionfield
      if isTwoStep m then
        let s := { s with
          clock.waitingForPDelayRespFollowUp := true
          clock.pdelayT4 := m.time
          clock.pdelayT2 := toInternalTime env.localTime presp.timestamp
          clock.correctionFieldPDelayResp := correctionField }
        s.log (.awaiting m)
      else
        let s := { s with
          clock.waitingForPDelayRespFollowUp := false
          clock.pdelayT4 := m.time }
        let s := s.log (.peerDelay false m s.clock.pdelayT1 s.clock.pdelayT2 s.clock.pdelayT3
          s.clock.pdelayT4)
        updatePeerDelay correctionField false s
    else
      s

/-- `__handlePDelayResp`. -/
def handlePDelayResp (env : StepEnv) (m : Message) (isFromSelf : Bool) (s : Port) : Port :=
  match s.clock.portDS.delayMechanism with
  | .p2p =>
    if m.buf.length < MsgType.pDelayResp.length then
      toState env .faulty s
    else
      match s.clock.portDS.portState with
      | .master | .slave => acceptPDelayResp env m isFromSelf s
      | _ => s
  | _ => s

/-- `__handlePDelayRespFollowUp` in the master and the slave state. Neither the
    sender nor the port the message is for is looked at. -/
def acceptPDelayRespFollowUp (env : StepEnv) (m : Message) (s : Port) : Port :=
  if s.clock.waitingForPDelayRespFollowUp = false then
    s
  else if isCurrentPDelayReq m s then
    let prespfollow := msgUnpackPDelayRespFollowUp m.buf
    let s := { s with clock.pdelayT3 := toInternalTime env.localTime prespfollow.timestamp }
    let correctionField := addTime (scaledNanosecondsToInternalTime m.header.correctionfield)
      s.clock.correctionFieldPDelayResp
    let s := s.log (.peerDelay true m s.clock.pdelayT1 s.clock.pdelayT2 s.clock.pdelayT3
      s.clock.pdelayT4)
    let s := updatePeerDelay correctionField true s
    { s with clock.waitingForPDelayRespFollowUp := false }
  else
    s

/-- `__handlePDelayRespFollowUp`. -/
def handlePDelayRespFollowUp (env : StepEnv) (m : Message) (s : Port) : Port :=
  match s.clock.portDS.delayMechanism with
  | .p2p =>
    if m.buf.length < MsgType.pDelayRespFollowUp.length then
      toState env .faulty s
    else
      match s.clock.portDS.portState with
      | .slave | .master => acceptPDelayRespFollowUp env m s
      | _ => s
  | _ => s

/-- What `_handle` finds: nothing for a handler, a message shorter than a
    header, or a message. -/
inductive Received where
  | nothing
  | short
  | message (m : Message)
  deriving DecidableEq, Repr

/-- Unpack and check the header of a packet. -/
def unpackMessage (p : Packet) (s : Port) : Received :=
  if p.payload.length < headerLength then
    .short
  else
    let header := msgUnpackHeader p.payload
    if header.versionPTP ≠ s.clock.portDS.versionNumber then
      .nothing
    else if header.domainNumber ≠ s.clock.defaultDS.domainNumber then
      .nothing
    else
      -- the inbound latency is not taken off a message of our own
      let isFromSelf := isSamePortIdentity s.clock.portDS.portIdentity header.sourcePortIdentity
      let time := if isFromSelf = false ∧ 0 < p.time.seconds then
        subTime p.time s.clock.inboundLatency else p.time
      .message ⟨header, time, p.payload⟩

/-- The reception of `_handle`: an event packet, or else a general one. -/
def receive (s : Port) : Received × Port :=
  if s.clock.messageActivity = false ∧ ptpNetSelect s = false then
    (.nothing, s)
  else
    let e := ptpNetRecvEvent s
    match e.1 with
    | some p => (unpackMessage p e.2, { e.2 with clock.messageActivity := true })
    | none =>
      let g := ptpNetRecvGeneral e.2
      match g.1 with
      | some p => (unpackMessage p g.2, { g.2 with clock.messageActivity := true })
      | none => (.nothing, g.2)

/-- The `switch` of `_handle` over the message types. -/
def dispatch (env : StepEnv) (m : Message) (s : Port) : Port :=
  let isFromSelf := isSamePortIdentity s.clock.portDS.portIdentity m.header.sourcePortIdentity
  match MsgType.ofCode m.header.messageType with
  | some .announce => handleAnnounce env m isFromSelf s
  | some .sync => handleSync env m isFromSelf s
  | some .followUp => handleFollowUp env m isFromSelf s
  | some .delayReq => handleDelayReq env m s
  | some .pDelayReq => handlePDelayReq env m isFromSelf s
  | some .delayResp => handleDelayResp env m s
  | some .pDelayResp => handlePDelayResp env m isFromSelf s
  | some .pDelayRespFollowUp => handlePDelayRespFollowUp env m s
  | some .management => s
  | some .signaling => s
  | none => s

/-- `_handle`. -/
def handle (env : StepEnv) (s : Port) : Port :=
  let r := receive (arrive env s)
  match r.1 with
  | .nothing => r.2
  | .short => toState env .faulty r.2
  | .message m => dispatch env m (r.2.log (.received m))

/-- `_doInit`. -/
def doInit (env : StepEnv) (s : Port) : Bool × Port :=
  let r := ptpNetInit env s
  if r.1 = false then
    (false, r.2)
  else
    let s := { r.2 with clock := initData r.2.clock }.log .reset
    let s := m1 (initClock (initTimer s))
    (true, { s with clock.msgObuf := msgPackHeader s.clock s.clock.msgObuf })

/-- A clock that may not become master. -/
def isSlaveOnly (s : Port) : Bool :=
  s.clock.defaultDS.slaveOnly || s.clock.defaultDS.clockQuality.clockClass = 255

/-- The first `switch` of `ptpStateMachine`: the state decision. -/
def stateDecision (s : Port) : Port :=
  match s.clock.portDS.portState with
  | .listening | .uncalibrated | .slave | .preMaster | .master | .passive =>
    if s.clock.events.stateDecisionEvent then
      let r := bmc { s with clock.events.stateDecisionEvent := false }
      let recommended := if (r.1 = .master ∨ r.1 = .passive) ∧ isSlaveOnly r.2 = true then
        .listening else r.1
      { r.2 with clock.recommendedState := recommended }
    else
      s
  | _ => s

/-- The second `switch`: follow the recommended state. -/
def applyRecommended (env : StepEnv) (s : Port) : Port :=
  match s.clock.recommendedState with
  | .master =>
    match s.clock.portDS.portState with
    | .preMaster =>
      let r := timerExpired env .qualificationTimeout s
      if r.1 then toState env .master r.2 else r.2
    | .master => s
    | _ => toState env .preMaster s
  | .passive =>
    if s.clock.portDS.portState ≠ .passive then toState env .passive s else s
  | .slave =>
    match s.clock.portDS.portState with
    | .uncalibrated =>
      let s := if s.clock.events.masterClockSelected then
        toState env .slave { s with clock.events.masterClockSelected := false } else s
      { s with clock.events.masterClockChanged := false }
    | .slave =>
      let s := if s.clock.events.synchronizationFault then
        toState env .uncalibrated { s with clock.events.synchronizationFault := false } else s
      if s.clock.events.masterClockChanged then
        toState env .uncalibrated { s with clock.events.masterClockChanged := false }
      else
        s
    | _ => toState env .uncalibrated s
  | .listening =>
    if s.clock.portDS.portState ≠ .listening then toState env .listening s else s
  | _ => s

/-- The foreign masters are forgotten. -/
def forgetMasters (s : Port) : Port :=
  { s with clock.foreignMasterDS.count := 0, clock.foreignMasterDS.i := 0 }.log .reset

/-- The announce receipt timeout: forget the foreign masters, and become master
    where this clock may. -/
def announceReceiptTimeout (env : StepEnv) (s : Port) : Port :=
  let s := forgetMasters s
  if isSlaveOnly s = false then
    toState env .master { m1 s with clock.recommendedState := .master }
  else if s.clock.portDS.portState ≠ .listening then
    toState env .listening s
  else
    s

/-- What a master sends when its timers have expired. -/
def masterTimers (env : StepEnv) (s : Port) : Port :=
  let r := timerExpired env .syncInterval s
  let s := if r.1 then issueSync env r.2 else r.2
  let r := timerExpired env .announceInterval s
  if r.1 then issueAnnounce env r.2 else r.2

/-- The third `switch`: act in the current state. -/
def doState (env : StepEnv) (s : Port) : Port :=
  match s.clock.portDS.portState with
  | .initializing =>
    let r := doInit env s
    if r.1 then toState env .listening r.2 else toState env .faulty r.2
  | .faulty => toState env .initializing s
  | .disabled => handle env s
  | .listening | .uncalibrated | .slave | .passive =>
    let r := timerExpired env .announceReceipt s
    if r.1 then announceReceiptTimeout env r.2 else handle env r.2
  | .master => issueDelayReqTimerExpired env (handle env (masterTimers env s))
  | .preMaster => s

/-- `ptpStateMachine`: one step of the port. -/
def ptpStateMachine (env : StepEnv) (s : Port) : Port :=
  doState env (applyRecommended env (stateDecision { s with clock.messageActivity := false }))

end Ptp

end RtosLwip
