import RtosLwip.Ptp.Engine

/-!
# The Protocol View of a Port

The part of a port that the protocol is about: its state, the data sets, the
foreign-master table, what it remembers of a message whose follow-up has not
come yet, and its history. The servo, the filters, the timers, the queues and
the output buffer are left out, but for the buffer's length.

`view` takes a port to its view. Every function of the daemon either leaves the
view alone or changes it in a way that can be said in terms of the view, and
that is what this file states, once for each function. The functions that
change the view have a counterpart here: `View.toState`, `View.m1` and so on.

## Main definitions

* `View`, `view`: The protocol view.
* `View.clear`, `View.toState`, `View.m1`, `View.s1`, `View.addForeign`,
  `View.stateDecision`, `View.timeout`, `View.init`: What changes it.

## Theorems

* `view_updateOffset`, `view_updateDelay`, `view_updatePeerDelay`,
  `view_updateClock`: The servo leaves the view alone, up to a clearing.
* `view_toState`, `view_bmc`, `view_stateDecision`, `view_doInit`: The
  functions that change it.
-/

namespace RtosLwip

namespace Ptp

/-- The protocol view of a port. -/
structure View where
  portState : PtpState
  recommendedState : PtpState
  defaultDS : DefaultDS
  portIdentity : PortIdentity
  rtOpts : RunTimeOpts
  parentDS : ParentDS
  stepsRemoved : Int16
  timePropertiesDS : TimePropertiesDS
  foreignMasterDS : ForeignMasterDS
  stateDecisionEvent : Bool
  waitingForFollowUp : Bool
  recvSyncSequenceId : Int16
  timestampSyncRecieve : TimeInternal
  correctionFieldSync : TimeInternal
  waitingForPDelayRespFollowUp : Bool
  pdelayT1 : TimeInternal
  pdelayT2 : TimeInternal
  pdelayT4 : TimeInternal
  sentPDelayReqSequenceId : Int16
  obufLength : Nat
  history : List Effect

/-- The view of a port. -/
def view (s : Port) : View where
  portState := s.clock.portDS.portState
  recommendedState := s.clock.recommendedState
  defaultDS := s.clock.defaultDS
  portIdentity := s.clock.portDS.portIdentity
  rtOpts := s.clock.rtOpts
  parentDS := s.clock.parentDS
  stepsRemoved := s.clock.currentDS.stepsRemoved
  timePropertiesDS := s.clock.timePropertiesDS
  foreignMasterDS := s.clock.foreignMasterDS
  stateDecisionEvent := s.clock.events.stateDecisionEvent
  waitingForFollowUp := s.clock.waitingForFollowUp
  recvSyncSequenceId := s.clock.recvSyncSequenceId
  timestampSyncRecieve := s.clock.timestampSyncRecieve
  correctionFieldSync := s.clock.correctionFieldSync
  waitingForPDelayRespFollowUp := s.clock.waitingForPDelayRespFollowUp
  pdelayT1 := s.clock.pdelayT1
  pdelayT2 := s.clock.pdelayT2
  pdelayT4 := s.clock.pdelayT4
  sentPDelayReqSequenceId := s.clock.sentPDelayReqSequenceId
  obufLength := s.clock.msgObuf.length
  history := s.history

namespace View

/-- Write an effect into the history. -/
def log (e : Effect) (v : View) : View := { v with history := e :: v.history }

/-- What `initClock` does. -/
def clear (v : View) : View :=
  { v with
    waitingForFollowUp := false
    waitingForPDelayRespFollowUp := false
    pdelayT1 := .zero
    pdelayT2 := .zero
    pdelayT4 := .zero
    history := .cleared :: v.history }

/-- Whether leaving `old` for `new` clears the pairing. -/
def clears (old new : PtpState) : Bool :=
  match old with
  | .master | .passive | .listening | .preMaster => true
  | .uncalibrated | .slave => !(new = .uncalibrated || new = .slave)
  | .initializing | .faulty | .disabled => false

/-- What `toState` does. -/
def toState (state : PtpState) (v : View) : View :=
  let v := if clears v.portState state then v.clear else v
  { v with
    portState := if state = .preMaster then .master else state
    recommendedState := if state = .initializing ∨ state = .listening then state
      else v.recommendedState }

/-- What `m1` does. -/
def m1 (v : View) : View :=
  { v with
    stepsRemoved := 0
    parentDS := {
      parentPortIdentity := ⟨v.defaultDS.clockIdentity, 0⟩
      grandmasterIdentity := v.defaultDS.clockIdentity
      grandmasterClockQuality := v.defaultDS.clockQuality
      grandmasterPriority1 := v.defaultDS.priority1
      grandmasterPriority2 := v.defaultDS.priority2 }
    timePropertiesDS := ⟨v.rtOpts.currentUtcOffset, false, false, false, false, false, false,
      defaultTimeSource⟩ }

/-- What `s1` does. -/
def s1 (header : MsgHeader) (announce : MsgAnnounce) (v : View) : View :=
  { v with
    stepsRemoved := announce.stepsRemoved + 1
    parentDS := parentOf header announce
    timePropertiesDS := timePropertiesOf header announce }

/-- What `addForeign` does. -/
def addForeign (header : MsgHeader) (announce : MsgAnnounce) (v : View) : View :=
  let r := addForeignRecord v.foreignMasterDS header announce
  { v with
    foreignMasterDS := r.2
    history := .added r.1 header announce :: v.history }

/-- A clock that may not become master. -/
def slaveOnly (v : View) : Bool :=
  v.defaultDS.slaveOnly || v.defaultDS.clockQuality.clockClass = 255

/-- The record `bmc` selects. -/
def best (v : View) : Nat := bmcBest v.portIdentity.clockIdentity v.foreignMasterDS

/-- The comparison of the local clock with an announced one. -/
def compareLocal (header : MsgHeader) (announce : MsgAnnounce) (v : View) : Int :=
  let h : MsgHeader := default
  let a : MsgAnnounce := default
  bmcDataSetComparison v.portIdentity.clockIdentity
    { h with sourcePortIdentity.clockIdentity := v.defaultDS.clockIdentity }
    { a with
      grandmasterPriority1 := v.defaultDS.priority1
      grandmasterIdentity := v.defaultDS.clockIdentity
      grandmasterClockQuality := v.defaultDS.clockQuality
      grandmasterPriority2 := v.defaultDS.priority2
      stepsRemoved := 0 } header announce

/-- What `bmcStateDecision` does. -/
def decideOn (header : MsgHeader) (announce : MsgAnnounce) (v : View) : PtpState × View :=
  if v.foreignMasterDS.count = 0 ∧ v.portState = .listening then
    (.listening, v)
  else if v.compareLocal header announce = aBetter then
    (.master, v.m1)
  else if v.defaultDS.clockQuality.clockClass < 128 then
    (.passive, v)
  else
    (.slave, (v.s1 header announce).log (.installed header announce))

/-- What `bmc` does. -/
def bmc (v : View) : PtpState × View :=
  let r := v.foreignMasterDS.record v.best
  decideOn r.header r.announce { v with foreignMasterDS.best := v.best }

/-- The states in which the state decision is made. -/
def decides (v : View) : Bool :=
  v.portState ≠ .initializing && v.portState ≠ .faulty && v.portState ≠ .disabled

/-- What the state decision does. -/
def stateDecision (v : View) : View :=
  if v.decides && v.stateDecisionEvent then
    let r := ({ v with stateDecisionEvent := false } : View).bmc
    { r.2 with recommendedState :=
        if (r.1 = .master ∨ r.1 = .passive) ∧ v.slaveOnly = true then .listening else r.1 }
  else
    v

/-- The foreign masters are forgotten. -/
def forgetMasters (v : View) : View :=
  { v with
    foreignMasterDS.count := 0
    foreignMasterDS.i := 0
    history := .reset :: v.history }

/-- What the announce receipt timeout does. -/
def timeout (v : View) : View :=
  let w := v.forgetMasters
  if v.slaveOnly = false then
    ({ w.m1 with recommendedState := .master } : View).toState .master
  else if v.portState ≠ .listening then
    w.toState .listening
  else
    w

/-- What `initData` does on an interface with the address `hwaddr`. -/
def initData (hwaddr : PortUuid) (v : View) : View :=
  { v with
    defaultDS := {
      twoStepFlag := true
      clockIdentity := eui48ToEui64 hwaddr
      numberPorts := numberPorts
      clockQuality := v.rtOpts.clockQuality
      priority1 := v.rtOpts.priority1
      priority2 := v.rtOpts.priority2
      domainNumber := v.rtOpts.domainNumber
      slaveOnly := v.rtOpts.slaveOnly }
    portIdentity := ⟨eui48ToEui64 hwaddr, numberPorts⟩
    foreignMasterDS.count := 0
    foreignMasterDS.capacity := v.rtOpts.maxForeignRecords }

/-- What a successful `_doInit` does. -/
def init (hwaddr : PortUuid) (v : View) : View :=
  ((v.initData hwaddr).log .reset).clear.m1

/-- What accepting an Announce does, before it is used. -/
def announced (m : Message) (v : View) : View :=
  { v with
    stateDecisionEvent := true
    history := .announced m.header (msgUnpackAnnounce m.buf) :: v.history }

/-- What a two-step Sync of the parent does. -/
def awaitFollowUp (m : Message) (v : View) : View :=
  { v with
    timestampSyncRecieve := m.time
    waitingForFollowUp := true
    recvSyncSequenceId := m.header.sequenceId
    correctionFieldSync := scaledNanosecondsToInternalTime m.header.correctionfield
    history := .awaiting m :: v.history }

/-- What a one-step Sync of the parent does, before the clock is steered. -/
def oneStepSync (m : Message) (origin : TimeInternal) (v : View) : View :=
  { v with
    timestampSyncRecieve := m.time
    waitingForFollowUp := false
    history := .offset false m m.time origin
      (scaledNanosecondsToInternalTime m.header.correctionfield) :: v.history }

/-- What the follow-up of a two-step Sync does, before the clock is steered. -/
def followUp (m : Message) (origin : TimeInternal) (v : View) : View :=
  { v with
    waitingForFollowUp := false
    history := .offset true m v.timestampSyncRecieve origin
      (addTime (scaledNanosecondsToInternalTime m.header.correctionfield) v.correctionFieldSync) ::
      v.history }

/-- What a two-step PDelayResp does, when `t2` is the time stored for it. -/
def awaitPDelayFollowUp (m : Message) (t2 : TimeInternal) (v : View) : View :=
  { v with
    waitingForPDelayRespFollowUp := true
    pdelayT4 := m.time
    pdelayT2 := t2
    history := .awaiting m :: v.history }

/-- What a one-step PDelayResp does. -/
def oneStepPDelay (m : Message) (t3 : TimeInternal) (v : View) : View :=
  { v with
    waitingForPDelayRespFollowUp := false
    pdelayT4 := m.time
    history := .peerDelay false m v.pdelayT1 v.pdelayT2 t3 m.time :: v.history }

/-- What the follow-up of a two-step PDelayResp does. -/
def pDelayFollowUp (m : Message) (t3 : TimeInternal) (v : View) : View :=
  { v with
    waitingForPDelayRespFollowUp := false
    history := .peerDelay true m v.pdelayT1 v.pdelayT2 t3 v.pdelayT4 :: v.history }

/-- What sending a PDelayReq does, when `t1` is the time stored for it. -/
def request (bytes : List UInt8) (egress : Option TimeInternal) (t1 : TimeInternal) (v : View) :
    View :=
  { v with
    pdelayT1 := t1
    sentPDelayReqSequenceId := v.sentPDelayReqSequenceId + 1
    history := .requested v.sentPDelayReqSequenceId egress :: .sent .pDelayReq bytes ::
      v.history }

end View

@[simp] theorem view_log (e : Effect) (s : Port) : view (s.log e) = (view s).log e := rfl

@[simp] theorem view_initTimer (s : Port) : view (initTimer s) = view s := rfl

@[simp] theorem view_timerStop (t : Timer) (s : Port) : view (timerStop t s) = view s := rfl

@[simp] theorem view_timerCallback (t : Timer) (s : Port) : view (timerCallback t s) = view s := rfl

@[simp] theorem view_timerStart (env : StepEnv) (t : Timer) (n : Nat) (s : Port) :
    view (timerStart env t n s) = view s := rfl

@[simp] theorem view_timerExpired (env : StepEnv) (t : Timer) (s : Port) :
    view (timerExpired env t s).2 = view s := by
  have hfire : view (if env.fires t then timerCallback t s else s) = view s := by
    split
    · exact view_timerCallback t s
    · rfl
  simp only [timerExpired]
  by_cases hexp : ((if env.fires t then timerCallback t s else s).timers t).expired = true
  · rw [if_pos hexp]
    exact hfire
  · rw [if_neg hexp]
    exact hfire

@[simp] theorem view_udpRecvCallback (ch : Channel) (p : Packet) (s : Port) :
    view (udpRecvCallback ch p s) = view s := by
  cases ch with
  | event => rfl
  | general => rfl

@[simp] theorem view_arrive (env : StepEnv) (s : Port) : view (arrive env s) = view s := by
  rw [arrive]
  induction env.arrivals generalizing s with
  | nil => rfl
  | cons p rest ih => rw [List.foldl_cons, ih, view_udpRecvCallback]

@[simp] theorem view_initClock (s : Port) : view (initClock s) = (view s).clear := by
  simp only [initClock]
  split
  · rfl
  · rfl

/-- The fields only the servo writes are not in the view. -/
theorem view_servoFields (s : Port) (tms tsm offset delay peer : TimeInternal) (ofm owd : Filter)
    (fault selected : Bool) :
    view { s with clock := { s.clock with
      tms := tms
      tsm := tsm
      currentDS := ⟨s.clock.currentDS.stepsRemoved, offset, delay⟩
      portDS.peerMeanPathDelay := peer
      ofmFilt := ofm
      owdFilt := owd
      events.synchronizationFault := fault
      events.masterClockSelected := selected } } = view s := rfl

@[simp] theorem view_updateOffset (a b c : TimeInternal) (s : Port) :
    view (updateOffset a b c s) = view s := by
  simp only [updateOffset]
  generalize subTime (subTime a b) c = tms
  generalize subtractDelay s.clock tms = offset
  generalize filter offset.nanoseconds s.clock.ofmFilt = f
  split
  · exact view_servoFields s tms _ offset _ _ _ _ _ _
  · split
    · exact view_servoFields s tms _ ⟨offset.seconds, f.1⟩ _ _ f.2 _ _ _
    · split
      · exact view_servoFields s tms _ ⟨offset.seconds, f.1⟩ _ _ f.2 _ _ _
      · exact view_servoFields s tms _ ⟨offset.seconds, f.1⟩ _ _ f.2 _ _ _

@[simp] theorem view_updateDelay (a b c : TimeInternal) (s : Port) :
    view (updateDelay a b c s) = view s := by
  simp only [updateDelay]
  generalize subTime (subTime b a) c = tsm
  generalize div2Time (addTime s.clock.tms tsm) = delay
  generalize filter delay.nanoseconds s.clock.owdFilt = f
  split
  · rfl
  · split
    · exact view_servoFields s _ tsm _ delay _ _ _ _ _
    · exact view_servoFields s _ tsm _ ⟨delay.seconds, f.1⟩ _ _ f.2 _ _

@[simp] theorem view_updatePeerDelay (a : TimeInternal) (twoStep : Bool) (s : Port) :
    view (updatePeerDelay a twoStep s) = view s := by
  simp only [updatePeerDelay]
  generalize div2Time _ = delay
  generalize filter delay.nanoseconds s.clock.owdFilt = f
  split
  · exact view_servoFields s _ _ _ _ delay _ _ _ _
  · exact view_servoFields s _ _ _ _ ⟨delay.seconds, f.1⟩ _ f.2 _ _

/-- The servo leaves the view alone, or clears the pairing when it resets the
    clock. -/
theorem view_updateClock (env : StepEnv) (s : Port) :
    view (updateClock env s) = view s ∨ view (updateClock env s) = (view s).clear := by
  simp only [updateClock]
  split
  · split
    · exact Or.inl rfl
    · split
      · exact Or.inl rfl
      · exact Or.inr (view_initClock _)
  · split
    · exact Or.inl rfl
    · exact Or.inl rfl

theorem view_leaveState (state : PtpState) (s : Port) :
    view (leaveState state s)
      = if View.clears (view s).portState state then (view s).clear else view s := by
  have hport : (view s).portState = s.clock.portDS.portState := rfl
  rw [hport]
  simp only [leaveState]
  cases h : s.clock.portDS.portState with
  | uncalibrated | slave =>
      by_cases hstay : state = .uncalibrated ∨ state = .slave
      · have hclear :
            View.clears .uncalibrated state = false ∧ View.clears .slave state = false := by
          simpa only [View.clears, Bool.not_eq_false', Bool.or_eq_true, decide_eq_true_eq, and_self]
            using hstay
        simp only [hstay, hclear, if_true, Bool.false_eq_true, if_false]
      · have hclear : View.clears .uncalibrated state = true ∧ View.clears .slave state = true := by
          simpa only [View.clears, Bool.not_eq_true', Bool.or_eq_false_iff, decide_eq_false_iff_not,
            not_or, and_self] using hstay
        simp only [hstay, hclear, if_true, if_false, view_initClock]
        split
        · rfl
        · rfl
        · rfl
  | master | passive | listening | preMaster =>
      simp only [View.clears, if_true, view_timerStop, view_initClock]
  | initializing | faulty | disabled =>
      simp only [View.clears, Bool.false_eq_true, if_false]

theorem view_enterState (env : StepEnv) (state : PtpState) (s : Port) :
    view (enterState env state s) = { view s with
      portState := if state = .preMaster then .master else state
      recommendedState := if state = .initializing ∨ state = .listening then state
        else s.clock.recommendedState } := by
  cases state with
  | preMaster | master | passive | uncalibrated =>
      simp only [enterState]
      split
      all_goals rfl
  | initializing | faulty | disabled | listening | slave => rfl

@[simp] theorem view_toState (env : StepEnv) (state : PtpState) (s : Port) :
    view (toState env state s) = (view s).toState state := by
  have hrec : (leaveState state { s with clock.messageActivity := true }).clock.recommendedState
      = (view (leaveState state { s with clock.messageActivity := true })).recommendedState := rfl
  rw [toState, view_enterState, hrec, view_leaveState]
  rfl

@[simp] theorem view_m1 (s : Port) : view (m1 s) = (view s).m1 := rfl

@[simp] theorem view_s1 (header : MsgHeader) (announce : MsgAnnounce) (s : Port) :
    view (s1 header announce s) = (view s).s1 header announce := rfl

@[simp] theorem view_addForeign (header : MsgHeader) (announce : MsgAnnounce) (s : Port) :
    view (addForeign header announce s) = (view s).addForeign header announce := rfl

theorem view_bmcStateDecision (header : MsgHeader) (announce : MsgAnnounce) (s : Port) :
    (bmcStateDecision header announce s).1 = ((view s).decideOn header announce).1 ∧
      view (bmcStateDecision header announce s).2 = ((view s).decideOn header announce).2 := by
  have hcomp : bmcDataSetComparison s.clock.portDS.portIdentity.clockIdentity
      (copyD0 s.clock).1 (copyD0 s.clock).2 header announce
      = (view s).compareLocal header announce := rfl
  have hcount : s.clock.foreignMasterDS.count = (view s).foreignMasterDS.count := rfl
  have hstate : s.clock.portDS.portState = (view s).portState := rfl
  have hclass : s.clock.defaultDS.clockQuality = (view s).defaultDS.clockQuality := rfl
  simp only [bmcStateDecision, hcomp, hcount, hstate, hclass, View.decideOn]
  by_cases hempty : (view s).foreignMasterDS.count = 0 ∧ (view s).portState = .listening
  · simp only [if_pos hempty, and_self]
  · simp only [if_neg hempty]
    by_cases hlocal : (view s).compareLocal header announce = aBetter
    · simp only [if_pos hlocal, ite_self, view_m1, and_self]
    · simp only [if_neg hlocal]
      by_cases hlow : (view s).defaultDS.clockQuality.clockClass < 128
      · simp only [if_pos hlow, p1, and_self]
      · simp only [if_neg hlow, view_log, view_s1, and_self]

theorem view_bmc (s : Port) :
    (bmc s).1 = (view s).bmc.1 ∧ view (bmc s).2 = (view s).bmc.2 :=
  view_bmcStateDecision _ _ _

theorem view_isSlaveOnly (s : Port) : isSlaveOnly s = (view s).slaveOnly := rfl

/-- `bmc` leaves alone whether the clock may become master. -/
theorem View.slaveOnly_bmc (v : View) : v.bmc.2.slaveOnly = v.slaveOnly := by
  simp only [View.bmc, View.decideOn]
  repeat' split
  all_goals rfl

@[simp] theorem view_stateDecision (s : Port) :
    view (stateDecision s) = (view s).stateDecision := by
  have hnone : (view s).decides = false → (view s).stateDecision = view s := by
    intro h
    rw [View.stateDecision, h, Bool.false_and, if_neg Bool.false_ne_true]
  have hsome : (view s).decides = true → view (if s.clock.events.stateDecisionEvent then
      { (bmc { s with clock.events.stateDecisionEvent := false }).2 with
        clock.recommendedState := if ((bmc { s with clock.events.stateDecisionEvent := false }).1
              = .master ∨ (bmc { s with clock.events.stateDecisionEvent := false }).1 = .passive) ∧
            isSlaveOnly (bmc { s with clock.events.stateDecisionEvent := false }).2 = true
          then .listening else (bmc { s with clock.events.stateDecisionEvent := false }).1 }
      else s) = (view s).stateDecision := by
    intro h
    have hevent : s.clock.events.stateDecisionEvent = (view s).stateDecisionEvent := rfl
    rcases view_bmc { s with clock.events.stateDecisionEvent := false } with ⟨h1, h2⟩
    rw [view_isSlaveOnly, h1, h2, View.slaveOnly_bmc, View.stateDecision, h, Bool.true_and, hevent]
    by_cases hev : (view s).stateDecisionEvent = true
    · rw [if_pos hev, if_pos hev]
      have hview : ∀ (t : Port) (r : PtpState), view { t with clock.recommendedState := r }
          = { view t with recommendedState := r } := fun _ _ => rfl
      rw [hview, h2]
      rfl
    · rw [if_neg hev, if_neg hev]
  simp only [stateDecision]
  cases h : s.clock.portDS.portState with
  | initializing | faulty | disabled =>
      refine (hnone ?_).symm
      simp only [View.decides, view, h, ne_eq, not_true_eq_false, decide_false, Bool.false_and,
        Bool.and_false]
  | listening | uncalibrated | slave | preMaster | master | passive =>
      refine hsome ?_
      simp only [View.decides, view, h, ne_eq, reduceCtorEq, not_false_eq_true, decide_true,
        Bool.and_self]

theorem view_initData (s : Port) :
    view { s with clock := initData s.clock } = (view s).initData s.clock.portUuidField := rfl

/-- The contents of the output buffer are not in the view. -/
theorem view_msgObuf (s : Port) (buf : List UInt8) (h : buf.length = s.clock.msgObuf.length) :
    view { s with clock.msgObuf := buf } = view s := by
  simp only [view, h]

/-- A failed initialisation leaves the view alone, a successful one starts from
    the interface's address. -/
theorem view_doInit (env : StepEnv) (s : Port) :
    ((doInit env s).1 = false ∧ view (doInit env s).2 = view s) ∨
      ((doInit env s).1 = true ∧ view (doInit env s).2 = (view s).init env.hwaddr) := by
  by_cases hok : (ptpNetInit env s).1 = false
  · simp only [doInit, if_pos hok]
    exact Or.inl ⟨trivial, rfl⟩
  · simp only [doInit, if_neg hok]
    refine Or.inr ⟨trivial, ?_⟩
    rw [view_msgObuf _ _ (length_msgPackHeader _ _), view_m1, view_initClock, view_initTimer,
      view_log, view_initData]
    rfl

end Ptp

end RtosLwip
