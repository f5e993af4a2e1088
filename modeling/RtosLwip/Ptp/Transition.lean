import RtosLwip.Ptp.View

/-!
# The Transitions of the Protocol View

The daemon as a transition system over its view. Each relation says what one
part of a step can do to the view, with the guards the code checks and without
the parts it is not about: which timer expires and what the servo makes of a
time are left open.

`Handles` has one case for each thing a message can do, and `handles_dispatch`
says that the code does nothing else. An invariant of the protocol is proved
over these relations, with no look at the handlers.

## Main definitions

* `Requests`, `Steers`, `MasterSends`: What is sent, and what the servo does.
* `Handles`: What handling a message does.

## Theorems

* `sendPacked_spec`: Sending a message.
* `requests_issueDelayReqTimerExpired`, `masterSends_masterTimers`: What the
  timers make the port send.
* `handles_dispatch`: What handling a message does.
-/

namespace RtosLwip

namespace Ptp

/-- What `_issueDelayReqTimerExpired` can do: nothing, or send a request. The
    time stored for a PDelayReq is its time of egress where there is one. -/
inductive Requests (v : View) : View → Prop where
  | nothing : Requests v v
  | delayReq (bytes : List UInt8) : Requests v (v.log (.sent .delayReq bytes))
  | pDelayReq (bytes : List UInt8) (egress : Option TimeInternal) (t1 : TimeInternal)
      (h : ∀ t, egress = some t → t1 = t) : Requests v (v.request bytes egress t1)

/-- What the servo and the request behind it can do. -/
inductive Steers (v : View) : View → Prop where
  | keep (w : View) (h : Requests v w) : Steers v w
  | reset (w : View) (h : Requests v.clear w) : Steers v w

/-- The Announce in `bytes` describes the grandmaster of the view. -/
def Describes (v : View) (bytes : List UInt8) : Prop :=
  MsgType.announce.length ≤ v.obufLength →
    (msgUnpackAnnounce bytes).grandmasterIdentity = v.parentDS.grandmasterIdentity ∧
    (msgUnpackAnnounce bytes).grandmasterPriority1 = v.parentDS.grandmasterPriority1 ∧
    (msgUnpackAnnounce bytes).grandmasterPriority2 = v.parentDS.grandmasterPriority2 ∧
    (msgUnpackAnnounce bytes).stepsRemoved = v.stepsRemoved

/-- What a master can send of its own accord. -/
inductive MasterSends (v : View) : View → Prop where
  | nothing : MasterSends v v
  | sync (w : View) (bytes : List UInt8) (h : MasterSends v w) :
      MasterSends v (w.log (.sent .sync bytes))
  | followUp (w : View) (bytes : List UInt8) (h : MasterSends v w) :
      MasterSends v (w.log (.sent .followUp bytes))
  | announce (w : View) (bytes : List UInt8) (hd : Describes v bytes) (h : MasterSends v w) :
      MasterSends v (w.log (.sent .announce bytes))

/-- The states of a port that follows a master. -/
def View.follows (v : View) : Prop := v.portState = .uncalibrated ∨ v.portState = .slave

/-- A message of the parent. -/
def View.isParent (v : View) (m : Message) : Prop :=
  isSamePortIdentity v.parentDS.parentPortIdentity m.header.sourcePortIdentity = true

/-- A message of the port itself. -/
def View.isSelf (v : View) (m : Message) : Prop :=
  isSamePortIdentity v.portIdentity m.header.sourcePortIdentity = true

/-- A message that echoes the latest PDelayReq. -/
def View.echoes (v : View) (m : Message) : Prop :=
  v.sentPDelayReqSequenceId.toInt - 1 = m.header.sequenceId.toInt

/-- A response to a request of the port. -/
def View.isAddressee (v : View) (m : Message) : Prop :=
  isSamePortIdentity v.portIdentity (unpackResp m.buf).requestingPortIdentity = true

/-- The type of a message. -/
def Message.type (m : Message) : Option MsgType := MsgType.ofCode m.header.messageType

/-- What handling a message can do. -/
inductive Handles (m : Message) (v : View) : View → Prop where
  | ignored : Handles m v v
  | faulty : Handles m v (v.toState .faulty)
  | announceParent (htype : m.type = some .announce) (hstate : v.follows)
      (hself : ¬ v.isSelf m) (hparent : v.isParent m) :
      Handles m v ((v.announced m).s1 m.header (msgUnpackAnnounce m.buf))
  | announceForeign (htype : m.type = some .announce) (hstate : v.decides = true)
      (hself : ¬ v.isSelf m) (hother : v.follows → ¬ v.isParent m) :
      Handles m v ((v.announced m).addForeign m.header (msgUnpackAnnounce m.buf))
  | syncTwoStep (htype : m.type = some .sync) (hstate : v.follows) (hparent : v.isParent m)
      (htwo : isTwoStep m = true) : Handles m v (v.awaitFollowUp m)
  | syncOneStep (htype : m.type = some .sync) (hstate : v.follows) (origin : TimeInternal)
      (w : View) (h : Steers (v.oneStepSync m origin) w) : Handles m v w
  | followUp (htype : m.type = some .followUp) (hstate : v.follows)
      (hwait : v.waitingForFollowUp = true) (hparent : v.isParent m)
      (hseq : v.recvSyncSequenceId = m.header.sequenceId) (origin : TimeInternal)
      (horigin : Representable (msgUnpackFollowUp m.buf) →
        origin = internalTime (msgUnpackFollowUp m.buf))
      (w : View) (h : Steers (v.followUp m origin) w) : Handles m v w
  | request (hstate : v.portState = .passive) (w : View) (h : Requests v w) : Handles m v w
  | delayResp (hstate : v.portState = .master) (bytes : List UInt8) :
      Handles m v (v.log (.sent .delayResp bytes))
  | pDelayResp (bytes : List UInt8) : Handles m v (v.log (.sent .pDelayResp bytes))
  | pDelayRespFollowUp (bytes bytes' : List UInt8) :
      Handles m v ((v.log (.sent .pDelayResp bytes)).log (.sent .pDelayRespFollowUp bytes'))
  | pDelayRespTwoStep (htype : m.type = some .pDelayResp) (hecho : v.echoes m)
      (haddr : v.isAddressee m) (htwo : isTwoStep m = true) (t2 : TimeInternal)
      (ht2 : Representable (unpackResp m.buf).timestamp →
        t2 = internalTime (unpackResp m.buf).timestamp) :
      Handles m v (v.awaitPDelayFollowUp m t2)
  | pDelayRespOneStep (t3 : TimeInternal) : Handles m v (v.oneStepPDelay m t3)
  | pDelayFollowUp (htype : m.type = some .pDelayRespFollowUp)
      (hwait : v.waitingForPDelayRespFollowUp = true) (hecho : v.echoes m) (t3 : TimeInternal)
      (ht3 : Representable (unpackResp m.buf).timestamp →
        t3 = internalTime (unpackResp m.buf).timestamp) :
      Handles m v (v.pDelayFollowUp m t3)

/-- Sending never reports a failure, gives the time of egress where there is
    one, and leaves the message in the history. -/
theorem sendPacked_spec (env : StepEnv) (type : MsgType) (buf : List UInt8) (time : TimeInternal)
    (s : Port) (htype : type.length ≠ 0) (hlen : buf.length = s.clock.msgObuf.length) :
    ¬ (sendPacked env type buf time s).1 = 0 ∧
      (sendPacked env type buf time s).2.1 = (env.transmit type).getD time ∧
      view (sendPacked env type buf time s).2.2
        = (view s).log (.sent type (buf.take type.length)) := by
  refine ⟨htype, rfl, ?_⟩
  have hbuf := view_msgObuf s buf hlen
  rw [← hbuf]
  rfl

theorem view_issueFollowup (env : StepEnv) (time : TimeInternal) (s : Port) :
    ∃ bytes, view (issueFollowup env time s) = (view s).log (.sent .followUp bytes) := by
  rcases sendPacked_spec env .followUp _ .zero s (by decide)
    (length_msgPackFollowUp _ s.clock (fromInternalTime time (env.localStamp .followUp)))
    with ⟨hne, -, hview⟩
  simp only [issueFollowup, if_neg hne]
  exact ⟨_, hview⟩

theorem masterSends_issueSync (env : StepEnv) (v : View) (s : Port) (h : MasterSends v (view s)) :
    MasterSends v (view (issueSync env s)) := by
  rcases sendPacked_spec env .sync _ (env.time .sync) s (by decide)
    (length_msgPackSync _ s.clock (fromInternalTime (env.time .sync) (env.localStamp .sync)))
    with ⟨hne, -, hview⟩
  simp only [issueSync, if_neg hne]
  generalize sendPacked env .sync _ (env.time .sync) s = r at hview ⊢
  have hcount : view { r.2.2 with
      clock.sentSyncSequenceId := r.2.2.clock.sentSyncSequenceId + 1 } = view r.2.2 := rfl
  have hsync : MasterSends v (view r.2.2) := by
    rw [hview]
    exact .sync _ _ h
  split
  · rcases view_issueFollowup env _ _ with ⟨bytes, hfollow⟩
    rw [hfollow, hcount]
    exact .followUp _ _ hsync
  · rw [hcount]
    exact hsync

theorem view_issueDelayReq (env : StepEnv) (s : Port) :
    ∃ bytes, view (issueDelayReq env s) = (view s).log (.sent .delayReq bytes) := by
  rcases sendPacked_spec env .delayReq _ (env.time .delayReq) s (by decide)
    (length_msgPackDelayReq _ s.clock (fromInternalTime (env.time .delayReq)
      (env.localStamp .delayReq))) with ⟨hne, -, hview⟩
  simp only [issueDelayReq, if_neg hne]
  generalize sendPacked env .delayReq _ (env.time .delayReq) s = r at hview ⊢
  have hstamp : ∀ n t, view { r.2.2 with
      clock.sentDelayReqSequenceId := n, clock.timestampDelayReqSend := t } = view r.2.2 :=
    fun _ _ => rfl
  split
  · exact ⟨_, (hstamp _ _).trans hview⟩
  · exact ⟨_, (hstamp _ _).trans hview⟩

/-- The time of egress is the one the network gave, with the latency added. -/
theorem egressTime_eq_some {env : StepEnv} {type : MsgType} {latency t : TimeInternal}
    (h : egressTime env type latency = some t) (time : TimeInternal) :
    ((env.transmit type).getD time).seconds ≠ 0 ∧
      addTime ((env.transmit type).getD time) latency = t := by
  rw [egressTime] at h
  cases htx : env.transmit type with
  | none =>
      rw [htx] at h
      exact absurd h (by simp only [reduceCtorEq, not_false_eq_true])
  | some tx =>
      rw [htx] at h
      by_cases hsec : tx.seconds ≠ 0
      · simp only [if_pos hsec, Option.some.injEq] at h
        exact ⟨hsec, h⟩
      · simp only [if_neg hsec, reduceCtorEq] at h

/-- The time stored for a request is its time of egress where there is one. -/
theorem view_issuePDelayReq (env : StepEnv) (s : Port) :
    ∃ bytes egress t1, (∀ t, egress = some t → t1 = t) ∧
      view (issuePDelayReq env s) = (view s).request bytes egress t1 := by
  rcases sendPacked_spec env .pDelayReq _ (env.time .pDelayReq) s (by decide)
    (length_msgPackPDelayReq _ s.clock (fromInternalTime (env.time .pDelayReq)
      (env.localStamp .pDelayReq))) with ⟨hne, htime, hview⟩
  simp only [issuePDelayReq, if_neg hne]
  generalize sendPacked env .pDelayReq _ (env.time .pDelayReq) s = r at hview htime ⊢
  have hrequest : ∀ (e : Option TimeInternal) (x : TimeInternal) (bytes : List UInt8),
      view r.2.2 = (view s).log (.sent .pDelayReq bytes) →
      view { r.2.2.log (.requested r.2.2.clock.sentPDelayReqSequenceId e) with
        clock.sentPDelayReqSequenceId := r.2.2.clock.sentPDelayReqSequenceId + 1
        clock.pdelayT1 := x } = (view s).request bytes e x := by
    intro e x bytes h
    change { (view r.2.2).log (.requested (view r.2.2).sentPDelayReqSequenceId e) with
      sentPDelayReqSequenceId := (view r.2.2).sentPDelayReqSequenceId + 1
      pdelayT1 := x } = _
    rw [h]
    rfl
  split
  · refine ⟨_, _, _, ?_, hrequest _ _ _ hview⟩
    intro t h
    rw [htime]
    exact (egressTime_eq_some h _).2
  · rename_i hsec
    refine ⟨_, _, _, ?_, hrequest _ r.2.2.clock.pdelayT1 _ hview⟩
    intro t h
    rw [htime] at hsec
    exact absurd (egressTime_eq_some h _).1 hsec

theorem requests_issueDelayReqTimerExpired (env : StepEnv) (s : Port) :
    Requests (view s) (view (issueDelayReqTimerExpired env s)) := by
  simp only [issueDelayReqTimerExpired]
  split
  · split
    · exact .nothing
    · split
      · rcases view_issueDelayReq env _ with ⟨bytes, h⟩
        rw [h, view_timerStart, view_timerExpired]
        exact .delayReq bytes
      · rw [view_timerExpired]
        exact .nothing
  · split
    · rcases view_issuePDelayReq env _ with ⟨bytes, egress, t1, ht1, h⟩
      rw [h, view_timerStart, view_timerExpired]
      exact .pDelayReq bytes egress t1 ht1
    · rw [view_timerExpired]
      exact .nothing
  · exact .nothing

theorem steers_updateClock (env : StepEnv) {s : Port} {v : View} (hs : view s = v)
    (a b c : TimeInternal) :
    Steers v (view (issueDelayReqTimerExpired env (updateClock env (updateOffset a b c s)))) := by
  have hreq := requests_issueDelayReqTimerExpired env (updateClock env (updateOffset a b c s))
  rcases view_updateClock env (updateOffset a b c s) with h | h
  · rw [h, view_updateOffset, hs] at hreq
    exact .keep _ hreq
  · rw [h, view_updateOffset, hs] at hreq
    exact .reset _ hreq

/-- The Announce a master sends describes its grandmaster. -/
theorem masterSends_issueAnnounce (env : StepEnv) (v : View) (s : Port)
    (h : MasterSends v (view s)) (hv : ∀ bytes, Describes (view s) bytes → Describes v bytes) :
    MasterSends v (view (issueAnnounce env s)) := by
  rcases sendPacked_spec env .announce _ .zero s (by decide)
    (length_msgPackAnnounce s.clock.msgObuf s.clock) with ⟨hne, -, hview⟩
  simp only [issueAnnounce, if_neg hne]
  generalize sendPacked env .announce _ .zero s = r at hview ⊢
  have hcount : view { r.2.2 with
      clock.sentAnnounceSequenceId := r.2.2.clock.sentAnnounceSequenceId + 1 } = view r.2.2 := rfl
  rw [hcount, hview]
  exact .announce _ _ (hv _ (msgUnpackAnnounce_msgPackAnnounce s.clock s.clock.msgObuf)) h

/-- What is sent leaves everything but the history alone. -/
theorem MasterSends.eq_history {v w : View} (h : MasterSends v w) :
    ∃ history, w = { v with history := history } := by
  induction h with
  | nothing => exact ⟨_, rfl⟩
  | sync w bytes _ ih =>
      rcases ih with ⟨history, rfl⟩
      exact ⟨_, rfl⟩
  | followUp w bytes _ ih =>
      rcases ih with ⟨history, rfl⟩
      exact ⟨_, rfl⟩
  | announce w bytes _ _ ih =>
      rcases ih with ⟨history, rfl⟩
      exact ⟨_, rfl⟩

theorem masterSends_masterTimers (env : StepEnv) (s : Port) :
    MasterSends (view s) (view (masterTimers env s)) := by
  have hsync : MasterSends (view s) (view (if (timerExpired env .syncInterval s).1 then
      issueSync env (timerExpired env .syncInterval s).2
      else (timerExpired env .syncInterval s).2)) := by
    split
    · refine masterSends_issueSync env _ _ ?_
      rw [view_timerExpired]
      exact .nothing
    · rw [view_timerExpired]
      exact .nothing
  simp only [masterTimers]
  generalize (if (timerExpired env .syncInterval s).1 then
      issueSync env (timerExpired env .syncInterval s).2
      else (timerExpired env .syncInterval s).2) = t at hsync ⊢
  have hann := view_timerExpired env .announceInterval t
  split
  · refine masterSends_issueAnnounce env _ _ ?_ ?_
    · rw [hann]
      exact hsync
    · rcases hsync.eq_history with ⟨history, heq⟩
      rw [hann, heq]
      exact fun _ h => h
  · rw [hann]
    exact hsync

section Handlers

variable (env : StepEnv) (m : Message) (s : Port)

theorem handles_faulty : Handles m (view s) (view (toState env .faulty s)) := by
  rw [view_toState]
  exact .faulty

theorem handles_of_view_eq {m : Message} {v w : View} (h : w = v) : Handles m v w := by
  rw [h]
  exact .ignored

theorem isParent_of_isFromCurrentParent (h : ¬ isFromCurrentParent m s = false) :
    (view s).isParent m := by
  rw [Bool.not_eq_false] at h
  exact h

theorem decides_of_portState {st : PtpState} (h : s.clock.portDS.portState = st)
    (h1 : st ≠ .initializing) (h2 : st ≠ .faulty) (h3 : st ≠ .disabled) :
    (view s).decides = true := by
  simp only [View.decides, view, h, h1, h2, h3, ne_eq, not_false_eq_true, decide_true,
    Bool.and_self]

theorem view_acceptAnnounce : view (acceptAnnounce m s) = (view s).announced m := rfl

theorem handles_announceFollowing (htype : m.type = some .announce) (hst : (view s).follows)
    (hself : ¬ (view s).isSelf m) : Handles m (view s) (view (announceFollowing env m s)) := by
  have hdec : (view s).decides = true := by
    rcases hst with h | h
    · exact decides_of_portState s h (by decide) (by decide) (by decide)
    · exact decides_of_portState s h (by decide) (by decide) (by decide)
  simp only [announceFollowing]
  split
  · rename_i hpar
    rw [view_timerStart, view_s1, view_acceptAnnounce]
    exact .announceParent htype hst hself hpar
  · rename_i hpar
    rw [view_addForeign, view_acceptAnnounce]
    exact .announceForeign htype hdec hself fun _ h => hpar h

theorem handles_handleAnnounce (htype : m.type = some .announce) (isFromSelf : Bool)
    (hself : isFromSelf = true ↔ (view s).isSelf m) :
    Handles m (view s) (view (handleAnnounce env m isFromSelf s)) := by
  have hforeign : ∀ {st : PtpState}, s.clock.portDS.portState = st →
      st ≠ .initializing → st ≠ .faulty → st ≠ .disabled → st ≠ .uncalibrated → st ≠ .slave →
      ¬ (view s).isSelf m →
      Handles m (view s) (((view s).announced m).addForeign m.header
        (msgUnpackAnnounce m.buf)) := by
    intro st hst h1 h2 h3 h4 h5 hother
    refine .announceForeign htype (decides_of_portState s hst h1 h2 h3) hother fun hf => ?_
    rcases hf with h | h
    · exact absurd (hst.symm.trans h) h4
    · exact absurd (hst.symm.trans h) h5
  simp only [handleAnnounce]
  split
  · exact handles_faulty env m s
  · split
    · exact .ignored
    · rename_i hnot
      have hother : ¬ (view s).isSelf m := fun h => hnot (hself.mpr h)
      split
      · exact .ignored
      · exact .ignored
      · exact .ignored
      · rename_i hst
        exact handles_announceFollowing env m s htype (Or.inl hst) hother
      · rename_i hst
        exact handles_announceFollowing env m s htype (Or.inr hst) hother
      all_goals
        rename_i hst
        exact hforeign hst (by decide) (by decide) (by decide) (by decide) (by decide) hother

theorem handles_syncFollowing (htype : m.type = some .sync) (hst : (view s).follows)
    (isFromSelf : Bool) : Handles m (view s) (view (syncFollowing env m isFromSelf s)) := by
  simp only [syncFollowing]
  split
  · exact .ignored
  · split
    · exact .ignored
    · rename_i hpar
      split
      · rename_i htwo
        exact .syncTwoStep htype hst (isParent_of_isFromCurrentParent m s hpar) htwo
      · refine .syncOneStep htype hst (toInternalTime env.localTime (msgUnpackSync m.buf)) _
          (steers_updateClock env ?_ _ _ _)
        rfl

theorem handles_handleSync (htype : m.type = some .sync) (isFromSelf : Bool) :
    Handles m (view s) (view (handleSync env m isFromSelf s)) := by
  simp only [handleSync]
  split
  · exact handles_faulty env m s
  · split
    · rename_i hst
      exact handles_syncFollowing env m s htype (Or.inl hst) isFromSelf
    · rename_i hst
      exact handles_syncFollowing env m s htype (Or.inr hst) isFromSelf
    · rename_i hst
      exact .request hst _ (requests_issueDelayReqTimerExpired env s)
    · exact .ignored

theorem handles_followUpFollowing (htype : m.type = some .followUp) (hst : (view s).follows) :
    Handles m (view s) (view (followUpFollowing env m s)) := by
  simp only [followUpFollowing]
  split
  · exact .ignored
  · rename_i hwait
    split
    · exact .ignored
    · rename_i hpar
      split
      · exact .ignored
      · rename_i hseq
        rw [Bool.not_eq_false] at hwait
        refine .followUp htype hst hwait (isParent_of_isFromCurrentParent m s hpar)
          (not_not.mp hseq) (toInternalTime env.localTime (msgUnpackFollowUp m.buf))
          (fun h => toInternalTime_representable h env.localTime) _
          (steers_updateClock env ?_ _ _ _)
        rfl

theorem handles_handleFollowUp (htype : m.type = some .followUp) (isFromSelf : Bool) :
    Handles m (view s) (view (handleFollowUp env m isFromSelf s)) := by
  simp only [handleFollowUp]
  split
  · exact handles_faulty env m s
  · split
    · exact .ignored
    · split
      · rename_i hst
        exact handles_followUpFollowing env m s htype (Or.inl hst)
      · rename_i hst
        exact handles_followUpFollowing env m s htype (Or.inr hst)
      · rename_i hst
        exact .request hst _ (requests_issueDelayReqTimerExpired env s)
      · exact .ignored

theorem handles_handleDelayReq : Handles m (view s) (view (handleDelayReq env m s)) := by
  simp only [handleDelayReq]
  split
  · split
    · exact handles_faulty env m s
    · split
      · rename_i hst
        rcases sendPacked_spec env .delayResp _ .zero s (by decide)
          (length_msgPackDelayResp _ s.clock m.header (fromInternalTime m.time
            (env.localStamp .delayResp))) with ⟨hne, -, hview⟩
        simp only [issueDelayResp, if_neg hne]
        rw [hview]
        exact .delayResp hst _
      · exact .ignored
  · exact .ignored

theorem handles_delayRespFollowing : Handles m (view s) (view (delayRespFollowing m s)) := by
  have hinterval : ∀ (t : Port) (x : Int8),
      view { t with clock.portDS.logMinDelayReqInterval := x } = view t := fun _ _ => rfl
  have hstamp : ∀ x : TimeInternal,
      view { s with clock.timestampDelayReqRecieve := x } = view s := fun _ => rfl
  simp only [delayRespFollowing]
  split
  · exact handles_of_view_eq ((hinterval _ _).trans ((view_updateDelay _ _ _ _).trans (hstamp _)))
  · exact .ignored

theorem handles_handleDelayResp : Handles m (view s) (view (handleDelayResp env m s)) := by
  simp only [handleDelayResp]
  split
  · split
    · exact handles_faulty env m s
    · split
      · exact handles_delayRespFollowing m s
      · exact handles_delayRespFollowing m s
      · exact .ignored
  · exact .ignored

theorem handles_answerPDelayReq (isFromSelf : Bool) :
    Handles m (view s) (view (answerPDelayReq env m isFromSelf s)) := by
  rcases sendPacked_spec env .pDelayResp _ m.time s (by decide)
    (length_msgPackPDelayResp _ m.header (fromInternalTime m.time (env.localStamp .pDelayResp)))
    with ⟨hne, -, hview⟩
  have hresp : ∃ bytes, view (issuePDelayResp env m.time m.header s).2
      = (view s).log (.sent .pDelayResp bytes) := by
    simp only [issuePDelayResp, if_neg hne]
    split
    · exact ⟨_, hview⟩
    · exact ⟨_, hview⟩
  rcases hresp with ⟨bytes, hresp⟩
  simp only [answerPDelayReq]
  split
  · exact .ignored
  · generalize issuePDelayResp env m.time m.header s = r at hresp ⊢
    split
    · rcases sendPacked_spec env .pDelayRespFollowUp _ .zero r.2 (by decide)
        (length_msgPackPDelayRespFollowUp _ m.header (fromInternalTime r.1
          (env.localStamp .pDelayRespFollowUp))) with ⟨hne', -, hview'⟩
      simp only [issuePDelayRespFollowUp, if_neg hne']
      rw [hview', hresp]
      exact .pDelayRespFollowUp _ _
    · rw [hresp]
      exact .pDelayResp _

theorem handles_handlePDelayReq (isFromSelf : Bool) :
    Handles m (view s) (view (handlePDelayReq env m isFromSelf s)) := by
  simp only [handlePDelayReq]
  split
  · split
    · exact handles_faulty env m s
    · split
      · exact handles_answerPDelayReq env m s isFromSelf
      · exact handles_answerPDelayReq env m s isFromSelf
      · exact handles_answerPDelayReq env m s isFromSelf
      · exact .ignored
  · exact .ignored

theorem handles_acceptPDelayResp (htype : m.type = some .pDelayResp) (isFromSelf : Bool) :
    Handles m (view s) (view (acceptPDelayResp env m isFromSelf s)) := by
  simp only [acceptPDelayResp]
  split
  · exact .ignored
  · split
    · rename_i hcur
      split
      · rename_i htwo
        have hecho : (view s).echoes m := hcur.1
        have haddr : (view s).isAddressee m := hcur.2
        exact .pDelayRespTwoStep htype hecho haddr htwo
          (toInternalTime env.localTime (msgUnpackPDelayResp m.buf).timestamp)
          fun h => toInternalTime_representable h env.localTime
      · rw [view_updatePeerDelay]
        exact .pDelayRespOneStep s.clock.pdelayT3
    · exact .ignored

theorem handles_handlePDelayResp (htype : m.type = some .pDelayResp) (isFromSelf : Bool) :
    Handles m (view s) (view (handlePDelayResp env m isFromSelf s)) := by
  simp only [handlePDelayResp]
  split
  · split
    · exact handles_faulty env m s
    · split
      · exact handles_acceptPDelayResp env m s htype isFromSelf
      · exact handles_acceptPDelayResp env m s htype isFromSelf
      · exact .ignored
  · exact .ignored

theorem handles_acceptPDelayRespFollowUp (htype : m.type = some .pDelayRespFollowUp) :
    Handles m (view s) (view (acceptPDelayRespFollowUp env m s)) := by
  have hdone : ∀ t : Port, view { t with clock.waitingForPDelayRespFollowUp := false }
      = { view t with waitingForPDelayRespFollowUp := false } := fun _ => rfl
  simp only [acceptPDelayRespFollowUp]
  split
  · exact .ignored
  · rename_i hwait
    split
    · rename_i hcur
      have hwait' : (view s).waitingForPDelayRespFollowUp = true := by
        rw [Bool.not_eq_false] at hwait
        exact hwait
      have hecho : (view s).echoes m := hcur
      have hstep := Handles.pDelayFollowUp htype hwait' hecho
        (toInternalTime env.localTime (msgUnpackPDelayRespFollowUp m.buf).timestamp)
        fun h => toInternalTime_representable h env.localTime
      refine (congrArg (Handles m (view s)) ((hdone _).trans ?_)).mpr hstep
      rw [view_updatePeerDelay]
      rfl
    · exact .ignored

theorem handles_handlePDelayRespFollowUp (htype : m.type = some .pDelayRespFollowUp) :
    Handles m (view s) (view (handlePDelayRespFollowUp env m s)) := by
  simp only [handlePDelayRespFollowUp]
  split
  · split
    · exact handles_faulty env m s
    · split
      · exact handles_acceptPDelayRespFollowUp env m s htype
      · exact handles_acceptPDelayRespFollowUp env m s htype
      · exact .ignored
  · exact .ignored

/-- What handling a message does. -/
theorem handles_dispatch : Handles m (view s) (view (dispatch env m s)) := by
  simp only [dispatch]
  split
  · rename_i htype
    exact handles_handleAnnounce env m s htype _ Iff.rfl
  · rename_i htype
    exact handles_handleSync env m s htype _
  · rename_i htype
    exact handles_handleFollowUp env m s htype _
  · exact handles_handleDelayReq env m s
  · exact handles_handlePDelayReq env m s _
  · exact handles_handleDelayResp env m s
  · rename_i htype
    exact handles_handlePDelayResp env m s htype _
  · rename_i htype
    exact handles_handlePDelayRespFollowUp env m s htype
  · exact .ignored
  · exact .ignored
  · exact .ignored

end Handlers

end Ptp

end RtosLwip
