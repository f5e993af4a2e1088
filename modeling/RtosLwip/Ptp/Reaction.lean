import RtosLwip.Ptp.Timers

/-!
# Steps of the Port and Its Timers

What a step of the state machine does to the core of a port. The messages matter
only through their `reaction`: a message can make the port faulty, start the
announce receipt timer again, or make the port look at its delay request timer,
and which of these it does is a function of the message and the port.

## Main definitions

* `Reaction`, `reaction`, `Core.react`: What a message does to the core.
* `Core.apply`: What following the recommended state does.

## Theorems

* `core_dispatch`, `core_handle`: What handling a message does.
* `core_applyRecommended`, `core_doState_watching`, `core_doState_master`: The
  parts of a step.
-/

namespace RtosLwip

namespace Ptp

/-- What a message does to the state of the port and its timers. -/
inductive Reaction where
  | ignored
  | fault
  | refresh
  | request
  deriving DecidableEq, Repr

/-- What a reaction does to the core. -/
def Core.react (env : StepEnv) (c : Core) : Reaction → Core
  | .ignored => c
  | .fault => c.toState env .faulty
  | .refresh => c.start env .announceReceipt
  | .request => c.request env

/-- Whether the handler of a type looks at the length of a message: those of
    the other delay mechanism do nothing at all. -/
def checksLength (delayMechanism : DelayMechanism) : MsgType → Bool
  | .announce | .sync | .followUp => true
  | .delayReq | .delayResp => delayMechanism = .e2e
  | .pDelayReq | .pDelayResp | .pDelayRespFollowUp => delayMechanism = .p2p
  | .signaling | .management => false

/-- The reaction to a message that is long enough. -/
def reactionTo (type : MsgType) (m : Message) (s : Port) : Reaction :=
  let isFromSelf := isSamePortIdentity s.clock.portDS.portIdentity m.header.sourcePortIdentity
  match type with
  | .announce =>
    if isFromSelf then
      .ignored
    else
      match s.clock.portDS.portState with
      | .uncalibrated | .slave => if isFromCurrentParent m s then .refresh else .ignored
      | .passive => .refresh
      | _ => .ignored
  | .sync =>
    match s.clock.portDS.portState with
    | .uncalibrated | .slave =>
      -- a two-step Sync waits for its follow-up
      if isFromSelf = true ∨ isFromCurrentParent m s = false ∨ isTwoStep m = true then .ignored
      else .request
    | .passive => .request
    | _ => .ignored
  | .followUp =>
    if isFromSelf then
      .ignored
    else
      match s.clock.portDS.portState with
      | .uncalibrated | .slave =>
        if s.clock.waitingForFollowUp = false ∨ isFromCurrentParent m s = false ∨
            s.clock.recvSyncSequenceId ≠ m.header.sequenceId then .ignored
        else .request
      | .passive => .request
      | _ => .ignored
  | _ => .ignored

/-- The reaction to a message. -/
def reaction (m : Message) (s : Port) : Reaction :=
  match MsgType.ofCode m.header.messageType with
  | none => .ignored
  | some type =>
    if checksLength s.clock.portDS.delayMechanism type = true ∧ m.buf.length < type.length then
      .fault
    else
      reactionTo type m s

/-- The reaction to what a port receives. -/
def handleReaction (env : StepEnv) (s : Port) : Reaction :=
  let r := receive (arrive env s)
  match r.1 with
  | .nothing => .ignored
  | .short => .fault
  | .message m => reaction m r.2

section Handlers

variable (env : StepEnv) (m : Message) (s : Port)

theorem core_accepted :
    core (addForeign m.header (msgUnpackAnnounce m.buf) (acceptAnnounce m s)) = core s := rfl

theorem core_announceFollowing :
    core (announceFollowing env m s)
      = (core s).react env (if isFromCurrentParent m s then .refresh else .ignored) := by
  unfold announceFollowing
  dsimp only
  split
  · exact core_timerStart env .announceReceipt _ _
  · rfl

theorem core_handleAnnounce (hlen : ¬ m.buf.length < MsgType.announce.length) :
    core (handleAnnounce env m
        (isSamePortIdentity s.clock.portDS.portIdentity m.header.sourcePortIdentity) s)
      = (core s).react env (reactionTo .announce m s) := by
  simp only [handleAnnounce, reactionTo, if_neg hlen]
  by_cases hself : isSamePortIdentity s.clock.portDS.portIdentity m.header.sourcePortIdentity = true
  · rw [if_pos hself, if_pos hself]
    rfl
  · rw [if_neg hself, if_neg hself]
    cases s.clock.portDS.portState with
    | uncalibrated => exact core_announceFollowing env m s
    | slave => exact core_announceFollowing env m s
    | passive =>
        exact (core_accepted m _).trans
          (core_timerStart env .announceReceipt s (announceReceiptInterval s))
    | master => rfl
    | preMaster => rfl
    | listening => rfl
    | initializing => rfl
    | faulty => rfl
    | disabled => rfl

/-- The servo and the request behind it. -/
theorem core_steered {u : Port} (hu : core u = core s) (a b c : TimeInternal) :
    core (issueDelayReqTimerExpired env (updateClock env (updateOffset a b c u)))
      = (core s).react env .request := by
  rw [core_issueDelayReqTimerExpired, core_updateClock, core_updateOffset, hu]
  rfl

theorem core_syncFollowing (isFromSelf : Bool) :
    core (syncFollowing env m isFromSelf s) = (core s).react env
      (if isFromSelf = true ∨ isFromCurrentParent m s = false ∨ isTwoStep m = true then .ignored
        else .request) := by
  unfold syncFollowing
  by_cases hself : isFromSelf = true
  · rw [if_pos hself, if_pos (Or.inl hself)]
    rfl
  · rw [if_neg hself]
    by_cases hpar : isFromCurrentParent m s = false
    · rw [if_pos hpar, if_pos (Or.inr (Or.inl hpar))]
      rfl
    · rw [if_neg hpar]
      dsimp only
      by_cases htwo : isTwoStep m = true
      · rw [if_pos htwo, if_pos (Or.inr (Or.inr htwo))]
        rfl
      · rw [if_neg htwo, if_neg (not_or.mpr ⟨hself, not_or.mpr ⟨hpar, htwo⟩⟩)]
        refine core_steered env s ?_ _ _ _
        rfl

theorem core_handleSync (isFromSelf : Bool) (hlen : ¬ m.buf.length < MsgType.sync.length)
    (hself : isFromSelf
      = isSamePortIdentity s.clock.portDS.portIdentity m.header.sourcePortIdentity) :
    core (handleSync env m isFromSelf s) = (core s).react env (reactionTo .sync m s) := by
  simp only [handleSync, reactionTo, if_neg hlen, ← hself]
  cases s.clock.portDS.portState with
  | uncalibrated => exact core_syncFollowing env m s isFromSelf
  | slave => exact core_syncFollowing env m s isFromSelf
  | passive => exact core_issueDelayReqTimerExpired env s
  | master => rfl
  | preMaster => rfl
  | listening => rfl
  | initializing => rfl
  | faulty => rfl
  | disabled => rfl

theorem core_followUpFollowing :
    core (followUpFollowing env m s) = (core s).react env
      (if s.clock.waitingForFollowUp = false ∨ isFromCurrentParent m s = false ∨
          s.clock.recvSyncSequenceId ≠ m.header.sequenceId then .ignored else .request) := by
  unfold followUpFollowing
  by_cases hwait : s.clock.waitingForFollowUp = false
  · rw [if_pos hwait, if_pos (Or.inl hwait)]
    rfl
  · rw [if_neg hwait]
    by_cases hpar : isFromCurrentParent m s = false
    · rw [if_pos hpar, if_pos (Or.inr (Or.inl hpar))]
      rfl
    · rw [if_neg hpar]
      by_cases hseq : s.clock.recvSyncSequenceId ≠ m.header.sequenceId
      · rw [if_pos hseq, if_pos (Or.inr (Or.inr hseq))]
        rfl
      · rw [if_neg hseq, if_neg (not_or.mpr ⟨hwait, not_or.mpr ⟨hpar, hseq⟩⟩)]
        refine core_steered env s ?_ _ _ _
        rfl

theorem core_handleFollowUp (hlen : ¬ m.buf.length < MsgType.followUp.length) :
    core (handleFollowUp env m
        (isSamePortIdentity s.clock.portDS.portIdentity m.header.sourcePortIdentity) s)
      = (core s).react env (reactionTo .followUp m s) := by
  simp only [handleFollowUp, reactionTo, if_neg hlen]
  by_cases hself : isSamePortIdentity s.clock.portDS.portIdentity m.header.sourcePortIdentity = true
  · rw [if_pos hself, if_pos hself]
    rfl
  · rw [if_neg hself, if_neg hself]
    cases s.clock.portDS.portState with
    | uncalibrated => exact core_followUpFollowing env m s
    | slave => exact core_followUpFollowing env m s
    | passive => exact core_issueDelayReqTimerExpired env s
    | master => rfl
    | preMaster => rfl
    | listening => rfl
    | initializing => rfl
    | faulty => rfl
    | disabled => rfl

theorem core_issueDelayResp (time : TimeInternal) (header : MsgHeader) :
    core (issueDelayResp env time header s) = core s := by
  rcases core_sendPacked env s .delayResp (msgPackDelayResp s.clock s.clock.msgObuf header
    (fromInternalTime time (env.localStamp .delayResp))) .zero (by decide) with ⟨hne, hcore⟩
  simp only [issueDelayResp, if_neg hne]
  exact hcore

theorem core_issuePDelayResp (time : TimeInternal) (header : MsgHeader) :
    core (issuePDelayResp env time header s).2 = core s := by
  rcases core_sendPacked env s .pDelayResp (msgPackPDelayResp s.clock.msgObuf header
    (fromInternalTime time (env.localStamp .pDelayResp))) time (by decide) with ⟨hne, hcore⟩
  simp only [issuePDelayResp, if_neg hne]
  split
  · exact hcore
  · exact hcore

theorem core_issuePDelayRespFollowUp (time : TimeInternal) (header : MsgHeader) :
    core (issuePDelayRespFollowUp env time header s) = core s := by
  rcases core_sendPacked env s .pDelayRespFollowUp (msgPackPDelayRespFollowUp s.clock.msgObuf header
    (fromInternalTime time (env.localStamp .pDelayRespFollowUp))) .zero (by decide)
    with ⟨hne, hcore⟩
  simp only [issuePDelayRespFollowUp, if_neg hne]
  exact hcore

theorem core_answerPDelayReq (isFromSelf : Bool) :
    core (answerPDelayReq env m isFromSelf s) = core s := by
  have hresp := core_issuePDelayResp env s m.time m.header
  unfold answerPDelayReq
  dsimp only
  split
  · rfl
  · split
    · rw [core_issuePDelayRespFollowUp, hresp]
    · exact hresp

theorem core_delayRespFollowing : core (delayRespFollowing m s) = core s := by
  unfold delayRespFollowing
  dsimp only
  split
  · exact core_updateDelay _ _ _ _
  · rfl

theorem core_acceptPDelayResp (isFromSelf : Bool) :
    core (acceptPDelayResp env m isFromSelf s) = core s := by
  unfold acceptPDelayResp
  dsimp only
  split
  · rfl
  · split
    · split
      · rfl
      · exact core_updatePeerDelay _ _ _
    · rfl

theorem core_acceptPDelayRespFollowUp : core (acceptPDelayRespFollowUp env m s) = core s := by
  have hdone : ∀ u : Port, core { u with clock.waitingForPDelayRespFollowUp := false } = core u :=
    fun _ => rfl
  unfold acceptPDelayRespFollowUp
  dsimp only
  split
  · rfl
  · split
    · rw [hdone, core_updatePeerDelay]
      rfl
    · rfl

/-- A message for the other delay mechanism. -/
theorem core_otherMechanism {type : MsgType}
    (hcheck : checksLength s.clock.portDS.delayMechanism type = false)
    (hto : reactionTo type m s = .ignored)
    (htype : MsgType.ofCode m.header.messageType = some type) :
    core s = (core s).react env (reaction m s) := by
  simp only [reaction, htype, hcheck, hto, Bool.false_eq_true, false_and, if_false]
  rfl

/-- A message whose length is checked. -/
theorem core_checked {v : Port} {type : MsgType}
    (hshort : m.buf.length < type.length → v = toState env .faulty s)
    (hlong : ¬ m.buf.length < type.length → core v = (core s).react env (reactionTo type m s))
    (hcheck : checksLength s.clock.portDS.delayMechanism type = true)
    (htype : MsgType.ofCode m.header.messageType = some type) :
    core v = (core s).react env (reaction m s) := by
  simp only [reaction, htype, hcheck, true_and]
  by_cases hlen : m.buf.length < type.length
  · rw [if_pos hlen, hshort hlen]
    exact core_toState env s .faulty
  · rw [if_neg hlen]
    exact hlong hlen

theorem core_handleDelayReq (htype : MsgType.ofCode m.header.messageType = some .delayReq) :
    core (handleDelayReq env m s) = (core s).react env (reaction m s) := by
  unfold handleDelayReq
  cases hmech : s.clock.portDS.delayMechanism with
  | e2e =>
      refine core_checked env m s (fun h => if_pos h) (fun h => ?_) (by rw [hmech]; rfl) htype
      dsimp only
      rw [if_neg h]
      cases s.clock.portDS.portState with
      | master => exact core_issueDelayResp env s m.time m.header
      | _ => rfl
  | p2p => exact core_otherMechanism env m s (by rw [hmech]; rfl) rfl htype
  | disabled => exact core_otherMechanism env m s (by rw [hmech]; rfl) rfl htype

theorem core_handleDelayResp (htype : MsgType.ofCode m.header.messageType = some .delayResp) :
    core (handleDelayResp env m s) = (core s).react env (reaction m s) := by
  unfold handleDelayResp
  cases hmech : s.clock.portDS.delayMechanism with
  | e2e =>
      refine core_checked env m s (fun h => if_pos h) (fun h => ?_) (by rw [hmech]; rfl) htype
      dsimp only
      rw [if_neg h]
      cases s.clock.portDS.portState with
      | uncalibrated => exact core_delayRespFollowing m s
      | slave => exact core_delayRespFollowing m s
      | _ => rfl
  | p2p => exact core_otherMechanism env m s (by rw [hmech]; rfl) rfl htype
  | disabled => exact core_otherMechanism env m s (by rw [hmech]; rfl) rfl htype

theorem core_handlePDelayReq (isFromSelf : Bool)
    (htype : MsgType.ofCode m.header.messageType = some .pDelayReq) :
    core (handlePDelayReq env m isFromSelf s) = (core s).react env (reaction m s) := by
  unfold handlePDelayReq
  cases hmech : s.clock.portDS.delayMechanism with
  | p2p =>
      refine core_checked env m s (fun h => if_pos h) (fun h => ?_) (by rw [hmech]; rfl) htype
      dsimp only
      rw [if_neg h]
      cases s.clock.portDS.portState with
      | passive => exact core_answerPDelayReq env m s isFromSelf
      | slave => exact core_answerPDelayReq env m s isFromSelf
      | master => exact core_answerPDelayReq env m s isFromSelf
      | _ => rfl
  | e2e => exact core_otherMechanism env m s (by rw [hmech]; rfl) rfl htype
  | disabled => exact core_otherMechanism env m s (by rw [hmech]; rfl) rfl htype

theorem core_handlePDelayResp (isFromSelf : Bool)
    (htype : MsgType.ofCode m.header.messageType = some .pDelayResp) :
    core (handlePDelayResp env m isFromSelf s) = (core s).react env (reaction m s) := by
  unfold handlePDelayResp
  cases hmech : s.clock.portDS.delayMechanism with
  | p2p =>
      refine core_checked env m s (fun h => if_pos h) (fun h => ?_) (by rw [hmech]; rfl) htype
      dsimp only
      rw [if_neg h]
      cases s.clock.portDS.portState with
      | slave => exact core_acceptPDelayResp env m s isFromSelf
      | master => exact core_acceptPDelayResp env m s isFromSelf
      | _ => rfl
  | e2e => exact core_otherMechanism env m s (by rw [hmech]; rfl) rfl htype
  | disabled => exact core_otherMechanism env m s (by rw [hmech]; rfl) rfl htype

theorem core_handlePDelayRespFollowUp
    (htype : MsgType.ofCode m.header.messageType = some .pDelayRespFollowUp) :
    core (handlePDelayRespFollowUp env m s) = (core s).react env (reaction m s) := by
  unfold handlePDelayRespFollowUp
  cases hmech : s.clock.portDS.delayMechanism with
  | p2p =>
      refine core_checked env m s (fun h => if_pos h) (fun h => ?_) (by rw [hmech]; rfl) htype
      dsimp only
      rw [if_neg h]
      cases s.clock.portDS.portState with
      | slave => exact core_acceptPDelayRespFollowUp env m s
      | master => exact core_acceptPDelayRespFollowUp env m s
      | _ => rfl
  | e2e => exact core_otherMechanism env m s (by rw [hmech]; rfl) rfl htype
  | disabled => exact core_otherMechanism env m s (by rw [hmech]; rfl) rfl htype

/-- What handling a message does to the core. -/
theorem core_dispatch : core (dispatch env m s) = (core s).react env (reaction m s) := by
  simp only [dispatch]
  split
  · rename_i htype
    exact core_checked env m s (fun h => if_pos h) (core_handleAnnounce env m s) rfl htype
  · rename_i htype
    exact core_checked env m s (fun h => if_pos h)
      (fun h => core_handleSync env m s _ h rfl) rfl htype
  · rename_i htype
    exact core_checked env m s (fun h => if_pos h) (core_handleFollowUp env m s) rfl htype
  · rename_i htype
    exact core_handleDelayReq env m s htype
  · rename_i htype
    exact core_handlePDelayReq env m s _ htype
  · rename_i htype
    exact core_handleDelayResp env m s htype
  · rename_i htype
    exact core_handlePDelayResp env m s _ htype
  · rename_i htype
    exact core_handlePDelayRespFollowUp env m s htype
  · rename_i htype
    exact core_otherMechanism env m s rfl rfl htype
  · rename_i htype
    exact core_otherMechanism env m s rfl rfl htype
  · rename_i htype
    simp only [reaction, htype]
    rfl

@[simp] theorem core_udpRecvCallback (ch : Channel) (p : Packet) :
    core (udpRecvCallback ch p s) = core s := by
  cases ch with
  | event => rfl
  | general => rfl

@[simp] theorem core_arrive : core (arrive env s) = core s := by
  unfold arrive
  induction env.arrivals generalizing s with
  | nil => rfl
  | cons p rest ih => rw [List.foldl_cons, ih, core_udpRecvCallback]

@[simp] theorem core_receive : core (receive s).2 = core s := by
  unfold receive
  dsimp only
  split
  · rfl
  · split
    · rfl
    · split
      · rfl
      · rfl

/-- What a look into the queues does to the core. -/
theorem core_handle : core (handle env s) = (core s).react env (handleReaction env s) := by
  have hcore : core (receive (arrive env s)).2 = core s := by rw [core_receive, core_arrive]
  simp only [handle, handleReaction]
  generalize receive (arrive env s) = r at hcore ⊢
  cases r.1 with
  | nothing => exact hcore
  | short =>
      rw [core_toState, hcore]
      rfl
  | message m =>
      rw [core_dispatch, core_log, hcore]
      rfl

end Handlers

/-! ### The parts of a step -/

/-- What following the recommended state does. -/
def Core.apply (env : StepEnv) (events : Events) (c : Core) : Core :=
  match c.recommendedState with
  | .master =>
    match c.portState with
    | .preMaster =>
      if c.expired env .qualificationTimeout then
        (c.consume env .qualificationTimeout).toState env .master
      else
        c.consume env .qualificationTimeout
    | .master => c
    | _ => c.toState env .preMaster
  | .passive => if c.portState ≠ .passive then c.toState env .passive else c
  | .slave =>
    match c.portState with
    | .uncalibrated => if events.masterClockSelected then c.toState env .slave else c
    | .slave =>
      let c := if events.synchronizationFault then c.toState env .uncalibrated else c
      if events.masterClockChanged then c.toState env .uncalibrated else c
    | _ => c.toState env .uncalibrated
  | .listening => if c.portState ≠ .listening then c.toState env .listening else c
  | _ => c

section Steps

variable (env : StepEnv) (s : Port)

theorem core_bmc : core (bmc s).2 = core s := by
  unfold bmc bmcStateDecision
  dsimp only
  repeat' split
  all_goals rfl

/-- The state decision changes the recommended state at most. -/
theorem core_stateDecision : core (stateDecision s)
    = { core s with recommendedState := (stateDecision s).clock.recommendedState } := by
  have hcore : ∀ (u : Port) (r : PtpState), core u = core s →
      core { u with clock.recommendedState := r } = { core s with recommendedState := r } := by
    intro u r hu
    rw [← hu]
    rfl
  have hbmc := core_bmc { s with clock.events.stateDecisionEvent := false }
  have hdecided : core (if s.clock.events.stateDecisionEvent then
      { (bmc { s with clock.events.stateDecisionEvent := false }).2 with
        clock.recommendedState := if ((bmc { s with clock.events.stateDecisionEvent := false }).1
              = .master ∨ (bmc { s with clock.events.stateDecisionEvent := false }).1 = .passive) ∧
            isSlaveOnly (bmc { s with clock.events.stateDecisionEvent := false }).2 = true
          then .listening else (bmc { s with clock.events.stateDecisionEvent := false }).1 }
      else s) = { core s with recommendedState := (if s.clock.events.stateDecisionEvent then
      { (bmc { s with clock.events.stateDecisionEvent := false }).2 with
        clock.recommendedState := if ((bmc { s with clock.events.stateDecisionEvent := false }).1
              = .master ∨ (bmc { s with clock.events.stateDecisionEvent := false }).1 = .passive) ∧
            isSlaveOnly (bmc { s with clock.events.stateDecisionEvent := false }).2 = true
          then .listening else (bmc { s with clock.events.stateDecisionEvent := false }).1 }
      else s).clock.recommendedState } := by
    generalize bmc { s with clock.events.stateDecisionEvent := false } = r at hbmc ⊢
    split
    · exact hcore r.2 _ hbmc
    · rfl
  unfold stateDecision
  cases s.clock.portDS.portState with
  | initializing => rfl
  | faulty => rfl
  | disabled => rfl
  | listening => exact hdecided
  | uncalibrated => exact hdecided
  | slave => exact hdecided
  | preMaster => exact hdecided
  | master => exact hdecided
  | passive => exact hdecided

/-- A slave that becomes uncalibrated keeps its events. -/
theorem events_toState_uncalibrated (hst : s.clock.portDS.portState = .slave) :
    (toState env .uncalibrated s).clock.events = s.clock.events := by
  simp only [toState, leaveState, hst, enterState]
  split
  · rfl
  · rfl
  · rfl

theorem core_applyRecommended :
    core (applyRecommended env s) = (core s).apply env s.clock.events := by
  unfold applyRecommended Core.apply
  rw [show (core s).recommendedState = s.clock.recommendedState from rfl,
    show (core s).portState = s.clock.portDS.portState from rfl]
  cases s.clock.recommendedState with
  | master =>
      rcases core_timerExpired env .qualificationTimeout s with ⟨h1, h2⟩
      cases s.clock.portDS.portState with
      | preMaster =>
          dsimp only
          rw [h1]
          split
          · rw [core_toState, h2]
          · exact h2
      | master => rfl
      | _ => exact core_toState env s .preMaster
  | passive =>
      dsimp only
      split
      · exact core_toState env s .passive
      · rfl
  | listening =>
      dsimp only
      split
      · exact core_toState env s .listening
      · rfl
  | slave =>
      cases hst : s.clock.portDS.portState with
      | uncalibrated =>
          dsimp only
          split
          · exact core_toState env _ .slave
          · rfl
      | slave =>
          have hfault := core_toState env { s with clock.events.synchronizationFault := false }
            .uncalibrated
          have hevents := events_toState_uncalibrated env
            { s with clock.events.synchronizationFault := false } hst
          dsimp only
          generalize toState env .uncalibrated
            { s with clock.events.synchronizationFault := false } = u at hfault hevents ⊢
          split
          · rw [show u.clock.events.masterClockChanged = s.clock.events.masterClockChanged by
              rw [hevents]]
            split
            · rw [core_toState]
              exact congrArg _ hfault
            · exact hfault
          · split
            · exact core_toState env _ .uncalibrated
            · rfl
      | _ => exact core_toState env s .uncalibrated
  | _ => rfl

/-- What the announce receipt timeout does. -/
theorem core_announceReceiptTimeout :
    core (announceReceiptTimeout env s)
      = if isSlaveOnly s = false then
          ({ core s with recommendedState := .master } : Core).toState env .master
        else if (core s).portState ≠ .listening then (core s).toState env .listening
        else core s := by
  have hslave : isSlaveOnly (forgetMasters s) = isSlaveOnly s := rfl
  have hport : (forgetMasters s).clock.portDS.portState = (core s).portState := rfl
  unfold announceReceiptTimeout
  dsimp only
  rw [hslave, hport]
  split
  · exact core_toState env _ .master
  · split
    · exact core_toState env _ .listening
    · rfl

/-- A port that watches for announces: the timeout, or a message. -/
theorem core_doState_watching (hst : (core s).portState = .listening ∨
    (core s).portState = .uncalibrated ∨ (core s).portState = .slave ∨
    (core s).portState = .passive) :
    core (doState env s)
      = if (core s).expired env .announceReceipt then
          if isSlaveOnly s = false then
            ({ (core s).consume env .announceReceipt with recommendedState := .master } :
              Core).toState env .master
          else if (core s).portState ≠ .listening then
            ((core s).consume env .announceReceipt).toState env .listening
          else
            (core s).consume env .announceReceipt
        else
          ((core s).consume env .announceReceipt).react env
            (handleReaction env (timerExpired env .announceReceipt s).2) := by
  have hlook : doState env s = if (timerExpired env .announceReceipt s).1 then
      announceReceiptTimeout env (timerExpired env .announceReceipt s).2
      else handle env (timerExpired env .announceReceipt s).2 := by
    unfold doState
    rcases hst with h | h | h | h
    · rw [show s.clock.portDS.portState = _ from h]
    · rw [show s.clock.portDS.portState = _ from h]
    · rw [show s.clock.portDS.portState = _ from h]
    · rw [show s.clock.portDS.portState = _ from h]
  have hslave : isSlaveOnly (timerExpired env .announceReceipt s).2 = isSlaveOnly s := by
    unfold timerExpired
    dsimp only
    split
    · split
      · rfl
      · rfl
    · split
      · rfl
      · rfl
  rcases core_timerExpired env .announceReceipt s with ⟨h1, h2⟩
  rw [hlook, h1]
  generalize timerExpired env .announceReceipt s = r at h2 hslave ⊢
  split
  · rw [core_announceReceiptTimeout, hslave, h2]
    rfl
  · rw [core_handle, h2]

theorem core_issueFollowup (time : TimeInternal) : core (issueFollowup env time s) = core s := by
  rcases core_sendPacked env s .followUp (msgPackFollowUp s.clock s.clock.msgObuf
    (fromInternalTime time (env.localStamp .followUp))) .zero (by decide) with ⟨hne, hcore⟩
  simp only [issueFollowup, if_neg hne]
  exact hcore

theorem core_issueSync : core (issueSync env s) = core s := by
  rcases core_sendPacked env s .sync (msgPackSync s.clock s.clock.msgObuf
    (fromInternalTime (env.time .sync) (env.localStamp .sync))) (env.time .sync)
    (by decide) with ⟨hne, hcore⟩
  simp only [issueSync, if_neg hne]
  generalize sendPacked env .sync _ (env.time .sync) s = r at hcore ⊢
  split
  · exact (core_issueFollowup env _ _).trans hcore
  · exact hcore

theorem core_issueAnnounce : core (issueAnnounce env s) = core s := by
  rcases core_sendPacked env s .announce (msgPackAnnounce s.clock s.clock.msgObuf) .zero
    (by decide) with ⟨hne, hcore⟩
  simp only [issueAnnounce, if_neg hne]
  exact hcore

/-- What the two timers of a master do: an expiry is consumed, and the timer is
    not started again. -/
theorem core_masterTimers : core (masterTimers env s)
    = ((core s).consume env .syncInterval).consume env .announceInterval := by
  have hsync : core (if (timerExpired env .syncInterval s).1 then
      issueSync env (timerExpired env .syncInterval s).2
      else (timerExpired env .syncInterval s).2) = (core s).consume env .syncInterval := by
    rw [← (core_timerExpired env .syncInterval s).2]
    split
    · exact core_issueSync env _
    · rfl
  unfold masterTimers
  dsimp only
  generalize (if (timerExpired env .syncInterval s).1 then
      issueSync env (timerExpired env .syncInterval s).2
      else (timerExpired env .syncInterval s).2) = u at hsync ⊢
  rw [← hsync, ← (core_timerExpired env .announceInterval u).2]
  split
  · exact core_issueAnnounce env _
  · rfl

/-- What a master does. -/
theorem core_doState_master (hst : (core s).portState = .master) :
    core (doState env s)
      = ((((core s).consume env .syncInterval).consume env .announceInterval).react env
          (handleReaction env (masterTimers env s))).request env := by
  have hdo : doState env s = issueDelayReqTimerExpired env (handle env (masterTimers env s)) := by
    unfold doState
    rw [show s.clock.portDS.portState = _ from hst]
  rw [hdo, core_issueDelayReqTimerExpired, core_handle, core_masterTimers]

end Steps

end Ptp

end RtosLwip
