import RtosLwip.Ptp.Transition

/-!
# The Steps of the Daemon

A whole step of the state machine over the protocol view, for a port that is up
and for one that is not.

A port is not up until its first successful initialisation, and from then on it
is never initialised again: a fault is left for the recommended state. So a run
is some attempts at initialisation, which `bootView` describes completely, and
then steps of a port that is up, each of which is a `RunStep`.

A condition on the message a step handles is a parameter `P` of the relations,
which sees the view the message is handled in; a condition on the view a step
begins in is the parameter `Q` of `Allows`.

## Main definitions

* `Receives`, `Applies`, `Acts`, `RunStep`: The parts of a step, and a step.
* `Settled`, `Running`: A port in its recommended state, and one that is up.
* `handledMessage`: The message a step handles.
* `Boots`, `Up`: A port before and after its initialisation.
* `Allows`: The condition on an event.

## Theorems

* `applies_applyRecommended`, `acts_doState`: The two parts of a step.
* `runStep_ptpStateMachine`: A step of a port that is up.
* `samePort_running_of_runStep`: A port that is up stays up.
* `view_ptpStateMachine_boots`: A step of a port that is not up yet.
-/

namespace RtosLwip

namespace Ptp

/-- The reception of at most one message, which satisfies `P` in the view it is
    handled in. -/
inductive Receives (P : View → Message → Prop) (v : View) : View → Prop where
  | nothing : Receives P v v
  | short : Receives P v (v.toState .faulty)
  | message (m : Message) (w : View) (hP : P v m) (h : Handles m (v.log (.received m)) w) :
      Receives P v w

theorem view_receive (s : Port) : view (receive s).2 = view s := by
  simp only [receive]
  split
  · rfl
  · split
    · rfl
    · split
      · rfl
      · rfl

theorem receives_handle {P : View → Message → Prop} (env : StepEnv) (s : Port)
    (hP : ∀ m, (receive (arrive env s)).1 = .message m → P (view s) m) :
    Receives P (view s) (view (handle env s)) := by
  have hview : view (receive (arrive env s)).2 = view s := by
    rw [view_receive, view_arrive]
  simp only [handle]
  split
  · rw [hview]
    exact .nothing
  · rw [view_toState, hview]
    exact .short
  · rename_i m hm
    refine .message m _ (hP m hm) ?_
    have h := handles_dispatch env m ((receive (arrive env s)).2.log (.received m))
    rw [view_log, hview] at h
    exact h

/-- A port that is in the state recommended to it. -/
def Settled (v : View) : Prop :=
  (v.recommendedState = .listening ∧ v.portState = .listening) ∨
  (v.recommendedState = .master ∧ v.portState = .master) ∨
  (v.recommendedState = .passive ∧ v.portState = .passive) ∨
  (v.recommendedState = .slave ∧ v.follows)

/-- The states that can be recommended to a port that is up. -/
def Recommends (v : View) : Prop :=
  v.recommendedState = .listening ∨ v.recommendedState = .master ∨
    v.recommendedState = .passive ∨ v.recommendedState = .slave

/-- A port that is up: in the state recommended to it, or faulty. -/
def Running (v : View) : Prop := Settled v ∨ (v.portState = .faulty ∧ Recommends v)

theorem Settled.recommends {v : View} (h : Settled v) : Recommends v := by
  rcases h with h | h | h | h
  · exact Or.inl h.1
  · exact Or.inr (Or.inl h.1)
  · exact Or.inr (Or.inr (Or.inl h.1))
  · exact Or.inr (Or.inr (Or.inr h.1))

/-- Following the recommended state: the port stays, or enters it. -/
inductive Applies (v : View) : View → Prop where
  | stay (h : Settled v) : Applies v v
  | enter (state : PtpState) (hlisten : state = .listening → v.recommendedState = .listening)
      (h : Settled (v.toState state)) : Applies v (v.toState state)

/-- What a settled port does in its state. -/
inductive Acts (P : View → Message → Prop) (v : View) : View → Prop where
  | timeout (hstate : v.portState ≠ .master) : Acts P v v.timeout
  | handle (hstate : v.portState ≠ .master) (w : View) (h : Receives P v w) : Acts P v w
  | master (hstate : v.portState = .master) (w x y : View) (hsend : MasterSends v w)
      (h : Receives P w x) (hreq : Requests x y) : Acts P v y

/-- A step of a port that is up. -/
def RunStep (P : View → Message → Prop) (v w : View) : Prop :=
  ∃ u, Applies v.stateDecision u ∧ Settled u ∧ Acts P u w

@[simp] theorem View.recommendedState_toState (v : View) (state : PtpState) :
    (v.toState state).recommendedState
      = if state = .initializing ∨ state = .listening then state else v.recommendedState := by
  simp only [View.toState]
  split
  · rfl
  · split
    · rfl
    · rfl

theorem View.recommendedState_toState_ne (v : View) {state : PtpState} (h1 : state ≠ .initializing)
    (h2 : state ≠ .listening) : (v.toState state).recommendedState = v.recommendedState := by
  rw [View.recommendedState_toState, if_neg (not_or.mpr ⟨h1, h2⟩)]

/-- Going from slave to uncalibrated twice is going once. -/
theorem View.toState_uncalibrated_twice {v : View} (h : v.portState = .slave) :
    (v.toState .uncalibrated).toState .uncalibrated = v.toState .uncalibrated := by
  simp only [View.toState, h, View.clears, decide_true, Bool.true_or, Bool.not_true,
    Bool.false_eq_true, if_false, reduceCtorEq, or_self]

/-- The states of a port that is up, before it follows its recommendation. -/
def IsUp (state : PtpState) : Prop :=
  state ≠ .initializing ∧ state ≠ .disabled ∧ state ≠ .preMaster

/-- Following the recommended state settles the port. -/
theorem applies_applyRecommended (env : StepEnv) (s : Port) (hrec : Recommends (view s))
    (hup : IsUp (view s).portState) :
    Applies (view s) (view (applyRecommended env s)) ∧
      Settled (view (applyRecommended env s)) := by
  -- The port enters a state, or it stays as it is: in both cases it is enough to say that it is
  -- settled then.
  have henter : ∀ state, (state = .listening → (view s).recommendedState = .listening) →
      Settled ((view s).toState state) → ∀ t : Port, view t = (view s).toState state →
      Applies (view s) (view t) ∧ Settled (view t) := by
    intro state hlisten h t ht
    rw [ht]
    exact ⟨.enter state hlisten h, h⟩
  have hstay : Settled (view s) → ∀ t : Port, view t = view s →
      Applies (view s) (view t) ∧ Settled (view t) := by
    intro h t ht
    rw [ht]
    exact ⟨.stay h, h⟩
  -- The view has no record of a change of the master.
  have hchanged : ∀ (t : Port) (b : Bool),
      view { t with clock.events.masterClockChanged := b } = view t := fun _ _ => rfl
  have hkeep : ∀ {state : PtpState}, state ≠ .initializing → state ≠ .listening →
      ((view s).toState state).recommendedState = (view s).recommendedState :=
    fun h1 h2 => View.recommendedState_toState_ne _ h1 h2
  have hne : ∀ {state : PtpState}, state ≠ .listening → state = .listening →
      (view s).recommendedState = .listening := fun h1 h2 => absurd h2 h1
  simp only [applyRecommended]
  split
  · -- master
    rename_i h
    split
    · rename_i hst
      exact absurd hst hup.2.2
    · rename_i hst
      exact hstay (Or.inr (Or.inl ⟨h, hst⟩)) _ rfl
    · exact henter .preMaster (hne (by decide))
        (Or.inr (Or.inl ⟨(hkeep (by decide) (by decide)).trans h, rfl⟩)) _ (view_toState env _ s)
  · -- passive
    rename_i h
    split
    · exact henter .passive (hne (by decide))
        (Or.inr (Or.inr (Or.inl ⟨(hkeep (by decide) (by decide)).trans h, rfl⟩))) _
        (view_toState env _ s)
    · rename_i hst
      exact hstay (Or.inr (Or.inr (Or.inl ⟨h, not_not.mp hst⟩))) _ rfl
  · -- slave
    rename_i h
    have hu : Settled ((view s).toState .uncalibrated) :=
      Or.inr (Or.inr (Or.inr ⟨(hkeep (by decide) (by decide)).trans h, Or.inl rfl⟩))
    split
    · rename_i hst
      split
      · exact henter .slave (hne (by decide))
          (Or.inr (Or.inr (Or.inr ⟨(hkeep (by decide) (by decide)).trans h, Or.inr rfl⟩))) _
          ((hchanged _ _).trans (view_toState env .slave _))
      · exact hstay (Or.inr (Or.inr (Or.inr ⟨h, Or.inl hst⟩))) _ (hchanged _ _)
    · rename_i hst
      -- a synchronization fault and a change of the master may come together
      have hfault : view (toState env .uncalibrated
          { s with clock.events.synchronizationFault := false })
          = (view s).toState .uncalibrated := view_toState env _ _
      split
      · generalize toState env .uncalibrated
          { s with clock.events.synchronizationFault := false } = t at hfault ⊢
        split
        · refine henter .uncalibrated (hne (by decide)) hu _ ?_
          refine (view_toState env _ _).trans ?_
          rw [hchanged, hfault]
          exact View.toState_uncalibrated_twice hst
        · exact henter .uncalibrated (hne (by decide)) hu _ hfault
      · split
        · exact henter .uncalibrated (hne (by decide)) hu _ (view_toState env _ _)
        · exact hstay (Or.inr (Or.inr (Or.inr ⟨h, Or.inr hst⟩))) _ rfl
    · exact henter .uncalibrated (hne (by decide)) hu _ (view_toState env _ s)
  · -- listening
    rename_i h
    split
    · exact henter .listening (fun _ => h) (Or.inl ⟨rfl, rfl⟩) _ (view_toState env _ s)
    · rename_i hst
      exact hstay (Or.inl ⟨h, not_not.mp hst⟩) _ rfl
  · -- nothing else is ever recommended
    rename_i h1 h2 h3 h4
    rcases hrec with h | h | h | h
    · exact absurd h h4
    · exact absurd h h1
    · exact absurd h h2
    · exact absurd h h3

/-- The port in which the actions of a state look for a message. -/
def handling (env : StepEnv) (s : Port) : Option Port :=
  match s.clock.portDS.portState with
  | .disabled => some s
  | .listening | .uncalibrated | .slave | .passive =>
    let r := timerExpired env .announceReceipt s
    if r.1 then none else some r.2
  | .master => some (masterTimers env s)
  | _ => none

/-- The message the actions of a state handle, and the view it is handled in. -/
def handledIn (env : StepEnv) (s : Port) : Option (View × Message) :=
  match handling env s with
  | none => none
  | some t =>
    match (receive (arrive env t)).1 with
    | .message m => some (view t, m)
    | _ => none

/-- The message a step handles, and the view it is handled in. -/
def handledMessage (env : StepEnv) (s : Port) : Option (View × Message) :=
  handledIn env (applyRecommended env (stateDecision { s with clock.messageActivity := false }))

theorem handledIn_eq_some {env : StepEnv} {s t : Port} {m : Message}
    (ht : handling env s = some t) (hm : (receive (arrive env t)).1 = .message m) :
    handledIn env s = some (view t, m) := by
  simp only [handledIn, ht, hm]

theorem view_announceReceiptTimeout (env : StepEnv) (s : Port) :
    view (announceReceiptTimeout env s) = (view s).timeout := by
  have hmaster : ∀ t : Port, view { m1 t with clock.recommendedState := .master }
      = { (view t).m1 with recommendedState := .master } := fun _ => rfl
  have hview : view (forgetMasters s) = (view s).forgetMasters := rfl
  have hslave : isSlaveOnly (forgetMasters s) = (view s).slaveOnly := rfl
  have hport : (forgetMasters s).clock.portDS.portState = (view s).portState := rfl
  simp only [announceReceiptTimeout, View.timeout, hslave, hport]
  generalize forgetMasters s = t at hview ⊢
  split
  · rw [view_toState, hmaster, hview]
  · split
    · rw [view_toState, hview]
    · exact hview

/-- What a settled port does in its state. -/
theorem acts_doState {P : View → Message → Prop} (env : StepEnv) (s : Port)
    (hs : Settled (view s)) (hP : ∀ v m, handledIn env s = some (v, m) → P v m) :
    Acts P (view s) (view (doState env s)) := by
  have hslow : s.clock.portDS.portState ≠ .master →
      handling env s = (if (timerExpired env .announceReceipt s).1 then none
        else some (timerExpired env .announceReceipt s).2) →
      Acts P (view s) (view (if (timerExpired env .announceReceipt s).1 then
        announceReceiptTimeout env (timerExpired env .announceReceipt s).2
        else handle env (timerExpired env .announceReceipt s).2)) := by
    intro hst hhand
    have hview := view_timerExpired env .announceReceipt s
    generalize timerExpired env .announceReceipt s = r at hhand hview ⊢
    split
    · rw [view_announceReceiptTimeout, hview]
      exact .timeout hst
    · rename_i hexp
      rw [if_neg hexp] at hhand
      refine .handle hst _ ?_
      have h := receives_handle (P := P) env r.2
        fun m hm => hP _ m (handledIn_eq_some hhand hm)
      rw [hview] at h
      exact h
  have hunsettled : ∀ {st : PtpState}, s.clock.portDS.portState = st →
      st ≠ .listening → st ≠ .master → st ≠ .passive → st ≠ .uncalibrated → st ≠ .slave →
      False := by
    intro st hst h1 h2 h3 h4 h5
    rcases hs with h | h | h | ⟨-, h | h⟩
    · exact h1 (hst.symm.trans h.2)
    · exact h2 (hst.symm.trans h.2)
    · exact h3 (hst.symm.trans h.2)
    · exact h4 (hst.symm.trans h)
    · exact h5 (hst.symm.trans h)
  simp only [doState]
  split
  case h_4 hst => exact hslow (by rw [hst]; decide) (by simp only [handling, hst])
  case h_5 hst => exact hslow (by rw [hst]; decide) (by simp only [handling, hst])
  case h_6 hst => exact hslow (by rw [hst]; decide) (by simp only [handling, hst])
  case h_7 hst => exact hslow (by rw [hst]; decide) (by simp only [handling, hst])
  case h_8 hst =>
      refine .master hst _ _ _ (masterSends_masterTimers env s) ?_
        (requests_issueDelayReqTimerExpired env _)
      exact receives_handle env _ fun m hm =>
        hP _ m (handledIn_eq_some (by simp only [handling, hst]) hm)
  all_goals
    rename_i hst
    exact (hunsettled hst (by decide) (by decide) (by decide) (by decide) (by decide)).elim

@[simp] theorem View.portState_decideOn (header : MsgHeader) (announce : MsgAnnounce) (v : View) :
    (v.decideOn header announce).2.portState = v.portState := by
  simp only [View.decideOn]
  repeat' split
  all_goals rfl

/-- The states `bmc` decides on. -/
theorem View.decideOn_fst (header : MsgHeader) (announce : MsgAnnounce) (v : View) :
    (v.decideOn header announce).1 = .listening ∨ (v.decideOn header announce).1 = .master ∨
      (v.decideOn header announce).1 = .passive ∨ (v.decideOn header announce).1 = .slave := by
  simp only [View.decideOn]
  repeat' split
  all_goals simp only [reduceCtorEq, or_false, or_true]

theorem View.portState_stateDecision (v : View) : v.stateDecision.portState = v.portState := by
  simp only [View.stateDecision]
  split
  · exact View.portState_decideOn _ _ _
  · rfl

theorem recommends_stateDecision {v : View} (h : Recommends v) : Recommends v.stateDecision := by
  simp only [View.stateDecision]
  split
  · simp only [Recommends]
    split
    · exact Or.inl rfl
    · exact View.decideOn_fst _ _ _
  · exact h

theorem Running.recommends {v : View} (h : Running v) : Recommends v := by
  rcases h with h | h
  · exact h.recommends
  · exact h.2

theorem Running.isUp {v : View} (h : Running v) : IsUp v.portState := by
  rcases h with (h | h | h | ⟨-, h | h⟩) | h
  · rw [h.2]; exact ⟨by decide, by decide, by decide⟩
  · rw [h.2]; exact ⟨by decide, by decide, by decide⟩
  · rw [h.2]; exact ⟨by decide, by decide, by decide⟩
  · rw [h]; exact ⟨by decide, by decide, by decide⟩
  · rw [h]; exact ⟨by decide, by decide, by decide⟩
  · rw [h.1]; exact ⟨by decide, by decide, by decide⟩

/-- A step of the state machine, for a port that is up. -/
theorem runStep_ptpStateMachine {P : View → Message → Prop} (env : StepEnv) (s : Port)
    (hr : Running (view s)) (hP : ∀ v m, handledMessage env s = some (v, m) → P v m) :
    RunStep P (view s) (view (ptpStateMachine env s)) := by
  have hview : view (stateDecision { s with clock.messageActivity := false })
      = (view s).stateDecision := view_stateDecision _
  have hrec := recommends_stateDecision hr.recommends
  have hup : IsUp (view s).stateDecision.portState := by
    rw [View.portState_stateDecision]
    exact hr.isUp
  rw [← hview] at hrec hup
  rcases applies_applyRecommended env _ hrec hup with ⟨happ, hset⟩
  rw [hview] at happ
  exact ⟨_, happ, hset, acts_doState env _ hset hP⟩

/-- What stays as it is while a port is up. -/
structure SamePort (v w : View) : Prop where
  defaultDS : w.defaultDS = v.defaultDS
  portIdentity : w.portIdentity = v.portIdentity
  rtOpts : w.rtOpts = v.rtOpts
  obufLength : w.obufLength = v.obufLength

namespace SamePort

theorem refl (v : View) : SamePort v v := ⟨rfl, rfl, rfl, rfl⟩

theorem trans {u v w : View} (h1 : SamePort u v) (h2 : SamePort v w) : SamePort u w :=
  ⟨h2.defaultDS.trans h1.defaultDS, h2.portIdentity.trans h1.portIdentity,
    h2.rtOpts.trans h1.rtOpts, h2.obufLength.trans h1.obufLength⟩

theorem slaveOnly {v w : View} (h : SamePort v w) : w.slaveOnly = v.slaveOnly := by
  simp only [View.slaveOnly, h.defaultDS]

end SamePort

theorem samePort_toState (v : View) (state : PtpState) : SamePort v (v.toState state) := by
  have hclear : SamePort v (if View.clears v.portState state then v.clear else v) := by
    split
    · exact ⟨rfl, rfl, rfl, rfl⟩
    · exact .refl v
  exact hclear.trans ⟨rfl, rfl, rfl, rfl⟩

theorem samePort_stateDecision (v : View) : SamePort v v.stateDecision := by
  have hdecide : ∀ (header : MsgHeader) (announce : MsgAnnounce) (u : View),
      SamePort u (u.decideOn header announce).2 := by
    intro header announce u
    simp only [View.decideOn]
    repeat' split
    all_goals exact ⟨rfl, rfl, rfl, rfl⟩
  simp only [View.stateDecision]
  split
  · exact SamePort.trans (v := { v with stateDecisionEvent := false, foreignMasterDS.best := _ })
      ⟨rfl, rfl, rfl, rfl⟩ ((hdecide _ _ _).trans ⟨rfl, rfl, rfl, rfl⟩)
  · exact .refl v

theorem samePort_timeout (v : View) : SamePort v v.timeout := by
  simp only [View.timeout]
  split
  · exact SamePort.trans (v := { v.forgetMasters.m1 with recommendedState := .master })
      ⟨rfl, rfl, rfl, rfl⟩ (samePort_toState _ _)
  · split
    · exact SamePort.trans (v := v.forgetMasters) ⟨rfl, rfl, rfl, rfl⟩ (samePort_toState _ _)
    · exact ⟨rfl, rfl, rfl, rfl⟩

/-- The same port in the same state. -/
def Stays (v w : View) : Prop :=
  SamePort v w ∧ w.portState = v.portState ∧ w.recommendedState = v.recommendedState

theorem stays_of_requests {v w : View} (h : Requests v w) : Stays v w := by
  cases h with
  | nothing => exact ⟨.refl v, rfl, rfl⟩
  | delayReq bytes => exact ⟨⟨rfl, rfl, rfl, rfl⟩, rfl, rfl⟩
  | pDelayReq bytes egress t1 h => exact ⟨⟨rfl, rfl, rfl, rfl⟩, rfl, rfl⟩

theorem stays_of_steers {v w : View} (h : Steers v w) : Stays v w := by
  cases h with
  | keep h => exact stays_of_requests h
  | reset h =>
      rcases stays_of_requests h with ⟨hsame, hport, hrec⟩
      exact ⟨SamePort.trans (v := v.clear) ⟨rfl, rfl, rfl, rfl⟩ hsame, hport, hrec⟩

theorem stays_of_masterSends {v w : View} (h : MasterSends v w) : Stays v w := by
  rcases h.eq_history with ⟨history, rfl⟩
  exact ⟨⟨rfl, rfl, rfl, rfl⟩, rfl, rfl⟩

/-- A message leaves the port in its state, or makes it faulty. -/
theorem stays_of_handles {m : Message} {v w : View} (h : Handles m v w) :
    Stays v w ∨ w = v.toState .faulty := by
  cases h with
  | faulty => exact Or.inr rfl
  | syncOneStep _ _ origin _ h =>
      rcases stays_of_steers h with ⟨hsame, hport, hrec⟩
      exact Or.inl ⟨SamePort.trans (v := v.oneStepSync m origin) ⟨rfl, rfl, rfl, rfl⟩ hsame,
        hport, hrec⟩
  | followUp _ _ _ _ _ origin _ _ h =>
      rcases stays_of_steers h with ⟨hsame, hport, hrec⟩
      exact Or.inl ⟨SamePort.trans (v := v.followUp m origin) ⟨rfl, rfl, rfl, rfl⟩ hsame,
        hport, hrec⟩
  | request _ _ h => exact Or.inl (stays_of_requests h)
  | _ => exact Or.inl ⟨⟨rfl, rfl, rfl, rfl⟩, rfl, rfl⟩

theorem Stays.settled {v w : View} (h : Stays v w) (hs : Settled v) : Settled w := by
  rw [Settled, View.follows, h.2.1, h.2.2]
  exact hs

theorem Stays.running {v w : View} (h : Stays v w) (hr : Running v) : Running w := by
  rcases hr with hr | hr
  · exact Or.inl (h.settled hr)
  · refine Or.inr ⟨h.2.1.trans hr.1, ?_⟩
    rw [Recommends, h.2.2]
    exact hr.2

theorem running_toState_faulty {v : View} (h : Recommends v) : Running (v.toState .faulty) := by
  refine Or.inr ⟨rfl, ?_⟩
  rw [Recommends, View.recommendedState_toState_ne v (by decide) (by decide)]
  exact h

theorem running_timeout {v : View} (hs : Settled v) : Running v.timeout := by
  simp only [View.timeout]
  split
  · refine Or.inl (Or.inr (Or.inl ⟨?_, rfl⟩))
    rw [View.recommendedState_toState_ne _ (by decide) (by decide)]
  · split
    · exact Or.inl (Or.inl ⟨View.recommendedState_toState _ _, rfl⟩)
    · exact Or.inl hs

theorem samePort_running_of_receives {P : View → Message → Prop} {v w : View}
    (hs : Settled v) (h : Receives P v w) : SamePort v w ∧ Running w := by
  cases h with
  | nothing => exact ⟨.refl v, Or.inl hs⟩
  | short => exact ⟨samePort_toState v _, running_toState_faulty hs.recommends⟩
  | message m _ hP h =>
      have hlog : SamePort v (v.log (.received m)) := ⟨rfl, rfl, rfl, rfl⟩
      rcases stays_of_handles h with h | h
      · exact ⟨hlog.trans h.1, h.running (Or.inl hs)⟩
      · rw [h]
        exact ⟨hlog.trans (samePort_toState _ _), running_toState_faulty hs.recommends⟩

/-- A port that is up stays the same port and stays up. -/
theorem samePort_running_of_runStep {P : View → Message → Prop} {v w : View}
    (h : RunStep P v w) : SamePort v w ∧ Running w := by
  rcases h with ⟨u, happ, hset, hact⟩
  have hu : SamePort v u := by
    cases happ with
    | stay => exact samePort_stateDecision v
    | enter state => exact (samePort_stateDecision v).trans (samePort_toState _ _)
  cases hact with
  | timeout => exact ⟨hu.trans (samePort_timeout u), running_timeout hset⟩
  | handle _ _ h =>
      rcases samePort_running_of_receives hset h with ⟨hsame, hrun⟩
      exact ⟨hu.trans hsame, hrun⟩
  | master _ x y _ hsend h hreq =>
      have hx := stays_of_masterSends hsend
      rcases samePort_running_of_receives (hx.settled hset) h with ⟨hsame, hrun⟩
      have hw := stays_of_requests hreq
      exact ⟨hu.trans (hx.1.trans (hsame.trans hw.1)), hw.running hrun⟩

/-- The view of a port that is not up yet. -/
def bootView (rtOpts : RunTimeOpts) (state : PtpState) : View :=
  { view (powerUp rtOpts) with portState := state }

/-- The view of a port that has just come up. -/
def upView (rtOpts : RunTimeOpts) (hwaddr : PortUuid) : View :=
  ((view (powerUp rtOpts)).init hwaddr).toState .listening

/-- A port that is not up yet. -/
def Boots (rtOpts : RunTimeOpts) (v : View) : Prop :=
  v = bootView rtOpts .initializing ∨ v = bootView rtOpts .faulty

theorem Boots.history_eq_nil {rtOpts : RunTimeOpts} {v : View} (h : Boots rtOpts v) :
    v.history = [] := by
  rcases h with h | h
  · rw [h]
    rfl
  · rw [h]
    rfl

theorem Boots.portState_eq {rtOpts : RunTimeOpts} {v : View} (h : Boots rtOpts v) :
    v.portState = .initializing ∨ v.portState = .faulty := by
  rcases h with h | h
  · rw [h]
    exact Or.inl rfl
  · rw [h]
    exact Or.inr rfl

/-- The table of a port that is not up yet has no room. -/
theorem Boots.foreignMasterDS_eq {rtOpts : RunTimeOpts} {v : View} (h : Boots rtOpts v) :
    v.foreignMasterDS = (bootView rtOpts .initializing).foreignMasterDS := by
  rcases h with h | h
  · rw [h]
  · rw [h]
    rfl

/-- A port that is up, and the one it came up as. -/
def Up (rtOpts : RunTimeOpts) (v : View) : Prop :=
  Running v ∧ ∃ hwaddr, SamePort (upView rtOpts hwaddr) v

/-- The condition on an event: the view a step begins in satisfies `Q`, and the
    message it handles satisfies `P`. Nothing is asked of packets and timers. -/
def Allows (P : View → Message → Prop) (Q : View → Prop) (s : Port) : Event → Prop
  | .step env => Q (view s) ∧ ∀ v m, handledMessage env s = some (v, m) → P v m
  | .packet _ _ => True
  | .expire _ => True

/-- The condition on the message a step handles can be checked. -/
instance decidableHandled (P : View → Message → Prop) [∀ v m, Decidable (P v m)] :
    ∀ o : Option (View × Message), Decidable (∀ v m, o = some (v, m) → P v m)
  | none => .isTrue fun _ _ h => nomatch h
  | some (v, m) => decidable_of_iff (P v m)
    ⟨fun hP _ _ h => by cases h; exact hP, fun h => h v m rfl⟩

instance decidableAllows (P : View → Message → Prop) (Q : View → Prop) [∀ v m, Decidable (P v m)]
    [∀ v, Decidable (Q v)] (s : Port) : ∀ ev, Decidable (Allows P Q s ev)
  | .step env => inferInstanceAs (Decidable (Q (view s) ∧
      ∀ v m, handledMessage env s = some (v, m) → P v m))
  | .packet _ _ => .isTrue trivial
  | .expire _ => .isTrue trivial

/-- A step of a port that is not up yet. -/
theorem view_ptpStateMachine_boots {rtOpts : RunTimeOpts} (env : StepEnv) (s : Port)
    (h : Boots rtOpts (view s)) :
    Boots rtOpts (view (ptpStateMachine env s)) ∨
      view (ptpStateMachine env s) = upView rtOpts env.hwaddr := by
  have hstuck : ∀ state, view s = bootView rtOpts state →
      (state = .initializing ∨ state = .faulty) →
      applyRecommended env (stateDecision { s with clock.messageActivity := false })
        = { s with clock.messageActivity := false } := by
    intro state hv hstate
    have hst : s.clock.portDS.portState = state := congrArg View.portState hv
    have hrec : s.clock.recommendedState = .initializing := congrArg View.recommendedState hv
    have hdec : stateDecision { s with clock.messageActivity := false }
        = { s with clock.messageActivity := false } := by
      rcases hstate with rfl | rfl
      · simp only [stateDecision, hst]
      · simp only [stateDecision, hst]
    rw [hdec]
    simp only [applyRecommended, hrec]
  have hsame : view { s with clock.messageActivity := false } = view s := rfl
  rcases h with h | h
  · have hst : s.clock.portDS.portState = .initializing := congrArg View.portState h
    rw [ptpStateMachine, hstuck _ h (Or.inl rfl)]
    simp only [doState, hst]
    rcases view_doInit env { s with clock.messageActivity := false } with ⟨hok, hv⟩ | ⟨hok, hv⟩
    · rw [hok, if_neg Bool.false_ne_true, view_toState, hv, hsame, h]
      exact Or.inl (Or.inr rfl)
    · rw [hok, if_pos rfl, view_toState, hv, hsame, h]
      exact Or.inr rfl
  · have hst : s.clock.portDS.portState = .faulty := congrArg View.portState h
    rw [ptpStateMachine, hstuck _ h (Or.inr rfl)]
    simp only [doState, hst]
    rw [view_toState, hsame, h]
    exact Or.inl (Or.inl rfl)

theorem up_upView (rtOpts : RunTimeOpts) (hwaddr : PortUuid) :
    Up rtOpts (upView rtOpts hwaddr) :=
  ⟨Or.inl (Or.inl ⟨View.recommendedState_toState _ _, rfl⟩), hwaddr, .refl _⟩

end Ptp

end RtosLwip
