import RtosLwip.Ptp.Reaction
import RtosLwip.Ptp.Invariant

/-!
# Recovering from a Fault

A faulty port is to be initialised again before it does anything else. The state
machine acts on the recommended state first, and entering the faulty state does
not withdraw a recommendation. So a port whose initialisation has failed, which
has no recommendation yet, is initialised again; a port that was up when the
fault occurred goes on with the state that was recommended to it before.

Once a port is up, only a message that is too short makes it faulty.
`faults_recover_iff` says that a run recovers from all its faults exactly if no
such message is handled in it.

## Main definitions

* `Recovers`: A step of a faulty port enters the initializing state, and does
  nothing else.
* `stepReaction`: The reaction to the message a step handles.
* `WellSized`: A step handles no message that is too short.

## Theorems

* `recovers_of_unrecommended`: A port without a recommendation recovers.
* `faulty_iff_reaction`: When a step of a port that is up ends in a fault.
* `faults_recover_iff`: The runs that recover from all their faults.
-/

namespace RtosLwip

namespace Ptp

/-- From the faulty state, a step does nothing but enter the initializing state:
    no other state is entered, and no message is looked at. -/
def Recovers (env : StepEnv) (s : Port) : Prop :=
  s.clock.portDS.portState = .faulty →
    ptpStateMachine env s = toState env .initializing { s with clock.messageActivity := false }

/-- The reaction to the message a step handles, if it handles one. -/
def stepReaction (env : StepEnv) (s : Port) : Reaction :=
  match handling env (applyRecommended env
      (stateDecision { s with clock.messageActivity := false })) with
  | none => .ignored
  | some t => handleReaction env t

/-- The step handles no message that is too short for its header or its type. -/
def WellSized (s : Port) : Event → Prop
  | .step env => stepReaction env s ≠ .fault
  | .packet _ _ => True
  | .expire _ => True

instance (s : Port) : ∀ ev, Decidable (WellSized s ev)
  | .step env => inferInstanceAs (Decidable (stepReaction env s ≠ .fault))
  | .packet _ _ => .isTrue trivial
  | .expire _ => .isTrue trivial

/-- A port without a recommendation is initialised again. -/
theorem recovers_of_unrecommended (env : StepEnv) {s : Port}
    (hrec : s.clock.recommendedState = .initializing) : Recovers env s := by
  intro hst
  have hdec : stateDecision { s with clock.messageActivity := false }
      = { s with clock.messageActivity := false } := by
    simp only [stateDecision, hst]
  have happ : applyRecommended env { s with clock.messageActivity := false }
      = { s with clock.messageActivity := false } := by
    simp only [applyRecommended, hrec]
  unfold ptpStateMachine
  rw [hdec, happ]
  simp only [doState, hst]

/-- A port that is up goes on with its recommendation. -/
theorem not_recovers_of_running (env : StepEnv) {s : Port} (hr : Running (view s))
    (hst : s.clock.portDS.portState = .faulty) : ¬ Recovers env s := by
  intro hrecovers
  have hrun := (samePort_running_of_runStep
    (runStep_ptpStateMachine (P := fun _ _ => True) env s hr fun _ _ _ => trivial)).2
  refine hrun.isUp.1 ?_
  rw [hrecovers hst, view_toState]
  rfl

/-- The state a reaction leaves the port in. -/
theorem portState_react (env : StepEnv) (c : Core) (r : Reaction) :
    (c.react env r).portState = if r = .fault then .faulty else c.portState := by
  cases r with
  | ignored => rfl
  | fault => rfl
  | refresh => rfl
  | request =>
      simp only [Core.react, Core.request, reduceCtorEq, if_false]
      split
      · rfl
      · split
        · rfl
        · rfl

theorem portState_request (env : StepEnv) (c : Core) : (c.request env).portState = c.portState :=
  portState_react env c .request

/-- A settled port becomes faulty by the message it handles, and by nothing
    else. -/
theorem faulty_iff_handling (env : StepEnv) {s : Port} (hs : Settled (view s)) :
    (doState env s).clock.portDS.portState = .faulty ↔
      ∃ t, handling env s = some t ∧ handleReaction env t = .fault := by
  have hport : (doState env s).clock.portDS.portState = (core (doState env s)).portState := rfl
  -- A settled port is in the state that is recommended, which is never the faulty one.
  have hnot : (core s).portState ≠ .faulty := by
    intro hf
    rcases hs with h | h | h | ⟨-, h | h⟩
    · exact absurd (h.2.symm.trans hf) (by decide)
    · exact absurd (h.2.symm.trans hf) (by decide)
    · exact absurd (h.2.symm.trans hf) (by decide)
    · exact absurd (h.symm.trans hf) (by decide)
    · exact absurd (h.symm.trans hf) (by decide)
  rw [hport]
  by_cases hmaster : (core s).portState = .master
  · -- a master looks for a message behind its timers
    have hhand : handling env s = some (masterTimers env s) := by
      simp only [handling, show s.clock.portDS.portState = .master from hmaster]
    rw [core_doState_master env s hmaster, portState_request, portState_react, hhand]
    constructor
    · intro h
      refine ⟨_, rfl, ?_⟩
      by_contra hne
      rw [if_neg hne] at h
      exact hnot h
    · rintro ⟨t, ht, hfault⟩
      rw [← Option.some.inj ht] at hfault
      rw [if_pos hfault]
  · -- all other states look at their timeout first
    have hwatch : (core s).portState = .listening ∨ (core s).portState = .uncalibrated ∨
        (core s).portState = .slave ∨ (core s).portState = .passive := by
      rcases hs with h | h | h | ⟨-, h | h⟩
      · exact Or.inl h.2
      · exact absurd h.2 hmaster
      · exact Or.inr (Or.inr (Or.inr h.2))
      · exact Or.inr (Or.inl h)
      · exact Or.inr (Or.inr (Or.inl h))
    have hhand : handling env s = if (core s).expired env .announceReceipt then none
        else some (timerExpired env .announceReceipt s).2 := by
      rw [← (core_timerExpired env .announceReceipt s).1]
      unfold handling
      rcases hwatch with h | h | h | h
      · rw [show s.clock.portDS.portState = _ from h]
      · rw [show s.clock.portDS.portState = _ from h]
      · rw [show s.clock.portDS.portState = _ from h]
      · rw [show s.clock.portDS.portState = _ from h]
    rw [core_doState_watching env s hwatch, hhand]
    by_cases hexp : (core s).expired env .announceReceipt = true
    · -- the timeout enters the master or the listening state
      rw [if_pos hexp, if_pos hexp]
      refine iff_of_false ?_ ?_
      · split
        · intro h
          exact absurd (show PtpState.master = .faulty from h) (by decide)
        · split
          · intro h
            exact absurd (show PtpState.listening = .faulty from h) (by decide)
          · exact hnot
      · rintro ⟨t, ht, -⟩
        exact Option.some_ne_none t ht.symm
    · rw [if_neg hexp, if_neg hexp, portState_react]
      constructor
      · intro h
        refine ⟨_, rfl, ?_⟩
        by_contra hne
        rw [if_neg hne] at h
        exact hnot h
      · rintro ⟨t, ht, hfault⟩
        rw [← Option.some.inj ht] at hfault
        rw [if_pos hfault]

/-- When a step of a port that is up ends in a fault. -/
theorem faulty_iff_reaction (env : StepEnv) {s : Port} (hr : Running (view s)) :
    (ptpStateMachine env s).clock.portDS.portState = .faulty ↔ stepReaction env s = .fault := by
  have hview : view (stateDecision { s with clock.messageActivity := false })
      = (view s).stateDecision := view_stateDecision _
  have hrec := recommends_stateDecision hr.recommends
  have hup : IsUp (view s).stateDecision.portState := by
    rw [View.portState_stateDecision]
    exact hr.isUp
  rw [← hview] at hrec hup
  have hset := (applies_applyRecommended env _ hrec hup).2
  unfold ptpStateMachine stepReaction
  rw [faulty_iff_handling env hset]
  generalize handling env _ = o
  cases o with
  | none =>
      refine iff_of_false ?_ fun h => ?_
      · rintro ⟨t, ht, -⟩
        exact Option.some_ne_none t ht.symm
      · exact absurd (show Reaction.ignored = .fault from h) (by decide)
  | some t =>
      constructor
      · rintro ⟨u, hu, hfault⟩
        rw [Option.some.inj hu]
        exact hfault
      · exact fun h => ⟨t, rfl, h⟩

/-- A port that is not up yet handles no message. -/
theorem stepReaction_boots {rtOpts : RunTimeOpts} (env : StepEnv) {s : Port}
    (h : Boots rtOpts (view s)) : stepReaction env s = .ignored := by
  have hrec : s.clock.recommendedState = .initializing := by
    rcases h with h | h
    · exact congrArg View.recommendedState h
    · exact congrArg View.recommendedState h
  have hst : s.clock.portDS.portState = .initializing ∨ s.clock.portDS.portState = .faulty :=
    h.portState_eq
  have hdec : stateDecision { s with clock.messageActivity := false }
      = { s with clock.messageActivity := false } := by
    rcases hst with hst | hst
    · simp only [stateDecision, hst]
    · simp only [stateDecision, hst]
  have happ : applyRecommended env { s with clock.messageActivity := false }
      = { s with clock.messageActivity := false } := by
    simp only [applyRecommended, hrec]
  unfold stepReaction
  rw [hdec, happ]
  rcases hst with hst | hst
  · simp only [handling, hst]
  · simp only [handling, hst]

theorem recovers_of_boots {rtOpts : RunTimeOpts} (env : StepEnv) {s : Port}
    (h : Boots rtOpts (view s)) : Recovers env s := by
  refine recovers_of_unrecommended env ?_
  rcases h with h | h
  · exact congrArg View.recommendedState h
  · exact congrArg View.recommendedState h

/-- A port that is up recovers from its fault exactly if it has none. -/
theorem recovers_iff_of_running {s : Port} (hr : Running (view s)) :
    (∀ env, Recovers env s) ↔ s.clock.portDS.portState ≠ .faulty := by
  constructor
  · intro h hst
    exact not_recovers_of_running (quietEnv []) hr hst (h (quietEnv []))
  · exact fun hst env hfaulty => absurd hfaulty hst

/-- An event keeps the recovery from faults exactly if it is no step that
    handles a message that is too short. -/
theorem recovers_step {rtOpts : RunTimeOpts} (s : Port) (ev : Event)
    (hI : Boots rtOpts (view s) ∨ Running (view s)) (hP : ∀ env, Recovers env s) :
    (Boots rtOpts (view (engineStep s ev)) ∨ Running (view (engineStep s ev))) ∧
      ((∀ env, Recovers env (engineStep s ev)) ↔ WellSized s ev) := by
  have hsame : ∀ u : Port, view u = view s → (∀ env, Recovers env u) := by
    intro u hu env
    rcases hI with hb | hr
    · exact recovers_of_boots env (hu ▸ hb)
    · refine (recovers_iff_of_running (hu ▸ hr)).mpr ?_ env
      rw [show u.clock.portDS.portState = s.clock.portDS.portState from
        congrArg View.portState hu]
      exact (recovers_iff_of_running hr).mp hP
  cases ev with
  | packet ch p =>
      have hview := view_udpRecvCallback ch p s
      refine ⟨?_, iff_of_true (hsame _ hview) trivial⟩
      rw [engineStep, hview]
      exact hI
  | expire t =>
      have hview := view_timerCallback t s
      refine ⟨?_, iff_of_true (hsame _ hview) trivial⟩
      rw [engineStep, hview]
      exact hI
  | step env =>
      rcases hI with hb | hr
      · have hsized : WellSized s (.step env) := by
          intro hfault
          rw [stepReaction_boots env hb] at hfault
          exact absurd hfault (by decide)
        rcases view_ptpStateMachine_boots env s hb with h | h
        · exact ⟨Or.inl h, iff_of_true (fun env => recovers_of_boots env h) hsized⟩
        · have hrun : Running (view (engineStep s (.step env))) := by
            rw [engineStep, h]
            exact (up_upView rtOpts env.hwaddr).1
          refine ⟨Or.inr hrun, iff_of_true ?_ hsized⟩
          refine (recovers_iff_of_running hrun).mpr fun hst => ?_
          have hlisten := congrArg View.portState h
          exact absurd (show PtpState.listening = .faulty from hlisten.symm.trans hst) (by decide)
      · have hrun : Running (view (engineStep s (.step env))) :=
          (samePort_running_of_runStep
            (runStep_ptpStateMachine (P := fun _ _ => True) env s hr fun _ _ _ => trivial)).2
        refine ⟨Or.inr hrun, ?_⟩
        rw [recovers_iff_of_running hrun]
        exact not_congr (faulty_iff_reaction env hr)

/-- For every options and every run: all along the run a fault is followed by
    the initialisation, before anything else is done, if and only if no step of
    the run handles a message that is too short for its header or its type. -/
theorem faults_recover_iff (rtOpts : RunTimeOpts) (evs : List Event) :
    (∀ past, past <+: evs → ∀ env, Recovers env (run engineStep (powerUp rtOpts) past)) ↔
      Meets engineStep WellSized (powerUp rtOpts) evs :=
  always_iff_meets (I := fun s => Boots rtOpts (view s) ∨ Running (view s))
    (P := fun s => ∀ env, Recovers env s) recovers_step (powerUp rtOpts) (Or.inl (Or.inl rfl))
    (fun env => recovers_of_boots env (Or.inl rfl)) evs

/-- A port that listens and receives a single byte goes on listening. -/
theorem fault_while_listening :
    ¬ Recovers (quietEnv []) (run engineStep (powerUp defaultRtOpts)
      [quietStep [], quietStep [(.general, ⟨[0], .zero⟩)]]) := by
  intro h
  have hfaulty : (run engineStep (powerUp defaultRtOpts)
      [quietStep [], quietStep [(.general, ⟨[0], .zero⟩)]]).clock.portDS.portState = .faulty := by
    decide +kernel
  have hnext : (ptpStateMachine (quietEnv []) (run engineStep (powerUp defaultRtOpts)
      [quietStep [], quietStep [(.general, ⟨[0], .zero⟩)]])).clock.portDS.portState
      = .listening := by
    decide +kernel
  rw [h hfaulty] at hnext
  exact absurd (show PtpState.initializing = .listening from hnext) (by decide)

end Ptp

end RtosLwip
