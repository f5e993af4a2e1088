import RtosLwip.Ptp.Recovery

/-!
# Which Timers Stay Alive

The timers a state of the port relies on. A state owns some of the timers:
entering it starts them, leaving it stops them. A timer is alive as long as it
is running or has an expiry pending, and a timer that is not alive is never
heard of again until the state is left.

Two things let a timer die. A master consumes the expiries of its two interval
timers and does not start them again, so `masterTimers_alive` asks that no step
of a master finds one of them expired. The other timers are started again, but
`sys_timer_start` refuses a timer that has run out and was not stopped since, so
`watchTimers_alive` asks that no such timer is started.

## Main definitions

* `owns`: The timers of a state.
* `Owned`: The timers of the other states are stopped.
* `Tended`: The timers of the current state, among some timers, are alive.
* `MasterUnexpired`, `StartsAgain`: The conditions.

## Theorems

* `fresh_toState`: Entering a state starts its timers, and those only.
* `masterTimers_alive`: The interval timers of a master.
* `watchTimers_alive`: The announce receipt and the delay request timers.
-/

namespace RtosLwip

namespace Ptp

/-- The timers of a state. -/
def owns (delayMechanism : DelayMechanism) (state : PtpState) (t : Timer) : Bool :=
  match state with
  | .master => t = .syncInterval || t = .announceInterval ||
      (t = .pDelayReqInterval && delayMechanism = .p2p)
  | .uncalibrated | .slave => t = .announceReceipt ||
      (t = .delayReqInterval && delayMechanism = .e2e) ||
      (t = .pDelayReqInterval && delayMechanism = .p2p)
  | .passive => t = .announceReceipt || (t = .pDelayReqInterval && delayMechanism = .p2p)
  | .listening => t = .announceReceipt
  | .initializing | .faulty | .disabled | .preMaster => false

namespace Flags

theorem start_stopped (late : Bool) : stopped.start late = ⟨true, true, false⟩ := by
  cases late with
  | false => rfl
  | true => rfl

/-- A timer that is alive stays alive when it runs out. -/
theorem Alive.wait {x : Flags} (h : x.Alive) (fires : Bool) : (x.wait fires).Alive := by
  unfold Flags.wait
  cases fires with
  | false => exact h
  | true =>
      unfold fire
      by_cases hr : x.running = true
      · rw [if_pos rfl, if_pos hr]
        exact Or.inr rfl
      · rw [if_pos rfl, if_neg hr]
        exact h

/-- A timer that is alive and has not run out is running. -/
theorem Alive.running_of_not_expired {x : Flags} (h : x.Alive) (hexp : x.expired = false) :
    x.running = true := by
  rcases h with h | h
  · exact h
  · rw [hexp] at h
    exact absurd h Bool.false_ne_true

/-- Looking at a timer without finding an expiry leaves it alive. -/
theorem Alive.consume {x : Flags} (h : x.Alive) {fires : Bool}
    (hexp : (x.wait fires).expired = false) :
    ({ x.wait fires with expired := false } : Flags).Alive :=
  Or.inl ((h.wait fires).running_of_not_expired hexp)

/-- Starting a timer that is running leaves it running. -/
theorem Alive.start {x : Flags} (h : x.Alive) (hexp : x.expired = false) :
    (x.start false).Alive ∧ (x.start false).expired = false := by
  have hrun := h.running_of_not_expired hexp
  change (if x.timeId then ({ x with expired := false } : Flags) else ⟨true, true, false⟩).Alive ∧
    (if x.timeId then ({ x with expired := false } : Flags)
      else ⟨true, true, false⟩).expired = false
  split
  · exact ⟨Or.inl hrun, rfl⟩
  · exact ⟨Or.inl rfl, rfl⟩

end Flags

/-- The timers of the other states are stopped. -/
def Owned (c : Core) : Prop :=
  ∀ t, owns c.delayMechanism c.portState t = false → c.timers t = .stopped

/-- The timers of the state have just been started. -/
def Fresh (c : Core) : Prop :=
  ∀ t, c.timers t = if owns c.delayMechanism c.portState t then ⟨true, true, false⟩ else .stopped

/-- The timers of the state that are in `T` are alive. In the listening state
    nothing is asked. -/
def Tended (T : Timer → Prop) (c : Core) : Prop :=
  ∀ t, T t → c.portState ≠ .listening → owns c.delayMechanism c.portState t = true →
    (c.timers t).Alive

theorem Fresh.owned {c : Core} (h : Fresh c) : Owned c := by
  intro t ht
  rw [h t, ht, if_neg Bool.false_ne_true]

theorem Fresh.tended {c : Core} (h : Fresh c) (T : Timer → Prop) : Tended T c := by
  intro t _ _ ht
  rw [h t, ht, if_pos rfl]
  exact Or.inl rfl

/-- The states of a port that follows a master. -/
def Following (state : PtpState) : Prop := state = .uncalibrated ∨ state = .slave

instance (state : PtpState) : Decidable (Following state) := inferInstanceAs (Decidable (_ ∨ _))

/-- Leaving a state stops its timers. Those of a port that follows a master are
    kept when it goes on following. -/
theorem leave_stopped {c : Core} (h : Owned c) {state : PtpState}
    (hleave : ¬ (Following c.portState ∧ Following state)) (t : Timer) :
    (c.leave state).timers t = .stopped := by
  rcases c with ⟨old, recommended, mechanism, timers⟩
  -- each timer is stopped where the state is left, or does not belong to it
  cases old with
  | uncalibrated | slave =>
      have hnot : ¬ (state = .uncalibrated ∨ state = .slave) := by
        intro hf
        refine hleave ⟨?_, hf⟩
        simp only [Following, reduceCtorEq, or_true, true_or]
      simp only [Core.leave, if_neg hnot]
      cases mechanism <;> cases t <;> first | rfl | exact h _ rfl
  | _ => cases mechanism <;> cases t <;> first | rfl | exact h _ rfl

/-- Entering a state when no timer is running starts the timers of the state. -/
theorem fresh_enter (env : StepEnv) {c : Core} (h : ∀ t, c.timers t = .stopped)
    {state : PtpState} (hslave : state ≠ .slave) : Fresh (c.enter env state) := by
  rcases c with ⟨old, recommended, mechanism, timers⟩
  have htimers : timers = fun _ => .stopped := funext h
  subst htimers
  have hstart := Flags.start_stopped
  intro t
  cases state with
  | slave => exact absurd rfl hslave
  | _ => cases mechanism <;> cases t <;> first | rfl | exact hstart _

/-- Entering a state starts its timers, and those only. -/
theorem fresh_toState (env : StepEnv) {c : Core} (h : Owned c) {state : PtpState}
    (hslave : state ≠ .slave) (hleave : ¬ (Following c.portState ∧ Following state)) :
    Fresh (c.toState env state) :=
  fresh_enter env (leave_stopped h hleave) hslave

section Core

variable {T : Timer → Prop} {c : Core} (env : StepEnv)

theorem owned_set (h : Owned c) {t : Timer} {x : Flags}
    (hx : owns c.delayMechanism c.portState t = false → x = .stopped) : Owned (c.set t x) := by
  intro t' ht'
  by_cases heq : t' = t
  · rw [heq, Core.set_timers_self]
    rw [heq] at ht'
    exact hx ht'
  · rw [Core.set_timers_of_ne c x heq]
    exact h t' ht'

theorem tended_set (h : Tended T c) {t : Timer} {x : Flags}
    (hx : T t → c.portState ≠ .listening → owns c.delayMechanism c.portState t = true → x.Alive) :
    Tended T (c.set t x) := by
  intro t' hT hlisten ht'
  by_cases heq : t' = t
  · rw [heq, Core.set_timers_self]
    rw [heq] at hT ht'
    exact hx hT hlisten ht'
  · rw [Core.set_timers_of_ne c x heq]
    exact h t' hT hlisten ht'

/-- A timer of another state has no expiry to be found. -/
theorem expired_of_not_owns (h : Owned c) {t : Timer}
    (ht : owns c.delayMechanism c.portState t = false) : c.expired env t = false := by
  unfold Core.expired
  rw [h t ht]
  cases env.fires t with
  | false => rfl
  | true => rfl

theorem owned_consume (h : Owned c) (t : Timer) : Owned (c.consume env t) := by
  refine owned_set h fun ht => ?_
  rw [h t ht]
  cases env.fires t with
  | false => rfl
  | true => rfl

/-- Looking at a timer without finding an expiry. -/
theorem tended_consume (h : Tended T c) (t : Timer) (hexp : T t → c.expired env t = false) :
    Tended T (c.consume env t) :=
  tended_set h fun hT hlisten ht => (h t hT hlisten ht).consume (hexp hT)

theorem delayTimer_eq {t : Timer} (h : c.delayTimer = some t) :
    t = .delayReqInterval ∨ t = .pDelayReqInterval := by
  unfold Core.delayTimer at h
  split at h
  · split at h
    · exact absurd h (Option.some_ne_none t).symm
    · exact Or.inl (Option.some.inj h).symm
  · exact Or.inr (Option.some.inj h).symm
  · exact absurd h (Option.some_ne_none t).symm

/-- Looking at the delay request timer without finding an expiry. -/
theorem tended_request (ho : Owned c) (h : Tended T c)
    (hexp : ∀ t, c.delayTimer = some t → T t → c.expired env t = false) :
    Owned (c.request env) ∧ Tended T (c.request env) := by
  unfold Core.request
  cases ht : c.delayTimer with
  | none => exact ⟨ho, h⟩
  | some t =>
      dsimp only
      by_cases hfound : c.expired env t = true
      · -- the timer is none of those asked for, and belongs to the state
        have hown : owns c.delayMechanism c.portState t = true := by
          by_contra hno
          rw [expired_of_not_owns env ho (Bool.eq_false_iff.mpr hno)] at hfound
          exact absurd hfound Bool.false_ne_true
        have hnot : ¬ T t := by
          intro hT
          rw [hexp t ht hT] at hfound
          exact absurd hfound Bool.false_ne_true
        rw [if_pos hfound]
        refine ⟨owned_set (owned_consume env ho t) fun hno => ?_,
          tended_set (tended_consume env h t fun hT => absurd hT hnot) fun hT => absurd hT hnot⟩
        exact absurd (hown.symm.trans hno) (by decide)
      · rw [if_neg hfound]
        exact ⟨owned_consume env ho t,
          tended_consume env h t fun _ => Bool.eq_false_iff.mpr hfound⟩

/-- A reaction to a message, when the timers it starts have not run out. -/
theorem tended_react (ho : Owned c) (h : Tended T c) (r : Reaction)
    (hstate : r = .refresh → owns c.delayMechanism c.portState .announceReceipt = true)
    (hrefresh : r = .refresh → T .announceReceipt → c.portState ≠ .listening →
      (c.timers .announceReceipt).expired = false ∧ env.firesLate .announceReceipt = false)
    (hrequest : r = .request → ∀ t, c.delayTimer = some t → T t → c.expired env t = false) :
    Owned (c.react env r) ∧ Tended T (c.react env r) := by
  cases r with
  | ignored => exact ⟨ho, h⟩
  | fault =>
      have hfresh := fresh_toState env ho (show PtpState.faulty ≠ .slave by decide)
        fun hf => absurd hf.2 (by decide)
      exact ⟨hfresh.owned, hfresh.tended T⟩
  | refresh =>
      refine ⟨owned_set ho fun hno => ?_, tended_set h fun hT hlisten ht => ?_⟩
      · exact absurd ((hstate rfl).symm.trans hno) (by decide)
      · rcases hrefresh rfl hT hlisten with ⟨hexp, hlate⟩
        rw [hlate]
        exact ((h _ hT hlisten ht).start hexp).1
  | request => exact tended_request env ho h (hrequest rfl)

/-- A port that follows a master and becomes uncalibrated starts its timers
    without having stopped them. -/
theorem timers_restart (hf : Following c.portState) (t : Timer) :
    (c.toState env .uncalibrated).timers t = if owns c.delayMechanism .slave t then
      (c.timers t).start (env.firesLate t) else c.timers t := by
  rcases c with ⟨old, recommended, mechanism, timers⟩
  rcases hf with hf | hf
  · cases hf
    cases mechanism <;> cases t <;> rfl
  · cases hf
    cases mechanism <;> cases t <;> rfl

theorem delayMechanism_restart (hf : Following c.portState) :
    (c.toState env .uncalibrated).delayMechanism = c.delayMechanism := by
  rcases c with ⟨old, recommended, mechanism, timers⟩
  rcases hf with hf | hf
  · cases hf
    cases mechanism <;> rfl
  · cases hf
    cases mechanism <;> rfl

/-- Its timers stay alive when none of them has run out. -/
theorem tended_restart (ho : Owned c) (h : Tended T c) (hf : Following c.portState)
    (hrun : ∀ t, T t → owns c.delayMechanism .slave t = true →
      (c.timers t).expired = false ∧ env.firesLate t = false) :
    Owned (c.toState env .uncalibrated) ∧ Tended T (c.toState env .uncalibrated) ∧
      ∀ t, T t → owns c.delayMechanism .slave t = true →
        ((c.toState env .uncalibrated).timers t).expired = false := by
  have hmech := delayMechanism_restart env hf
  have hport : (c.toState env .uncalibrated).portState = .uncalibrated := rfl
  have hsame : ∀ t, owns c.delayMechanism c.portState t = owns c.delayMechanism .slave t := by
    intro t
    rcases hf with hf | hf
    · rw [hf]
      rfl
    · rw [hf]
  have hlisten : c.portState ≠ .listening := by
    rcases hf with hf | hf
    · rw [hf]
      decide
    · rw [hf]
      decide
  have hstart : ∀ t, T t → owns c.delayMechanism .slave t = true →
      ((c.timers t).start false).Alive ∧ ((c.timers t).start false).expired = false :=
    fun t hT ht => (h t hT hlisten ((hsame t).trans ht)).start (hrun t hT ht).1
  refine ⟨fun t ht => ?_, fun t hT _ ht => ?_, fun t hT ht => ?_⟩
  · rw [hmech, hport] at ht
    have hno : owns c.delayMechanism .slave t = false := ht
    rw [timers_restart env hf, if_neg (by rw [hno]; decide)]
    exact ho t ((hsame t).trans hno)
  · rw [hmech, hport] at ht
    have hyes : owns c.delayMechanism .slave t = true := ht
    rw [timers_restart env hf, if_pos hyes, (hrun t hT hyes).2]
    exact (hstart t hT hyes).1
  · rw [timers_restart env hf, if_pos ht, (hrun t hT ht).2]
    exact (hstart t hT ht).2

/-- Following the recommended state. -/
theorem tended_apply (ho : Owned c) (h : Tended T c) (events : Events)
    (hrun : c.recommendedState = .slave → c.portState = .slave →
      events.synchronizationFault = true ∨ events.masterClockChanged = true →
      ∀ t, T t → owns c.delayMechanism .slave t = true →
        (c.timers t).expired = false ∧ env.firesLate t = false) :
    Owned (c.apply env events) ∧ Tended T (c.apply env events) := by
  -- A state that is entered starts its own timers afresh, unless it is one that follows a master
  -- and comes out of another one that does.
  have hfresh : ∀ {state : PtpState}, state ≠ .slave →
      ¬ (Following c.portState ∧ Following state) →
      Owned (c.toState env state) ∧ Tended T (c.toState env state) := by
    intro state hslave hleave
    have hf := fresh_toState env ho hslave hleave
    exact ⟨hf.owned, hf.tended T⟩
  unfold Core.apply
  cases hrec : c.recommendedState with
  | master =>
      cases hst : c.portState with
      | preMaster =>
          -- None of the timers belongs to a port that is about to be master.
          have hnone : ∀ t, owns c.delayMechanism c.portState t = false := by
            intro t
            rw [hst]
            rfl
          have hcons := owned_consume env ho .qualificationTimeout
          dsimp only
          split
          · have hf := fresh_toState env hcons (show PtpState.master ≠ .slave by decide)
              fun hf => absurd hf.2 (by decide)
            exact ⟨hf.owned, hf.tended T⟩
          · refine ⟨hcons, tended_consume env h _ fun _ => ?_⟩
            exact expired_of_not_owns env ho (hnone _)
      | master => exact ⟨ho, h⟩
      | _ => exact hfresh (by decide) fun hf => absurd hf.2 (by decide)
  | passive =>
      dsimp only
      split
      · exact hfresh (by decide) fun hf => absurd hf.2 (by decide)
      · exact ⟨ho, h⟩
  | listening =>
      dsimp only
      split
      · exact hfresh (by decide) fun hf => absurd hf.2 (by decide)
      · exact ⟨ho, h⟩
  | slave =>
      cases hst : c.portState with
      | uncalibrated =>
          dsimp only
          split
          · -- the timers go on as they are
            have hsame : (c.toState env .slave) = { c with portState := .slave } := by
              simp only [Core.toState, Core.leave, hst, or_true, if_true]
              rfl
            rw [hsame]
            refine ⟨fun t ht => ho t ?_, fun t hT _ ht => h t hT ?_ ?_⟩
            · rw [hst]
              exact ht
            · rw [hst]
              decide
            · rw [hst]
              exact ht
          · exact ⟨ho, h⟩
      | slave =>
          -- A slave stays one, and starts its timers again if something has changed.
          have hf : Following c.portState := Or.inr hst
          dsimp only
          by_cases hfault : events.synchronizationFault = true
          · have hall := hrun hrec hst (Or.inl hfault)
            rcases tended_restart env ho h hf hall with ⟨ho', h', hexp⟩
            rw [if_pos hfault]
            split
            · -- the master has changed as well, and the timers are started twice
              have hmech := delayMechanism_restart env hf
              rcases tended_restart env ho' h' (Or.inl rfl) (fun t hT ht => by
                rw [hmech] at ht
                exact ⟨hexp t hT ht, (hall t hT ht).2⟩) with ⟨ho'', h'', -⟩
              exact ⟨ho'', h''⟩
            · exact ⟨ho', h'⟩
          · rw [if_neg hfault]
            split
            · rename_i hchanged
              rcases tended_restart env ho h hf (hrun hrec hst (Or.inr hchanged)) with ⟨ho', h', -⟩
              exact ⟨ho', h'⟩
            · exact ⟨ho, h⟩
      | _ =>
          refine hfresh (by decide) fun hf => ?_
          rw [hst] at hf
          exact absurd hf.1 (by decide)
  | _ => exact ⟨ho, h⟩

end Core

/-! ### The acting port -/

/-- The port behind the state decision. -/
def decided (s : Port) : Port := stateDecision { s with clock.messageActivity := false }

/-- The port in which the third `switch` finds its state. -/
def acting (env : StepEnv) (s : Port) : Port := applyRecommended env (decided s)

/-- Only a port that follows a master, or a passive one, starts a timer for a
    message or looks at one. -/
theorem portState_of_reaction {m : Message} {s : Port}
    (h : reaction m s = .refresh ∨ reaction m s = .request) :
    Following s.clock.portDS.portState ∨ s.clock.portDS.portState = .passive := by
  by_contra hno
  have hplain : ∀ type, reactionTo type m s = .ignored := by
    intro type
    have hu : s.clock.portDS.portState ≠ .uncalibrated := fun hu => hno (Or.inl (Or.inl hu))
    have hs : s.clock.portDS.portState ≠ .slave := fun hs => hno (Or.inl (Or.inr hs))
    have hp : s.clock.portDS.portState ≠ .passive := fun hp => hno (Or.inr hp)
    generalize hst : s.clock.portDS.portState = st at hu hs hp
    cases type with
    | announce =>
        simp only [reactionTo, hst]
        cases st with
        | uncalibrated => exact absurd rfl hu
        | slave => exact absurd rfl hs
        | passive => exact absurd rfl hp
        | _ => exact ite_self _
    | followUp =>
        simp only [reactionTo, hst]
        cases st with
        | uncalibrated => exact absurd rfl hu
        | slave => exact absurd rfl hs
        | passive => exact absurd rfl hp
        | _ => exact ite_self _
    | sync => simp only [reactionTo, hst]
    | _ => rfl
  unfold reaction at h
  cases htype : MsgType.ofCode m.header.messageType with
  | none =>
      rw [htype] at h
      simp only [reduceCtorEq, or_self] at h
  | some type =>
      rw [htype] at h
      dsimp only at h
      rw [hplain type] at h
      split at h
      · simp only [reduceCtorEq, or_self] at h
      · simp only [reduceCtorEq, or_self] at h

theorem portState_of_handleReaction {env : StepEnv} {s : Port}
    (h : handleReaction env s = .refresh ∨ handleReaction env s = .request) :
    Following (core s).portState ∨ (core s).portState = .passive := by
  have hcore : core (receive (arrive env s)).2 = core s := by rw [core_receive, core_arrive]
  rw [← hcore]
  unfold handleReaction at h
  dsimp only at h
  cases hr : (receive (arrive env s)).1 with
  | nothing =>
      rw [hr] at h
      simp only [reduceCtorEq, or_self] at h
  | short =>
      rw [hr] at h
      simp only [reduceCtorEq, or_self] at h
  | message m =>
      rw [hr] at h
      exact portState_of_reaction h

theorem owns_announceReceipt {mechanism : DelayMechanism} {state : PtpState}
    (h : Following state ∨ state = .passive) : owns mechanism state .announceReceipt = true := by
  rcases h with (h | h) | h
  · rw [h]
    rfl
  · rw [h]
    rfl
  · rw [h]
    rfl

/-- A message that is handled, when the timers it starts have not run out. -/
theorem tended_handle {T : Timer → Prop} (env : StepEnv) {s : Port} (ho : Owned (core s))
    (h : Tended T (core s))
    (hrefresh : handleReaction env s = .refresh → T .announceReceipt →
      ((core s).timers .announceReceipt).expired = false ∧
        env.firesLate .announceReceipt = false)
    (hrequest : handleReaction env s = .request → ∀ t, (core s).delayTimer = some t → T t →
      (core s).expired env t = false) :
    Owned (core (handle env s)) ∧ Tended T (core (handle env s)) := by
  rw [core_handle]
  exact tended_react env ho h _
    (fun hr => owns_announceReceipt (portState_of_handleReaction (Or.inl hr)))
    (fun hr hT _ => hrefresh hr hT) hrequest

/-- What initialising does to the core. -/
theorem core_doInit (env : StepEnv) (s : Port) :
    core (doInit env s).2 = core s ∨ core (doInit env s).2 = { core s with
      delayMechanism := s.clock.rtOpts.delayMechanism
      timers := fun t => { (core s).timers t with expired := false } } := by
  by_cases hok : (ptpNetInit env s).1 = false
  · simp only [doInit, if_pos hok]
    exact Or.inl rfl
  · simp only [doInit, if_neg hok]
    refine Or.inr ?_
    have hbuf : ∀ (u : Port) (buf : List UInt8), core { u with clock.msgObuf := buf } = core u :=
      fun _ _ => rfl
    have hm1 : ∀ u : Port, core (m1 u) = core u := fun _ => rfl
    rw [hbuf, hm1, core_initClock]
    rfl

/-- Acting in a state other than the master's. -/
theorem tended_doState_watching {T : Timer → Prop} (env : StepEnv) {s : Port}
    (hst : (core s).portState = .listening ∨ (core s).portState = .uncalibrated ∨
      (core s).portState = .slave ∨ (core s).portState = .passive)
    (ho : Owned (core s)) (h : Tended T (core s))
    (hrefresh : ∀ u, handling env s = some u → handleReaction env u = .refresh →
      T .announceReceipt → env.firesLate .announceReceipt = false)
    (hrequest : ∀ u, handling env s = some u → handleReaction env u = .request →
      ∀ t, (core s).delayTimer = some t → T t → (core s).expired env t = false) :
    Owned (core (doState env s)) ∧ Tended T (core (doState env s)) := by
  have hcons := owned_consume env ho .announceReceipt
  have hfresh : ∀ (d : Core) {state : PtpState}, Owned d → state ≠ .slave → ¬ Following state →
      Owned (d.toState env state) ∧ Tended T (d.toState env state) := by
    intro d state hd hslave hf
    have hfr := fresh_toState env hd hslave fun hboth => hf hboth.2
    exact ⟨hfr.owned, hfr.tended T⟩
  rw [core_doState_watching env s hst]
  by_cases hexp : (core s).expired env .announceReceipt = true
  · -- the timeout
    rw [if_pos hexp]
    split
    · exact hfresh _ hcons (by decide) (by decide)
    · split
      · exact hfresh _ hcons (by decide) (by decide)
      · rename_i hlisten
        refine ⟨hcons, fun t _ hnot _ => ?_⟩
        exact absurd (not_not.mp hlisten) hnot
  · -- a message, behind a look that has found nothing
    have hhand : handling env s = some (timerExpired env .announceReceipt s).2 := by
      have hlook := (core_timerExpired env .announceReceipt s).1
      unfold handling
      rcases hst with h' | h' | h' | h'
      · simp only [show s.clock.portDS.portState = _ from h', hlook, if_neg hexp]
      · simp only [show s.clock.portDS.portState = _ from h', hlook, if_neg hexp]
      · simp only [show s.clock.portDS.portState = _ from h', hlook, if_neg hexp]
      · simp only [show s.clock.portDS.portState = _ from h', hlook, if_neg hexp]
    have hcore := (core_timerExpired env .announceReceipt s).2
    rw [if_neg hexp, ← hcore, ← core_handle]
    generalize timerExpired env .announceReceipt s = r at hhand hcore ⊢
    rw [← hcore] at hcons
    refine tended_handle env hcons ?_ (fun hr hT => ⟨?_, hrefresh _ hhand hr hT⟩)
      (fun hr t ht hT => ?_)
    · rw [hcore]
      exact tended_consume env h _ fun _ => Bool.eq_false_iff.mpr hexp
    · rw [hcore]
      exact congrArg Flags.expired (Core.set_timers_self _ _ _)
    · rw [hcore] at ht ⊢
      have hne : t ≠ .announceReceipt := by
        rcases delayTimer_eq ht with rfl | rfl
        · decide
        · decide
      unfold Core.expired Core.consume
      rw [Core.set_timers_of_ne _ _ hne]
      exact hrequest _ hhand hr t ht hT

/-- Acting as a master. -/
theorem tended_doState_master {T : Timer → Prop} (env : StepEnv) {s : Port}
    (hst : (core s).portState = .master) (ho : Owned (core s)) (h : Tended T (core s))
    (hsync : T .syncInterval → (core s).expired env .syncInterval = false)
    (hannounce : T .announceInterval → (core s).expired env .announceInterval = false)
    (hrequest : ∀ t, (core s).delayTimer = some t → T t → (core s).expired env t = false) :
    Owned (core (doState env s)) ∧ Tended T (core (doState env s)) := by
  have hsame : ∀ (d : Core) (u t : Timer), t ≠ u →
      (d.consume env u).expired env t = d.expired env t := by
    intro d u t hne
    unfold Core.expired Core.consume
    rw [Core.set_timers_of_ne _ _ hne]
  have hcore := core_masterTimers env s
  have ho' : Owned (core (masterTimers env s)) := by
    rw [hcore]
    exact owned_consume env (owned_consume env ho _) _
  have h' : Tended T (core (masterTimers env s)) := by
    rw [hcore]
    refine tended_consume env (tended_consume env h _ hsync) _ fun hT => ?_
    rw [hsame _ _ _ (by decide)]
    exact hannounce hT
  have hmaster : (core (masterTimers env s)).portState = .master := by
    rw [hcore]
    exact hst
  have hnone : ∀ r, handleReaction env (masterTimers env s) = r → r = .refresh ∨ r = .request →
      False := by
    rintro r rfl hr
    have hstate := portState_of_handleReaction hr
    rw [hmaster] at hstate
    exact absurd hstate (by decide)
  rw [core_doState_master env s hst, ← hcore, ← core_handle]
  rcases tended_handle env ho' h' (fun hr => (hnone _ hr (Or.inl rfl)).elim)
    (fun hr => (hnone _ hr (Or.inr rfl)).elim) with ⟨ho'', h''⟩
  refine tended_request env ho'' h'' fun t ht hT => ?_
  rw [core_handle] at ht ⊢ ho''
  cases hr : handleReaction env (masterTimers env s) with
  | refresh => exact (hnone _ hr (Or.inl rfl)).elim
  | request => exact (hnone _ hr (Or.inr rfl)).elim
  | fault =>
      -- a faulty port owns no timer
      rw [hr] at ho''
      exact expired_of_not_owns env ho'' rfl
  | ignored =>
      rw [hr] at ht
      have hdelay : (core s).delayTimer = some t := by
        rw [hcore] at ht
        exact ht
      have hne : t ≠ .syncInterval ∧ t ≠ .announceInterval := by
        rcases delayTimer_eq hdelay with rfl | rfl
        · decide
        · decide
      change (core (masterTimers env s)).expired env t = false
      rw [hcore, hsame _ _ _ hne.2, hsame _ _ _ hne.1]
      exact hrequest t hdelay hT

/-! ### Whole runs -/

/-- A timer is running or has an expiry pending. -/
def Port.Alive (s : Port) (t : Timer) : Prop :=
  (s.timers t).running.isSome = true ∨ (s.timers t).expired = true

instance (s : Port) (t : Timer) : Decidable (s.Alive t) := inferInstanceAs (Decidable (_ ∨ _))

/-- The timers of the other states are stopped, and those of the current state
    that are in `T` are alive. -/
def TimersOk (T : Timer → Prop) (s : Port) : Prop := Owned (core s) ∧ Tended T (core s)

theorem timersOk_powerUp (T : Timer → Prop) (rtOpts : RunTimeOpts) : TimersOk T (powerUp rtOpts) :=
  ⟨fun _ _ => rfl, fun _ _ _ h => absurd h Bool.false_ne_true⟩

/-- A timer that runs out stays alive. -/
theorem timersOk_expire {T : Timer → Prop} {s : Port} (h : TimersOk T s) (t : Timer) :
    TimersOk T (timerCallback t s) := by
  rw [TimersOk, core_timerCallback]
  refine ⟨owned_set h.1 fun ht => ?_, tended_set h.2 fun hT hlisten ht => ?_⟩
  · rw [h.1 t ht]
    rfl
  · exact (h.2 t hT hlisten ht).wait true

/-- A step keeps the timers, when those it starts again or looks at have not run
    out. -/
theorem timersOk_step {T : Timer → Prop} (env : StepEnv) {s : Port} (h : TimersOk T s)
    (hrestart : (decided s).clock.recommendedState = .slave →
      (decided s).clock.portDS.portState = .slave →
      (decided s).clock.events.synchronizationFault = true ∨
        (decided s).clock.events.masterClockChanged = true →
      ∀ t, T t → owns (decided s).clock.portDS.delayMechanism .slave t = true →
        ((decided s).timers t).expired = false ∧ env.firesLate t = false)
    (hmaster : (acting env s).clock.portDS.portState = .master → ∀ t,
      t = .syncInterval ∨ t = .announceInterval → T t →
        (timerExpired env t (acting env s)).1 = false)
    (hrefresh : stepReaction env s = .refresh → T .announceReceipt →
      env.firesLate .announceReceipt = false)
    (hrequest : (acting env s).clock.portDS.portState = .master ∨ stepReaction env s = .request →
      ∀ t, (core (acting env s)).delayTimer = some t → T t →
        (timerExpired env t (acting env s)).1 = false) :
    TimersOk T (ptpStateMachine env s) := by
  have hlook : ∀ t, (timerExpired env t (acting env s)).1 = (core (acting env s)).expired env t :=
    fun t => (core_timerExpired env t (acting env s)).1
  -- The decision on the state keeps the timers, and following it does.
  have hd : Owned (core (decided s)) ∧ Tended T (core (decided s)) := by
    have hcore := core_stateDecision { s with clock.messageActivity := false }
    rw [decided, hcore]
    exact h
  have ha : Owned (core (acting env s)) ∧ Tended T (core (acting env s)) := by
    rw [acting, core_applyRecommended]
    exact tended_apply env hd.1 hd.2 _ hrestart
  have hreact : ∀ u, handling env (acting env s) = some u →
      stepReaction env s = handleReaction env u := by
    intro u hu
    unfold stepReaction
    rw [show applyRecommended env (stateDecision { s with clock.messageActivity := false })
      = acting env s from rfl, hu]
  have hstep : ptpStateMachine env s = doState env (acting env s) := rfl
  -- A state that is entered starts its own timers afresh.
  have hfresh : ∀ (d : Core) {state : PtpState}, Owned d → state ≠ .slave → ¬ Following state →
      Owned (d.toState env state) ∧ Tended T (d.toState env state) := by
    intro d state hdo hslave hf
    have hfr := fresh_toState env hdo hslave fun hboth => hf hboth.2
    exact ⟨hfr.owned, hfr.tended T⟩
  -- What the states that wait for a master do is the same for the timers.
  have hwatch : (core (acting env s)).portState = .listening ∨
      (core (acting env s)).portState = .uncalibrated ∨
      (core (acting env s)).portState = .slave ∨ (core (acting env s)).portState = .passive →
      Owned (core (doState env (acting env s))) ∧ Tended T (core (doState env (acting env s))) := by
    intro hst
    refine tended_doState_watching env hst ha.1 ha.2 (fun u hu hr hT => ?_)
      (fun u hu hr t ht hT => ?_)
    · exact hrefresh ((hreact u hu).trans hr) hT
    · rw [← hlook]
      exact hrequest (Or.inr ((hreact u hu).trans hr)) t ht hT
  rw [TimersOk, hstep]
  cases hst : (acting env s).clock.portDS.portState with
  | initializing =>
      -- The timers are stopped when the port begins anew.
      have hinit : Owned (core (doInit env (acting env s)).2) := by
        rcases core_doInit env (acting env s) with hcore | hcore
        · rw [hcore]
          exact ha.1
        · rw [hcore]
          intro t _
          have hstopped := ha.1 t (by rw [show (core (acting env s)).portState = _ from hst]; rfl)
          change ({ (core (acting env s)).timers t with expired := false } : Flags) = .stopped
          rw [hstopped]
          rfl
      simp only [doState, hst]
      split
      · rw [core_toState]
        exact hfresh _ hinit (by decide) (by decide)
      · rw [core_toState]
        exact hfresh _ hinit (by decide) (by decide)
  | faulty =>
      simp only [doState, hst]
      rw [core_toState]
      exact hfresh _ ha.1 (by decide) (by decide)
  | disabled =>
      -- a disabled port takes no notice of a message that is long enough
      simp only [doState, hst]
      have hnone : ∀ r, handleReaction env (acting env s) = r → r = .refresh ∨ r = .request →
          False := by
        rintro r rfl hr
        have hstate := portState_of_handleReaction hr
        rw [show (core (acting env s)).portState = _ from hst] at hstate
        exact absurd hstate (by decide)
      exact tended_handle env ha.1 ha.2 (fun hr => (hnone _ hr (Or.inl rfl)).elim)
        (fun hr => (hnone _ hr (Or.inr rfl)).elim)
  | listening => exact hwatch (Or.inl hst)
  | uncalibrated => exact hwatch (Or.inr (Or.inl hst))
  | slave => exact hwatch (Or.inr (Or.inr (Or.inl hst)))
  | passive => exact hwatch (Or.inr (Or.inr (Or.inr hst)))
  | master =>
      refine tended_doState_master env hst ha.1 ha.2 (fun hT => ?_) (fun hT => ?_)
        (fun t ht hT => ?_)
      · rw [← hlook]
        exact hmaster hst _ (Or.inl rfl) hT
      · rw [← hlook]
        exact hmaster hst _ (Or.inr rfl) hT
      · rw [← hlook]
        exact hrequest (Or.inl hst) t ht hT
  | preMaster =>
      simp only [doState, hst]
      exact ha

instance (P : Timer → Prop) [DecidablePred P] : Decidable (∀ t, P t) :=
  decidable_of_iff (P .pDelayReqInterval ∧ P .delayReqInterval ∧ P .syncInterval ∧
    P .announceReceipt ∧ P .announceInterval ∧ P .qualificationTimeout)
    ⟨fun ⟨h1, h2, h3, h4, h5, h6⟩ t => match t with
      | .pDelayReqInterval => h1
      | .delayReqInterval => h2
      | .syncInterval => h3
      | .announceReceipt => h4
      | .announceInterval => h5
      | .qualificationTimeout => h6,
    fun h => ⟨h _, h _, h _, h _, h _, h _⟩⟩

/-- What keeps the interval timers of a master alive: no step of a master finds
    one of them expired. -/
def MasterUnexpired (s : Port) : Event → Prop
  | .step env => (acting env s).clock.portDS.portState = .master →
      (timerExpired env .syncInterval (acting env s)).1 = false ∧
        (timerExpired env .announceInterval (acting env s)).1 = false
  | .packet _ _ | .expire _ => True

instance (s : Port) : ∀ ev, Decidable (MasterUnexpired s ev)
  | .step _ => inferInstanceAs (Decidable (_ → _))
  | .packet _ _ | .expire _ => inferInstanceAs (Decidable True)

/-- A slave that becomes uncalibrated starts its timers before any of them has
    run out. -/
def RestartsRunning (env : StepEnv) (s : Port) : Prop :=
  s.clock.recommendedState = .slave → s.clock.portDS.portState = .slave →
    s.clock.events.synchronizationFault = true ∨ s.clock.events.masterClockChanged = true →
    ∀ t, owns s.clock.portDS.delayMechanism .slave t = true →
      (s.timers t).expired = false ∧ env.firesLate t = false

/-- What keeps the other timers alive: none of them is started again after it
    has run out, neither where a slave becomes uncalibrated, nor for an Announce
    message, nor when its expiry is found and a delay request is sent. -/
def StartsAgain (s : Port) : Event → Prop
  | .step env => RestartsRunning env (decided s) ∧
      (stepReaction env s = .refresh → env.firesLate .announceReceipt = false) ∧
      ((acting env s).clock.portDS.portState = .master ∨ stepReaction env s = .request →
        ∀ t ∈ (core (acting env s)).delayTimer, (timerExpired env t (acting env s)).1 = false)
  | .packet _ _ | .expire _ => True

instance (env : StepEnv) (s : Port) : Decidable (RestartsRunning env s) :=
  inferInstanceAs (Decidable (_ → _ → _ → ∀ _, _ → _))

instance (s : Port) : ∀ ev, Decidable (StartsAgain s ev)
  | .step _ => inferInstanceAs (Decidable (_ ∧ (_ → _) ∧ (_ → _)))
  | .packet _ _ | .expire _ => inferInstanceAs (Decidable True)

/-- The interval timers of a master. -/
def Interval (t : Timer) : Prop := t = .syncInterval ∨ t = .announceInterval

/-- The timers that are started again in the state they belong to. -/
def Watch (t : Timer) : Prop :=
  t = .announceReceipt ∨ t = .delayReqInterval ∨ t = .pDelayReqInterval

/-- Packets touch no timer, and an expiry keeps a timer alive. -/
theorem timersOk_engineStep {T : Timer → Prop} {C : Port → Event → Prop}
    (hstep : ∀ s env, TimersOk T s → C s (.step env) → TimersOk T (ptpStateMachine env s))
    (s : Port) (ev : Event) (h : TimersOk T s) (hC : C s ev) : TimersOk T (engineStep s ev) := by
  cases ev with
  | packet ch p =>
      have hcore : core (udpRecvCallback ch p s) = core s := core_udpRecvCallback s ch p
      rw [engineStep, TimersOk, hcore]
      exact h
  | expire t => exact timersOk_expire h t
  | step env => exact hstep s env h hC

theorem timersOk_interval (s : Port) (env : StepEnv) (h : TimersOk Interval s)
    (hC : MasterUnexpired s (.step env)) : TimersOk Interval (ptpStateMachine env s) := by
  refine timersOk_step env h (fun _ _ _ t hT ht => ?_) (fun hst t ht _ => ?_) (fun _ hT => ?_)
    (fun _ t ht hT => ?_)
  · -- a slave has no interval timer
    rcases hT with rfl | rfl
    · exact absurd ht Bool.false_ne_true
    · exact absurd ht Bool.false_ne_true
  · rcases ht with rfl | rfl
    · exact (hC hst).1
    · exact (hC hst).2
  · exact absurd hT (by unfold Interval; decide)
  · rcases delayTimer_eq ht with rfl | rfl
    · exact absurd hT (by unfold Interval; decide)
    · exact absurd hT (by unfold Interval; decide)

theorem timersOk_watch (s : Port) (env : StepEnv) (h : TimersOk Watch s)
    (hC : StartsAgain s (.step env)) : TimersOk Watch (ptpStateMachine env s) := by
  rcases hC with ⟨hrestart, hrefresh, hrequest⟩
  refine timersOk_step env h (fun hrec hst hev t _ ht => hrestart hrec hst hev t ht)
    (fun _ t ht hT => ?_) (fun hr _ => hrefresh hr) (fun hr t ht _ => hrequest hr t ht)
  rcases ht with rfl | rfl
  · exact absurd hT (by unfold Watch; decide)
  · exact absurd hT (by unfold Watch; decide)

/-- A timer of the current state is alive when the timers are tended. -/
theorem alive_of_timersOk {T : Timer → Prop} {s : Port} (h : TimersOk T s) {t : Timer} (hT : T t)
    (hlisten : s.clock.portDS.portState ≠ .listening)
    (ht : owns s.clock.portDS.delayMechanism s.clock.portDS.portState t = true) : s.Alive t :=
  h.2 t hT hlisten ht

/-- For every options and every run: a port that is master has both its interval
    timers running or expired, as long as no step of a master has found one of
    them expired. -/
theorem masterTimers_alive (rtOpts : RunTimeOpts) (evs : List Event)
    (hm : Meets engineStep MasterUnexpired (powerUp rtOpts) evs)
    (hst : (run engineStep (powerUp rtOpts) evs).clock.portDS.portState = .master) :
    (run engineStep (powerUp rtOpts) evs).Alive .syncInterval ∧
      (run engineStep (powerUp rtOpts) evs).Alive .announceInterval := by
  have hok : TimersOk Interval (run engineStep (powerUp rtOpts) evs) :=
    meets_invariant (timersOk_engineStep timersOk_interval) (powerUp rtOpts)
      (timersOk_powerUp Interval rtOpts) evs hm
  generalize run engineStep (powerUp rtOpts) evs = s at hst hok ⊢
  have hlisten : s.clock.portDS.portState ≠ .listening := by
    rw [hst]
    decide
  refine ⟨alive_of_timersOk hok (Or.inl rfl) hlisten ?_,
    alive_of_timersOk hok (Or.inr rfl) hlisten ?_⟩
  · rw [hst]
    rfl
  · rw [hst]
    rfl

/-- A port that hears nothing becomes master, with its timers running. -/
theorem masterTimers_alive_quietRun :
    (run engineStep (powerUp masterOpts)
      [quietStep [], .expire .announceReceipt, quietStep []]).Alive .syncInterval ∧
    (run engineStep (powerUp masterOpts)
      [quietStep [], .expire .announceReceipt, quietStep []]).Alive .announceInterval :=
  masterTimers_alive masterOpts [quietStep [], .expire .announceReceipt, quietStep []]
    (by decide +kernel) (by decide +kernel)

/-- The first Sync message of a master is its last: the expiry of the interval is
    consumed, and the timer is not started again. -/
theorem syncInterval_dies :
    (run engineStep (powerUp masterOpts) [quietStep [], .expire .announceReceipt, quietStep [],
      .expire .syncInterval, quietStep []]).clock.portDS.portState = .master ∧
    ¬ (run engineStep (powerUp masterOpts) [quietStep [], .expire .announceReceipt, quietStep [],
      .expire .syncInterval, quietStep []]).Alive .syncInterval := by
  decide +kernel

/-- For every options and every run: a port that follows a master or is passive
    watches for Announce messages, and goes on measuring the delay to its master
    or to its peer, as long as no timer was started again after it had run
    out. -/
theorem watchTimers_alive (rtOpts : RunTimeOpts) (evs : List Event)
    (hm : Meets engineStep StartsAgain (powerUp rtOpts) evs)
    (state : PtpState) (mechanism : DelayMechanism)
    (hst : (run engineStep (powerUp rtOpts) evs).clock.portDS.portState = state)
    (hmech : (run engineStep (powerUp rtOpts) evs).clock.portDS.delayMechanism = mechanism) :
    (Following state ∨ state = .passive →
      (run engineStep (powerUp rtOpts) evs).Alive .announceReceipt) ∧
    (Following state ∧ mechanism = .e2e →
      (run engineStep (powerUp rtOpts) evs).Alive .delayReqInterval) ∧
    ((Following state ∨ state = .master ∨ state = .passive) ∧ mechanism = .p2p →
      (run engineStep (powerUp rtOpts) evs).Alive .pDelayReqInterval) := by
  have hok : TimersOk Watch (run engineStep (powerUp rtOpts) evs) :=
    meets_invariant (timersOk_engineStep timersOk_watch) (powerUp rtOpts)
      (timersOk_powerUp Watch rtOpts) evs hm
  generalize run engineStep (powerUp rtOpts) evs = s at hst hmech hok ⊢
  have halive : ∀ t, Watch t → state ≠ .listening → owns mechanism state t = true → s.Alive t := by
    intro t hT hlisten ht
    rw [← hst] at hlisten
    rw [← hst, ← hmech] at ht
    exact alive_of_timersOk hok hT hlisten ht
  refine ⟨?_, ?_, ?_⟩
  · rintro ((rfl | rfl) | rfl)
    · exact halive _ (Or.inl rfl) (by decide) rfl
    · exact halive _ (Or.inl rfl) (by decide) rfl
    · exact halive _ (Or.inl rfl) (by decide) rfl
  · rintro ⟨rfl | rfl, rfl⟩
    · exact halive _ (Or.inr (Or.inl rfl)) (by decide) rfl
    · exact halive _ (Or.inr (Or.inl rfl)) (by decide) rfl
  · rintro ⟨(rfl | rfl) | rfl | rfl, rfl⟩
    · exact halive _ (Or.inr (Or.inr rfl)) (by decide) rfl
    · exact halive _ (Or.inr (Or.inr rfl)) (by decide) rfl
    · exact halive _ (Or.inr (Or.inr rfl)) (by decide) rfl
    · exact halive _ (Or.inr (Or.inr rfl)) (by decide) rfl

/-- A one step Sync message, with a time stamp of its own. -/
def oneStepSync (id seq : UInt8) : Channel × Packet :=
  (.event, ⟨peerMessage .sync id 0 seq [0, 0, 0, 0, 0, 0, 0, 0, 0, 0], .zero⟩)

/-- A slave that has followed one Sync message. -/
theorem watchTimers_alive_slaveRun :
    (run engineStep (powerUp defaultRtOpts) [quietStep [], quietStep [peerAnnounce 2 2 0],
      quietStep [oneStepSync 2 0], quietStep []]).Alive .announceReceipt ∧
    (run engineStep (powerUp defaultRtOpts) [quietStep [], quietStep [peerAnnounce 2 2 0],
      quietStep [oneStepSync 2 0], quietStep []]).Alive .delayReqInterval := by
  rcases watchTimers_alive defaultRtOpts
    [quietStep [], quietStep [peerAnnounce 2 2 0], quietStep [oneStepSync 2 0], quietStep []]
    (by decide +kernel) .slave .e2e (by decide +kernel) (by decide +kernel) with
    ⟨hreceipt, hdelay, -⟩
  exact ⟨hreceipt (by decide), hdelay (by decide)⟩

/-- A slave whose request interval ends sends a request for the next Sync
    message, and starts the timer in vain: it was not stopped. -/
theorem delayReqInterval_dies :
    (run engineStep (powerUp defaultRtOpts) [quietStep [], quietStep [peerAnnounce 2 2 0],
      quietStep [oneStepSync 2 0], .expire .delayReqInterval,
      quietStep [oneStepSync 2 1]]).clock.portDS.portState = .slave ∧
    (run engineStep (powerUp defaultRtOpts) [quietStep [], quietStep [peerAnnounce 2 2 0],
      quietStep [oneStepSync 2 0], .expire .delayReqInterval,
      quietStep [oneStepSync 2 1]]).clock.portDS.delayMechanism = .e2e ∧
    ¬ (run engineStep (powerUp defaultRtOpts) [quietStep [], quietStep [peerAnnounce 2 2 0],
      quietStep [oneStepSync 2 0], .expire .delayReqInterval,
      quietStep [oneStepSync 2 1]]).Alive .delayReqInterval := by
  decide +kernel

end Ptp

end RtosLwip
