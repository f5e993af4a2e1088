import RtosLwip.Ptp.Engine

/-!
# The State of the Port and Its Timers

What the daemon does to the state of the port and to its six timers. The `core`
of a port is its state, the state recommended to it, the delay mechanism and,
of each timer, whether its system timer is there, whether it is running and
whether it has an expiry that nobody has looked at.

Unlike the protocol view, the core is followed exactly: for every function of
the daemon there is an equation that says what becomes of the core.

## Main definitions

* `Flags`, `Core`, `core`: The core of a port.
* `Core.start`, `Core.stop`, `Core.consume`: What the timer functions do.
* `Core.toState`, `Core.request`: What entering a state and looking at the delay
  request timer do.

## Theorems

* `core_timerStart`, `core_timerExpired`, `core_toState`,
  `core_issueDelayReqTimerExpired`: The equations.
-/
namespace RtosLwip

namespace Ptp

/-- A timer without its interval. -/
structure Flags where
  timeId : Bool
  running : Bool
  expired : Bool
  deriving DecidableEq, Repr

/-- The flags of a timer. -/
def TimerState.flags (x : TimerState) : Flags := ⟨x.timeId, x.running.isSome, x.expired⟩

namespace Flags

/-- A timer that was stopped. -/
def stopped : Flags := ⟨false, false, false⟩

/-- A timer that runs out, when it was running. -/
def fire (x : Flags) : Flags :=
  if x.running then { x with running := false, expired := true } else x

/-- A timer that may run out before it is looked at. -/
def wait (fires : Bool) (x : Flags) : Flags := if fires then x.fire else x

/-- A timer that is started, and may have run out before. -/
def start (late : Bool) (x : Flags) : Flags :=
  let y := x.wait late
  if y.timeId then { y with expired := false } else ⟨true, true, false⟩

/-- A timer that is running or has an expiry pending. -/
def Alive (x : Flags) : Prop := x.running = true ∨ x.expired = true

instance (x : Flags) : Decidable x.Alive := inferInstanceAs (Decidable (_ ∨ _))

end Flags

/-- The state of a port and its timers. -/
@[ext] structure Core where
  portState : PtpState
  recommendedState : PtpState
  delayMechanism : DelayMechanism
  timers : Timer → Flags

/-- The core of a port. -/
def core (s : Port) : Core where
  portState := s.clock.portDS.portState
  recommendedState := s.clock.recommendedState
  delayMechanism := s.clock.portDS.delayMechanism
  timers := fun t => (s.timers t).flags

namespace Core

/-- Set one timer. -/
def set (t : Timer) (x : Flags) (c : Core) : Core :=
  { c with timers := fun t' => if t' = t then x else c.timers t' }

theorem set_timers_self (c : Core) (t : Timer) (x : Flags) : (c.set t x).timers t = x :=
  if_pos rfl

theorem set_timers_of_ne (c : Core) {t t' : Timer} (x : Flags) (h : t' ≠ t) :
    (c.set t x).timers t' = c.timers t' := if_neg h

/-- Setting a timer to what it is. -/
theorem set_self (c : Core) (t : Timer) : c.set t (c.timers t) = c := by
  refine Core.ext rfl rfl rfl (funext fun t' => ?_)
  by_cases h : t' = t
  · rw [h, set_timers_self]
  · exact set_timers_of_ne c _ h

/-- The later setting counts. -/
theorem set_set (c : Core) (t : Timer) (x y : Flags) : (c.set t x).set t y = c.set t y := by
  refine Core.ext rfl rfl rfl (funext fun t' => ?_)
  by_cases h : t' = t
  · rw [h, set_timers_self, set_timers_self]
  · rw [set_timers_of_ne _ _ h, set_timers_of_ne _ _ h, set_timers_of_ne _ _ h]

/-- What `timerStop` does. -/
def stop (t : Timer) (c : Core) : Core := c.set t .stopped

/-- What `timerStart` does. -/
def start (env : StepEnv) (t : Timer) (c : Core) : Core :=
  c.set t ((c.timers t).start (env.firesLate t))

/-- What `timerExpired` answers. -/
def expired (env : StepEnv) (t : Timer) (c : Core) : Bool :=
  ((c.timers t).wait (env.fires t)).expired

/-- What `timerExpired` does. -/
def consume (env : StepEnv) (t : Timer) (c : Core) : Core :=
  c.set t { (c.timers t).wait (env.fires t) with expired := false }

/-- What leaving the current state for `state` does. -/
def leave (state : PtpState) (c : Core) : Core :=
  match c.portState with
  | .master => ((c.stop .syncInterval).stop .announceInterval).stop .pDelayReqInterval
  | .uncalibrated | .slave =>
    if state = .uncalibrated ∨ state = .slave then
      c
    else
      let c := c.stop .announceReceipt
      match c.delayMechanism with
      | .e2e => c.stop .delayReqInterval
      | .p2p => c.stop .pDelayReqInterval
      | .disabled => c
  | .passive => (c.stop .pDelayReqInterval).stop .announceReceipt
  | .listening => c.stop .announceReceipt
  | .preMaster => c.stop .qualificationTimeout
  | _ => c

/-- What entering `state` does. -/
def enter (env : StepEnv) (state : PtpState) (c : Core) : Core :=
  match state with
  | .initializing => { c with portState := .initializing, recommendedState := .initializing }
  | .faulty => { c with portState := .faulty }
  | .disabled => { c with portState := .disabled }
  | .listening => { c.start env .announceReceipt with
      portState := .listening, recommendedState := .listening }
  | .preMaster | .master =>
    let c := (c.start env .syncInterval).start env .announceInterval
    let c := match c.delayMechanism with
      | .p2p => c.start env .pDelayReqInterval
      | _ => c
    { c with portState := .master }
  | .passive =>
    let c := c.start env .announceReceipt
    let c := match c.delayMechanism with
      | .p2p => c.start env .pDelayReqInterval
      | _ => c
    { c with portState := .passive }
  | .uncalibrated =>
    let c := c.start env .announceReceipt
    let c := match c.delayMechanism with
      | .e2e => c.start env .delayReqInterval
      | .p2p => c.start env .pDelayReqInterval
      | .disabled => c
    { c with portState := .uncalibrated }
  | .slave => { c with portState := .slave }

/-- What `toState` does. -/
def toState (env : StepEnv) (state : PtpState) (c : Core) : Core :=
  (c.leave state).enter env state

/-- The timer `_issueDelayReqTimerExpired` looks at. -/
def delayTimer (c : Core) : Option Timer :=
  match c.delayMechanism with
  | .e2e => if c.portState ≠ .slave then none else some .delayReqInterval
  | .p2p => some .pDelayReqInterval
  | .disabled => none

/-- What `_issueDelayReqTimerExpired` does: an expiry is consumed, and the timer
    started again. -/
def request (env : StepEnv) (c : Core) : Core :=
  match c.delayTimer with
  | none => c
  | some t => if c.expired env t then (c.consume env t).start env t else c.consume env t

end Core

section Timers

variable (env : StepEnv) (t : Timer) (s : Port)

theorem core_setTimer (x : TimerState) : core (setTimer t x s) = (core s).set t x.flags := by
  refine Core.ext rfl rfl rfl (funext fun t' => ?_)
  by_cases h : t' = t
  · rw [h, Core.set_timers_self]
    exact congrArg TimerState.flags (if_pos rfl)
  · rw [Core.set_timers_of_ne _ _ h]
    exact congrArg TimerState.flags (if_neg h)

theorem flags_fire (x : TimerState) : x.fire.flags = x.flags.fire := by
  unfold TimerState.fire Flags.fire
  by_cases h : x.running.isSome = true
  · rw [if_pos h, if_pos (show x.flags.running = true from h)]
    rfl
  · rw [if_neg h, if_neg (show ¬ x.flags.running = true from h)]

theorem flags_wait (fires : Bool) (x : TimerState) :
    (if fires then x.fire else x).flags = x.flags.wait fires := by
  unfold Flags.wait
  cases fires with
  | false => rfl
  | true => exact flags_fire x

theorem core_timerCallback :
    core (timerCallback t s) = (core s).set t ((core s).timers t).fire := by
  rw [timerCallback, core_setTimer, flags_fire]
  rfl

@[simp] theorem core_timerStop : core (timerStop t s) = (core s).stop t :=
  core_setTimer t s _

@[simp] theorem core_timerStart (n : Nat) :
    core (timerStart env t n s) = (core s).start env t := by
  have hwait : ((core s).timers t).wait (env.firesLate t)
      = (if env.firesLate t then (s.timers t).fire else s.timers t).flags :=
    (flags_wait _ _).symm
  simp only [timerStart, core_setTimer, Core.start, Flags.start, hwait]
  generalize (if env.firesLate t then (s.timers t).fire else s.timers t) = x
  congr 1
  unfold sysTimerStart
  by_cases h : x.timeId = true
  · rw [if_pos (show x.flags.timeId = true from h)]
    exact congrArg TimerState.flags (if_pos h)
  · rw [if_neg (show ¬ x.flags.timeId = true from h)]
    exact congrArg TimerState.flags (if_neg h)

/-- Looking at a timer that may run out before. -/
theorem core_wait : core (if env.fires t then timerCallback t s else s)
    = (core s).set t (((core s).timers t).wait (env.fires t)) := by
  cases h : env.fires t with
  | false =>
      rw [if_neg Bool.false_ne_true]
      exact ((core s).set_self t).symm
  | true =>
      rw [if_pos rfl, core_timerCallback]
      rfl

theorem core_timerExpired :
    (timerExpired env t s).1 = (core s).expired env t ∧
      core (timerExpired env t s).2 = (core s).consume env t := by
  have hcore := core_wait env t s
  have hflags : ((if env.fires t then timerCallback t s else s).timers t).flags
      = ((core s).timers t).wait (env.fires t) := by
    have h := congrArg (fun c => c.timers t) hcore
    rw [Core.set_timers_self] at h
    exact h
  simp only [timerExpired]
  generalize (if env.fires t then timerCallback t s else s) = u at hcore hflags ⊢
  have hexp : (u.timers t).expired = (core s).expired env t := congrArg Flags.expired hflags
  split
  · rename_i h
    refine ⟨h.symm.trans hexp, ?_⟩
    rw [core_setTimer, hcore, Core.set_set, Core.consume, ← hflags]
    rfl
  · rename_i h
    rw [Bool.not_eq_true] at h
    refine ⟨h.symm.trans hexp, ?_⟩
    rw [hcore, Core.consume, ← hflags]
    congr 1
    change (u.timers t).flags = ⟨_, _, false⟩
    rw [← h]
    rfl

end Timers

section Functions

variable (env : StepEnv) (s : Port)

@[simp] theorem core_log (e : Effect) : core (s.log e) = core s := rfl

@[simp] theorem core_initClock : core (initClock s) = core s := by
  unfold initClock
  dsimp only
  split
  · rfl
  · rfl

theorem core_leaveState (state : PtpState) :
    core (leaveState state s) = (core s).leave state := by
  unfold leaveState Core.leave
  rw [show (core s).portState = s.clock.portDS.portState from rfl]
  cases s.clock.portDS.portState with
  | uncalibrated | slave =>
      dsimp only
      split
      · rfl
      · have hmech : ((core s).stop .announceReceipt).delayMechanism
            = (timerStop .announceReceipt s).clock.portDS.delayMechanism := rfl
        rw [hmech, core_initClock]
        cases (timerStop .announceReceipt s).clock.portDS.delayMechanism with
        | e2e => simp only [core_timerStop]
        | p2p => simp only [core_timerStop]
        | disabled => simp only [core_timerStop]
  | master => simp only [core_timerStop, core_initClock]
  | passive => simp only [core_timerStop, core_initClock]
  | listening => simp only [core_timerStop, core_initClock]
  | preMaster => simp only [core_timerStop, core_initClock]
  | initializing => rfl
  | faulty => rfl
  | disabled => rfl

theorem core_enterState (state : PtpState) :
    core (enterState env state s) = (core s).enter env state := by
  have hput : ∀ (u : Port) (st : PtpState), core { u with clock.portDS.portState := st }
      = { core u with portState := st } := fun _ _ => rfl
  have hmech : ∀ u : Port, u.clock.portDS.delayMechanism = (core u).delayMechanism :=
    fun _ => rfl
  cases state with
  | initializing => rfl
  | faulty => rfl
  | disabled => rfl
  | slave => rfl
  | listening =>
      have hrec : ∀ u : Port, core { u with
          clock.portDS.portState := .listening, clock.recommendedState := .listening }
          = { core u with portState := .listening, recommendedState := .listening } :=
        fun _ => rfl
      unfold enterState Core.enter
      dsimp only
      rw [hrec, core_timerStart]
  | preMaster | master =>
      unfold enterState Core.enter
      dsimp only
      rw [hput, hmech, core_timerStart, core_timerStart]
      have hint : core { s with clock.portDS.logMinDelayReqInterval := defaultDelayReqInterval }
          = core s := rfl
      rw [hint]
      cases (((core s).start env .syncInterval).start env .announceInterval).delayMechanism with
      | p2p => simp only [core_timerStart, hint]
      | e2e => simp only [core_timerStart, hint]
      | disabled => simp only [core_timerStart, hint]
  | passive =>
      unfold enterState Core.enter
      dsimp only
      rw [hput, hmech, core_timerStart]
      cases ((core s).start env .announceReceipt).delayMechanism with
      | p2p => simp only [core_timerStart]
      | e2e => simp only [core_timerStart]
      | disabled => simp only [core_timerStart]
  | uncalibrated =>
      unfold enterState Core.enter
      dsimp only
      rw [hput, hmech, core_timerStart]
      cases ((core s).start env .announceReceipt).delayMechanism with
      | p2p => simp only [core_timerStart]
      | e2e => simp only [core_timerStart]
      | disabled => simp only [core_timerStart]

@[simp] theorem core_toState (state : PtpState) :
    core (toState env state s) = (core s).toState env state := by
  rw [toState, core_enterState, core_leaveState]
  rfl

/-- Sending never reports a failure, and leaves the core alone. -/
theorem core_sendPacked (type : MsgType) (buf : List UInt8) (time : TimeInternal)
    (htype : type.length ≠ 0) :
    ¬ (sendPacked env type buf time s).1 = 0 ∧ core (sendPacked env type buf time s).2.2 = core s :=
  ⟨htype, rfl⟩

@[simp] theorem core_issuePDelayReq : core (issuePDelayReq env s) = core s := by
  rcases core_sendPacked env s .pDelayReq (msgPackPDelayReq s.clock s.clock.msgObuf
    (fromInternalTime (env.time .pDelayReq) (env.localStamp .pDelayReq))) (env.time .pDelayReq)
    (by decide) with ⟨hne, hcore⟩
  simp only [issuePDelayReq, if_neg hne]
  generalize sendPacked env .pDelayReq _ (env.time .pDelayReq) s = r at hcore ⊢
  split
  · exact hcore
  · exact hcore

@[simp] theorem core_issueDelayReq : core (issueDelayReq env s) = core s := by
  rcases core_sendPacked env s .delayReq (msgPackDelayReq s.clock s.clock.msgObuf
    (fromInternalTime (env.time .delayReq) (env.localStamp .delayReq))) (env.time .delayReq)
    (by decide) with ⟨hne, hcore⟩
  simp only [issueDelayReq, if_neg hne]
  generalize sendPacked env .delayReq _ (env.time .delayReq) s = r at hcore ⊢
  split
  · exact hcore
  · exact hcore

/-- What looking at the delay request timer does. -/
theorem core_issueDelayReqTimerExpired :
    core (issueDelayReqTimerExpired env s) = (core s).request env := by
  have hlook : ∀ t, (core s).delayTimer = some t → (core s).request env
      = if (core s).expired env t then ((core s).consume env t).start env t
        else (core s).consume env t := by
    intro t ht
    rw [Core.request, ht]
  have hnone : (core s).delayTimer = none → (core s).request env = core s := by
    intro ht
    rw [Core.request, ht]
  unfold issueDelayReqTimerExpired
  cases hmech : s.clock.portDS.delayMechanism with
  | e2e =>
      dsimp only
      by_cases hst : s.clock.portDS.portState ≠ .slave
      · rw [if_pos hst, hnone]
        simp only [Core.delayTimer, core, hmech, if_pos hst]
      · rw [if_neg hst, hlook .delayReqInterval]
        · rcases core_timerExpired env .delayReqInterval s with ⟨h1, h2⟩
          rw [h1]
          split
          · rw [core_issueDelayReq, core_timerStart, h2]
          · exact h2
        · simp only [Core.delayTimer, core, hmech, if_neg hst]
  | p2p =>
      dsimp only
      rw [hlook .pDelayReqInterval]
      · rcases core_timerExpired env .pDelayReqInterval s with ⟨h1, h2⟩
        rw [h1]
        split
        · rw [core_issuePDelayReq, core_timerStart, h2]
        · exact h2
      · simp only [Core.delayTimer, core, hmech]
  | disabled =>
      dsimp only
      rw [hnone]
      simp only [Core.delayTimer, core, hmech]

/-- The fields only the servo writes are not in the core. -/
theorem core_servoFields (tms tsm offset delay peer : TimeInternal) (ofm owd : Filter)
    (fault selected : Bool) :
    core { s with clock := { s.clock with
      tms := tms
      tsm := tsm
      currentDS := ⟨s.clock.currentDS.stepsRemoved, offset, delay⟩
      portDS.peerMeanPathDelay := peer
      ofmFilt := ofm
      owdFilt := owd
      events.synchronizationFault := fault
      events.masterClockSelected := selected } } = core s := rfl

@[simp] theorem core_updateOffset (a b c : TimeInternal) :
    core (updateOffset a b c s) = core s := by
  unfold updateOffset
  dsimp only
  generalize subTime (subTime a b) c = tms
  generalize subtractDelay s.clock tms = offset
  generalize filter offset.nanoseconds s.clock.ofmFilt = f
  split
  · exact core_servoFields s tms _ offset _ _ _ _ _ _
  · split
    · exact core_servoFields s tms _ ⟨offset.seconds, f.1⟩ _ _ f.2 _ _ _
    · split
      · exact core_servoFields s tms _ ⟨offset.seconds, f.1⟩ _ _ f.2 _ _ _
      · exact core_servoFields s tms _ ⟨offset.seconds, f.1⟩ _ _ f.2 _ _ _

@[simp] theorem core_updateDelay (a b c : TimeInternal) : core (updateDelay a b c s) = core s := by
  unfold updateDelay
  dsimp only
  generalize subTime (subTime b a) c = tsm
  generalize div2Time (addTime s.clock.tms tsm) = delay
  generalize filter delay.nanoseconds s.clock.owdFilt = f
  split
  · rfl
  · split
    · exact core_servoFields s _ tsm _ delay _ _ _ _ _
    · exact core_servoFields s _ tsm _ ⟨delay.seconds, f.1⟩ _ _ f.2 _ _

@[simp] theorem core_updatePeerDelay (a : TimeInternal) (twoStep : Bool) :
    core (updatePeerDelay a twoStep s) = core s := by
  unfold updatePeerDelay
  dsimp only
  generalize div2Time _ = delay
  generalize filter delay.nanoseconds s.clock.owdFilt = f
  split
  · exact core_servoFields s _ _ _ _ delay _ _ _ _
  · exact core_servoFields s _ _ _ _ ⟨delay.seconds, f.1⟩ _ f.2 _ _

@[simp] theorem core_updateClock : core (updateClock env s) = core s := by
  unfold updateClock
  dsimp only
  split
  · split
    · rfl
    · split
      · rfl
      · exact core_initClock _
  · split
    · rfl
    · rfl

end Functions

end Ptp

end RtosLwip
