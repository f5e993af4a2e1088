import Mathlib.Algebra.Group.Int.Defs
import RtosLwip.Ptp.Recovery
import RtosLwip.Ptp.Requests

/-!
# The Interval Between Delay Requests

A follower draws the time to its next delay request from `getRand`, below
`pow2ms(logMinDelayReqInterval + 1)`. The macro shifts to the left or to the
right by its argument, and `getRand` divides by the result. The interval is a
byte of the DelayResp accepted last, and nobody looks at it before it is used.

`draws` lists the intervals a step uses so, and follows the code through the
step to find them.

## Main definitions

* `SafeDraw`: The shift is in range and the divisor is not zero.
* `draws`: The intervals a step draws with.
* `AcceptsSafe`: A DelayResp that is accepted brings an interval in range.

## Theorems

* `safeDraw_iff`: The intervals it is safe to draw with.
* `mem_draws`: A step draws with the interval it begins with, or the default.
* `ptpStateMachine_redraw`: A step that draws nothing looks at no random number.
* `safeDraw_of_mem_draws`: In which runs every draw is safe.
-/

namespace RtosLwip

namespace Ptp

/-- The shift of `pow2ms`, an `int` operation, is in range: it moves by less than
    the width, and the result is an `int`. -/
def ShiftFits (a : Int) : Prop :=
  if 0 < a then a < 32 ∧ 1000 * 2 ^ a.toNat < (2147483648 : Int) else -a < 32

/-- `getRand(pow2ms(interval + 1))` neither shifts out of range nor divides by
    zero. -/
def SafeDraw (interval : Int8) : Prop :=
  ShiftFits (interval.toInt + 1) ∧ pow2ms (interval.toInt + 1) ≠ 0

/-- The intervals it is safe to draw with. -/
def InRange (interval : Int8) : Prop := -10 ≤ interval.toInt ∧ interval.toInt ≤ 20

instance (interval : Int8) : Decidable (InRange interval) :=
  inferInstanceAs (Decidable (_ ∧ _))

theorem shiftFits_iff (a : Int) : ShiftFits a ↔ -32 < a ∧ a ≤ 21 := by
  rw [ShiftFits]
  split
  next hpos =>
    obtain ⟨k, rfl⟩ := Int.eq_ofNat_of_zero_le (Int.le_of_lt hpos)
    have hcast : (1000 : Int) * 2 ^ k = ((1000 * 2 ^ k : Nat) : Int) := by
      rw [Int.natCast_mul, Int.natCast_pow]
      rfl
    rw [Int.toNat_natCast, hcast]
    constructor
    · rintro ⟨_, hlt⟩
      by_contra hbig
      have hpow : 2 ^ 22 ≤ 2 ^ k := Nat.pow_le_pow_right (by decide) (by omega)
      omega
    · rintro ⟨_, hle⟩
      have hpow : 2 ^ k ≤ 2 ^ 21 := Nat.pow_le_pow_right (by decide) (by omega)
      omega
  next hneg => omega

theorem pow2ms_ne_zero_iff (a : Int) : pow2ms a ≠ 0 ↔ -10 < a := by
  rw [pow2ms]
  split
  next hpos =>
    refine iff_of_true ?_ (by omega)
    rw [Nat.shiftLeft_eq]
    exact Nat.mul_ne_zero (by decide) (Nat.ne_of_gt (Nat.two_pow_pos _))
  next hneg =>
    rw [Nat.shiftRight_eq_div_pow, Nat.div_ne_zero_iff]
    constructor
    · rintro ⟨_, hle⟩
      by_contra hbig
      have hpow : 2 ^ 10 ≤ 2 ^ (-a).toNat := Nat.pow_le_pow_right (by decide) (by omega)
      omega
    · intro hsmall
      refine ⟨(Nat.ne_of_gt (Nat.two_pow_pos _)), ?_⟩
      have hpow : 2 ^ (-a).toNat ≤ 2 ^ 9 := Nat.pow_le_pow_right (by decide) (by omega)
      omega

theorem safeDraw_iff (interval : Int8) : SafeDraw interval ↔ InRange interval := by
  rw [SafeDraw, shiftFits_iff, pow2ms_ne_zero_iff, InRange]
  omega

/-! ### Where a step draws -/

/-- Entering a state. -/
def drawsEnter (env : StepEnv) (state : PtpState) (s : Port) : List Int8 :=
  match state with
  | .uncalibrated =>
    let s := timerStart env .announceReceipt (announceReceiptInterval s) s
    match s.clock.portDS.delayMechanism with
    | .e2e => [s.clock.portDS.logMinDelayReqInterval]
    | _ => []
  | _ => []

/-- `toState`. -/
def drawsToState (env : StepEnv) (state : PtpState) (s : Port) : List Int8 :=
  drawsEnter env state (leaveState state { s with clock.messageActivity := true })

/-- `_issueDelayReqTimerExpired`. -/
def drawsTimerExpired (env : StepEnv) (s : Port) : List Int8 :=
  match s.clock.portDS.delayMechanism with
  | .e2e =>
    if s.clock.portDS.portState ≠ .slave then
      []
    else
      let r := timerExpired env .delayReqInterval s
      if r.1 then [r.2.clock.portDS.logMinDelayReqInterval] else []
  | _ => []

/-- `__handleSync` in the uncalibrated and the slave state. -/
def drawsSyncFollowing (env : StepEnv) (m : Message) (isFromSelf : Bool) (s : Port) : List Int8 :=
  if isFromSelf then
    []
  else if isFromCurrentParent m s = false then
    []
  else
    let s := { s with clock.timestampSyncRecieve := m.time }
    let correctionField := scaledNanosecondsToInternalTime m.header.correctionfield
    if isTwoStep m then
      []
    else
      let s := { s with clock.waitingForFollowUp := false }
      let originTimestamp := toInternalTime env.localTime (msgUnpackSync m.buf)
      let s := s.log (.offset false m s.clock.timestampSyncRecieve originTimestamp correctionField)
      let s := updateOffset s.clock.timestampSyncRecieve originTimestamp correctionField s
      drawsTimerExpired env (updateClock env s)

/-- `__handleSync`. -/
def drawsSync (env : StepEnv) (m : Message) (isFromSelf : Bool) (s : Port) : List Int8 :=
  if m.buf.length < MsgType.sync.length then
    drawsToState env .faulty s
  else
    match s.clock.portDS.portState with
    | .uncalibrated | .slave => drawsSyncFollowing env m isFromSelf s
    | .passive => drawsTimerExpired env s
    | _ => []

/-- `__handleFollowUp` in the uncalibrated and the slave state. -/
def drawsFollowUpFollowing (env : StepEnv) (m : Message) (s : Port) : List Int8 :=
  if s.clock.waitingForFollowUp = false then
    []
  else if isFromCurrentParent m s = false then
    []
  else if s.clock.recvSyncSequenceId ≠ m.header.sequenceId then
    []
  else
    let s := { s with clock.waitingForFollowUp := false }
    let preciseOriginTimestamp := toInternalTime env.localTime (msgUnpackFollowUp m.buf)
    let correctionField := addTime (scaledNanosecondsToInternalTime m.header.correctionfield)
      s.clock.correctionFieldSync
    let s := s.log (.offset true m s.clock.timestampSyncRecieve preciseOriginTimestamp
      correctionField)
    let s := updateOffset s.clock.timestampSyncRecieve preciseOriginTimestamp correctionField s
    drawsTimerExpired env (updateClock env s)

/-- `__handleFollowUp`. -/
def drawsFollowUp (env : StepEnv) (m : Message) (isFromSelf : Bool) (s : Port) : List Int8 :=
  if m.buf.length < MsgType.followUp.length then
    drawsToState env .faulty s
  else if isFromSelf then
    []
  else
    match s.clock.portDS.portState with
    | .uncalibrated | .slave => drawsFollowUpFollowing env m s
    | .passive => drawsTimerExpired env s
    | _ => []

/-- `_handle`. The handlers of the other messages enter no state but the faulty
    one, and look at no timer of requests. -/
def drawsHandle (env : StepEnv) (s : Port) : List Int8 :=
  let r := receive (arrive env s)
  match r.1 with
  | .nothing => []
  | .short => drawsToState env .faulty r.2
  | .message m =>
    let s := r.2.log (.received m)
    let isFromSelf := isSamePortIdentity s.clock.portDS.portIdentity m.header.sourcePortIdentity
    match MsgType.ofCode m.header.messageType with
    | some .sync => drawsSync env m isFromSelf s
    | some .followUp => drawsFollowUp env m isFromSelf s
    | _ => []

/-- The second `switch` of `ptpStateMachine`. -/
def drawsApply (env : StepEnv) (s : Port) : List Int8 :=
  match s.clock.recommendedState with
  | .master =>
    match s.clock.portDS.portState with
    | .preMaster =>
      let r := timerExpired env .qualificationTimeout s
      if r.1 then drawsToState env .master r.2 else []
    | .master => []
    | _ => drawsToState env .preMaster s
  | .passive => if s.clock.portDS.portState ≠ .passive then drawsToState env .passive s else []
  | .slave =>
    match s.clock.portDS.portState with
    | .uncalibrated =>
      if s.clock.events.masterClockSelected then
        drawsToState env .slave { s with clock.events.masterClockSelected := false }
      else
        []
    | .slave =>
      let drawn := if s.clock.events.synchronizationFault then
        drawsToState env .uncalibrated { s with clock.events.synchronizationFault := false } else []
      let s := if s.clock.events.synchronizationFault then
        toState env .uncalibrated { s with clock.events.synchronizationFault := false } else s
      if s.clock.events.masterClockChanged then
        drawn ++
          drawsToState env .uncalibrated { s with clock.events.masterClockChanged := false }
      else
        drawn
    | _ => drawsToState env .uncalibrated s
  | .listening =>
    if s.clock.portDS.portState ≠ .listening then drawsToState env .listening s else []
  | _ => []

/-- The announce receipt timeout. -/
def drawsTimeout (env : StepEnv) (s : Port) : List Int8 :=
  let s := forgetMasters s
  if isSlaveOnly s = false then
    drawsToState env .master { m1 s with clock.recommendedState := .master }
  else if s.clock.portDS.portState ≠ .listening then
    drawsToState env .listening s
  else
    []

/-- The third `switch`. -/
def drawsDoState (env : StepEnv) (s : Port) : List Int8 :=
  match s.clock.portDS.portState with
  | .initializing =>
    let r := doInit env s
    if r.1 then drawsToState env .listening r.2 else drawsToState env .faulty r.2
  | .faulty => drawsToState env .initializing s
  | .disabled => drawsHandle env s
  | .listening | .uncalibrated | .slave | .passive =>
    let r := timerExpired env .announceReceipt s
    if r.1 then drawsTimeout env r.2 else drawsHandle env r.2
  | .master =>
    let s := masterTimers env s
    drawsHandle env s ++ drawsTimerExpired env (handle env s)
  | .preMaster => []

/-- The intervals a step draws with, in their order. -/
def draws (env : StepEnv) (s : Port) : List Int8 :=
  let s := stateDecision { s with clock.messageActivity := false }
  drawsApply env s ++ drawsDoState env (applyRecommended env s)

/-! ### The intervals are those of the port -/

section Members

variable {env : StepEnv} {s : Port} {v : Int8}

theorem mem_drawsToState {state : PtpState} (h : v ∈ drawsToState env state s) :
    v = (ledger s).interval := by
  have hleave : ledger (leaveState state { s with clock.messageActivity := true }) = ledger s :=
    ledger_leaveState { s with clock.messageActivity := true } state
  rw [← hleave]
  rw [drawsToState] at h
  generalize leaveState state { s with clock.messageActivity := true } = u at h
  cases state with
  | uncalibrated =>
      simp only [drawsEnter] at h
      split at h
      · exact List.mem_singleton.mp h
      · exact absurd h List.not_mem_nil
  | _ => exact absurd h List.not_mem_nil

theorem mem_drawsTimerExpired (h : v ∈ drawsTimerExpired env s) :
    v = (ledger s).interval ∧ s.clock.portDS.portState = .slave := by
  have hlook := ledger_timerExpired env s .delayReqInterval
  unfold drawsTimerExpired at h
  dsimp only at h
  generalize timerExpired env .delayReqInterval s = r at hlook h
  split at h
  · split at h
    · exact absurd h List.not_mem_nil
    next hslave =>
      split at h
      · rw [← hlook]
        exact ⟨List.mem_singleton.mp h, not_not.mp hslave⟩
      · exact absurd h List.not_mem_nil
  · exact absurd h List.not_mem_nil

/-- The servo does not touch the interval. -/
theorem mem_draws_steered {u : Port} (hu : ledger u = ledger s) {a b c : TimeInternal}
    (h : v ∈ drawsTimerExpired env (updateClock env (updateOffset a b c u))) :
    v = (ledger s).interval := by
  have hmem := (mem_drawsTimerExpired h).1
  rwa [ledger_updateClock, ledger_updateOffset, hu] at hmem

theorem mem_drawsSync {m : Message} {isFromSelf : Bool} (h : v ∈ drawsSync env m isFromSelf s) :
    v = (ledger s).interval := by
  have hfollow : v ∈ drawsSyncFollowing env m isFromSelf s → v = (ledger s).interval := by
    intro h
    unfold drawsSyncFollowing at h
    split at h
    · exact absurd h List.not_mem_nil
    · split at h
      · exact absurd h List.not_mem_nil
      · split at h
        · exact absurd h List.not_mem_nil
        · refine mem_draws_steered (s := s) ?_ h
          rfl
  unfold drawsSync at h
  split at h
  · exact mem_drawsToState h
  · split at h
    · exact hfollow h
    · exact hfollow h
    · exact (mem_drawsTimerExpired h).1
    · exact absurd h List.not_mem_nil

theorem mem_drawsFollowUp {m : Message} {isFromSelf : Bool}
    (h : v ∈ drawsFollowUp env m isFromSelf s) : v = (ledger s).interval := by
  have hfollow : v ∈ drawsFollowUpFollowing env m s → v = (ledger s).interval := by
    intro h
    unfold drawsFollowUpFollowing at h
    split at h
    · exact absurd h List.not_mem_nil
    · split at h
      · exact absurd h List.not_mem_nil
      · split at h
        · exact absurd h List.not_mem_nil
        · refine mem_draws_steered (s := s) ?_ h
          rfl
  unfold drawsFollowUp at h
  split at h
  · exact mem_drawsToState h
  · split at h
    · exact absurd h List.not_mem_nil
    · split at h
      · exact hfollow h
      · exact hfollow h
      · exact (mem_drawsTimerExpired h).1
      · exact absurd h List.not_mem_nil

theorem mem_drawsHandle (h : v ∈ drawsHandle env s) : v = (ledger s).interval := by
  have hreceive : ledger (receive (arrive env s)).2 = ledger s := by
    rw [ledger_receive, ledger_arrive]
  unfold drawsHandle at h
  dsimp only at h
  generalize receive (arrive env s) = r at hreceive h
  rw [← hreceive]
  split at h
  · exact absurd h List.not_mem_nil
  · exact mem_drawsToState h
  next m _ =>
    split at h
    · exact mem_drawsSync (s := r.2.log (.received m)) h
    · exact mem_drawsFollowUp (s := r.2.log (.received m)) h
    · exact absurd h List.not_mem_nil

theorem mem_drawsApply (h : v ∈ drawsApply env s) : v = (ledger s).interval := by
  unfold drawsApply at h
  split at h
  · split at h
    · have hlook := ledger_timerExpired env s .qualificationTimeout
      dsimp only at h
      generalize timerExpired env .qualificationTimeout s = r at hlook h
      rw [← hlook]
      split at h
      · exact mem_drawsToState h
      · exact absurd h List.not_mem_nil
    · exact absurd h List.not_mem_nil
    · exact mem_drawsToState h
  · split at h
    · exact mem_drawsToState h
    · exact absurd h List.not_mem_nil
  · split at h
    · split at h
      · exact mem_drawsToState (s := { s with clock.events.masterClockSelected := false }) h
      · exact absurd h List.not_mem_nil
    · -- a fault and a change of the master: both may draw, one behind the other
      have hfault : v ∈ drawsToState env .uncalibrated
          { s with clock.events.synchronizationFault := false } → v = (ledger s).interval :=
        fun h => mem_drawsToState (s := { s with clock.events.synchronizationFault := false }) h
      have hledger := ledger_toState env { s with clock.events.synchronizationFault := false }
        .uncalibrated
      dsimp only at h
      generalize toState env .uncalibrated
        { s with clock.events.synchronizationFault := false } = u at hledger h
      have hchange : ∀ t : Port, ledger t = ledger s → v ∈ drawsToState env .uncalibrated
          { t with clock.events.masterClockChanged := false } → v = (ledger s).interval := by
        intro t ht h
        rw [← ht]
        exact mem_drawsToState (s := { t with clock.events.masterClockChanged := false }) h
      by_cases hf : s.clock.events.synchronizationFault = true
      · simp only [if_pos hf] at h
        split at h
        · rcases List.mem_append.mp h with h | h
          · exact hfault h
          · exact hchange u hledger h
        · exact hfault h
      · simp only [if_neg hf] at h
        split at h
        · exact hchange s rfl h
        · exact absurd h List.not_mem_nil
    · exact mem_drawsToState h
  · split at h
    · exact mem_drawsToState h
    · exact absurd h List.not_mem_nil
  · exact absurd h List.not_mem_nil

theorem mem_drawsTimeout (h : v ∈ drawsTimeout env s) : v = (ledger s).interval := by
  have hforget : ledger (forgetMasters s) = ledger s := rfl
  unfold drawsTimeout at h
  dsimp only at h
  generalize forgetMasters s = u at hforget h
  rw [← hforget]
  split at h
  · exact mem_drawsToState (s := { m1 u with clock.recommendedState := .master }) h
  · split at h
    · exact mem_drawsToState h
    · exact absurd h List.not_mem_nil

/-- A message does not make a slave of a master. -/
theorem portState_handle_ne_slave (h : s.clock.portDS.portState = .master) :
    (handle env s).clock.portDS.portState ≠ .slave := by
  change (core (handle env s)).portState ≠ .slave
  rw [core_handle, portState_react]
  split
  · decide
  · rw [show (core s).portState = .master from h]
    decide

theorem portState_masterTimers (h : s.clock.portDS.portState = .master) :
    (masterTimers env s).clock.portDS.portState = .master := by
  change (core (masterTimers env s)).portState = .master
  rw [core_masterTimers]
  exact h

theorem mem_drawsDoState (h : v ∈ drawsDoState env s) : v = (ledger s).interval := by
  have hlook := ledger_timerExpired env s .announceReceipt
  cases hst : s.clock.portDS.portState with
  | initializing =>
      simp only [drawsDoState, hst] at h
      split at h
      · exact absurd h List.not_mem_nil
      · exact absurd h List.not_mem_nil
  | faulty =>
      simp only [drawsDoState, hst] at h
      exact absurd h List.not_mem_nil
  | disabled =>
      simp only [drawsDoState, hst] at h
      exact mem_drawsHandle h
  | preMaster =>
      simp only [drawsDoState, hst] at h
      exact absurd h List.not_mem_nil
  | master =>
      simp only [drawsDoState, hst] at h
      rw [← ledger_masterTimers env s]
      rcases List.mem_append.mp h with h | h
      · exact mem_drawsHandle h
      · exact absurd (mem_drawsTimerExpired h).2
          (portState_handle_ne_slave (portState_masterTimers hst))
  | _ =>
      simp only [drawsDoState, hst] at h
      generalize timerExpired env .announceReceipt s = r at hlook h
      rw [← hlook]
      split at h
      · exact mem_drawsTimeout h
      · exact mem_drawsHandle h

/-- A step draws with the interval it begins with, or with the default. -/
theorem mem_draws (h : v ∈ draws env s) :
    v = (ledger s).interval ∨ v = defaultDelayReqInterval := by
  have hdecide : ledger (stateDecision { s with clock.messageActivity := false }) = ledger s :=
    ledger_stateDecision _
  have happly := becomes_applyRecommended env
    (stateDecision { s with clock.messageActivity := false })
  rw [← hdecide]
  rcases List.mem_append.mp h with h | h
  · exact Or.inl (mem_drawsApply h)
  · have hmem := mem_drawsDoState h
    rcases happly with heq | heq
    · rw [heq] at hmem
      exact Or.inl hmem
    · rw [heq] at hmem
      exact Or.inr hmem

end Members

/-! ### No draw is left out -/

section Redraw

variable (env : StepEnv) (n : Nat) (s : Port)

/-- The environment of a step, with another number drawn for the delay request
    timer. -/
def redraw : StepEnv := { env with rand := Function.update env.rand .delayReqInterval n }

theorem enterState_redraw {state : PtpState} (h : drawsEnter env state s = []) :
    enterState (redraw env n) state s = enterState env state s := by
  cases state with
  | uncalibrated =>
      have hmech : (timerStart env .announceReceipt (announceReceiptInterval s)
          s).clock.portDS.delayMechanism ≠ .e2e := by
        intro hmech
        simp only [drawsEnter, hmech] at h
        exact List.cons_ne_nil _ _ h
      have hstart : timerStart (redraw env n) .announceReceipt (announceReceiptInterval s) s
          = timerStart env .announceReceipt (announceReceiptInterval s) s := rfl
      simp only [enterState, hstart]
      generalize timerStart env .announceReceipt (announceReceiptInterval s) s = u at hmech
      cases hu : u.clock.portDS.delayMechanism with
      | e2e => exact absurd hu hmech
      | p2p => rfl
      | disabled => rfl
  | _ => rfl

theorem toState_redraw {state : PtpState} (h : drawsToState env state s = []) :
    toState (redraw env n) state s = toState env state s :=
  enterState_redraw env n _ h

theorem issueDelayReqTimerExpired_redraw (h : drawsTimerExpired env s = []) :
    issueDelayReqTimerExpired (redraw env n) s = issueDelayReqTimerExpired env s := by
  have hlook : timerExpired (redraw env n) .delayReqInterval s
      = timerExpired env .delayReqInterval s := rfl
  unfold drawsTimerExpired at h
  unfold issueDelayReqTimerExpired
  cases hmech : s.clock.portDS.delayMechanism with
  | e2e =>
      rw [hmech] at h
      dsimp only at h ⊢
      by_cases hst : s.clock.portDS.portState ≠ .slave
      · rw [if_pos hst, if_pos hst]
      · rw [if_neg hst] at h
        rw [if_neg hst, if_neg hst, hlook]
        by_cases hexp : (timerExpired env .delayReqInterval s).1 = true
        · rw [if_pos hexp] at h
          exact absurd h (List.cons_ne_nil _ _)
        · rw [if_neg hexp, if_neg hexp]
  | p2p => rfl
  | disabled => rfl

theorem handleSync_redraw {m : Message} {isFromSelf : Bool}
    (h : drawsSync env m isFromSelf s = []) :
    handleSync (redraw env n) m isFromSelf s = handleSync env m isFromSelf s := by
  have hfollow : drawsSyncFollowing env m isFromSelf s = [] →
      syncFollowing (redraw env n) m isFromSelf s = syncFollowing env m isFromSelf s := by
    intro h
    unfold drawsSyncFollowing at h
    unfold syncFollowing
    by_cases hself : isFromSelf = true
    · rw [if_pos hself, if_pos hself]
    · rw [if_neg hself] at h
      rw [if_neg hself, if_neg hself]
      by_cases hpar : isFromCurrentParent m s = false
      · rw [if_pos hpar, if_pos hpar]
      · rw [if_neg hpar] at h
        rw [if_neg hpar, if_neg hpar]
        by_cases htwo : isTwoStep m = true
        · rw [if_pos htwo, if_pos htwo]
        · rw [if_neg htwo] at h
          rw [if_neg htwo, if_neg htwo]
          exact issueDelayReqTimerExpired_redraw env n _ h
  unfold drawsSync at h
  unfold handleSync
  by_cases hlen : m.buf.length < MsgType.sync.length
  · rw [if_pos hlen] at h
    rw [if_pos hlen, if_pos hlen]
    exact toState_redraw env n s h
  · rw [if_neg hlen] at h
    rw [if_neg hlen, if_neg hlen]
    cases hst : s.clock.portDS.portState with
    | uncalibrated =>
        rw [hst] at h
        exact hfollow h
    | slave =>
        rw [hst] at h
        exact hfollow h
    | passive =>
        rw [hst] at h
        exact issueDelayReqTimerExpired_redraw env n s h
    | _ => rfl

theorem handleFollowUp_redraw {m : Message} {isFromSelf : Bool}
    (h : drawsFollowUp env m isFromSelf s = []) :
    handleFollowUp (redraw env n) m isFromSelf s = handleFollowUp env m isFromSelf s := by
  have hfollow : drawsFollowUpFollowing env m s = [] →
      followUpFollowing (redraw env n) m s = followUpFollowing env m s := by
    intro h
    unfold drawsFollowUpFollowing at h
    unfold followUpFollowing
    by_cases hwait : s.clock.waitingForFollowUp = false
    · rw [if_pos hwait, if_pos hwait]
    · rw [if_neg hwait] at h
      rw [if_neg hwait, if_neg hwait]
      by_cases hpar : isFromCurrentParent m s = false
      · rw [if_pos hpar, if_pos hpar]
      · rw [if_neg hpar] at h
        rw [if_neg hpar, if_neg hpar]
        by_cases hseq : s.clock.recvSyncSequenceId ≠ m.header.sequenceId
        · rw [if_pos hseq, if_pos hseq]
        · rw [if_neg hseq] at h
          rw [if_neg hseq, if_neg hseq]
          exact issueDelayReqTimerExpired_redraw env n _ h
  unfold drawsFollowUp at h
  unfold handleFollowUp
  by_cases hlen : m.buf.length < MsgType.followUp.length
  · rw [if_pos hlen] at h
    rw [if_pos hlen, if_pos hlen]
    exact toState_redraw env n s h
  · rw [if_neg hlen] at h
    rw [if_neg hlen, if_neg hlen]
    by_cases hself : isFromSelf = true
    · rw [if_pos hself, if_pos hself]
    · rw [if_neg hself] at h
      rw [if_neg hself, if_neg hself]
      cases hst : s.clock.portDS.portState with
      | uncalibrated =>
          rw [hst] at h
          exact hfollow h
      | slave =>
          rw [hst] at h
          exact hfollow h
      | passive =>
          rw [hst] at h
          exact issueDelayReqTimerExpired_redraw env n s h
      | _ => rfl

theorem handlePDelayRespFollowUp_redraw (m : Message) :
    handlePDelayRespFollowUp (redraw env n) m s = handlePDelayRespFollowUp env m s := by
  have haccept : acceptPDelayRespFollowUp (redraw env n) m s
      = acceptPDelayRespFollowUp env m s := rfl
  unfold handlePDelayRespFollowUp
  rw [haccept]
  rfl

theorem handle_redraw (h : drawsHandle env s = []) :
    handle (redraw env n) s = handle env s := by
  have harrive : arrive (redraw env n) s = arrive env s := rfl
  unfold drawsHandle at h
  unfold handle
  rw [harrive]
  dsimp only at h ⊢
  generalize receive (arrive env s) = r at h ⊢
  rcases r with ⟨message, u⟩
  cases message with
  | nothing => rfl
  | short => exact toState_redraw env n u h
  | message m =>
      dsimp only at h ⊢
      generalize u.log (.received m) = u at h ⊢
      unfold dispatch
      dsimp only
      generalize isSamePortIdentity u.clock.portDS.portIdentity m.header.sourcePortIdentity
        = isFromSelf at h ⊢
      cases htype : MsgType.ofCode m.header.messageType with
      | none => rfl
      | some type =>
          rw [htype] at h
          cases type with
          | sync => exact handleSync_redraw env n u h
          | followUp => exact handleFollowUp_redraw env n u h
          | pDelayRespFollowUp => exact handlePDelayRespFollowUp_redraw env n u m
          | _ => rfl

theorem applyRecommended_redraw (h : drawsApply env s = []) :
    applyRecommended (redraw env n) s = applyRecommended env s := by
  unfold drawsApply at h
  unfold applyRecommended
  cases hrec : s.clock.recommendedState with
  | master =>
      rw [hrec] at h
      dsimp only at h ⊢
      cases hst : s.clock.portDS.portState with
      | preMaster =>
          have hlook : timerExpired (redraw env n) .qualificationTimeout s
              = timerExpired env .qualificationTimeout s := rfl
          rw [hlook]
          rfl
      | _ => rfl
  | passive => rfl
  | slave =>
      rw [hrec] at h
      dsimp only at h ⊢
      cases hst : s.clock.portDS.portState with
      | uncalibrated => rfl
      | slave =>
          rw [hst] at h
          dsimp only at h ⊢
          by_cases hf : s.clock.events.synchronizationFault = true
          · simp only [if_pos hf] at h ⊢
            split at h
            next hchange =>
              rcases List.append_eq_nil_iff.mp h with ⟨hfault, hagain⟩
              rw [toState_redraw env n _ hfault, if_pos hchange, if_pos hchange]
              exact toState_redraw env n _ hagain
            next hchange =>
              rw [toState_redraw env n _ h, if_neg hchange, if_neg hchange]
          · simp only [if_neg hf] at h ⊢
            split at h
            next hchange =>
              rw [if_pos hchange, if_pos hchange]
              exact toState_redraw env n _ h
            next hchange => rw [if_neg hchange, if_neg hchange]
      | _ =>
          rw [hst] at h
          exact toState_redraw env n s h
  | listening => rfl
  | _ => rfl

theorem doState_redraw (h : drawsDoState env s = []) :
    doState (redraw env n) s = doState env s := by
  unfold drawsDoState at h
  unfold doState
  have hwatch : (if (timerExpired env .announceReceipt s).1 = true then
        drawsTimeout env (timerExpired env .announceReceipt s).2
        else drawsHandle env (timerExpired env .announceReceipt s).2) = [] →
      (if (timerExpired (redraw env n) .announceReceipt s).1 = true then
        announceReceiptTimeout (redraw env n) (timerExpired (redraw env n) .announceReceipt s).2
        else handle (redraw env n) (timerExpired (redraw env n) .announceReceipt s).2)
      = if (timerExpired env .announceReceipt s).1 = true then
        announceReceiptTimeout env (timerExpired env .announceReceipt s).2
        else handle env (timerExpired env .announceReceipt s).2 := by
    intro h
    have hlook : timerExpired (redraw env n) .announceReceipt s
        = timerExpired env .announceReceipt s := rfl
    rw [hlook]
    by_cases hexp : (timerExpired env .announceReceipt s).1 = true
    · rw [if_pos hexp, if_pos hexp]
      rfl
    · rw [if_neg hexp] at h
      rw [if_neg hexp, if_neg hexp]
      exact handle_redraw env n _ h
  cases hst : s.clock.portDS.portState with
  | initializing => rfl
  | faulty => rfl
  | disabled =>
      rw [hst] at h
      exact handle_redraw env n s h
  | preMaster => rfl
  | master =>
      rw [hst] at h
      dsimp only at h ⊢
      have htimers : masterTimers (redraw env n) s = masterTimers env s := rfl
      rcases List.append_eq_nil_iff.mp h with ⟨hhandle, hrequest⟩
      rw [htimers, handle_redraw env n _ hhandle]
      exact issueDelayReqTimerExpired_redraw env n _ hrequest
  | _ =>
      rw [hst] at h
      exact hwatch h

/-- A step that draws nothing does not depend on the number it could have
    drawn. -/
theorem ptpStateMachine_redraw (h : draws env s = []) :
    ptpStateMachine (redraw env n) s = ptpStateMachine env s := by
  rcases List.append_eq_nil_iff.mp h with ⟨happly, hdo⟩
  unfold ptpStateMachine
  rw [applyRecommended_redraw env n _ happly, doState_redraw env n _ hdo]

end Redraw

/-! ### Runs -/

/-- A DelayResp that an event accepts brings an interval in range. -/
def AcceptsSafe (s : Port) : Event → Prop
  | .step env => ∀ v, accepted env s = some v → InRange v
  | _ => True

instance (s : Port) : (ev : Event) → Decidable (AcceptsSafe s ev)
  | .step env =>
    match h : accepted env s with
    | none => .isTrue fun v hv => absurd (h.symm.trans hv) (Option.some_ne_none v).symm
    | some v =>
      if hv : InRange v then .isTrue fun _ hw => Option.some.inj (h.symm.trans hw) ▸ hv
      else .isFalse fun hall => hv (hall v h)
  | .packet _ _ => .isTrue trivial
  | .expire _ => .isTrue trivial

/-- The interval of the port stays in range. -/
theorem inRange_engineStep {s : Port} {ev : Event} (h : InRange (ledger s).interval)
    (hacc : AcceptsSafe s ev) : InRange (ledger (engineStep s ev)).interval := by
  cases ev with
  | step env =>
      rcases (moves_ptpStateMachine env s).interval with hkeep | hdefault | haccepted
      · rw [engineStep, hkeep]
        exact h
      · rw [engineStep, hdefault]
        decide
      · exact hacc _ haccepted
  | packet ch p =>
      rw [engineStep, ledger_udpRecvCallback]
      exact h
  | expire t => exact h

/-- In every run that accepts intervals in range only, every draw is safe. -/
theorem safeDraw_of_mem_draws (rtOpts : RunTimeOpts) (evs : List Event) (env : StepEnv) (v : Int8)
    (hmeets : Meets engineStep AcceptsSafe (powerUp rtOpts) evs)
    (hv : v ∈ draws env (run engineStep (powerUp rtOpts) evs)) : SafeDraw v := by
  rw [safeDraw_iff]
  rcases mem_draws hv with rfl | rfl
  · have h0 : InRange (ledger (powerUp rtOpts)).interval := by
      change InRange 0
      decide
    exact meets_invariant (I := fun s => InRange (ledger s).interval)
      (fun _ _ => inRange_engineStep) _ h0 evs hmeets
  · decide

/-- A one-step Sync of the clock 2, of the second 1, that arrives at `seconds`. -/
def singleStepSync (seq : UInt8) (seconds : Int32) : Channel × Packet :=
  (.event, ⟨peerMessage .sync 2 0 seq [0, 0, 0, 0, 0, 1, 0, 0, 0, 0], ⟨seconds, 0⟩⟩)

/-- The DelayResp of the clock 2 to the first request of the port. -/
def firstDelayResp (interval : UInt8) : Channel × Packet :=
  (.general, ⟨(peerMessage .delayResp 2 0 0
    [0, 0, 0, 0, 0, 1, 0, 0, 0, 0, 0, 0, 0, 0xff, 0xfe, 0, 0, 0, 0, 1]).set 33 interval, .zero⟩)

/-- The port follows the clock 2, asks for the delay and is answered, and then
    loses its synchronisation. -/
def intervalSteps (interval : UInt8) : List Event :=
  [quietStep [], quietStep [peerAnnounce 2 2 0], quietStep [singleStepSync 0 1], quietStep [],
    .expire .delayReqInterval, quietStep [singleStepSync 1 1], quietStep [firstDelayResp interval],
    quietStep [singleStepSync 2 5]]

/-- A master that asks for one request a second. -/
theorem safeDraw_of_mem_draws_second : SafeDraw 0 :=
  safeDraw_of_mem_draws defaultRtOpts (intervalSteps 0) (quietEnv []) 0 (by decide +kernel)
    (by decide +kernel)

/-- With the interval -11 the modulus is 0, and with 21 the shift overflows. -/
theorem not_safeDraw_accepted :
    draws (quietEnv []) (run engineStep (powerUp defaultRtOpts) (intervalSteps 0xF5)) = [-11] ∧
      pow2ms ((-11 : Int8).toInt + 1) = 0 ∧
      draws (quietEnv []) (run engineStep (powerUp defaultRtOpts) (intervalSteps 21)) = [21] ∧
      ¬ ShiftFits ((21 : Int8).toInt + 1) := by
  refine ⟨by decide +kernel, by decide, by decide +kernel, ?_⟩
  rw [shiftFits_iff]
  decide

end Ptp

end RtosLwip
