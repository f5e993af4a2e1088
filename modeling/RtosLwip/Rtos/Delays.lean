import RtosLwip.Rtos.Scheduling

/-!
# Delays

No tick is lost: those that come while the scheduler is suspended are counted, and made up
for. So a task that delays itself waits for as many ticks as it says and not for one more,
unless another one suspends or deletes it, and however often the tick count wraps around.
`vTaskDelayUntil` leaves the wake time in the variable that it was given, so that wake times
which are each an increment behind the one before do not drift.

## Main definitions

* `ticks`: How many of the calls are ticks.
* `Periodic`: A task calls `vTaskDelayUntil` again and again with the same variable.
* `wakeTime`: When it is to wake.
* `Punctual`: It has been woken then, or waits for it.

## Theorems

* `ticks_counted`: The tick count, with the ticks to be made up for, is their number.
* `Tracks.wakes_exactly`: A task that waits for a tick is woken as the tick is counted.
* `delay_exact`: A delay takes the ticks that it says.
* `delayUntil_wakes`: A task that waits for its next wake time is woken then.
* `Periodic.punctual`: What holds as the calls go on.
* `delayUntil_exact`: The wake times of a task are where they should be.
-/

namespace RtosLwip

namespace Rtos

variable {τ ε : Type}

/-- The call is a tick. -/
def Call.isTick : Call τ ε → Bool
  | .tick => true
  | _ => false

/-- How many of the calls are ticks. -/
def ticks (calls : List (Call τ ε)) : Nat := calls.countP Call.isTick

theorem ticks_cons (c : Call τ ε) (calls : List (Call τ ε)) :
    ticks (c :: calls) = ticks calls + if c.isTick then 1 else 0 := List.countP_cons

theorem ticks_append (calls calls' : List (Call τ ε)) :
    ticks (calls ++ calls') = ticks calls + ticks calls' := List.countP_append

namespace Plan

section Clock

variable {P : Plan τ ε} {t : τ} {w : Nat}

/-- The end of a time without scheduling makes up for the ticks. -/
theorem unlock_clock : P.unlock.now + P.unlock.missed = P.now + P.missed ∧
    P.now ≤ P.unlock.now ∧ (P.unlock.depth = 0 → P.unlock.missed = 0) := by
  unfold Plan.unlock
  by_cases hlast : P.depth - 1 = 0
  · rw [if_pos hlast]
    have hnow := (advances_spec (P := release { P with depth := 0 }) P.missed).2.2.1
    have hsame : (release { P with depth := 0 }).now = P.now := rfl
    dsimp only
    rw [hnow, hsame]
    exact ⟨Nat.add_zero _, Nat.le_add_right _ _, fun _ => rfl⟩
  · rw [if_neg hlast]
    exact ⟨rfl, le_refl _, fun heq => absurd heq hlast⟩

/-- A tick comes at once, or is counted. -/
theorem tick_clock : P.tick.now + P.tick.missed = P.now + P.missed + 1 ∧ P.now ≤ P.tick.now ∧
    ((P.depth = 0 → P.missed = 0) → P.tick.depth = 0 → P.tick.missed = 0) := by
  unfold Plan.tick
  by_cases hopen : P.depth = 0
  · rw [if_pos hopen, advance_now, advance_missed]
    exact ⟨by omega, Nat.le_succ _, fun h _ => h hopen⟩
  · rw [if_neg hopen]
    exact ⟨rfl, le_refl _, fun _ heq => absurd heq hopen⟩

/-- A task that waits for a tick waits until the tick comes. -/
theorem advance_until (hst : P.status t = .until w) (hlt : P.now < w) :
    (P.advance.now < w → P.advance.status t = .until w ∧ P.advance.waits t = P.waits t) ∧
      (w ≤ P.advance.now → P.advance.status t = .ready) := by
  rw [advance_now]
  constructor
  · intro hearly
    have hne : w ≠ P.now + 1 := by omega
    have hstill : P.advance.status t = .until w := expire_status_until.mpr ⟨hst, hne⟩
    refine ⟨hstill, if_neg fun heq => ?_⟩
    exact hne (Status.until.inj (hst.symm.trans heq))
  · intro hdue
    have heq : w = P.now + 1 := by omega
    refine if_pos ?_
    rw [← heq]
    exact hst

theorem advances_until (n : Nat) (hst : P.status t = .until w) (hlt : P.now < w) :
    (P.now + n < w → (advances n P).status t = .until w ∧ (advances n P).waits t = P.waits t) ∧
      (w ≤ P.now + n → (advances n P).status t = .ready) := by
  induction n generalizing P with
  | zero => exact ⟨fun _ => ⟨hst, rfl⟩, fun hle => absurd hlt (not_lt.mpr hle)⟩
  | succ n ih =>
      obtain ⟨hearly, hdue⟩ := advance_until hst hlt
      rw [advance_now] at hearly hdue
      by_cases hnext : P.now + 1 < w
      · obtain ⟨hst₁, hw₁⟩ := hearly hnext
        obtain ⟨hlater, hthen⟩ := ih hst₁ hnext
        rw [advance_now] at hlater hthen
        constructor
        · intro hlt'
          obtain ⟨hst₂, hw₂⟩ := hlater (by omega)
          exact ⟨hst₂, hw₂.trans hw₁⟩
        · intro hle
          exact hthen (by omega)
      · constructor
        · intro hlt'
          omega
        · intro _
          exact advances_ready (hdue (not_lt.mp hnext)) n

theorem tick_until (hst : P.status t = .until w) (hlt : P.now < w) :
    (P.tick.now < w → P.tick.status t = .until w ∧ P.tick.waits t = P.waits t) ∧
      (w ≤ P.tick.now → P.tick.status t = .ready) := by
  unfold Plan.tick
  by_cases hopen : P.depth = 0
  · rw [if_pos hopen]
    exact advance_until hst hlt
  · rw [if_neg hopen]
    exact ⟨fun _ => ⟨hst, rfl⟩, fun hle => absurd hlt (not_lt.mpr hle)⟩

/-- If it waits for no event, also as the scheduling goes on. -/
theorem unlock_until (hst : P.status t = .until w) (hno : P.waits t = .no) (hlt : P.now < w) :
    (P.unlock.now < w → P.unlock.status t = .until w ∧ P.unlock.waits t = .no) ∧
      (w ≤ P.unlock.now → P.unlock.status t = .ready) := by
  unfold Plan.unlock
  by_cases hlast : P.depth - 1 = 0
  · have hwoken : P.waits t ≠ .woken := by
      rw [hno]
      exact fun heq => by cases heq
    have hst₁ : (release { P with depth := 0 }).status t = .until w := (if_neg hwoken).trans hst
    have hno₁ : (release { P with depth := 0 }).waits t = .no := (if_neg hwoken).trans hno
    have hnow := (advances_spec (P := release { P with depth := 0 }) P.missed).2.2.1
    obtain ⟨hlater, hthen⟩ := advances_until P.missed hst₁ hlt
    rw [if_pos hlast]
    dsimp only
    rw [hnow]
    refine ⟨fun hearly => ?_, hthen⟩
    obtain ⟨hst₂, hw₂⟩ := hlater hearly
    exact ⟨hst₂, hw₂.trans hno₁⟩
  · rw [if_neg hlast]
    exact ⟨fun _ => ⟨hst, hno⟩, fun hle => absurd hlt (not_lt.mpr hle)⟩

end Clock

variable [DecidableEq τ] {prio : τ → Priority} {P Q : Plan τ ε} {c : Call τ ε}

/-- Ticks, and nothing else, make the clock go on, at once or later. -/
theorem Step.clock (h : Step prio P c Q) :
    Q.now + Q.missed = P.now + P.missed + (if c.isTick then 1 else 0) ∧ P.now ≤ Q.now ∧
      ((P.depth = 0 → P.missed = 0) → Q.depth = 0 → Q.missed = 0) := by
  have hwake : ∀ t, (P.wake t).now = P.now ∧ (P.wake t).missed = P.missed ∧
      (P.wake t).depth = P.depth := by
    intro t
    unfold Plan.wake
    by_cases hopen : P.depth = 0
    · rw [if_pos hopen]
      exact ⟨rfl, rfl, rfl⟩
    · rw [if_neg hopen]
      exact ⟨rfl, rfl, rfl⟩
  cases h with
  | tick => exact tick_clock
  | switch t hopen hready htop => exact ⟨rfl, le_refl _, id⟩
  | putOff hlocked => exact ⟨rfl, le_refl _, id⟩
  | wake e t hwaits htop =>
      obtain ⟨hnow, hmissed, hdepth⟩ := hwake t
      rw [hnow, hmissed, hdepth]
      exact ⟨rfl, le_refl _, id⟩
  | resumeFromISR t hheld =>
      obtain ⟨hnow, hmissed, hdepth⟩ := hwake t
      rw [hnow, hmissed, hdepth]
      exact ⟨rfl, le_refl _, id⟩
  | ignoreFromISR t hheld => exact ⟨rfl, le_refl _, id⟩
  | yield => exact ⟨rfl, le_refl _, id⟩
  | suspendAll => exact ⟨rfl, le_refl _, fun _ heq => absurd heq (Nat.succ_ne_zero _)⟩
  | resumeAll =>
      obtain ⟨hsum, hle, hcaught⟩ := unlock_clock (P := P)
      exact ⟨hsum, hle, fun _ => hcaught⟩
  | delay n hrunning => exact ⟨rfl, le_refl _, fun _ heq => absurd heq (Nat.succ_ne_zero _)⟩
  | delayUntil prev inc hrunning hdelay =>
      exact ⟨rfl, le_refl _, fun _ heq => absurd heq (Nat.succ_ne_zero _)⟩
  | pass prev inc hrunning hdelay =>
      exact ⟨rfl, le_refl _, fun _ heq => absurd heq (Nat.succ_ne_zero _)⟩
  | wait e n hrunning => exact ⟨rfl, le_refl _, fun _ heq => absurd heq (Nat.succ_ne_zero _)⟩
  | leave =>
      obtain ⟨hsum, hle, hcaught⟩ := unlock_clock (P := P)
      exact ⟨hsum, hle, fun _ => hcaught⟩
  | suspend t => exact ⟨rfl, le_refl _, id⟩
  | resume t hheld hother => exact ⟨rfl, le_refl _, id⟩
  | ignore t hheld => exact ⟨rfl, le_refl _, id⟩
  | create t habsent => exact ⟨rfl, le_refl _, id⟩
  | delete t => exact ⟨rfl, le_refl _, id⟩
  | cleanUp t hdying => exact ⟨rfl, le_refl _, id⟩
  | rest hdying => exact ⟨rfl, le_refl _, id⟩

theorem Run.clock {calls : List (Call τ ε)} (h : Run prio P calls Q) :
    Q.now + Q.missed = P.now + P.missed + ticks calls ∧ P.now ≤ Q.now ∧
      ((P.depth = 0 → P.missed = 0) → Q.depth = 0 → Q.missed = 0) := by
  induction h with
  | nil P => exact ⟨rfl, le_refl _, id⟩
  | cons hstep hrest ih =>
      obtain ⟨hsum, hle, hcaught⟩ := hstep.clock
      obtain ⟨hsum', hle', hcaught'⟩ := ih
      rw [ticks_cons]
      exact ⟨by omega, le_trans hle hle', fun h => hcaught' (hcaught h)⟩

/-- What the other tasks do is nothing to a task that waits for a tick and for no event. -/
theorem Step.until (h : Step prio P c Q) {t : τ} {w : Nat} (hst : P.status t = .until w)
    (hno : P.waits t = .no) (hlt : P.now < w) (hsuspend : c ≠ .suspend t)
    (hdelete : c ≠ .delete t) :
    (Q.now < w → Q.status t = .until w ∧ Q.waits t = .no) ∧
      (w ≤ Q.now → Q.status t = .ready) := by
  -- it is not the one that a call is about
  have hother : ∀ R : Plan τ ε, R.now = P.now → R.status t = P.status t →
      R.waits t = P.waits t → (R.now < w → R.status t = .until w ∧ R.waits t = .no) ∧
        (w ≤ R.now → R.status t = .ready) := by
    intro R hnow hstatus hwaits
    rw [hnow, hstatus, hwaits]
    exact ⟨fun _ => ⟨hst, hno⟩, fun hle => absurd hlt (not_lt.mpr hle)⟩
  have hsame := hother P rfl rfl rfl
  -- Tasks in another state are other tasks.
  have hne : ∀ u, P.status u ≠ P.status t → t ≠ u := by
    rintro u hu rfl
    exact hu rfl
  have hready : ∀ u, P.status u = .ready → t ≠ u := by
    intro u hu
    refine hne u ?_
    rw [hu, hst]
    exact fun heq => by cases heq
  have hheld : ∀ u, P.status u = .held → t ≠ u := by
    intro u hu
    refine hne u ?_
    rw [hu, hst]
    exact fun heq => by cases heq
  -- Waking another task is nothing to this one.
  have hwoken : ∀ u, t ≠ u → (P.wake u).now = P.now ∧ (P.wake u).status t = P.status t ∧
      (P.wake u).waits t = P.waits t := by
    intro u hu
    unfold Plan.wake
    by_cases hopen : P.depth = 0
    · rw [if_pos hopen]
      exact ⟨rfl, setStatus_of_ne hu _, setWaits_of_ne hu _⟩
    · rw [if_neg hopen]
      exact ⟨rfl, rfl, setWaits_of_ne hu _⟩
  cases h with
  | tick =>
      obtain ⟨hearly, hdue⟩ := tick_until hst hlt
      refine ⟨fun hnow => ?_, hdue⟩
      obtain ⟨hstatus, hwaits⟩ := hearly hnow
      exact ⟨hstatus, hwaits.trans hno⟩
  | switch u hopen hready htop => exact hsame
  | putOff hlocked => exact hsame
  | wake e u hwaits htop =>
      -- The task waits for no event.
      have hu : t ≠ u := by
        rintro rfl
        rw [hno] at hwaits
        cases hwaits
      obtain ⟨hnow, hstatus, hw⟩ := hwoken u hu
      exact hother _ hnow hstatus hw
  | resumeFromISR u hsuspended =>
      have hu := hheld u hsuspended.1
      obtain ⟨hnow, hstatus, hw⟩ := hwoken u hu
      exact hother _ hnow hstatus hw
  | ignoreFromISR u hsuspended => exact hsame
  | yield => exact hsame
  | suspendAll => exact hsame
  | resumeAll => exact unlock_until hst hno hlt
  | delay n hrunning =>
      have hu := hready _ hrunning
      exact hother _ rfl (setStatus_of_ne hu _) rfl
  | delayUntil prev inc hrunning hdelay =>
      have hu := hready _ hrunning
      exact hother _ rfl (setStatus_of_ne hu _) rfl
  | pass prev inc hrunning hdelay => exact hsame
  | wait e n hrunning =>
      have hu := hready _ hrunning
      exact hother _ rfl (setStatus_of_ne hu _) (setWaits_of_ne hu _)
  | leave => exact unlock_until hst hno hlt
  | suspend u =>
      have hu : t ≠ u := by
        rintro rfl
        exact hsuspend rfl
      exact hother _ rfl (setStatus_of_ne hu _) (setWaits_of_ne hu _)
  | resume u hsuspended hcur =>
      have hu := hheld u hsuspended.1
      exact hother _ rfl (setStatus_of_ne hu _) (setWaits_of_ne hu _)
  | ignore u hsuspended => exact hsame
  | create u habsent =>
      have hu : t ≠ u := by
        refine hne u ?_
        rw [habsent, hst]
        exact fun heq => by cases heq
      exact hother _ rfl (setStatus_of_ne hu _) rfl
  | delete u =>
      have hu : t ≠ u := by
        rintro rfl
        exact hdelete rfl
      exact hother _ rfl (setStatus_of_ne hu _) (setWaits_of_ne hu _)
  | cleanUp u hdying =>
      have hu : t ≠ u := by
        refine hne u ?_
        rw [hdying, hst]
        exact fun heq => by cases heq
      exact hother _ rfl (setStatus_of_ne hu _) rfl
  | rest hdying => exact hsame

theorem Run.until {calls : List (Call τ ε)} (h : Run prio P calls Q) {t : τ} {w : Nat}
    (hst : P.status t = .until w) (hno : P.waits t = .no) (hearly : Q.now < w)
    (hkeep : ∀ c ∈ calls, c ≠ .suspend t ∧ c ≠ .delete t) :
    Q.status t = .until w ∧ Q.waits t = .no := by
  induction h with
  | nil P => exact ⟨hst, hno⟩
  | @cons P P₁ Q c calls hstep hrest ih =>
      -- the clock does not go back
      have hle := hrest.clock.2.1
      have hle₁ := hstep.clock.2.1
      obtain ⟨hsuspend, hdelete⟩ := hkeep c List.mem_cons_self
      obtain ⟨hst₁, hno₁⟩ := (hstep.until hst hno (by omega) hsuspend hdelete).1 (by omega)
      exact ih hst₁ hno₁ hearly fun c' hc' => hkeep c' (List.mem_cons_of_mem c hc')

end Plan

/-! ### Ticks and delays of the scheduler -/

variable [DecidableEq τ] [DecidableEq ε]

theorem Call.runs_append (s : System τ ε) (calls calls' : List (Call τ ε)) :
    Call.runs s (calls ++ calls') = (Call.runs s calls).bind fun s' => Call.runs s' calls' := by
  induction calls generalizing s with
  | nil => rfl
  | cons c calls ih =>
      rw [List.cons_append, Call.runs, Call.runs, Option.bind_assoc]
      exact congrArg _ (funext ih)

theorem System.allowed_append {idle : τ} {s : System τ ε} {calls calls' : List (Call τ ε)}
    (h : System.Allowed idle s (calls ++ calls')) :
    System.Allowed idle s calls ∧
      ∀ s', Call.runs s calls = some s' → System.Allowed idle s' calls' := by
  induction calls generalizing s with
  | nil =>
      refine ⟨trivial, fun s' hs' => ?_⟩
      obtain rfl := Option.some.inj hs'
      exact h
  | cons c calls ih =>
      obtain ⟨hc, hrest⟩ := h
      refine ⟨⟨hc, fun s₁ hs₁ => (ih (hrest s₁ hs₁)).1⟩, fun s' hs' => ?_⟩
      rw [Call.runs] at hs'
      obtain ⟨s₁, hs₁, hruns⟩ := Option.bind_eq_some_iff.mp hs'
      exact (ih (hrest s₁ hs₁)).2 s' hruns

variable {prio : τ → Priority} {first : τ} {rest : List τ} {idle : τ}

/-- No tick is lost: those that are not in the tick count are to be made up for. -/
theorem ticks_counted (hnodup : (first :: rest).Nodup) (hidle : idle ∈ first :: rest)
    (calls : List (Call τ ε))
    (hallowed : System.Allowed idle ⟨Kernel.boot prio first rest, false⟩ calls) :
    ∃ s, Call.runs ⟨Kernel.boot prio first rest, false⟩ calls = some s ∧
      s.kernel.xTickCount + s.kernel.uxPendedTicks = UInt32.ofNat (ticks calls) ∧
      (s.kernel.uxSchedulerSuspended = 0 → s.kernel.uxPendedTicks = 0) := by
  obtain ⟨P₀, hinit, htracks⟩ := Kernel.boot_tracks ε prio hnodup hidle
  obtain ⟨s, P, hruns, hrun, h⟩ := htracks.runs hallowed
  obtain ⟨d, A, hf⟩ := h.follows
  obtain ⟨hsum, -, hcaught⟩ := hrun.clock
  refine ⟨s, hruns, ?_, fun hopen => ?_⟩
  · have hpended : s.kernel.uxPendedTicks = UInt32.ofNat P.missed := by
      rw [← hf.missed, UInt32.ofNat_toNat]
    rw [hf.clock, hpended, ← UInt32.ofNat_add, hsum, hinit.now, hinit.missed, Nat.zero_add]
  · refine UInt32.toNat_inj.mp (hf.missed.trans ?_)
    exact hcaught (fun _ => hinit.missed) (hf.open_iff.mp hopen)

/-- Two ticks, one of them while the scheduler is suspended. -/
theorem ticks_counted_locked :
    ∃ s : System (Fin 2) Unit,
      Call.runs ⟨Kernel.boot (Fin.castLE (by decide)) 1 [0], false⟩ [.tick, .suspendAll, .tick] =
        some s ∧
      s.kernel.xTickCount + s.kernel.uxPendedTicks = UInt32.ofNat 2 ∧
      (s.kernel.uxSchedulerSuspended = 0 → s.kernel.uxPendedTicks = 0) :=
  ticks_counted (by decide) (show (0 : Fin 2) ∈ [1, 0] by decide) [.tick, .suspendAll, .tick]
    (by decide)

namespace Tracks

variable {s₁ : System τ ε} {Q : Plan τ ε} {t : τ} {w : Nat}

/-- A task that waits for a tick is in a list of delayed tasks until the tick is counted, and at the
    call that counts it the task is ready. -/
theorem wakes_exactly (h₁ : Tracks prio idle s₁ Q) (hst : Q.status t = .until w)
    (hwaits : Q.waits t = .no) (hmissed : Q.missed = 0) {after : List (Call τ ε)}
    (hafter : System.Allowed idle s₁ after)
    (hkeep : ∀ c ∈ after, c ≠ .suspend t ∧ c ≠ .delete t) :
    ∃ s, Call.runs s₁ after = some s ∧
      (Q.now + ticks after < w + s.kernel.uxPendedTicks.toNat →
        s.kernel.lists.pvContainer (.state t) = some s.kernel.pxDelayedTaskList ∨
          s.kernel.lists.pvContainer (.state t) = some s.kernel.pxOverflowDelayedTaskList) ∧
      ∀ front c s₂, after = front ++ [c] → Call.runs s₁ front = some s₂ →
        Q.now + ticks front < w + s₂.kernel.uxPendedTicks.toNat →
        w + s.kernel.uxPendedTicks.toNat ≤ Q.now + ticks after →
        s.kernel.lists.pvContainer (.state t) = some (.ready (prio t)) := by
  obtain ⟨s, R, hruns, hrun, h⟩ := h₁.runs hafter
  obtain ⟨d, A, hf⟩ := h.follows
  have hsum := hrun.clock.1
  rw [hmissed, ← hf.missed] at hsum
  refine ⟨s, hruns, fun hearly => ?_, fun front c s₂ hfront hs₂ hearly hdue => ?_⟩
  · obtain ⟨hstill, -⟩ := hrun.until hst hwaits (by omega) hkeep
    rw [hf.places.state, hstill, hf.delayed, hf.overflow]
    dsimp only [Status.list]
    by_cases hperiod : w / tickPeriod = R.now / tickPeriod
    · exact .inl (by rw [if_pos hperiod])
    · exact .inr (by rw [if_neg hperiod])
  · -- the call at which the last of the ticks is counted
    subst hfront
    obtain ⟨hallowed₂, hlast⟩ := System.allowed_append hafter
    obtain ⟨s₂', R₂, hruns₂, hrun₂, h₂⟩ := h₁.runs hallowed₂
    obtain rfl := Option.some.inj (hruns₂.symm.trans hs₂)
    obtain ⟨d₂, A₂, hf₂⟩ := h₂.follows
    have hsum₂ := hrun₂.clock.1
    rw [hmissed, ← hf₂.missed] at hsum₂
    obtain ⟨hst₂, hwaits₂⟩ := hrun₂.until hst hwaits (by omega) fun c' hc' =>
      hkeep c' (List.mem_append_left _ hc')
    obtain ⟨s₃, R₃, hstep₃, hplan₃, h₃⟩ := h₂.step (hlast s₂' hs₂).1
    have hsame : s₃ = s := by
      rw [Call.runs_append, hs₂, Option.bind_some, Call.runs, hstep₃] at hruns
      exact Option.some.inj hruns
    subst hsame
    obtain ⟨d₃, A₃, hf₃⟩ := h₃.follows
    obtain ⟨hsuspend, hdelete⟩ := hkeep c (List.mem_append_right front List.mem_cons_self)
    have hcount := hplan₃.clock.1
    have hnone : ticks ([] : List (Call τ ε)) = 0 := rfl
    rw [ticks_append, ticks_cons, hnone] at hdue
    rw [← hf₃.missed, ← hf₂.missed] at hcount
    have hready₃ := (hplan₃.until hst₂ hwaits₂ (by omega) hsuspend hdelete).2 (by omega)
    rw [hf₃.places.state, hready₃]
    rfl

/-- No more ticks are to be made up for than came. -/
theorem pended_le (h₁ : Tracks prio idle s₁ Q) (hmissed : Q.missed = 0) {calls : List (Call τ ε)}
    (hallowed : System.Allowed idle s₁ calls) {s : System τ ε}
    (hs : Call.runs s₁ calls = some s) : s.kernel.uxPendedTicks.toNat ≤ ticks calls := by
  obtain ⟨s', R, hruns, hrun, h⟩ := h₁.runs hallowed
  obtain rfl := Option.some.inj (hruns.symm.trans hs)
  obtain ⟨d, A, hf⟩ := h.follows
  obtain ⟨hsum, hle, -⟩ := hrun.clock
  rw [hmissed, ← hf.missed] at hsum
  omega

omit [DecidableEq τ] [DecidableEq ε] in
/-- The task that calls a function waits for no event. -/
theorem current_waits_no (h₁ : Tracks prio idle s₁ Q) (hin : s₁.InTask) :
    Q.waits Q.current = .no := by
  have hready := h₁.current_ready hin
  refine h₁.sound.waits_no ?_ fun w => ?_
  · rw [hready]
    exact fun heq => by cases heq
  · rw [hready]
    exact fun heq => by cases heq

end Tracks

/-- A task that delays itself for a number of ticks is in a list of delayed tasks until that many
    ticks have been counted, and then it is ready. The tick count may wrap around, the scheduler
    may be suspended, and all other tasks and interrupts may do what they like, but for suspending
    or deleting the task. -/
theorem delay_exact (hnodup : (first :: rest).Nodup) (hidle : idle ∈ first :: rest)
    {before after : List (Call τ ε)} {n : UInt32} {s₀ : System τ ε}
    (hallowed : System.Allowed idle ⟨Kernel.boot prio first rest, false⟩
      (before ++ .delay n :: after))
    (hreach : Call.runs ⟨Kernel.boot prio first rest, false⟩ before = some s₀)
    (hkeep : ∀ c ∈ after, c ≠ .suspend s₀.kernel.pxCurrentTCB ∧
      c ≠ .delete s₀.kernel.pxCurrentTCB) :
    ∃ s, Call.runs s₀ (.delay n :: after) = some s ∧
      (ticks after < n.toNat + s.kernel.uxPendedTicks.toNat →
        s.kernel.lists.pvContainer (.state s₀.kernel.pxCurrentTCB) =
            some s.kernel.pxDelayedTaskList ∨
          s.kernel.lists.pvContainer (.state s₀.kernel.pxCurrentTCB) =
            some s.kernel.pxOverflowDelayedTaskList) ∧
      ∀ front c s₁, after = front ++ [c] → Call.runs s₀ (.delay n :: front) = some s₁ →
        ticks front < n.toNat + s₁.kernel.uxPendedTicks.toNat →
        n.toNat + s.kernel.uxPendedTicks.toNat ≤ ticks after →
        s.kernel.lists.pvContainer (.state s₀.kernel.pxCurrentTCB) =
          some (.ready (prio s₀.kernel.pxCurrentTCB)) := by
  obtain ⟨P₀, hinit, htracks⟩ := Kernel.boot_tracks ε prio hnodup hidle
  obtain ⟨hbefore, hbehind⟩ := System.allowed_append hallowed
  obtain ⟨s₀', P, hruns, hrun, h⟩ := htracks.runs hbefore
  obtain rfl := Option.some.inj (hruns.symm.trans hreach)
  obtain ⟨hdelay, hafter⟩ := hbehind s₀' hreach
  have ⟨hin, hopen, _, _⟩ := hdelay
  obtain ⟨d, A, hf⟩ := h.follows
  have hmissed : P.missed = 0 :=
    hrun.clock.2.2 (fun _ => hinit.missed) (hf.open_iff.mp hopen)
  -- the plan behind the call
  obtain ⟨s₁, Q, hstep, hplan, h₁⟩ := h.step hdelay
  obtain ⟨hst, hwaits, hnow, hmissed₁⟩ : Q.status P.current = .until (P.now + n.toNat) ∧
      Q.waits P.current = .no ∧ Q.now = P.now ∧ Q.missed = 0 := by
    cases hplan with
    | delay n hrunning =>
        exact ⟨Plan.setStatus_self _, h.current_waits_no hin, rfl, hmissed⟩
  rw [hf.current] at hkeep ⊢
  have hruns₁ : ∀ calls, Call.runs s₀' (.delay n :: calls) = Call.runs s₁ calls := by
    intro calls
    rw [Call.runs, hstep]
    rfl
  obtain ⟨s, hs, hearly, hdue⟩ := h₁.wakes_exactly hst hwaits hmissed₁ (hafter s₁ hstep) hkeep
  rw [hnow] at hearly hdue
  refine ⟨s, (hruns₁ after).trans hs, fun hlt => hearly (by omega),
    fun front c s₂ hfront hs₂ hlt hle => ?_⟩
  exact hdue front c s₂ hfront ((hruns₁ front).symm.trans hs₂) (by omega) (by omega)

/-- A delay of two ticks, at the second tick. -/
theorem delay_exact_two :
    ∃ s : System (Fin 2) Unit,
      Call.runs ⟨Kernel.boot (Fin.castLE (by decide)) 1 [0], false⟩
          [.delay 2, .leave, .switch, .tick, .tick] = some s ∧
      s.kernel.lists.pvContainer (.state 1) = some (.ready ⟨1, by decide⟩) := by
  let s₀ : System (Fin 2) Unit := ⟨Kernel.boot (Fin.castLE (by decide)) 1 [0], false⟩
  obtain ⟨s, hs, -, hready⟩ := delay_exact (by decide) (show (0 : Fin 2) ∈ [1, 0] by decide)
    (show System.Allowed 0 s₀ ([] ++ .delay 2 :: [.leave, .switch, .tick, .tick]) by decide)
    (show Call.runs s₀ [] = some s₀ from rfl) (by decide)
  have hcount : (Call.runs s₀ [.delay 2, .leave, .switch, .tick, .tick]).map
      (fun s => s.kernel.uxPendedTicks) = some 0 := by decide
  rw [hs] at hcount
  have hpended : s.kernel.uxPendedTicks = 0 := Option.some.inj hcount
  obtain ⟨s₁, hs₁⟩ := Option.isSome_iff_exists.mp (show (Call.runs
    s₀ [.delay 2, .leave, .switch, .tick]).isSome = true by decide)
  refine ⟨s, hs, hready [.leave, .switch, .tick] .tick s₁ rfl hs₁ ?_ ?_⟩
  · exact Nat.lt_of_lt_of_le (by decide) (Nat.le_add_right 2 _)
  · rw [hpended]
    decide

/-- Whether a wake time is still to come is found out from the tick counts alone, if the one before
    it is less than a whole period ago. -/
theorem xShouldDelay_iff {now last : Nat} (inc : UInt32) (hpast : last ≤ now)
    (hrecent : now < last + tickPeriod) :
    Kernel.xShouldDelay (UInt32.ofNat now) (UInt32.ofNat last) (UInt32.ofNat last + inc) = true ↔
      now < last + inc.toNat := by
  unfold tickPeriod at hrecent
  have hinc := inc.toNat_lt
  unfold Kernel.xShouldDelay
  by_cases hwrap : UInt32.ofNat now < UInt32.ofNat last
  · rw [if_pos hwrap, Bool.and_eq_true, decide_eq_true_iff, decide_eq_true_iff]
    simp only [UInt32.lt_iff_toNat_lt, UInt32.toNat_add, UInt32.toNat_ofNat'] at hwrap ⊢
    omega
  · rw [if_neg hwrap, Bool.or_eq_true, decide_eq_true_iff, decide_eq_true_iff]
    simp only [UInt32.lt_iff_toNat_lt, UInt32.toNat_add, UInt32.toNat_ofNat'] at hwrap ⊢
    omega

/-- How long it is until then. -/
theorem toNat_untilWake {now last : Nat} {inc : UInt32} (hpast : last ≤ now)
    (hlater : now < last + inc.toNat) :
    (UInt32.ofNat last + inc - UInt32.ofNat now).toNat = last + inc.toNat - now := by
  have hinc := inc.toNat_lt
  simp only [UInt32.toNat_sub, UInt32.toNat_add, UInt32.toNat_ofNat']
  omega

/-- A task that gives the tick count `last` of its last wake time, less than a whole period ago, and
    an increment is woken at the tick `last + inc`, and does not wait if that has come. Again nobody
    may suspend or delete it. -/
theorem delayUntil_wakes (hnodup : (first :: rest).Nodup) (hidle : idle ∈ first :: rest)
    {before after : List (Call τ ε)} {last : Nat} {inc : UInt32} {s₀ : System τ ε}
    (hallowed : System.Allowed idle ⟨Kernel.boot prio first rest, false⟩
      (before ++ .delayUntil (UInt32.ofNat last) inc :: after))
    (hreach : Call.runs ⟨Kernel.boot prio first rest, false⟩ before = some s₀)
    (hpast : last ≤ ticks before) (hrecent : ticks before < last + tickPeriod)
    (hkeep : ∀ c ∈ after, c ≠ .suspend s₀.kernel.pxCurrentTCB ∧
      c ≠ .delete s₀.kernel.pxCurrentTCB) :
    ∃ s, Call.runs s₀ (.delayUntil (UInt32.ofNat last) inc :: after) = some s ∧
      (ticks before + ticks after < last + inc.toNat + s.kernel.uxPendedTicks.toNat →
        s.kernel.lists.pvContainer (.state s₀.kernel.pxCurrentTCB) =
            some s.kernel.pxDelayedTaskList ∨
          s.kernel.lists.pvContainer (.state s₀.kernel.pxCurrentTCB) =
            some s.kernel.pxOverflowDelayedTaskList) ∧
      (∀ front c s₁, after = front ++ [c] →
        Call.runs s₀ (.delayUntil (UInt32.ofNat last) inc :: front) = some s₁ →
        ticks before + ticks front < last + inc.toNat + s₁.kernel.uxPendedTicks.toNat →
        last + inc.toNat + s.kernel.uxPendedTicks.toNat ≤ ticks before + ticks after →
        s.kernel.lists.pvContainer (.state s₀.kernel.pxCurrentTCB) =
          some (.ready (prio s₀.kernel.pxCurrentTCB))) ∧
      (after = [] → last + inc.toNat ≤ ticks before →
        s.kernel.lists.pvContainer (.state s₀.kernel.pxCurrentTCB) =
          some (.ready (prio s₀.kernel.pxCurrentTCB))) := by
  obtain ⟨P₀, hinit, htracks⟩ := Kernel.boot_tracks ε prio hnodup hidle
  obtain ⟨hbefore, hbehind⟩ := System.allowed_append hallowed
  obtain ⟨s₀', P, hruns, hrun, h⟩ := htracks.runs hbefore
  obtain rfl := Option.some.inj (hruns.symm.trans hreach)
  obtain ⟨hdelay, hafter⟩ := hbehind s₀' hreach
  have ⟨hin, hopen, _, _⟩ := hdelay
  obtain ⟨d, A, hf⟩ := h.follows
  have hready := h.current_ready hin
  obtain ⟨hsum, -, hcaught⟩ := hrun.clock
  have hmissed : P.missed = 0 :=
    hcaught (fun _ => hinit.missed) (hf.open_iff.mp hopen)
  have hclock : P.now = ticks before := by
    rw [hinit.now, hinit.missed] at hsum
    omega
  have hshould := xShouldDelay_iff inc hpast hrecent
  rw [← hclock] at hpast hshould ⊢
  obtain ⟨s₁, Q, hstep, hplan, h₁⟩ := h.step hdelay
  rw [hf.current] at hkeep ⊢
  have hruns₁ : ∀ calls, Call.runs s₀' (.delayUntil (UInt32.ofNat last) inc :: calls) =
      Call.runs s₁ calls := by
    intro calls
    rw [Call.runs, hstep]
    rfl
  cases hplan with
  | delayUntil prev inc hrunning hcome =>
      -- the wake time is still to come
      have hlater := hshould.mp hcome
      have hwake := toNat_untilWake hpast hlater
      have hst : (P.delay (UInt32.ofNat last + inc - UInt32.ofNat P.now).toNat).status P.current =
          .until (last + inc.toNat) := by
        rw [hwake]
        refine (Plan.setStatus_self _).trans (congrArg Status.until ?_)
        exact Nat.add_sub_of_le (Nat.le_of_lt hlater)
      obtain ⟨s, hs, hearly, hdue⟩ :=
        h₁.wakes_exactly hst (h.current_waits_no hin) hmissed (hafter s₁ hstep) hkeep
      refine ⟨s, (hruns₁ after).trans hs, hearly, fun front c s₂ hfront hs₂ hlt hle => ?_,
        fun _ hle => absurd hlater (Nat.not_lt.mpr hle)⟩
      exact hdue front c s₂ hfront ((hruns₁ front).symm.trans hs₂) hlt hle
  | pass prev inc hrunning hpass =>
      -- it has come, and the task goes on
      have hlater : ¬ P.now < last + inc.toNat := by
        intro hlt
        rw [hshould.mpr hlt] at hpass
        cases hpass
      obtain ⟨s, R, hs, -, -⟩ := h₁.runs (hafter s₁ hstep)
      have hpended := h₁.pended_le hmissed (hafter s₁ hstep) hs
      refine ⟨s, (hruns₁ after).trans hs, fun hlt => by omega,
        fun front c s₂ hfront hs₂ hlt _ => ?_, fun hnil _ => ?_⟩
      · have hallowed₂ := (System.allowed_append (hfront ▸ hafter s₁ hstep)).1
        have hpended₂ := h₁.pended_le hmissed hallowed₂ ((hruns₁ front).symm.trans hs₂)
        omega
      · rw [hnil] at hs
        obtain rfl := Option.some.inj hs
        obtain ⟨d₁, A₁, hf₁⟩ := h₁.follows
        have hstill : P.lock.status P.current = .ready := hready
        rw [hf₁.places.state, hstill]
        rfl

/-! ### Calls of `vTaskDelayUntil` one after the other -/

/-- A run in which a task gives its variable to each of its calls of `vTaskDelayUntil`, which leave
    the wake time there, with the increments of these calls. Nobody suspends or deletes the
    task. -/
inductive Periodic (t : τ) : System τ ε → UInt32 → List (Call τ ε) → List UInt32 → System τ ε →
    UInt32 → Prop
  | nil (s : System τ ε) (v : UInt32) : Periodic t s v [] [] s v
  | own {s s₁ s' : System τ ε} {v v₁ v' inc : UInt32} {calls : List (Call τ ε)}
      {incs : List UInt32} (hcurrent : s.kernel.pxCurrentTCB = t)
      (hvar : (s.kernel.delayUntil v inc).map Prod.fst = some v₁)
      (hstep : Call.step s (.delayUntil v inc) = some s₁)
      (hrest : Periodic t s₁ v₁ calls incs s' v') :
      Periodic t s v (.delayUntil v inc :: calls) (inc :: incs) s' v'
  | other {s s₁ s' : System τ ε} {v v' : UInt32} {c : Call τ ε} {calls : List (Call τ ε)}
      {incs : List UInt32}
      (hother : s.kernel.pxCurrentTCB = t → ∀ prev inc, c ≠ .delayUntil prev inc)
      (hsuspend : c ≠ .suspend t) (hdelete : c ≠ .delete t) (hstep : c.step s = some s₁)
      (hrest : Periodic t s₁ v calls incs s' v') : Periodic t s v (c :: calls) incs s' v'

/-- The tick at which a task is to wake, with the increments since the start. -/
def wakeTime (start : Nat) (incs : List UInt32) : Nat :=
  incs.foldl (fun time inc => time + inc.toNat) start

theorem wakeTime_cons (start : Nat) (inc : UInt32) (incs : List UInt32) :
    wakeTime start (inc :: incs) = wakeTime (start + inc.toNat) incs := rfl

theorem wakeTime_concat (start : Nat) (incs : List UInt32) (inc : UInt32) :
    wakeTime start (incs ++ [inc]) = wakeTime start incs + inc.toNat := by
  rw [wakeTime, List.foldl_append]
  rfl

/-- What `vTaskDelayUntil` leaves in the variable. -/
theorem Kernel.delayUntil_fst {k : Kernel τ ε} {v v' inc : UInt32}
    (h : (k.delayUntil v inc).map Prod.fst = some v') : v' = v + inc := by
  obtain ⟨⟨_, k'⟩, hrun, rfl⟩ := Option.map_eq_some_iff.mp h
  unfold Kernel.delayUntil at hrun
  dsimp only at hrun
  split at hrun
  · split at hrun
    · obtain ⟨k₁, -, heq⟩ := Option.map_eq_some_iff.mp hrun
      exact (Prod.mk.inj heq).1.symm
    · exact (Prod.mk.inj (Option.some.inj hrun)).1.symm
  · cases hrun

/-- The wake time has come, or the task waits for it. -/
def Punctual (t : τ) (w : Nat) (P : Plan τ ε) : Prop :=
  w ≤ P.now ∨ P.status t = .until w ∧ P.waits t = .no

omit [DecidableEq τ] [DecidableEq ε] in
/-- While a task waits for its wake time it is not running. -/
theorem Punctual.le {t : τ} {w : Nat} {P : Plan τ ε} (h : Punctual t w P)
    (hready : P.status t = .ready) : w ≤ P.now := by
  rcases h with hle | ⟨hst, -⟩
  · exact hle
  · rw [hready] at hst
    cases hst

/-- The variable holds the wake time, and the task is not late and not early. -/
theorem Periodic.punctual {t : τ} {s s' : System τ ε} {v v' : UInt32} {calls : List (Call τ ε)}
    {incs : List UInt32} (h : Periodic t s v calls incs s' v') {P : Plan τ ε}
    (htracks : Tracks prio idle s P) (hallowed : System.Allowed idle s calls) {start : Nat}
    (hv : v = UInt32.ofNat start) (hpunctual : Punctual t start P) :
    ∃ Q, Call.runs s calls = some s' ∧ Plan.Run prio P calls Q ∧ Tracks prio idle s' Q ∧
      v' = UInt32.ofNat (wakeTime start incs) ∧ Punctual t (wakeTime start incs) Q := by
  induction h generalizing P start with
  | nil s v => exact ⟨P, rfl, .nil P, htracks, hv, hpunctual⟩
  | @own s s₁ s' v v₁ v' inc calls incs hcurrent hvar hstep hrest ih =>
      obtain ⟨hallows, hlater⟩ := hallowed
      have ⟨hin, _, _, _⟩ := hallows
      obtain ⟨d, A, hf⟩ := htracks.follows
      have hready := htracks.current_ready hin
      have htask : P.current = t := hf.current.symm.trans hcurrent
      have hpast := hpunctual.le (htask ▸ hready)
      obtain ⟨s₂, Q, hstep₂, hplan, htracks₁⟩ := htracks.step hallows
      obtain rfl := Option.some.inj (hstep₂.symm.trans hstep)
      have hinc := inc.toNat_lt
      -- behind a whole period the wake time has come in any case
      have hnext : Punctual t (start + inc.toNat) Q := by
        by_cases hrecent : P.now < start + tickPeriod
        · have hshould := xShouldDelay_iff inc hpast hrecent
          rw [← hv] at hshould
          cases hplan with
          | delayUntil prev inc hrunning hcome =>
              have hlate := hshould.mp hcome
              refine .inr ⟨?_, htask ▸ htracks.current_waits_no hin⟩
              rw [← htask]
              refine (Plan.setStatus_self _).trans (congrArg Status.until ?_)
              rw [hv, toNat_untilWake hpast hlate]
              exact Nat.add_sub_of_le (Nat.le_of_lt hlate)
          | pass prev inc hrunning hpass =>
              refine .inl (Nat.le_of_not_lt fun hlate => ?_)
              rw [hshould.mpr hlate] at hpass
              cases hpass
        · have hnow := hplan.clock.2.1
          unfold tickPeriod at hrecent
          exact .inl (by omega)
      have hvalue : v₁ = UInt32.ofNat (start + inc.toNat) := by
        rw [Kernel.delayUntil_fst hvar, hv, UInt32.ofNat_add, UInt32.ofNat_toNat]
      obtain ⟨R, hruns, hrun', htracks', hv', hpunctual'⟩ :=
        ih htracks₁ (hlater _ hstep) hvalue hnext
      refine ⟨R, ?_, .cons hplan hrun', htracks', ?_, ?_⟩
      · rw [Call.runs, hstep]
        exact hruns
      · rw [wakeTime_cons]
        exact hv'
      · rw [wakeTime_cons]
        exact hpunctual'
  | @other s s₁ s' v v' c calls incs hother hsuspend hdelete hstep hrest ih =>
      obtain ⟨hallows, hlater⟩ := hallowed
      obtain ⟨s₂, Q, hstep₂, hplan, htracks₁⟩ := htracks.step hallows
      obtain rfl := Option.some.inj (hstep₂.symm.trans hstep)
      have hnext : Punctual t start Q := by
        rcases hpunctual with hle | ⟨hst, hno⟩
        · exact .inl (hle.trans hplan.clock.2.1)
        · by_cases hlt : P.now < start
          · by_cases hearly : Q.now < start
            · exact .inr ((hplan.until hst hno hlt hsuspend hdelete).1 hearly)
            · exact .inl (Nat.le_of_not_lt hearly)
          · exact .inl ((Nat.le_of_not_lt hlt).trans hplan.clock.2.1)
      obtain ⟨R, hruns, hrun', htracks', hv', hpunctual'⟩ := ih htracks₁ (hlater _ hstep) hv hnext
      refine ⟨R, ?_, .cons hplan hrun', htracks', hv', hpunctual'⟩
      rw [Call.runs, hstep]
      exact hruns

/-- A task gives the same variable to each of its calls of `vTaskDelayUntil`, and each comes less
    than a whole period behind the wake time before. Then it is in a list of delayed tasks until the
    tick at which it is to wake has been counted, is ready at the call that counts it, and does not
    wait if that tick has come. This tick is the first one and all increments since then, so wake
    times do not drift. The tick count may wrap around, the scheduler may be suspended, and the
    others may do what they like, but for suspending or deleting the task. -/
theorem delayUntil_exact (hnodup : (first :: rest).Nodup) (hidle : idle ∈ first :: rest) {t : τ}
    {init before after : List (Call τ ε)} {start : Nat} {v inc : UInt32} {incs : List UInt32}
    {s₁ s₀ : System τ ε}
    (hallowed : System.Allowed idle ⟨Kernel.boot prio first rest, false⟩
      ((init ++ before) ++ .delayUntil v inc :: after))
    (hinit : Call.runs ⟨Kernel.boot prio first rest, false⟩ init = some s₁)
    (hstart : start + s₁.kernel.uxPendedTicks.toNat ≤ ticks init)
    (hperiodic : Periodic t s₁ (UInt32.ofNat start) before incs s₀ v)
    (hcurrent : s₀.kernel.pxCurrentTCB = t)
    (hrecent : ticks (init ++ before) < wakeTime start incs + tickPeriod)
    (hkeep : ∀ c ∈ after, c ≠ .suspend t ∧ c ≠ .delete t) :
    (s₀.kernel.delayUntil v inc).map Prod.fst =
        some (UInt32.ofNat (wakeTime start (incs ++ [inc]))) ∧
      ∃ s, Call.runs s₀ (.delayUntil v inc :: after) = some s ∧
        (ticks (init ++ before) + ticks after <
            wakeTime start (incs ++ [inc]) + s.kernel.uxPendedTicks.toNat →
          s.kernel.lists.pvContainer (.state t) = some s.kernel.pxDelayedTaskList ∨
            s.kernel.lists.pvContainer (.state t) = some s.kernel.pxOverflowDelayedTaskList) ∧
        (∀ front c s₂, after = front ++ [c] →
          Call.runs s₀ (.delayUntil v inc :: front) = some s₂ →
          ticks (init ++ before) + ticks front <
            wakeTime start (incs ++ [inc]) + s₂.kernel.uxPendedTicks.toNat →
          wakeTime start (incs ++ [inc]) + s.kernel.uxPendedTicks.toNat ≤
            ticks (init ++ before) + ticks after →
          s.kernel.lists.pvContainer (.state t) = some (.ready (prio t))) ∧
        (after = [] → wakeTime start (incs ++ [inc]) ≤ ticks (init ++ before) →
          s.kernel.lists.pvContainer (.state t) = some (.ready (prio t))) := by
  obtain ⟨P₀, hzero, htracks₀⟩ := Kernel.boot_tracks ε prio hnodup hidle
  obtain ⟨hbefore, hbehind⟩ := System.allowed_append hallowed
  obtain ⟨hfirst, hsecond⟩ := System.allowed_append hbefore
  obtain ⟨s₁', P₁, hruns₁, hrun₁, htracks₁⟩ := htracks₀.runs hfirst
  obtain rfl := Option.some.inj (hruns₁.symm.trans hinit)
  obtain ⟨hsum₁, -, hcaught₁⟩ := hrun₁.clock
  rw [hzero.now, hzero.missed, Nat.zero_add] at hsum₁
  obtain ⟨d₁, A₁, hf₁⟩ := htracks₁.follows
  have hpunctual : Punctual t start P₁ := by
    rw [hf₁.missed] at hstart
    exact .inl (by omega)
  -- the variable as the task calls
  obtain ⟨P, hruns, hrun, htracks, hv, hthen⟩ :=
    hperiodic.punctual htracks₁ (hsecond _ hinit) rfl hpunctual
  have hreach : Call.runs ⟨Kernel.boot prio first rest, false⟩ (init ++ before) = some s₀ := by
    rw [Call.runs_append, hinit]
    exact hruns
  have hallows := (hbehind s₀ hreach).1
  have ⟨hin, hopen, _, hpos⟩ := hallows
  obtain ⟨d, A, hf⟩ := htracks.follows
  have htask : P.current = t := hf.current.symm.trans hcurrent
  have hpast := hthen.le (htask ▸ htracks.current_ready hin)
  obtain ⟨hsum, -, hcaught⟩ := hrun.clock
  have hmissed : P.missed = 0 :=
    hcaught (hcaught₁ fun _ => hzero.missed) (hf.open_iff.mp hopen)
  have hclock : P.now = ticks (init ++ before) := by
    rw [ticks_append]
    omega
  rw [hclock] at hpast
  subst hv hcurrent
  rw [wakeTime_concat]
  refine ⟨?_, delayUntil_wakes hnodup hidle hallowed hreach hpast hrecent hkeep⟩
  obtain ⟨s, Q, hstep, -, -⟩ := htracks.step hallows
  rw [Call.step, Call.run] at hstep
  obtain ⟨k, hcode, -⟩ := Option.map_eq_some_iff.mp hstep
  obtain ⟨⟨v', k'⟩, hcode', -⟩ := Option.map_eq_some_iff.mp hcode
  have hvar : (s₀.kernel.delayUntil (UInt32.ofNat (wakeTime start incs)) inc).map Prod.fst =
      some v' := congrArg (Option.map Prod.fst) hcode'
  rw [hvar, Kernel.delayUntil_fst hvar, UInt32.ofNat_add, UInt32.ofNat_toNat]

/-- A task with a period of two ticks, at its second wake time. -/
theorem delayUntil_exact_next :
    ∃ s : System (Fin 2) Unit,
      Call.runs ⟨Kernel.boot (Fin.castLE (by decide)) 1 [0], false⟩
          [.delayUntil 0 2, .leave, .switch, .tick, .tick, .switch, .delayUntil 2 2, .leave,
            .switch, .tick, .tick] = some s ∧
      s.kernel.lists.pvContainer (.state 1) = some (.ready ⟨1, by decide⟩) := by
  let s₀ : System (Fin 2) Unit := ⟨Kernel.boot (Fin.castLE (by decide)) 1 [0], false⟩
  let s₁ := (Call.step s₀ (.delayUntil 0 2)).get (by decide)
  let s₂ := (Call.step s₁ .leave).get (by decide)
  let s₃ := (Call.step s₂ .switch).get (by decide)
  let s₄ := (Call.step s₃ .tick).get (by decide)
  let s₅ := (Call.step s₄ .tick).get (by decide)
  let s₆ := (Call.step s₅ .switch).get (by decide)
  have hother : ∀ {s s' s'' : System (Fin 2) Unit} {v v' : UInt32} {c : Call (Fin 2) Unit}
      {calls : List (Call (Fin 2) Unit)} {incs : List UInt32}, c ∈ [.leave, .switch, .tick] →
      c.step s = some s' → Periodic 1 s' v calls incs s'' v' →
      Periodic 1 s v (c :: calls) incs s'' v' := by
    intro s s' s'' v v' c calls incs hc hstep hrest
    refine .other (fun _ prev inc heq => ?_) (fun heq => ?_) (fun heq => ?_) hstep hrest
    all_goals
      rw [heq] at hc
      simp at hc
  have hperiodic : Periodic 1 s₀ 0 [.delayUntil 0 2, .leave, .switch, .tick, .tick, .switch] [2]
      s₆ 2 :=
    .own (by decide) (show (s₀.kernel.delayUntil 0 2).map Prod.fst = some 2 by decide)
      (Option.some_get _).symm
      (hother (by decide) (Option.some_get _).symm (hother (by decide) (Option.some_get _).symm
        (hother (by decide) (Option.some_get _).symm (hother (by decide) (Option.some_get _).symm
          (hother (by decide) (Option.some_get _).symm (.nil s₆ 2))))))
  obtain ⟨-, s, hs, -, hready, -⟩ := delayUntil_exact (by decide)
    (show (0 : Fin 2) ∈ [1, 0] by decide)
    (show System.Allowed 0 s₀ (([] ++ [.delayUntil 0 2, .leave, .switch, .tick, .tick, .switch]) ++
      .delayUntil 2 2 :: [.leave, .switch, .tick, .tick]) by decide +kernel)
    (show Call.runs s₀ [] = some s₀ from rfl)
    (show 0 + s₀.kernel.uxPendedTicks.toNat ≤ ticks ([] : List (Call (Fin 2) Unit)) by decide)
    hperiodic (by decide) (by decide) (by decide)
  have hone : ∀ {s s' : System (Fin 2) Unit} {c : Call (Fin 2) Unit}
      {calls : List (Call (Fin 2) Unit)}, c.step s = some s' →
      Call.runs s (c :: calls) = Call.runs s' calls := by
    intro s s' c calls hstep
    rw [Call.runs, hstep]
    rfl
  have hruns : ∀ calls, Call.runs s₀ (.delayUntil 0 2 :: .leave :: .switch :: .tick :: .tick ::
      .switch :: calls) = Call.runs s₆ calls := fun calls =>
    (hone (Option.some_get _).symm).trans ((hone (Option.some_get _).symm).trans
      ((hone (Option.some_get _).symm).trans ((hone (Option.some_get _).symm).trans
        ((hone (Option.some_get _).symm).trans (hone (Option.some_get _).symm)))))
  have hcount : (Call.runs s₆ [.delayUntil 2 2, .leave, .switch, .tick, .tick]).map
      (fun s => s.kernel.uxPendedTicks) = some 0 := by decide +kernel
  rw [hs] at hcount
  have hpended : s.kernel.uxPendedTicks = 0 := Option.some.inj hcount
  obtain ⟨s₇, hs₇⟩ := Option.isSome_iff_exists.mp (show (Call.runs s₆
    [.delayUntil 2 2, .leave, .switch, .tick]).isSome = true by decide +kernel)
  refine ⟨s, ?_, hready [.leave, .switch, .tick] .tick s₇ rfl hs₇ ?_ ?_⟩
  · exact (hruns _).trans hs
  · exact Nat.lt_of_lt_of_le (by decide) (Nat.le_add_right 4 _)
  · rw [hpended]
    decide

end Rtos

end RtosLwip
