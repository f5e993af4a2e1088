import RtosLwip.Rtos.Blocking

/-!
# Runs of the Scheduler

In every run of calls that come when they can, no assertion fails, no loop goes on
forever, and no list item is looked for where it is not. What the scheduler does is a run
of its plan: each task is woken at the tick that it waits for, events wake a task of the
greatest priority, and a task of the greatest priority is chosen.

Whenever no context switch is asked for, the running task is ready, and no ready task has
a greater priority.

## Main definitions

* `Tracks`: A scheduler, its plan, and where the running task is.
* `Plan.Initial`, `Plan.state`: The first plan, and what is seen of a plan.

## Theorems

* `Tracks.step`, `Tracks.runs`: One call and many.
* `scheduler_refines`: Every run is a run of the plan.
* `running_highest`: The running task has the greatest priority.
-/

namespace RtosLwip

namespace Rtos

variable {τ ε : Type}

/-- A scheduler and its plan between two calls. -/
structure Tracks (prio : τ → Priority) (idle : τ) (s : System τ ε) (P : Plan τ ε) : Prop where
  follows : ∃ d A, Follows prio d A s.kernel P
  sound : P.Sound idle
  settled : Settled prio (s.kernel.pendSV || s.kernel.xYieldPending) P
  blocking : s.blocking = true → P.depth = 1
  running : s.blocking = false → s.kernel.pendSV = false ∨ P.depth ≠ 0 →
    P.status P.current = .ready

namespace Tracks

variable {prio : τ → Priority} {idle : τ} {s : System τ ε} {P : Plan τ ε}

/-- The task that calls a function is ready. -/
theorem current_ready (h : Tracks prio idle s P) (hin : s.InTask) : P.status P.current = .ready :=
  h.running hin.1 (.inl hin.2)

/-- A task that is there is neither absent nor about to be deleted. -/
theorem alive (h : Tracks prio idle s P) {t : τ} (ht : s.Alive t) :
    P.status t ≠ .absent ∧ P.status t ≠ .dying := by
  obtain ⟨d, A, hf⟩ := h.follows
  have hstate := hf.places.state t
  constructor
  · intro heq
    rw [heq] at hstate
    exact ht.1 hstate
  · intro heq
    rw [heq] at hstate
    exact ht.2 hstate

variable [DecidableEq τ] [DecidableEq ε]

/-- A call that leaves the running task where it is, and does not block. -/
theorem keep (h : Tracks prio idle s P) {k' : Kernel τ ε} {Q : Plan τ ε} {c : Call τ ε}
    (hrun : c.run s.kernel = some k') (hblocks : c.blocks s.blocking = s.blocking)
    (hstep : Plan.Step prio P c Q) (hpermits : P.Permits idle c)
    (hfollows : ∃ d A, Follows prio d A k' Q) (hasked : k'.pendSV = false → s.kernel.pendSV = false)
    (hsettled : Settled prio (k'.pendSV || k'.xYieldPending) Q) (hdepth : Q.depth = P.depth)
    (hready : P.status P.current = .ready → Q.status Q.current = .ready) :
    ∃ s' Q, c.step s = some s' ∧ Plan.Step prio P c Q ∧ Tracks prio idle s' Q := by
  refine ⟨⟨k', s.blocking⟩, Q, ?_, hstep, hfollows, h.sound.step hstep hpermits, hsettled, ?_, ?_⟩
  · rw [Call.step, hrun, Option.map_some, hblocks]
  · intro hblocking
    exact hdepth.trans (h.blocking hblocking)
  · intro hrunning hor
    exact hready (h.running hrunning (hor.imp hasked fun hne heq => hne (hdepth.trans heq)))

/-- A function that blocks, up to the end of the time in which the scheduler is suspended. -/
theorem block (h : Tracks prio idle s P) {k' : Kernel τ ε} {Q : Plan τ ε} {c : Call τ ε}
    (hrun : c.run s.kernel = some k') (hblocks : c.blocks s.blocking = true)
    (hstep : Plan.Step prio P c Q) (hpermits : P.Permits idle c)
    (hfollows : ∃ d A, Follows prio d A k' Q)
    (hsettled : Settled prio (k'.pendSV || k'.xYieldPending) Q) (hdepth : Q.depth = 1) :
    ∃ s' Q, c.step s = some s' ∧ Plan.Step prio P c Q ∧ Tracks prio idle s' Q := by
  refine ⟨⟨k', true⟩, Q, ?_, hstep, hfollows, h.sound.step hstep hpermits, hsettled,
    fun _ => hdepth, fun hfalse => ?_⟩
  · rw [Call.step, hrun, Option.map_some, hblocks]
  · cases hfalse

/-- The running task takes a task away, which may be the running task itself. -/
theorem takeAway (h : Tracks prio idle s P) (hin : s.InTask) {k' : Kernel τ ε} {c : Call τ ε}
    {t : τ} {status : Status} (hrun : c.run s.kernel = some k')
    (hblocks : c.blocks s.blocking = s.blocking)
    (hstep : Plan.Step prio P c (P.moveTo t status)) (hpermits : P.Permits idle c)
    (hfollows : ∃ d A, Follows prio d A k' (P.moveTo t status))
    (hsettled : Settled prio (k'.pendSV || k'.xYieldPending) (P.moveTo t status))
    (hself : t = P.current → k'.pendSV = true) (hopen : t = P.current → P.depth = 0) :
    ∃ s' Q, c.step s = some s' ∧ Plan.Step prio P c Q ∧ Tracks prio idle s' Q := by
  refine ⟨⟨k', s.blocking⟩, _, ?_, hstep, hfollows, h.sound.step hstep hpermits, hsettled,
    fun hblocking => ?_, fun _ hor => ?_⟩
  · rw [Call.step, hrun, Option.map_some, hblocks]
  · rw [hin.1] at hblocking
    cases hblocking
  · -- A task that takes itself away asks for a context switch, and nothing holds it up.
    have hne : P.current ≠ t := by
      intro heq
      rcases hor with hfalse | hlocked
      · rw [hself heq.symm] at hfalse
        cases hfalse
      · exact hlocked (hopen heq.symm)
    exact (Plan.setStatus_of_ne hne _).trans (h.current_ready hin)

/-- The context switch. -/
theorem switch (h : Tracks prio idle s P) :
    ∃ s' Q, Call.step s .switch = some s' ∧ Plan.Step prio P .switch Q ∧ Tracks prio idle s' Q := by
  obtain ⟨d, A, hf⟩ := h.follows
  by_cases hopen : P.depth = 0
  · obtain ⟨u, lists, hrun, hready, hgreatest, -, hk'⟩ :=
      (hf.flags false false).taskSelectHighestPriorityTask h.sound.idle
    have hstep : Plan.Step prio P .switch { P with current := u } :=
      .switch P u hopen hready hgreatest
    refine ⟨⟨_, s.blocking⟩, _, ?_, hstep, ⟨d, _, hk'⟩, h.sound.step hstep trivial,
      .inr hgreatest, h.blocking, fun _ _ => hready⟩
    rw [Call.step, Call.run, Kernel.xPortPendSVHandler, Kernel.vTaskSwitchContext,
      if_neg (not_not.mpr (hf.open_iff.mpr hopen)), hrun]
    rfl
  · -- the context switch is put off
    have hstep : Plan.Step prio P .switch P := .putOff P hopen
    refine ⟨⟨_, s.blocking⟩, P, ?_, hstep, ⟨d, A, hf.flags true false⟩, h.sound, .inl ?_,
      h.blocking, fun hrunning _ => h.running hrunning (.inr hopen)⟩
    · rw [Call.step, Call.run, Kernel.xPortPendSVHandler, Kernel.vTaskSwitchContext,
        if_pos fun heq => hopen (hf.open_iff.mp heq)]
      rfl
    · rfl

/-- The end of a function that blocks. -/
theorem leave (h : Tracks prio idle s P) (hblocking : s.blocking = true) :
    ∃ s' Q, Call.step s .leave = some s' ∧ Plan.Step prio P .leave Q ∧ Tracks prio idle s' Q := by
  obtain ⟨d, A, hf⟩ := h.follows
  have hdepth := h.blocking hblocking
  have hlocked : P.depth ≠ 0 := by
    rw [hdepth]
    exact Nat.one_ne_zero
  obtain ⟨k', d', A', hrun, hk', hpend⟩ := hf.leave h.sound hlocked h.settled
  refine ⟨⟨k', false⟩, P.unlock, ?_, .leave P, ⟨d', A', hk'⟩, h.sound.unlock, .inl ?_, ?_, ?_⟩
  · rw [Call.step, Call.run, hrun]
    rfl
  · rw [hpend, Bool.true_or]
  · intro hfalse
    cases hfalse
  · rintro - (hfalse | hne)
    · rw [hpend] at hfalse
      cases hfalse
    · rw [Plan.unlock_depth, hdepth] at hne
      exact absurd rfl hne

/-- A call for a number of ticks. -/
theorem delay (h : Tracks prio idle s P) (hin : s.InTask)
    (hopen : s.kernel.uxSchedulerSuspended = 0) {n : UInt32} (hpos : 0 < n) :
    ∃ k', s.kernel.vTaskSuspendAll.prvAddCurrentTaskToDelayedList n false = some k' ∧
      (∃ d A, Follows prio d A k' (P.delay n.toNat)) ∧
      Settled prio (k'.pendSV || k'.xYieldPending) (P.delay n.toNat) ∧
      (P.delay n.toNat).depth = 1 := by
  obtain ⟨d, A, hf⟩ := h.follows
  have hlock := hf.vTaskSuspendAll (by rw [hopen]; decide)
  obtain ⟨k', A', hrun, hk', hpend, hyield⟩ :=
    hlock.prvAddCurrentTaskToDelayedList (h.current_ready hin) hpos false
  have hplan : P.delay n.toNat = P.lock.setStatus P.lock.current
      (if n = portMaxDelay ∧ false = true then .held else .until (P.lock.now + n.toNat)) := by
    rw [if_neg fun hand => Bool.noConfusion hand.2]
    rfl
  rw [← hplan] at hk'
  refine ⟨k', hrun, ⟨d, A', hk'⟩, ?_, congrArg (· + 1) (hf.open_iff.mp hopen)⟩
  rw [hpend, hyield]
  exact h.settled.setStatus (t := P.current) fun heq => by cases heq

/-- A call for an event. -/
theorem wait (h : Tracks prio idle s P) (hin : s.InTask)
    (hopen : s.kernel.uxSchedulerSuspended = 0) (e : ε) {n : UInt32} (hpos : 0 < n) :
    ∃ k', s.kernel.vTaskSuspendAll.vTaskPlaceOnEventList e n = some k' ∧
      (∃ d A, Follows prio d A k' (P.wait e n)) ∧
      Settled prio (k'.pendSV || k'.xYieldPending) (P.wait e n) ∧ (P.wait e n).depth = 1 := by
  obtain ⟨d, A, hf⟩ := h.follows
  have hready := h.current_ready hin
  have hno : P.waits P.current = .no := by
    refine h.sound.waits_no ?_ fun w => ?_
    · rw [hready]
      exact fun heq => by cases heq
    · rw [hready]
      exact fun heq => by cases heq
  have hlock := hf.vTaskSuspendAll (by rw [hopen]; decide)
  obtain ⟨k', A', hrun, hk', hpend, hyield⟩ := hlock.vTaskPlaceOnEventList hready hno e hpos
  refine ⟨k', hrun, ⟨d, A', hk'⟩, ?_, congrArg (· + 1) (hf.open_iff.mp hopen)⟩
  rw [hpend, hyield]
  refine h.settled.setStatus (t := P.current) fun heq => ?_
  by_cases hend : n = portMaxDelay
  · rw [if_pos hend] at heq
    cases heq
  · rw [if_neg hend] at heq
    cases heq

/-- Every call that comes when it can is a step of the plan. -/
theorem step (h : Tracks prio idle s P) {c : Call τ ε} (hallows : s.Allows idle c) :
    ∃ s' Q, c.step s = some s' ∧ Plan.Step prio P c Q ∧ Tracks prio idle s' Q := by
  obtain ⟨d, A, hf⟩ := h.follows
  cases c with
  | tick =>
      obtain ⟨k', d', A', hrun, hk', hpend, hs⟩ := hf.xPortSysTickHandler h.sound hallows h.settled
      refine h.keep hrun rfl (.tick P) trivial ⟨d', A', hk'⟩ hpend hs Plan.tick_depth
        fun hready => ?_
      rw [Plan.tick_current]
      exact Plan.tick_ready hready
  | switch => exact h.switch
  | wake e =>
      -- The task at the head of the event's list has the greatest priority of those that wait.
      obtain ⟨t, b, k', A', hrun, hw, hgreatest, hk', hpend, hs⟩ :=
        hf.xTaskRemoveFromEventList h.sound hallows h.settled
      have hrun' : Call.run s.kernel (.wake e) = some k' := by
        rw [Call.run, hrun]
        rfl
      exact h.keep hrun' rfl (.wake P e t hw hgreatest) trivial ⟨d, A', hk'⟩
        (fun hfalse => hpend.symm.trans hfalse) hs Plan.wake_depth fun hready => by
          rw [Plan.wake_current]
          exact Plan.wake_ready hready
  | resumeFromISR t =>
      -- A task that is not in the list of the suspended ones is passed over.
      obtain ⟨k', A', Q, hrun, hk', hcase, hpend, hs⟩ := hf.xTaskResumeFromISR t h.settled
      rcases hcase with ⟨hsuspended, rfl⟩ | ⟨hnot, rfl⟩
      · exact h.keep hrun rfl (.resumeFromISR P t hsuspended) trivial ⟨d, A', hk'⟩ hpend hs
          Plan.wake_depth fun hready => by
            rw [Plan.wake_current]
            exact Plan.wake_ready hready
      · exact h.keep hrun rfl (.ignoreFromISR _ t hnot) trivial ⟨d, A', hk'⟩ hpend hs rfl id
  | yield =>
      refine h.keep rfl rfl (.yield P) trivial
        ⟨d, A, hf.flags s.kernel.xYieldPending true⟩ (fun hfalse => ?_) (.inl rfl) rfl id
      cases hfalse
  | suspendAll =>
      -- From here the depth counts, which `keep` asks to stay as it is.
      obtain ⟨hin, hwrap⟩ := hallows
      have hready := h.current_ready hin
      refine ⟨⟨s.kernel.vTaskSuspendAll, s.blocking⟩, P.lock, rfl, .suspendAll P,
        ⟨d, A, hf.vTaskSuspendAll hwrap⟩, h.sound.lock, h.settled, fun hblocking => ?_,
        fun _ _ => hready⟩
      rw [hin.1] at hblocking
      cases hblocking
  | resumeAll =>
      obtain ⟨hin, hpos⟩ := hallows
      have hready := h.current_ready hin
      have hlocked : P.depth ≠ 0 := fun heq => by
        rw [hf.open_iff.mpr heq] at hpos
        exact absurd hpos (by decide)
      obtain ⟨b, k', d', A', hrun, hk', -, hpend, hs⟩ :=
        hf.xTaskResumeAll h.sound hlocked h.settled
      refine ⟨⟨k', s.blocking⟩, P.unlock, ?_, .resumeAll P, ⟨d', A', hk'⟩, h.sound.unlock, hs,
        fun hblocking => ?_, fun _ _ => ?_⟩
      · rw [Call.step, Call.run, hrun]
        rfl
      · rw [hin.1] at hblocking
        cases hblocking
      · rw [Plan.unlock_current]
        exact Plan.unlock_ready hready
  | delay n =>
      obtain ⟨hin, hopen, hidle, hpos⟩ := hallows
      obtain ⟨k', hrun, hk', hs, hdepth⟩ := h.delay hin hopen hpos
      have hcode : Call.run s.kernel (.delay n) = some k' := by
        rw [Call.run, Kernel.delay, if_pos hopen, hrun]
      exact h.block hcode rfl (.delay P n (h.current_ready hin))
        ⟨fun heq => hidle (hf.current.trans heq), hpos⟩ hk' hs hdepth
  | delayUntil prev inc =>
      -- The wake time may have passed; then the task does not leave the ready lists.
      obtain ⟨hin, hopen, hidle, hpos⟩ := hallows
      have hidle' : P.current ≠ idle := fun heq => hidle (hf.current.trans heq)
      cases hshould : Kernel.xShouldDelay s.kernel.xTickCount prev (prev + inc) with
      | true =>
          have hn : 0 < prev + inc - s.kernel.xTickCount :=
            UInt32.lt_iff_toNat_lt.mpr (Plan.xShouldDelay_pos hshould)
          obtain ⟨k', hrun, hk', hs, hdepth⟩ := h.delay hin hopen hn
          have hcode : Call.run s.kernel (.delayUntil prev inc) = some k' := by
            rw [Call.run, Kernel.delayUntil]
            rw [if_pos ⟨hpos, hopen⟩, if_pos hshould, hrun]
            rfl
          rw [hf.clock] at hshould hk' hs hdepth
          exact h.block hcode rfl (.delayUntil P prev inc (h.current_ready hin) hshould) hidle' hk'
            hs hdepth
      | false =>
          have hcode : Call.run s.kernel (.delayUntil prev inc) =
              some s.kernel.vTaskSuspendAll := by
            rw [Call.run, Kernel.delayUntil]
            rw [if_pos ⟨hpos, hopen⟩, if_neg (by rw [hshould]; exact Bool.false_ne_true)]
            rfl
          rw [hf.clock] at hshould
          refine h.block hcode rfl (.pass P prev inc (h.current_ready hin) hshould) hidle'
            ⟨d, A, ?_⟩ h.settled (congrArg (· + 1) (hf.open_iff.mp hopen))
          exact hf.vTaskSuspendAll (by rw [hopen]; decide)
  | wait e n =>
      obtain ⟨hin, hopen, hidle, hpos⟩ := hallows
      obtain ⟨k', hrun, hk', hs, hdepth⟩ := h.wait hin hopen e hpos
      have hcode : Call.run s.kernel (.wait e n) = some k' := by
        rw [Call.run, Kernel.wait, if_pos hopen, hrun]
      exact h.block hcode rfl (.wait P e n (h.current_ready hin))
        ⟨fun heq => hidle (hf.current.trans heq), hpos⟩ hk' hs hdepth
  | leave => exact h.leave hallows.1
  | suspend t =>
      obtain ⟨hin, hidle, ht, hcur⟩ := hallows
      obtain ⟨habsent, hdying⟩ := h.alive ht
      have hopen : t = P.current → P.depth = 0 := fun heq =>
        hf.open_iff.mp (hcur (heq.trans hf.current.symm))
      obtain ⟨k', A', hrun, hk', hself, -, hs⟩ := hf.vTaskSuspend habsent hdying hopen h.settled
      have hcode : Call.run s.kernel (.suspend t) = some k' := by
        rw [Call.run, hrun]
      exact h.takeAway hin hcode rfl (.suspend P t) hidle ⟨d, A', hk'⟩ hs hself hopen
  | resume t =>
      obtain ⟨k', A', Q, hrun, hk', hcase, hpend, hs⟩ := hf.vTaskResume t h.settled
      rcases hcase with ⟨hsuspended, hother, rfl⟩ | ⟨hnot, rfl⟩
      · exact h.keep hrun rfl (.resume P t hsuspended hother) trivial ⟨d, A', hk'⟩ hpend hs rfl
          fun hready => Plan.moveTo_ready hready
      · exact h.keep hrun rfl (.ignore _ t hnot) trivial ⟨d, A', hk'⟩ hpend hs rfl id
  | create t =>
      obtain ⟨hin, hfree⟩ := hallows
      -- A block that is in no list belongs to no task of the plan.
      have habsent : P.status t = .absent := by
        have hstate := hf.places.state t
        rw [hfree] at hstate
        cases hst : P.status t with
        | absent => rfl
        | ready => rw [hst] at hstate; cases hstate
        | «until» w => rw [hst] at hstate; cases hstate
        | held => rw [hst] at hstate; cases hstate
        | dying => rw [hst] at hstate; cases hstate
      obtain ⟨A', hk', hpend, hs⟩ := hf.prvAddNewTaskToReadyList habsent h.settled
      refine h.keep rfl rfl (.create P t habsent) trivial ⟨d, A', hk'⟩ hpend hs rfl fun hready => ?_
      have hne : P.current ≠ t := by
        intro heq
        rw [heq, habsent] at hready
        cases hready
      exact (Plan.setStatus_of_ne hne _).trans hready
  | delete t =>
      -- A task that deletes itself stays in the list of those that wait for the idle task.
      obtain ⟨hin, hidle, ht, hcur, hwrap⟩ := hallows
      obtain ⟨habsent, hdying⟩ := h.alive ht
      have hopen : t = P.current → P.depth = 0 := fun heq =>
        hf.open_iff.mp (hcur (heq.trans hf.current.symm))
      obtain ⟨k', A', hrun, hk', hself, -, hs⟩ :=
        hf.vTaskDelete habsent hdying hopen hwrap h.settled
      have hcode : Call.run s.kernel (.delete t) = some k' := by
        rw [Call.run, hrun]
      exact h.takeAway hin hcode rfl (.delete P t) hidle ⟨d, A', hk'⟩ hs hself hopen
  | cleanUp =>
      -- The idle task frees one task in each turn, or finds none that waits for it.
      obtain ⟨k', A', hrun, hpend, hyield, hcase⟩ := hf.checkTermination
      have hasked : k'.pendSV = false → s.kernel.pendSV = false := fun hfalse =>
        hpend.symm.trans hfalse
      rcases hcase with ⟨t, hst, hk'⟩ | ⟨hnone, hk'⟩
      · refine h.keep hrun rfl (.cleanUp P t hst) trivial ⟨d, A', hk'⟩ hasked ?_ rfl
          fun hready => ?_
        · rw [hpend, hyield]
          exact h.settled.setStatus fun heq => by cases heq
        · have hne : P.current ≠ t := by
            intro heq
            rw [heq, hst] at hready
            cases hready
          exact (Plan.setStatus_of_ne hne _).trans hready
      · refine h.keep hrun rfl (.rest P hnone) trivial ⟨d, A', hk'⟩ hasked ?_ rfl id
        rw [hpend, hyield]
        exact h.settled

/-- Many calls. -/
theorem runs (h : Tracks prio idle s P) {calls : List (Call τ ε)}
    (hallowed : System.Allowed idle s calls) :
    ∃ s' Q, Call.runs s calls = some s' ∧ Plan.Run prio P calls Q ∧ Tracks prio idle s' Q := by
  induction calls generalizing s P with
  | nil => exact ⟨s, P, rfl, .nil P, h⟩
  | cons c calls ih =>
      obtain ⟨hc, hrest⟩ := hallowed
      obtain ⟨s₁, P₁, hstep, hplan, h₁⟩ := h.step hc
      obtain ⟨s', Q, hruns, hrun, h'⟩ := ih h₁ (hrest s₁ hstep)
      refine ⟨s', Q, ?_, .cons hplan hrun, h'⟩
      rw [Call.runs, hstep, Option.bind_some, hruns]

end Tracks

/-! ### The beginning -/

variable [DecidableEq τ]

/-- The plan as the scheduler starts: the tasks that were created are ready, and the current one has
    the greatest priority. -/
structure Plan.Initial (prio : τ → Priority) (tasks : List τ) (P : Plan τ ε) : Prop where
  now : P.now = 0
  status : ∀ t, P.status t = if t ∈ tasks then .ready else .absent
  waits : ∀ t, P.waits t = .no
  current : P.current ∈ tasks
  greatest : ∀ t ∈ tasks, prio t ≤ prio P.current
  depth : P.depth = 0
  missed : P.missed = 0

variable [DecidableEq ε]

namespace Kernel

variable {prio : τ → Priority}

variable (prio ε) in
/-- The first task. -/
theorem firstTask_follows (t : τ) :
    ∃ A, ∃ P : Plan τ ε, Follows prio false A (firstTask prio t) P ∧ P.Initial prio [t] := by
  -- no task is in any list before
  have hempty : Follows prio false ⟨fun _ => [], fun _ => none, initialItemValue prio⟩
      (initialise prio t : Kernel τ ε) ⟨0, fun _ => .absent, fun _ => .no, t, 0, 0⟩ := by
    refine ⟨⟨Holds.initialise _, fun _ => rfl, fun _ => rfl, fun u w hu => ?_, fun _ => rfl,
      fun _ => List.Pairwise.nil, fun _ => List.Pairwise.nil⟩, rfl, rfl, rfl, rfl,
      (congrArg UInt32.ofNat (Nat.zero_div tickPeriod)).symm, rfl, rfl, rfl, rfl, fun p => ?_,
      Nat.two_pow_pos _, fun u w hu => ?_⟩
    · cases hu
    · refine iff_of_false ?_ ?_
      · unfold Marked initialise
        rw [UInt32.toNat_zero, Nat.zero_testBit]
        exact Bool.false_ne_true
      · rintro ⟨u, hu, -⟩
        cases hu
    · cases hu
  obtain ⟨A, hready⟩ := hempty.addReady (t := t) rfl
  refine ⟨A, _, hready, rfl, fun u => ?_, fun _ => rfl, List.mem_singleton_self t, fun u hu => ?_,
    rfl, rfl⟩
  · by_cases hut : u = t
    · subst hut
      rw [Plan.setStatus_self, if_pos (List.mem_singleton_self u)]
    · rw [Plan.setStatus_of_ne hut, if_neg (mt List.mem_singleton.mp hut)]
  · rw [List.mem_singleton.mp hu]
    exact le_refl _

/-- One task more before the scheduler starts. -/
theorem addTaskAtBoot_follows {A : Contents (ListId ε) (Item τ)} {k : Kernel τ ε} {P : Plan τ ε}
    (h : Follows prio false A k P) {tasks : List τ} (hinit : P.Initial prio tasks) {t : τ}
    (hnew : t ∉ tasks) :
    ∃ A', ∃ P' : Plan τ ε, Follows prio false A' (k.addTaskAtBoot t) P' ∧
      P'.Initial prio (t :: tasks) := by
  have habsent : P.status t = .absent := by
    rw [hinit.status, if_neg hnew]
  have hstatus : ∀ u, (P.setStatus t .ready).status u =
      if u ∈ t :: tasks then Status.ready else .absent := by
    intro u
    by_cases hut : u = t
    · subst hut
      rw [Plan.setStatus_self, if_pos List.mem_cons_self]
    · rw [Plan.setStatus_of_ne hut, hinit.status]
      simp only [List.mem_cons, hut, false_or]
  unfold addTaskAtBoot
  dsimp only
  by_cases hle : k.uxPriority k.pxCurrentTCB ≤ k.uxPriority t
  · -- the new task is the current one
    have hcurrent : Follows prio false A { k with pxCurrentTCB := t } { P with current := t } :=
      { h with
        places := { h.places with state := h.places.state }
        current := rfl }
    obtain ⟨A', h'⟩ := hcurrent.addReady (t := t) habsent
    rw [if_pos hle]
    refine ⟨A', _, h', hinit.now, hstatus, hinit.waits, List.mem_cons_self, fun u hu => ?_,
      hinit.depth, hinit.missed⟩
    rcases List.mem_cons.mp hu with rfl | hold
    · exact le_refl _
    · exact le_trans (hinit.greatest u hold) (h.priority_le.mp hle)
  · obtain ⟨A', h'⟩ := h.addReady habsent
    rw [if_neg hle]
    refine ⟨A', _, h', hinit.now, hstatus, hinit.waits, List.mem_cons_of_mem t hinit.current,
      fun u hu => ?_, hinit.depth, hinit.missed⟩
    rcases List.mem_cons.mp hu with rfl | hold
    · exact le_of_lt (not_le.mp (mt h.priority_le.mpr hle))
    · exact hinit.greatest u hold

variable (prio ε) in
/-- The tasks that are created before the scheduler starts. -/
theorem boot_tracks {first : τ} {rest : List τ} (hnodup : (first :: rest).Nodup) {idle : τ}
    (hidle : idle ∈ first :: rest) :
    ∃ P : Plan τ ε, P.Initial prio (first :: rest) ∧
      Tracks prio idle ⟨boot prio first rest, false⟩ P := by
  -- the tasks behind the first one, in the order in which they are created
  have hboot : ∀ (new seen : List τ) (A : Contents (ListId ε) (Item τ)) (k : Kernel τ ε)
      (P : Plan τ ε), Follows prio false A k P → P.Initial prio seen → (seen ++ new).Nodup →
      ∃ A', ∃ P' : Plan τ ε, Follows prio false A' (new.foldl addTaskAtBoot k) P' ∧
        P'.Initial prio (seen ++ new) := by
    intro new
    induction new with
    | nil =>
        intro seen A k P h hinit _
        rw [List.append_nil]
        exact ⟨A, P, h, hinit⟩
    | cons t new ih =>
        intro seen A k P h hinit hdistinct
        have hperm : (seen ++ t :: new).Perm ((t :: seen) ++ new) := List.perm_middle
        have hmore := hperm.nodup_iff.mp hdistinct
        have hnew : t ∉ seen := fun hmem =>
          (List.nodup_cons.mp hmore).1 (List.mem_append_left new hmem)
        obtain ⟨A₁, P₁, h₁, hinit₁⟩ := addTaskAtBoot_follows h hinit hnew
        obtain ⟨A', P', h', hinit'⟩ := ih (t :: seen) A₁ _ P₁ h₁ hinit₁ hmore
        refine ⟨A', P', h', { hinit' with
          status := fun u => ?_
          current := hperm.mem_iff.mpr hinit'.current
          greatest := fun u hu => hinit'.greatest u (hperm.mem_iff.mp hu) }⟩
        rw [hinit'.status]
        simp only [hperm.mem_iff]
  obtain ⟨A₀, P₀, h₀, hinit₀⟩ := firstTask_follows ε prio first
  obtain ⟨A, P, h, hinit⟩ := hboot rest [first] A₀ _ P₀ h₀ hinit₀ hnodup
  have hready : ∀ t, P.status t = .ready ↔ t ∈ first :: rest := by
    intro t
    rw [hinit.status]
    by_cases ht : t ∈ first :: rest
    · exact iff_of_true (if_pos ht) ht
    · refine iff_of_false ?_ ht
      rw [List.singleton_append, if_neg ht]
      exact fun heq => by cases heq
  refine ⟨P, hinit, ⟨false, A, h⟩, ⟨fun t w ht => ?_, fun t ht => absurd (hinit.waits t) ht,
    fun t ht => ?_, (hready idle).mpr hidle⟩, .inr fun t ht => hinit.greatest t ((hready t).mp ht),
    fun hfalse => ?_, fun _ _ => (hready _).mpr hinit.current⟩
  · rw [hinit.status] at ht
    by_cases hmem : t ∈ [first] ++ rest
    · rw [if_pos hmem] at ht
      cases ht
    · rw [if_neg hmem] at ht
      cases ht
  · rw [hinit.waits t] at ht
    cases ht
  · cases hfalse

end Kernel

/-! ### What is seen of a plan -/

/-- What a plan says of a task. -/
def Plan.state (P : Plan τ ε) (t : τ) : Kernel.TaskState :=
  if t = P.current then
    .running
  else
    match P.status t, P.waits t with
    | .ready, _ => .ready
    | .until _, _ => .blocked
    | .held, .no => .suspended
    | .held, _ => .blocked
    | .absent, _ => .deleted
    | .dying, _ => .deleted

/-- `eTaskGetState` -/
theorem Follows.eTaskGetState {prio : τ → Priority} {d : Bool}
    {A : Contents (ListId ε) (Item τ)} {k : Kernel τ ε} {P : Plan τ ε} (h : Follows prio d A k P)
    (t : τ) : k.eTaskGetState t = P.state t := by
  unfold Kernel.eTaskGetState Plan.state
  rw [h.current]
  by_cases hcur : t = P.current
  · rw [if_pos hcur, if_pos hcur]
  · rw [if_neg hcur, if_neg hcur, h.delayed, h.overflow, h.places.state, h.places.event]
    cases P.status t with
    | absent => simp [Status.list]
    | ready => simp [Status.list]
    | dying => simp [Status.list]
    | held => cases P.waits t <;> simp [Status.list, Waits.list]
    | «until» w =>
        by_cases hw : w / tickPeriod = P.now / tickPeriod
        · simp [Status.list, hw]
        · simp [Status.list, hw]

/-- Whatever calls come, when they can, no assertion fails, and the scheduler follows a plan: every
    task is woken at the tick that it waits for, however often the tick count wraps around, and
    events wake, and context switches choose, a task of the greatest priority. -/
theorem scheduler_refines {prio : τ → Priority} {first : τ} {rest : List τ}
    (hnodup : (first :: rest).Nodup) {idle : τ} (hidle : idle ∈ first :: rest)
    (calls : List (Call τ ε))
    (hallowed : System.Allowed idle ⟨Kernel.boot prio first rest, false⟩ calls) :
    ∃ s, ∃ P₀ P : Plan τ ε,
      Call.runs ⟨Kernel.boot prio first rest, false⟩ calls = some s ∧
        P₀.Initial prio (first :: rest) ∧ Plan.Run prio P₀ calls P ∧
        s.kernel.xTickCount = UInt32.ofNat P.now ∧ s.kernel.pxCurrentTCB = P.current ∧
        ∀ t, s.kernel.eTaskGetState t = P.state t := by
  obtain ⟨P₀, hinit, htracks⟩ := Kernel.boot_tracks ε prio hnodup hidle
  obtain ⟨s, P, hruns, hrun, h⟩ := htracks.runs hallowed
  obtain ⟨d, A, hf⟩ := h.follows
  exact ⟨s, P₀, P, hruns, hinit, hrun, hf.clock, hf.current, fun t => hf.eTaskGetState t⟩

/-- A task that waits for an event for five ticks, while the other one runs. -/
theorem scheduler_refines_wait :
    ∃ s, ∃ P₀ P : Plan (Fin 2) Unit,
      Call.runs ⟨Kernel.boot (Fin.castLE (by decide)) 1 [0], false⟩
          [.wait () 5, .tick, .leave, .switch, .tick, .wake (), .yield, .switch] = some s ∧
        P₀.Initial (Fin.castLE (by decide)) [1, 0] ∧
        Plan.Run (Fin.castLE (by decide)) P₀
          [.wait () 5, .tick, .leave, .switch, .tick, .wake (), .yield, .switch] P ∧
        s.kernel.xTickCount = UInt32.ofNat P.now ∧ s.kernel.pxCurrentTCB = P.current ∧
        ∀ t, s.kernel.eTaskGetState t = P.state t :=
  scheduler_refines (by decide) (show (0 : Fin 2) ∈ [1, 0] by decide)
    [.wait () 5, .tick, .leave, .switch, .tick, .wake (), .yield, .switch] (by decide)

/-- Whenever the running task is in its own code and no context switch is asked for, it is ready,
    and no task in a ready list has a greater priority. -/
theorem running_highest {prio : τ → Priority} {first : τ} {rest : List τ}
    (hnodup : (first :: rest).Nodup) {idle : τ} (hidle : idle ∈ first :: rest)
    (calls : List (Call τ ε))
    (hallowed : System.Allowed idle ⟨Kernel.boot prio first rest, false⟩ calls) :
    ∃ s : System τ ε, Call.runs ⟨Kernel.boot prio first rest, false⟩ calls = some s ∧
      (s.InTask → s.kernel.xYieldPending = false →
        s.kernel.lists.pvContainer (.state s.kernel.pxCurrentTCB) =
          some (.ready (prio s.kernel.pxCurrentTCB)) ∧
        ∀ t p, s.kernel.lists.pvContainer (.state t) = some (.ready p) →
          p ≤ prio s.kernel.pxCurrentTCB) := by
  obtain ⟨P₀, hinit, htracks⟩ := Kernel.boot_tracks ε prio hnodup hidle
  obtain ⟨s, P, hruns, -, h⟩ := htracks.runs hallowed
  obtain ⟨d, A, hf⟩ := h.follows
  refine ⟨s, hruns, fun hin hyield => ?_⟩
  rw [hf.current]
  constructor
  · rw [hf.places.state, h.current_ready hin]
    rfl
  · intro t p ht
    obtain ⟨u, heq, hready, rfl⟩ :=
      hf.places.mem_ready.mp ((hf.places.holds.container _ _).mp ht)
    have hgreatest := h.settled
    rw [hin.2, hyield] at hgreatest
    rcases hgreatest with hfalse | hall
    · cases hfalse
    · exact hall u hready

/-- An event wakes the task of the greater priority, and it runs. -/
theorem running_highest_woken :
    ∃ s : System (Fin 2) Unit,
      Call.runs ⟨Kernel.boot (Fin.castLE (by decide)) 1 [0], false⟩
          [.wait () 5, .leave, .switch, .wake (), .tick, .switch] = some s ∧
      (s.InTask → s.kernel.xYieldPending = false →
        s.kernel.lists.pvContainer (.state s.kernel.pxCurrentTCB) =
          some (.ready (Fin.castLE (by decide) s.kernel.pxCurrentTCB)) ∧
        ∀ t p, s.kernel.lists.pvContainer (.state t) = some (.ready p) →
          p ≤ Fin.castLE (by decide) s.kernel.pxCurrentTCB) :=
  running_highest (by decide) (show (0 : Fin 2) ∈ [1, 0] by decide)
    [.wait () 5, .leave, .switch, .wake (), .tick, .switch] (by decide)

end Rtos

end RtosLwip
