import RtosLwip.Rtos.Dispatch

/-!
# Ticks

`xTaskIncrementTick`: every task is made ready at the tick that it waits for, also if the
tick count wraps around in between. The list of the tasks that are due is empty as it
wraps, so that the two lists can change places.

A task that becomes ready and is not of a lower priority than the running one makes the
function ask for a context switch.

## Main definitions

* `Settled`: A context switch is asked for, or nobody of a greater priority is ready.

## Theorems

* `Follows.unblockTasks`: The loop over the tasks that are due.
* `Follows.xTaskIncrementTick`, `Follows.catchUpTicks`: One tick, and many.
-/

namespace RtosLwip

namespace Rtos

variable {τ ε : Type}

/-- A context switch is asked for, unless no ready task has a greater priority than the current
    one. -/
def Settled (prio : τ → Priority) (asked : Bool) (P : Plan τ ε) : Prop :=
  asked = true ∨ ∀ t, P.status t = .ready → prio t ≤ prio P.current

namespace Settled

variable {prio : τ → Priority} {asked : Bool} {P : Plan τ ε} {t : τ}

/-- It may be asked for at any time. -/
theorem mono (h : Settled prio asked P) {more : Bool} (hmore : asked = true → more = true) :
    Settled prio more P := h.imp_left hmore

variable [DecidableEq τ]

/-- A task of no greater priority becomes ready. -/
theorem setReady_of_le (h : Settled prio asked P) (hle : prio t ≤ prio P.current) :
    Settled prio asked (P.setStatus t .ready) := by
  refine h.imp_right fun hall u hu => ?_
  by_cases hut : u = t
  · subst hut
    exact hle
  · rw [Plan.setStatus_of_ne hut] at hu
    exact hall u hu

/-- A task becomes ready, and it is asked for if the task is not of a lower priority. -/
theorem setReady (h : Settled prio asked P) :
    Settled prio (asked || prio P.current ≤ prio t) (P.setStatus t .ready) := by
  by_cases hle : prio P.current ≤ prio t
  · left
    rw [decide_eq_true hle, Bool.or_true]
  · rw [decide_eq_false hle, Bool.or_false]
    exact h.setReady_of_le (le_of_lt (not_le.mp hle))

/-- Fewer tasks are ready. -/
theorem setStatus (h : Settled prio asked P) {status : Status} (hne : status ≠ .ready) :
    Settled prio asked (P.setStatus t status) := by
  refine h.imp_right fun hall u hu => ?_
  by_cases hut : u = t
  · subst hut
    rw [Plan.setStatus_self] at hu
    exact absurd hu hne
  · rw [Plan.setStatus_of_ne hut] at hu
    exact hall u hu

end Settled

namespace Follows

variable {prio : τ → Priority} {d : Bool} {A : Contents (ListId ε) (Item τ)} {k : Kernel τ ε}
  {P : Plan τ ε}

/-- The lists of the tasks are the same ones until the tick count wraps around. -/
theorem places_now (h : Follows prio d A k P)
    (hsame : (P.now + 1) / tickPeriod = P.now / tickPeriod) :
    Places prio d k.lists A { P with now := P.now + 1 } := by
  refine { h.places with state := fun t => ?_ }
  rw [h.places.state]
  cases P.status t <;> simp [Status.list, hsame]

/-- As the tick count wraps around the two lists of delayed tasks change their places. -/
theorem places_wrap (h : Follows prio d A k P)
    (htimely : ∀ t w, P.status t = .until w →
      P.now < w ∧ w / tickPeriod ≤ P.now / tickPeriod + 1)
    (hwrap : (P.now + 1) / tickPeriod = P.now / tickPeriod + 1) :
    Places prio (!d) k.lists A { P with now := P.now + 1 } := by
  refine { h.places with state := fun t => ?_ }
  rw [h.places.state]
  cases hst : P.status t with
  | absent => rfl
  | ready => rfl
  | held => rfl
  | dying => rfl
  | «until» w =>
      obtain ⟨hlt, hle⟩ := htimely t w hst
      have hnext : w / tickPeriod = P.now / tickPeriod + 1 := by
        unfold tickPeriod at hle hwrap ⊢
        omega
      have hne : w / tickPeriod ≠ P.now / tickPeriod := by omega
      dsimp only [Status.list]
      rw [if_neg hne, if_pos (hnext.trans hwrap.symm)]

/-- The clock goes on, before anybody is woken. -/
theorem advanceClock (h : Follows prio d A k P)
    (htimely : ∀ t w, P.status t = .until w →
      P.now < w ∧ w / tickPeriod ≤ P.now / tickPeriod + 1) :
    ∃ k₁ d₁, (if k.xTickCount + 1 = 0 then
        Kernel.taskSwitchDelayedLists { k with xTickCount := k.xTickCount + 1 }
      else some { k with xTickCount := k.xTickCount + 1 }) = some k₁ ∧
      Follows prio d₁ A k₁ { P with now := P.now + 1 } ∧
      k₁.pendSV = k.pendSV ∧ k₁.xYieldPending = k.xYieldPending := by
  have hclock : k.xTickCount + 1 = UInt32.ofNat (P.now + 1) := by
    rw [h.clock, UInt32.ofNat_add]
    rfl
  have hzero : k.xTickCount + 1 = 0 ↔ (P.now + 1) % tickPeriod = 0 := by
    rw [hclock, ← UInt32.toNat_inj, UInt32.toNat_ofNat']
    rfl
  by_cases hwrap : k.xTickCount + 1 = 0
  · have hperiod : (P.now + 1) / tickPeriod = P.now / tickPeriod + 1 := by
      have hmod := hzero.mp hwrap
      unfold tickPeriod at hmod ⊢
      omega
    -- whoever is not due until the tick count wraps around is in the other list
    have hempty : k.length k.pxDelayedTaskList = 0 := by
      rw [h.length_eq, h.delayed, List.length_eq_zero_iff, List.eq_nil_iff_forall_not_mem]
      intro i hi
      obtain ⟨t, w, -, hst, hlist⟩ := h.places.mem_delayed.mp hi
      obtain ⟨hlt, -⟩ := htimely t w hst
      have hne : w / tickPeriod ≠ P.now / tickPeriod := by
        unfold tickPeriod at hperiod ⊢
        omega
      rw [if_neg hne] at hlist
      cases d <;> cases hlist
    have h₁ : Follows prio (!d) A { k with
        pxDelayedTaskList := k.pxOverflowDelayedTaskList
        pxOverflowDelayedTaskList := k.pxDelayedTaskList
        xTickCount := k.xTickCount + 1
        xNumOfOverflows := k.xNumOfOverflows + 1
        xNextTaskUnblockTime := 0 } { P with now := P.now + 1 } :=
      { h with
        places := h.places_wrap htimely hperiod
        delayed := h.overflow
        overflow := by rw [Bool.not_not]; exact h.delayed
        clock := hclock
        wraps := by rw [h.wraps, hperiod, UInt32.ofNat_add]; rfl
        bound := fun t w _ _ => Nat.zero_le _ }
    obtain ⟨next, hreset, h₂⟩ := h₁.prvResetNextTaskUnblockTime
    refine ⟨_, !d, ?_, h₂, rfl, rfl⟩
    rw [if_pos hwrap]
    unfold Kernel.taskSwitchDelayedLists
    exact (if_pos hempty).trans hreset
  · have hperiod : (P.now + 1) / tickPeriod = P.now / tickPeriod := by
      have hmod := mt hzero.mpr hwrap
      unfold tickPeriod at hmod ⊢
      omega
    refine ⟨_, d, if_neg hwrap, ?_, rfl, rfl⟩
    exact { h with
      places := h.places_now hperiod
      clock := hclock
      wraps := by rw [h.wraps, hperiod]
      bound := fun t w hst hw => h.bound t w hst (hw.trans hperiod) }

variable [DecidableEq τ]

/-- A task that leaves the list of delayed tasks makes it shorter. -/
theorem length_delayed (h : Follows prio d A k P) {t : τ} {w : Nat} (hst : P.status t = .until w)
    (hperiod : w / tickPeriod = P.now / tickPeriod) {A' : Contents (ListId ε) (Item τ)}
    {k' : Kernel τ ε} (h' : Follows prio d A' k' (P.moveTo t .ready)) :
    k.length k.pxDelayedTaskList = k'.length k'.pxDelayedTaskList + 1 := by
  rw [h.length_eq, h'.length_eq, h.delayed, h'.delayed]
  have hmoved : (P.moveTo t .ready).status t = .ready := Plan.setStatus_self _
  have hother : ∀ u, u ≠ t → (P.moveTo t .ready).status u = P.status u := fun u hu =>
    Plan.setStatus_of_ne hu _
  refine h.places.holds.length_succ h'.places.holds (i := .state t) (fun i => ?_) fun hmem => ?_
  · rw [h.places.mem_delayed, h'.places.mem_delayed]
    constructor
    · rintro ⟨u, v, rfl, hu, hv⟩
      by_cases hut : u = t
      · exact .inl (by rw [hut])
      · exact .inr ⟨u, v, rfl, (hother u hut).trans hu, hv⟩
    · rintro (rfl | ⟨u, v, rfl, hu, hv⟩)
      · exact ⟨t, w, rfl, hst, if_pos hperiod⟩
      · have hut : u ≠ t := by
          rintro rfl
          rw [hmoved] at hu
          cases hu
        exact ⟨u, v, rfl, (hother u hut).symm.trans hu, hv⟩
  · obtain ⟨u, v, heq, hu, -⟩ := h'.places.mem_delayed.mp hmem
    obtain rfl := Item.state.inj heq
    rw [hmoved] at hu
    cases hu

variable [DecidableEq ε]

/-- A task that is due leaves its lists and becomes ready. -/
theorem unblock (h : Follows prio d A k P) {t : τ} {w : Nat} (hst : P.status t = .until w) :
    ∃ n lists lists' A', k.removeItem (.state t) = some (n, { k with lists := lists }) ∧
      Kernel.removeEvent { k with lists := lists } t = some { k with lists := lists' } ∧
      Follows prio d A' (Kernel.prvAddTaskToReadyList { k with lists := lists' } t)
        (P.moveTo t .ready) := by
  have hne : ∀ status, status = P.status t → status = .until w := fun _ heq => heq.trans hst
  obtain ⟨n, lists, A₁, hrun, h₁⟩ := h.removeState
    (fun heq => by cases hne _ heq.symm) (fun heq => by cases hne _ heq.symm)
    fun heq => by cases hne _ heq.symm
  obtain ⟨lists', A₂, hevent, h₂⟩ := h₁.removeEvent t
  obtain ⟨A₃, h₃⟩ := h₂.addReady (t := t) (Plan.setStatus_self _)
  rw [Plan.setStatus_setWaits_setStatus] at h₃
  exact ⟨n, lists, lists', A₃, hrun, hevent, h₃⟩

/-- The loop takes the tasks that are due from the head of the list, and stops at the first one
    that is not. -/
theorem unblockTasks (h : Follows prio d A k P)
    (hdue : ∀ t w, P.status t = .until w → P.now ≤ w) (b : Bool) {fuel : Nat}
    (hfuel : k.length k.pxDelayedTaskList < fuel) :
    ∃ b' k' A', Kernel.unblockTasks fuel b k = some (b', k') ∧ Follows prio d A' k' P.expire ∧
      k'.pendSV = k.pendSV ∧ k'.xYieldPending = k.xYieldPending ∧
      ∀ a, Settled prio (a || b) P → Settled prio (a || b') P.expire := by
  induction fuel generalizing b k P A with
  | zero => exact absurd hfuel (Nat.not_lt_zero _)
  | succ fuel ih =>
      rw [Kernel.unblockTasks]
      by_cases hempty : k.length k.pxDelayedTaskList = 0
      · have hsame : P.expire = P :=
          Plan.expire_eq fun u hu => h.no_delayed hempty hu rfl
        rw [if_pos hempty, hsame]
        refine ⟨b, _, A, rfl, { h with bound := fun u w hu hw => ?_ }, rfl, rfl, fun _ hs => hs⟩
        exact absurd hw (h.no_delayed hempty hu)
      · obtain ⟨t, w, hhead, hst, hperiod, hvalue, hfirst⟩ := h.head_delayed hempty
        simp only [if_neg hempty, hhead, Option.bind_eq_bind, Option.bind_some]
        have hless : k.xTickCount < k.lists.xItemValue (.item (.state t)) ↔
            P.now % tickPeriod < w % tickPeriod := by
          rw [h.clock, hvalue, UInt32.lt_iff_toNat_lt, UInt32.toNat_ofNat', UInt32.toNat_ofNat']
          rfl
        by_cases hlt : k.xTickCount < k.lists.xItemValue (.item (.state t))
        · -- the first one is not due, and so nobody is
          have hsame : P.expire = P := by
            refine Plan.expire_eq fun u hu => ?_
            exact absurd (hfirst u _ hu rfl) (Nat.not_le_of_lt (hless.mp hlt))
          rw [if_pos hlt, hsame]
          refine ⟨b, _, A, rfl, { h with bound := fun u v hu hv => ?_ }, rfl, rfl, fun _ hs => hs⟩
          dsimp only
          rw [hvalue, UInt32.toNat_ofNat']
          exact hfirst u v hu hv
        · have hw : w = P.now := by
            have hle := hdue t w hst
            rw [hless] at hlt
            unfold tickPeriod at hperiod hlt
            omega
          subst hw
          obtain ⟨n, lists, lists', A₁, hremove, hevent, h₁⟩ := h.unblock hst
          have hshorter := h.length_delayed hst hperiod h₁
          have hdue₁ : ∀ u w, (P.moveTo t .ready).status u = .until w → P.now ≤ w := by
            intro u w hu
            by_cases hut : u = t
            · subst hut
              rw [Plan.moveTo, Plan.setWaits_status, Plan.setStatus_self] at hu
              cases hu
            · rw [Plan.moveTo, Plan.setWaits_status, Plan.setStatus_of_ne hut] at hu
              exact hdue u w hu
          obtain ⟨b', k', A', hloop, hk', hpend, hyield, hsettled⟩ := ih h₁ hdue₁
            (b || k.uxPriority k.pxCurrentTCB ≤ k.uxPriority t) (by omega)
          rw [Plan.expire_moveTo hst] at hk' hsettled
          rw [if_neg hlt, hremove]
          simp only [Option.bind_some, hevent]
          refine ⟨b', k', A', hloop, hk', hpend, hyield, fun a hs => hsettled a ?_⟩
          rw [← Bool.or_assoc, h.priority, h.current]
          exact hs.setReady

/-- `xTaskIncrementTick` while the scheduler is not suspended. -/
theorem advanceTick (h : Follows prio d A k P) {idle : τ} (hsound : P.Sound idle) :
    ∃ b k' d' A', k.advanceTick = some (b, k') ∧ Follows prio d' A' k' P.advance ∧
      k'.pendSV = k.pendSV ∧ k'.xYieldPending = k.xYieldPending ∧
      ∀ a, Settled prio a P → Settled prio (a || b) P.advance := by
  obtain ⟨k₁, d₁, hclock, h₁, hpend₁, hyield₁⟩ := h.advanceClock hsound.timely
  unfold Kernel.advanceTick
  simp only [Option.bind_eq_bind, Option.pure_def, hclock, Option.bind_some]
  by_cases hnext : k₁.xNextTaskUnblockTime ≤ k₁.xTickCount
  · obtain ⟨b, k', A', hloop, hk', hpend, hyield, hsettled⟩ := h₁.unblockTasks
      (fun t w hst => (hsound.timely t w hst).1) false (Nat.lt_succ_self _)
    rw [if_pos hnext, hloop]
    refine ⟨_, k', d₁, A', rfl, hk', hpend.trans hpend₁, hyield.trans hyield₁, fun a hs => ?_⟩
    have hrun := hsettled a (by rw [Bool.or_false]; exact hs)
    refine hrun.mono fun hasked => ?_
    rw [← Bool.or_assoc, hasked, Bool.true_or]
  · -- the next task is due later
    have hsame : P.advance = { P with now := P.now + 1 } := by
      refine Plan.expire_eq fun u hu => hnext ?_
      have hbound := h₁.bound u _ hu rfl
      rw [UInt32.le_iff_toNat_le, h₁.clock, UInt32.toNat_ofNat']
      exact hbound
    rw [if_neg hnext, hsame]
    refine ⟨_, k₁, d₁, A, rfl, h₁, hpend₁, hyield₁, fun a hs => ?_⟩
    have hrun : Settled prio a { P with now := P.now + 1 } := hs
    refine hrun.mono fun hasked => ?_
    rw [hasked, Bool.true_or]

/-- `xTaskIncrementTick`. A tick that is to be made up for is counted. -/
theorem xTaskIncrementTick (h : Follows prio d A k P) {idle : τ} (hsound : P.Sound idle)
    (hwrap : k.uxSchedulerSuspended ≠ 0 → k.uxPendedTicks + 1 ≠ 0) :
    ∃ b k' d' A', k.xTaskIncrementTick = some (b, k') ∧ Follows prio d' A' k' P.tick ∧
      k'.pendSV = k.pendSV ∧ k'.xYieldPending = k.xYieldPending ∧
      (k.xYieldPending = true → b = true) ∧
      ∀ a, Settled prio a P → Settled prio (a || b) P.tick := by
  unfold Kernel.xTaskIncrementTick Plan.tick
  by_cases hopen : k.uxSchedulerSuspended = 0
  · obtain ⟨b, k', d', A', hrun, hk', hpend, hyield, hsettled⟩ := h.advanceTick hsound
    simp only [if_pos hopen, if_pos (h.open_iff.mp hopen), hrun, Option.bind_eq_bind,
      Option.bind_some, Option.pure_def]
    refine ⟨_, k', d', A', rfl, hk', hpend, hyield, fun hasked => ?_, fun a hs => ?_⟩
    · rw [hyield, hasked, Bool.or_true]
    · refine (hsettled a hs).mono fun hasked => ?_
      rw [← Bool.or_assoc, hasked, Bool.true_or]
  · have hlocked : P.depth ≠ 0 := fun heq => hopen (h.open_iff.mpr heq)
    simp only [if_neg hopen, if_neg hlocked, Option.bind_eq_bind, Option.bind_some,
      Option.pure_def]
    refine ⟨_, _, d, A, rfl, ?_, rfl, rfl, fun hasked => ?_, fun a hs => ?_⟩
    · exact { h with
        places := { h.places with state := h.places.state }
        missed := by rw [toNat_succ (hwrap hopen), h.missed] }
    · rw [hasked, Bool.or_true]
    · have hrun : Settled prio a { P with missed := P.missed + 1 } := hs
      refine hrun.mono fun hasked => ?_
      rw [hasked, Bool.true_or]

/-- `xPortSysTickHandler` -/
theorem xPortSysTickHandler (h : Follows prio d A k P) {idle : τ} (hsound : P.Sound idle)
    (hwrap : k.uxSchedulerSuspended ≠ 0 → k.uxPendedTicks + 1 ≠ 0)
    (hsettled : Settled prio (k.pendSV || k.xYieldPending) P) :
    ∃ k' d' A', k.xPortSysTickHandler = some k' ∧ Follows prio d' A' k' P.tick ∧
      (k'.pendSV = false → k.pendSV = false) ∧
      Settled prio (k'.pendSV || k'.xYieldPending) P.tick := by
  obtain ⟨b, k', d', A', hrun, hk', hpend, hyield, -, hs⟩ := h.xTaskIncrementTick hsound hwrap
  have hafter := hs _ hsettled
  unfold Kernel.xPortSysTickHandler
  rw [hrun]
  cases b with
  | true =>
      refine ⟨k'.portYield, d', A', rfl, hk'.flags k'.xYieldPending true, ?_, .inl rfl⟩
      intro hfalse
      cases hfalse
  | false =>
      refine ⟨k', d', A', rfl, hk', fun hfalse => hpend.symm.trans hfalse, ?_⟩
      rw [hpend, hyield]
      refine hafter.mono fun hasked => ?_
      rw [Bool.or_false] at hasked
      exact hasked

/-- The ticks that were counted while the scheduler was suspended. -/
theorem catchUpTicks (h : Follows prio d A k P) {idle : τ} (hsound : P.Sound idle)
    (hopen : P.depth = 0) (n : Nat) :
    ∃ k' d' A', Kernel.catchUpTicks n k = some k' ∧ Follows prio d' A' k' (Plan.advances n P) ∧
      k'.pendSV = k.pendSV ∧
      ∀ a, Settled prio (a || k.xYieldPending) P →
        Settled prio (a || k'.xYieldPending) (Plan.advances n P) := by
  induction n generalizing k P d A with
  | zero => exact ⟨k, d, A, rfl, h, rfl, fun _ hs => hs⟩
  | succ n ih =>
      obtain ⟨b, k₁, d₁, A₁, hrun, h₁, hpend, hyield, -, hs₁⟩ :=
        h.xTaskIncrementTick hsound fun hlocked => absurd (h.open_iff.mpr hopen) hlocked
      have htick : P.tick = P.advance := if_pos hopen
      rw [htick] at h₁ hs₁
      rw [Kernel.catchUpTicks, hrun]
      simp only [Option.bind_eq_bind, Option.bind_some]
      cases b with
      | true =>
          have h₂ := h₁.flags true k₁.pendSV
          obtain ⟨k', d', A', hloop, hk', hpend', hs'⟩ := ih h₂ hsound.advance hopen
          refine ⟨k', d', A', hloop, hk', hpend'.trans hpend, fun a hs => hs' a (.inl ?_)⟩
          exact Bool.or_true a
      | false =>
          obtain ⟨k', d', A', hloop, hk', hpend', hs'⟩ := ih h₁ hsound.advance hopen
          refine ⟨k', d', A', hloop, hk', hpend'.trans hpend, fun a hs => hs' a ?_⟩
          have hafter := hs₁ _ hs
          rw [Bool.or_false] at hafter
          rw [hyield]
          exact hafter

end Follows

end Rtos

end RtosLwip
