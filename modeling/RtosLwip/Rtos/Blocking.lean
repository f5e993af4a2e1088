import RtosLwip.Rtos.Ticks

/-!
# Tasks That Block and Tasks That Are Woken

What the functions of the scheduler do to a plan, as long as they are called for a task
for which they make sense: a task that blocks is ready, and a task that an event wakes
waits for it.

A task whose tick comes before the tick count wraps around goes to one list, and a task
whose tick comes behind to the other one. The comparison with the tick count tells which.

## Theorems

* `Follows.prvAddCurrentTaskToDelayedList`, `Follows.vTaskPlaceOnEventList`: Blocking.
* `Follows.xTaskRemoveFromEventList`: The task of the greatest priority is woken.
* `Follows.xTaskResumeAll`: What was put off is done.
* `Follows.vTaskSuspend`, `Follows.vTaskResume`, `Follows.vTaskDelete`: The rest.
-/

namespace RtosLwip

namespace Rtos

namespace Follows

variable {τ ε : Type} [DecidableEq τ] [DecidableEq ε] {prio : τ → Priority} {d : Bool}
  {A : Contents (ListId ε) (Item τ)} {k : Kernel τ ε} {P : Plan τ ε}

/-! ### Blocking -/

/-- A task that is in no list goes to the list of its wake time. -/
theorem insertDelayed (h : Follows prio d A k P) (habsent : P.status P.current = .absent) {w : Nat}
    (hlow : P.now < w) (hhigh : w < P.now + tickPeriod) :
    ∃ k' A', k.insertDelayed (UInt32.ofNat w) = some k' ∧
      Follows prio d A' k' (P.setStatus P.current (.until w)) ∧
      k'.pendSV = k.pendSV ∧ k'.xYieldPending = k.xYieldPending := by
  obtain ⟨lists, A', hrun, hplaces⟩ := h.places.addUntil habsent w
  have hdying : P.status P.current = .dying ↔ Status.until w = .dying := by
    rw [habsent]
    exact iff_of_false (fun heq => by cases heq) fun heq => by cases heq
  have hready : P.status P.current ≠ .ready := by
    rw [habsent]
    exact fun heq => by cases heq
  have hless : UInt32.ofNat w < k.xTickCount ↔ w % tickPeriod < P.now % tickPeriod := by
    rw [h.clock, UInt32.lt_iff_toNat_lt, UInt32.toNat_ofNat', UInt32.toNat_ofNat']
    rfl
  unfold Kernel.insertDelayed
  by_cases hwrap : UInt32.ofNat w < k.xTickCount
  · -- the tick count wraps around first
    have hother : w / tickPeriod ≠ P.now / tickPeriod := by
      have hmod := hless.mp hwrap
      unfold tickPeriod at hhigh hmod ⊢
      omega
    rw [if_neg hother, ← h.overflow, ← h.current] at hrun
    rw [if_pos hwrap, hrun]
    refine ⟨_, A', rfl, ?_, rfl, rfl⟩
    refine h.setStatus hplaces (h.marked_setStatus hready fun heq => by cases heq) h.top hdying ?_
    intro v heq hperiod
    obtain rfl := Status.until.inj heq
    exact absurd hperiod hother
  · have hsame : w / tickPeriod = P.now / tickPeriod := by
      have hmod := mt hless.mpr hwrap
      unfold tickPeriod at hhigh hmod ⊢
      omega
    rw [if_pos hsame, ← h.delayed, ← h.current] at hrun
    rw [if_neg hwrap, hrun]
    -- the next unblock time is not later than the new wake time
    have hnext : Follows prio d A { k with
        xNextTaskUnblockTime :=
          if UInt32.ofNat w < k.xNextTaskUnblockTime then UInt32.ofNat w
          else k.xNextTaskUnblockTime } P := by
      refine { h with bound := fun u v hu hv => ?_ }
      refine le_trans ?_ (h.bound u v hu hv)
      dsimp only
      by_cases hmin : UInt32.ofNat w < k.xNextTaskUnblockTime
      · rw [if_pos hmin]
        exact Nat.le_of_lt (UInt32.lt_iff_toNat_lt.mp hmin)
      · rw [if_neg hmin]
    refine ⟨_, A', rfl, hnext.setStatus hplaces
      (h.marked_setStatus hready fun heq => by cases heq) h.top hdying ?_, rfl, rfl⟩
    intro v heq hperiod
    obtain rfl := Status.until.inj heq
    dsimp only
    by_cases hmin : UInt32.ofNat w < k.xNextTaskUnblockTime
    · rw [if_pos hmin, UInt32.toNat_ofNat']
      exact le_refl _
    · rw [if_neg hmin]
      have hle := UInt32.le_iff_toNat_le.mp (UInt32.not_lt.mp hmin)
      rw [UInt32.toNat_ofNat'] at hle
      exact hle

/-- `prvAddCurrentTaskToDelayedList` -/
theorem prvAddCurrentTaskToDelayedList (h : Follows prio d A k P)
    (hready : P.status P.current = .ready) {n : UInt32} (hpos : 0 < n) (forever : Bool) :
    ∃ k' A', k.prvAddCurrentTaskToDelayedList n forever = some k' ∧
      Follows prio d A' k' (P.setStatus P.current
        (if n = portMaxDelay ∧ forever = true then .held else .until (P.now + n.toNat))) ∧
      k'.pendSV = k.pendSV ∧ k'.xYieldPending = k.xYieldPending := by
  obtain ⟨m, lists, bits, A₁, hremove, -, hbits, h₁⟩ := h.removeAny (t := P.current)
    (by rw [hready]; exact fun heq => by cases heq) (by rw [hready]; exact fun heq => by cases heq)
  have hcode : (if m = 0 then
      { k with
        lists := lists
        uxTopReadyPriority := portResetReadyPriority (k.uxPriority k.pxCurrentTCB)
          k.uxTopReadyPriority }
      else { k with lists := lists }) = { k with lists := lists, uxTopReadyPriority := bits } := by
    rw [hbits hready, h.current, h.priority]
    by_cases hm : m = 0
    · rw [if_pos hm, if_pos hm]
    · rw [if_neg hm, if_neg hm]
  have hself : (P.setStatus P.current .absent).status P.current = .absent := Plan.setStatus_self _
  unfold Kernel.prvAddCurrentTaskToDelayedList
  rw [← h.current] at hremove
  rw [hremove]
  simp only [Option.bind_eq_bind, Option.bind_some, Option.pure_def, hcode]
  by_cases hend : n = portMaxDelay ∧ forever = true
  · obtain ⟨A₂, h₂⟩ := h₁.addHeld (t := P.current) hself
    rw [if_pos hend, if_pos hend]
    rw [Plan.setStatus_setStatus] at h₂
    refine ⟨_, A₂, rfl, ?_, rfl, rfl⟩
    have hitem : Item.state k.pxCurrentTCB = .state P.current := congrArg Item.state h.current
    rw [hitem]
    exact h₂
  · rw [if_neg hend, if_neg hend]
    have hn : 0 < n.toNat := UInt32.lt_iff_toNat_lt.mp hpos
    have hlt : n.toNat < tickPeriod := n.toNat_lt
    have hwake : k.xTickCount + n = UInt32.ofNat (P.now + n.toNat) := by
      rw [h.clock, UInt32.ofNat_add, UInt32.ofNat_toNat]
    obtain ⟨k', A', hrun, hk', hpend, hyield⟩ := h₁.insertDelayed hself (w := P.now + n.toNat)
      (Nat.lt_add_of_pos_right hn) (Nat.add_lt_add_left hlt _)
    rw [hwake]
    rw [Plan.setStatus_current, Plan.setStatus_setStatus] at hk'
    exact ⟨k', A', hrun, hk', hpend, hyield⟩

/-- `vTaskPlaceOnEventList` -/
theorem vTaskPlaceOnEventList (h : Follows prio d A k P) (hready : P.status P.current = .ready)
    (hno : P.waits P.current = .no) (e : ε) {n : UInt32} (hpos : 0 < n) :
    ∃ k' A', k.vTaskPlaceOnEventList e n = some k' ∧
      Follows prio d A' k' ((P.setStatus P.current
        (if n = portMaxDelay then .held else .until (P.now + n.toNat))).setWaits P.current (.on e)) ∧
      k'.pendSV = k.pendSV ∧ k'.xYieldPending = k.xYieldPending := by
  obtain ⟨lists, A₁, hrun, hplaces⟩ := h.places.addEvent hno e
  have h₁ := h.setWaits hplaces
  obtain ⟨k', A', hblock, hk', hpend, hyield⟩ := h₁.prvAddCurrentTaskToDelayedList hready hpos true
  rw [← h.current] at hrun
  unfold Kernel.vTaskPlaceOnEventList
  rw [hrun]
  refine ⟨k', A', hblock, ?_, hpend, hyield⟩
  simp only [and_true] at hk'
  exact hk'

/-! ### The end of a time without scheduling -/

omit [DecidableEq ε] in
/-- A task that was woken leaves the pending ones. -/
theorem length_pending (h : Follows prio d A k P) {t : τ} (hw : P.waits t = .woken)
    {A' : Contents (ListId ε) (Item τ)} {k' : Kernel τ ε}
    (h' : Follows prio d A' k' (P.moveTo t .ready)) :
    k.length .pendingReady = k'.length .pendingReady + 1 := by
  rw [h.length_eq, h'.length_eq]
  have hmoved : (P.moveTo t .ready).waits t = .no := Plan.setWaits_self _
  have hother : ∀ u, u ≠ t → (P.moveTo t .ready).waits u = P.waits u := fun u hu =>
    Plan.setWaits_of_ne hu _
  refine h.places.holds.length_succ h'.places.holds (i := .event t) (fun i => ?_) fun hmem => ?_
  · rw [h.places.mem_pending, h'.places.mem_pending]
    constructor
    · rintro ⟨u, rfl, hu⟩
      by_cases hut : u = t
      · exact .inl (by rw [hut])
      · exact .inr ⟨u, rfl, (hother u hut).trans hu⟩
    · rintro (rfl | ⟨u, rfl, hu⟩)
      · exact ⟨t, rfl, hw⟩
      · have hut : u ≠ t := by
          rintro rfl
          rw [hmoved] at hu
          cases hu
        exact ⟨u, rfl, (hother u hut).symm.trans hu⟩
  · obtain ⟨u, heq, hu⟩ := h'.places.mem_pending.mp hmem
    obtain rfl := Item.event.inj heq
    rw [hmoved] at hu
    cases hu

/-- A blocked task leaves the list of its event and its own list, and is made ready. -/
theorem wakeUp (h : Follows prio d A k P) {t : τ} (hw : P.waits t ≠ .no)
    (hblocked : P.status t = .held ∨ ∃ w, P.status t = .until w) :
    ∃ n m lists lists' A', k.removeItem (.event t) = some (n, { k with lists := lists }) ∧
      Kernel.removeItem { k with lists := lists } (.state t) =
        some (m, { k with lists := lists' }) ∧
      Follows prio d A' (Kernel.prvAddTaskToReadyList { k with lists := lists' } t)
        (P.moveTo t .ready) := by
  have hnot : ∀ status, P.status t = status → status = .held ∨ ∃ w, status = .until w :=
    fun _ heq => heq ▸ hblocked
  obtain ⟨n, lists, A₁, hevent, hplaces⟩ := h.places.removeEvent hw
  obtain ⟨m, lists', A₂, hremove, h₂⟩ := (h.setWaits hplaces).removeState (t := t)
    (fun heq => by rcases hnot _ heq with hc | ⟨w, hc⟩ <;> cases hc)
    (fun heq => by rcases hnot _ heq with hc | ⟨w, hc⟩ <;> cases hc)
    fun heq => by rcases hnot _ heq with hc | ⟨w, hc⟩ <;> cases hc
  obtain ⟨A₃, h₃⟩ := h₂.addReady (t := t) (Plan.setStatus_self _)
  rw [Plan.setStatus_setStatus] at h₃
  refine ⟨n, m, lists, lists', A₃, ?_, hremove, h₃⟩
  rw [Kernel.removeItem, hevent]
  rfl

/-- The loop over the tasks that were woken. -/
theorem movePendingReady (h : Follows prio d A k P)
    (hblocked : ∀ t, P.waits t = .woken → P.status t = .held ∨ ∃ w, P.status t = .until w)
    {fuel : Nat} (hfuel : k.length .pendingReady < fuel) :
    ∃ k' A', Kernel.movePendingReady fuel k = some k' ∧ Follows prio d A' k' P.release ∧
      k'.pendSV = k.pendSV ∧
      ∀ a, Settled prio (a || k.xYieldPending) P →
        Settled prio (a || k'.xYieldPending) P.release := by
  induction fuel generalizing k P A with
  | zero => exact absurd hfuel (Nat.not_lt_zero _)
  | succ fuel ih =>
      rw [Kernel.movePendingReady]
      by_cases hempty : k.length .pendingReady = 0
      · have hsame : P.release = P := by
          refine Plan.release_eq fun u hu => ?_
          have hmem : .event u ∈ A.items .pendingReady := h.places.mem_pending.mpr ⟨u, rfl, hu⟩
          rw [h.length_eq] at hempty
          rw [List.eq_nil_of_length_eq_zero hempty] at hmem
          exact absurd hmem List.not_mem_nil
        rw [if_pos hempty, hsame]
        exact ⟨k, A, rfl, h, rfl, fun _ hs => hs⟩
      · have hcount := h.length_eq .pendingReady
        obtain ⟨i, rest, hitems⟩ := List.exists_cons_of_length_pos
          (Nat.pos_of_ne_zero fun heq => hempty (hcount.trans heq))
        have hi : i ∈ A.items .pendingReady := by
          rw [hitems]
          exact List.mem_cons_self
        obtain ⟨t, rfl, hw⟩ := h.places.mem_pending.mp hi
        have hhead : k.headTask .pendingReady = some t := by
          rw [h.headTask_eq, hitems]
          rfl
        obtain ⟨n, m, lists, lists', A₁, hevent, hremove, h₁⟩ := h.wakeUp
          (by rw [hw]; exact fun heq => by cases heq) (hblocked t hw)
        have hshorter : Kernel.length (Kernel.prvAddTaskToReadyList { k with lists := lists' } t)
            .pendingReady < fuel := by
          have hsucc := h.length_pending hw h₁
          omega
        have hblocked₁ : ∀ u, (P.moveTo t .ready).waits u = .woken →
            (P.moveTo t .ready).status u = .held ∨
              ∃ w, (P.moveTo t .ready).status u = .until w := by
          intro u hu
          have hut : u ≠ t := by
            rintro rfl
            rw [Plan.moveTo, Plan.setWaits_self] at hu
            cases hu
          rw [Plan.moveTo, Plan.setWaits_of_ne hut] at hu
          rw [Plan.moveTo, Plan.setWaits_status, Plan.setStatus_of_ne hut]
          exact hblocked u hu
        have hready : ∀ a, Settled prio (a || k.xYieldPending) P →
            Settled prio (a || k.xYieldPending || prio P.current ≤ prio t) (P.moveTo t .ready) :=
          fun a hs => hs.setReady
        simp only [if_neg hempty, hhead, hevent, hremove, Option.bind_eq_bind, Option.bind_some]
        rw [← Plan.release_moveTo hw]
        by_cases hle : k.uxPriority k.pxCurrentTCB ≤ k.uxPriority t
        · obtain ⟨k', A', hloop, hk', hpend, hs'⟩ := ih (h₁.flags true k.pendSV) hblocked₁
            hshorter
          refine ⟨k', A', ?_, hk', hpend, fun a _ => hs' a (.inl ?_)⟩
          · rw [← hloop]
            exact congrArg _ (if_pos hle)
          · exact Bool.or_true a
        · obtain ⟨k', A', hloop, hk', hpend, hs'⟩ := ih h₁ hblocked₁ hshorter
          refine ⟨k', A', ?_, hk', hpend, fun a hs => hs' a ?_⟩
          · rw [← hloop]
            exact congrArg _ (if_neg hle)
          · have hafter := hready a hs
            rw [decide_eq_false (mt h.priority_le.mpr hle), Bool.or_false] at hafter
            exact hafter

/-- `xTaskResumeAll` as the scheduler is not suspended any more. -/
theorem resumeScheduler {idle : τ} (hsound : P.Sound idle)
    (h : Follows prio d A k { P with depth := 0 })
    (hsettled : Settled prio (k.pendSV || k.xYieldPending) P) :
    ∃ b k' d' A', k.resumeScheduler = some (b, k') ∧
      Follows prio d' A' k'
        { Plan.advances P.missed (Plan.release { P with depth := 0 }) with missed := 0 } ∧
      (b = true → k'.pendSV = true) ∧ (k'.pendSV = false → k.pendSV = false) ∧
      Settled prio (k'.pendSV || k'.xYieldPending)
        (Plan.advances P.missed (Plan.release { P with depth := 0 })) := by
  -- first those that were woken
  obtain ⟨k₁, A₁, hmove, h₁, hpend₁, hs₁⟩ := h.movePendingReady
    (fun t hw => hsound.waiting t (by rw [hw]; exact fun heq => by cases heq))
    (Nat.lt_succ_self (k.length .pendingReady))
  obtain ⟨next, hreset, h₂⟩ := h₁.prvResetNextTaskUnblockTime
  obtain ⟨k₂, hk₂, h₂', hpend₂, hyield₂⟩ : ∃ k₂,
      (if k.length .pendingReady ≠ 0 then k₁.prvResetNextTaskUnblockTime else some k₁) =
        some k₂ ∧ Follows prio d A₁ k₂ (Plan.release { P with depth := 0 }) ∧
      k₂.pendSV = k₁.pendSV ∧ k₂.xYieldPending = k₁.xYieldPending := by
    by_cases hnone : k.length .pendingReady ≠ 0
    · rw [if_pos hnone]
      exact ⟨_, hreset, h₂, rfl, rfl⟩
    · rw [if_neg hnone]
      exact ⟨k₁, rfl, h₁, rfl, rfl⟩
  -- then the ticks
  obtain ⟨k₃, d₃, A₃, hcatch, h₃, hpend₃, hs₃⟩ := h₂'.catchUpTicks hsound.release rfl P.missed
  have hafter : Settled prio (k₃.pendSV || k₃.xYieldPending)
      (Plan.advances P.missed (Plan.release { P with depth := 0 })) := by
    rw [hpend₃, hpend₂, hpend₁]
    refine hs₃ _ ?_
    rw [hyield₂]
    exact hs₁ _ hsettled
  have hmissed : k₂.uxPendedTicks.toNat = P.missed := h₂'.missed
  have hdone : Follows prio d₃ A₃ { k₃ with uxPendedTicks := 0 }
      { Plan.advances P.missed (Plan.release { P with depth := 0 }) with missed := 0 } :=
    { h₃ with
      places := { h₃.places with state := h₃.places.state }
      missed := rfl }
  unfold Kernel.resumeScheduler
  simp only [hmove, hk₂, hmissed, hcatch, Option.bind_eq_bind, Option.bind_some, Option.pure_def]
  have hsame : k₃.pendSV = k.pendSV := (hpend₃.trans hpend₂).trans hpend₁
  cases hyield : k₃.xYieldPending with
  | true =>
      refine ⟨true, _, d₃, A₃, rfl, hdone.flags true true, fun _ => rfl, fun hfalse => ?_, .inl rfl⟩
      cases hfalse
  | false =>
      refine ⟨false, _, d₃, A₃, rfl, ?_, fun htrue => ?_, fun hfalse => hsame.symm.trans hfalse, ?_⟩
      · rw [← hyield]
        exact hdone
      · cases htrue
      · rw [← hyield]
        exact hafter

/-- `xTaskResumeAll` -/
theorem xTaskResumeAll (h : Follows prio d A k P) {idle : τ} (hsound : P.Sound idle)
    (hlocked : P.depth ≠ 0) (hsettled : Settled prio (k.pendSV || k.xYieldPending) P) :
    ∃ b k' d' A', k.xTaskResumeAll = some (b, k') ∧ Follows prio d' A' k' P.unlock ∧
      (b = true → k'.pendSV = true) ∧ (k'.pendSV = false → k.pendSV = false) ∧
      Settled prio (k'.pendSV || k'.xYieldPending) P.unlock := by
  have hcount : k.uxSchedulerSuspended ≠ 0 := fun heq => hlocked (h.open_iff.mp heq)
  have hless : (k.uxSchedulerSuspended - 1).toNat = P.depth - 1 := by
    rw [toNat_pred hcount, h.depth]
  unfold Kernel.xTaskResumeAll Plan.unlock
  rw [if_neg hcount]
  by_cases hlast : P.depth - 1 = 0
  · have hlast' : k.uxSchedulerSuspended - 1 = 0 := UInt32.toNat_inj.mp (hless.trans hlast)
    rw [if_pos hlast, if_pos hlast']
    have hopen : Follows prio d A { k with uxSchedulerSuspended := k.uxSchedulerSuspended - 1 }
        { P with depth := 0 } :=
      { h with
        places := { h.places with state := h.places.state }
        depth := hless.trans hlast }
    exact resumeScheduler hsound hopen hsettled
  · have hlast' : k.uxSchedulerSuspended - 1 ≠ 0 := fun heq =>
      hlast (hless.symm.trans (congrArg UInt32.toNat heq))
    rw [if_neg hlast, if_neg hlast']
    refine ⟨false, _, d, A, rfl, ?_, fun htrue => ?_, id, hsettled⟩
    · exact { h with
        places := { h.places with state := h.places.state }
        depth := hless }
    · cases htrue

/-- The end of a function that blocks. -/
theorem leave (h : Follows prio d A k P) {idle : τ} (hsound : P.Sound idle)
    (hlocked : P.depth ≠ 0) (hsettled : Settled prio (k.pendSV || k.xYieldPending) P) :
    ∃ k' d' A', k.leave = some k' ∧ Follows prio d' A' k' P.unlock ∧ k'.pendSV = true := by
  obtain ⟨b, k', d', A', hrun, hk', hasked, -, -⟩ := h.xTaskResumeAll hsound hlocked hsettled
  unfold Kernel.leave
  rw [hrun]
  cases b with
  | true => exact ⟨k', d', A', rfl, hk', hasked rfl⟩
  | false => exact ⟨k'.portYield, d', A', rfl, hk'.flags k'.xYieldPending true, rfl⟩

/-! ### Events -/

omit [DecidableEq τ] [DecidableEq ε] in
/-- The head of the list of an event is of the greatest priority. -/
theorem head_event (h : Follows prio d A k P) {e : ε} (hne : 0 < k.length (.event e)) :
    ∃ t, k.headTask (.event e) = some t ∧ P.waits t = .on e ∧
      ∀ u, P.waits u = .on e → prio u ≤ prio t := by
  rw [h.length_eq] at hne
  obtain ⟨i, rest, hitems⟩ := List.exists_cons_of_length_pos hne
  have hi : i ∈ A.items (.event e) := by
    rw [hitems]
    exact List.mem_cons_self
  obtain ⟨t, rfl, hw⟩ := h.places.mem_events.mp hi
  refine ⟨t, by rw [h.headTask_eq, hitems]; rfl, hw, fun u hu => ?_⟩
  have hmem : .event u ∈ A.items (.event e) := h.places.mem_events.mpr ⟨u, rfl, hu⟩
  have hsorted := h.places.events e
  unfold Contents.Sorted at hsorted
  rw [hitems] at hmem hsorted
  rcases List.mem_cons.mp hmem with heq | hrest
  · rw [Item.event.inj heq]
  · -- a greater priority is a smaller value
    have hle := (List.pairwise_cons.mp hsorted).1 _ hrest
    rw [h.places.priority, h.places.priority, UInt32.le_iff_toNat_le, UInt32.toNat_ofNat',
      UInt32.toNat_ofNat'] at hle
    have ht : (prio t).val < 5 := (prio t).isLt
    have hu : (prio u).val < 5 := (prio u).isLt
    rw [Fin.le_def]
    unfold configMaxPriorities at hle
    omega

/-- `xTaskRemoveFromEventList` -/
theorem xTaskRemoveFromEventList (h : Follows prio d A k P) {idle : τ} (hsound : P.Sound idle)
    {e : ε} (hne : 0 < k.length (.event e))
    (hsettled : Settled prio (k.pendSV || k.xYieldPending) P) :
    ∃ t b k' A', k.xTaskRemoveFromEventList e = some (b, k') ∧ P.waits t = .on e ∧
      (∀ u, P.waits u = .on e → prio u ≤ prio t) ∧ Follows prio d A' k' (P.wake t) ∧
      k'.pendSV = k.pendSV ∧ Settled prio (k'.pendSV || k'.xYieldPending) (P.wake t) := by
  obtain ⟨t, hhead, hw, hgreatest⟩ := h.head_event hne
  have hno : P.waits t ≠ .no := by
    rw [hw]
    exact fun heq => by cases heq
  obtain ⟨n, m, lists, lists', A₁, hevent, hremove, h₁⟩ := h.wakeUp hno (hsound.waiting t hno)
  -- the lists behind the function, and then whether it asks for a context switch
  obtain ⟨k₁, A₂, hk₁, h₂, hpend₁, hyield₁, hs₁⟩ : ∃ k₁ A₂,
      (if k.uxSchedulerSuspended = 0 then
        (Kernel.removeItem { k with lists := lists } (.state t)).map fun r =>
          r.2.prvAddTaskToReadyList t
      else some { k with lists := lists.vListInsertEnd .pendingReady (.event t) }) = some k₁ ∧
      Follows prio d A₂ k₁ (P.wake t) ∧ k₁.pendSV = k.pendSV ∧
      k₁.xYieldPending = k.xYieldPending ∧
      (prio t ≤ prio P.current → Settled prio (k.pendSV || k.xYieldPending) (P.wake t)) := by
    unfold Plan.wake
    by_cases hopen : P.depth = 0
    · rw [if_pos (h.open_iff.mpr hopen), if_pos hopen, hremove]
      exact ⟨_, A₁, rfl, h₁, rfl, rfl, fun hle => hsettled.setReady_of_le hle⟩
    · obtain ⟨n', lists'', A', hrun, hplaces⟩ := h.places.removeEvent hno
      have hsame : lists'' = lists := by
        rw [Kernel.removeItem, hrun] at hevent
        have hlists := congrArg (fun r => r.map fun q => q.2.lists) hevent
        exact Option.some.inj hlists
      subst hsame
      obtain ⟨A₂, hwoken⟩ := hplaces.addWoken (t := t) (Plan.setWaits_self _)
      have hagain : (P.setWaits t .no).setWaits t .woken = P.setWaits t .woken := by
        unfold Plan.setWaits
        dsimp only
        rw [Function.update_idem]
      rw [hagain] at hwoken
      rw [if_neg fun heq => hopen (h.open_iff.mp heq), if_neg hopen]
      exact ⟨_, A₂, rfl, h.setWaits hwoken, rfl, rfl, fun _ => hsettled⟩
  unfold Kernel.xTaskRemoveFromEventList
  simp only [hhead, hevent, hk₁, Option.bind_eq_bind, Option.bind_some, Option.pure_def]
  by_cases hlt : k₁.uxPriority k₁.pxCurrentTCB < k₁.uxPriority t
  · rw [if_pos hlt]
    refine ⟨t, true, _, A₂, rfl, hw, hgreatest, h₂.flags true k₁.pendSV, hpend₁, .inl ?_⟩
    exact Bool.or_true _
  · have hle : prio t ≤ prio (P.wake t).current := not_lt.mp (mt h₂.priority_lt.mpr hlt)
    rw [Plan.wake_current] at hle
    rw [if_neg hlt]
    refine ⟨t, false, k₁, A₂, rfl, hw, hgreatest, h₂, hpend₁, ?_⟩
    rw [hpend₁, hyield₁]
    exact hs₁ hle

/-! ### Suspended and deleted tasks -/

/-- A task leaves its lists, wherever it is. -/
theorem takeOut (h : Follows prio d A k P) {t : τ} (habsent : P.status t ≠ .absent)
    (hdying : P.status t ≠ .dying) :
    ∃ k₁ A', k.takeOut t = some k₁ ∧ Follows prio d A' k₁ (P.moveTo t .absent) ∧
      k₁.pendSV = k.pendSV ∧ k₁.xYieldPending = k.xYieldPending ∧
      k₁.uxDeletedTasksWaitingCleanUp = k.uxDeletedTasksWaitingCleanUp := by
  obtain ⟨n, lists, bits, A₁, hremove, hreset, -, h₁⟩ := h.removeAny habsent hdying
  obtain ⟨lists', A₂, hevent, h₂⟩ := h₁.removeEvent t
  have hprio : k.uxPriority t = prio t := congrFun h.priority t
  refine ⟨_, A₂, ?_, h₂, rfl, rfl, rfl⟩
  unfold Kernel.takeOut
  simp only [hremove, hprio, Option.bind_eq_bind, Option.bind_some]
  exact (congrArg (fun k₁ => Kernel.removeEvent k₁ t) hreset).trans hevent

omit [DecidableEq ε] in
/-- A task that left its lists goes to another one. -/
theorem moveTo_setStatus {t : τ} (status : Status) :
    (P.moveTo t .absent).setStatus t status = P.moveTo t status := by
  change ((P.setStatus t .absent).setStatus t status).setWaits t .no = _
  rw [Plan.setStatus_setStatus]
  rfl

/-- `vTaskSuspend` -/
theorem vTaskSuspend (h : Follows prio d A k P) {t : τ} (habsent : P.status t ≠ .absent)
    (hdying : P.status t ≠ .dying) (hopen : t = P.current → P.depth = 0)
    (hsettled : Settled prio (k.pendSV || k.xYieldPending) P) :
    ∃ k' A', k.vTaskSuspend t = some k' ∧ Follows prio d A' k' (P.moveTo t .held) ∧
      (t = P.current → k'.pendSV = true) ∧ (k'.pendSV = false → k.pendSV = false) ∧
      Settled prio (k'.pendSV || k'.xYieldPending) (P.moveTo t .held) := by
  obtain ⟨k₁, A₁, hrun, h₁, hpend, hyield, -⟩ := h.takeOut habsent hdying
  obtain ⟨A₂, h₂⟩ := h₁.addHeld (t := t) (Plan.moveTo_self _)
  rw [moveTo_setStatus] at h₂
  obtain ⟨next, hnext, h₃⟩ := h₂.prvResetNextTaskUnblockTime
  unfold Kernel.vTaskSuspend
  simp only [hrun, hnext, Option.bind_eq_bind, Option.bind_some, Option.pure_def]
  have hcurrent := h₃.current
  by_cases hcur : t = P.current
  · rw [if_pos (hcur.trans hcurrent.symm), if_pos (h₃.open_iff.mpr (hopen hcur))]
    refine ⟨_, A₂, rfl, h₃.flags _ true, fun _ => rfl, fun hfalse => ?_, .inl rfl⟩
    cases hfalse
  · rw [if_neg fun heq => hcur (heq.trans hcurrent)]
    refine ⟨_, A₂, rfl, h₃, fun heq => absurd heq hcur, fun hfalse => hpend.symm.trans hfalse, ?_⟩
    dsimp only
    rw [hpend, hyield]
    exact hsettled.setStatus (t := t) fun heq => by cases heq

/-- A task that is in no list is about to be deleted. -/
theorem addDying (h : Follows prio d A k P) {t : τ} (habsent : P.status t = .absent)
    (hwrap : k.uxDeletedTasksWaitingCleanUp + 1 ≠ 0) :
    ∃ A', Follows prio d A' { k with
        lists := k.lists.vListInsertEnd .terminating (.state t)
        uxDeletedTasksWaitingCleanUp := k.uxDeletedTasksWaitingCleanUp + 1 }
      (P.setStatus t .dying) := by
  obtain ⟨A', hplaces⟩ := h.places.addState habsent .dying rfl
    fun w heq => by cases heq
  have hmore : (A'.items .terminating).length = (A.items .terminating).length + 1 := by
    refine hplaces.holds.length_succ h.places.holds (i := .state t) (fun i => ?_) fun hmem => ?_
    · rw [hplaces.mem_terminating, h.places.mem_terminating]
      constructor
      · rintro ⟨u, rfl, hu⟩
        by_cases hut : u = t
        · exact .inl (by rw [hut])
        · exact .inr ⟨u, rfl, (Plan.setStatus_of_ne hut _).symm.trans hu⟩
      · rintro (rfl | ⟨u, rfl, hu⟩)
        · exact ⟨t, rfl, Plan.setStatus_self _⟩
        · have hut : u ≠ t := by
            rintro rfl
            rw [habsent] at hu
            cases hu
          exact ⟨u, rfl, (Plan.setStatus_of_ne hut _).trans hu⟩
    · obtain ⟨u, heq, hu⟩ := h.places.mem_terminating.mp hmem
      obtain rfl := Item.state.inj heq
      rw [habsent] at hu
      cases hu
  have hready : P.status t ≠ .ready := by
    rw [habsent]
    exact fun heq => by cases heq
  refine ⟨A', { h with
    places := hplaces
    dying := (toNat_succ hwrap).trans ((congrArg (· + 1) h.dying).trans hmore.symm)
    marked := h.marked_setStatus hready fun heq => by cases heq
    bound := fun u w hu hw => ?_ }⟩
  have hut : u ≠ t := by
    rintro rfl
    rw [Plan.setStatus_self] at hu
    cases hu
  rw [Plan.setStatus_of_ne hut] at hu
  exact h.bound u w hu hw

/-- `vTaskDelete` -/
theorem vTaskDelete (h : Follows prio d A k P) {t : τ} (habsent : P.status t ≠ .absent)
    (hdying : P.status t ≠ .dying) (hopen : t = P.current → P.depth = 0)
    (hwrap : k.uxDeletedTasksWaitingCleanUp + 1 ≠ 0)
    (hsettled : Settled prio (k.pendSV || k.xYieldPending) P) :
    ∃ k' A', k.vTaskDelete t = some k' ∧
      Follows prio d A' k' (P.moveTo t (if t = P.current then .dying else .absent)) ∧
      (t = P.current → k'.pendSV = true) ∧ (k'.pendSV = false → k.pendSV = false) ∧
      Settled prio (k'.pendSV || k'.xYieldPending)
        (P.moveTo t (if t = P.current then .dying else .absent)) := by
  obtain ⟨k₁, A₁, hrun, h₁, hpend, hyield, hcount⟩ := h.takeOut habsent hdying
  have hcurrent := h₁.current
  unfold Kernel.vTaskDelete
  simp only [hrun, Option.bind_eq_bind, Option.bind_some, Option.pure_def]
  by_cases hcur : t = P.current
  · rw [if_pos (hcur.trans hcurrent.symm), if_pos (h₁.open_iff.mpr (hopen hcur)), if_pos hcur]
    obtain ⟨A₂, h₂⟩ := h₁.addDying (t := t) (Plan.moveTo_self _) (hcount.symm ▸ hwrap)
    rw [moveTo_setStatus] at h₂
    refine ⟨_, A₂, rfl, h₂.flags _ true, fun _ => rfl, fun hfalse => ?_, .inl rfl⟩
    cases hfalse
  · rw [if_neg fun heq => hcur (heq.trans hcurrent), if_neg hcur]
    obtain ⟨next, hnext, h₂⟩ := h₁.prvResetNextTaskUnblockTime
    refine ⟨_, A₁, hnext, h₂, fun heq => absurd heq hcur, fun hfalse => hpend.symm.trans hfalse, ?_⟩
    dsimp only
    rw [hpend, hyield]
    exact hsettled.setStatus (t := t) fun heq => by cases heq

/-- The loop of `prvCheckTasksWaitingTermination` deletes a task, if there is one to delete. -/
theorem checkTermination (h : Follows prio d A k P) :
    ∃ k' A', k.checkTermination = some k' ∧ k'.pendSV = k.pendSV ∧
      k'.xYieldPending = k.xYieldPending ∧
      ((∃ t, P.status t = .dying ∧ Follows prio d A' k' (P.setStatus t .absent)) ∨
        (∀ t, P.status t ≠ .dying) ∧ Follows prio d A' k' P) := by
  unfold Kernel.checkTermination
  by_cases hpos : 0 < k.uxDeletedTasksWaitingCleanUp
  · have hlength := h.dying ▸ UInt32.lt_iff_toNat_lt.mp hpos
    obtain ⟨i, rest, hitems⟩ := List.exists_cons_of_length_pos hlength
    have hi : i ∈ A.items .terminating := by
      rw [hitems]
      exact List.mem_cons_self
    obtain ⟨t, rfl, hst⟩ := h.places.mem_terminating.mp hi
    have hhead : k.headTask .terminating = some t := by
      rw [h.headTask_eq, hitems]
      rfl
    obtain ⟨l, lists, A', -, hrun, hplaces⟩ := h.places.removeState (t := t)
      (by rw [hst]; exact fun heq => by cases heq)
    have hfewer : (A.items .terminating).length = (A'.items .terminating).length + 1 := by
      refine h.places.holds.length_succ hplaces.holds (i := .state t) (fun i => ?_) fun hmem => ?_
      · rw [hplaces.mem_terminating, h.places.mem_terminating]
        constructor
        · rintro ⟨u, rfl, hu⟩
          by_cases hut : u = t
          · exact .inl (by rw [hut])
          · exact .inr ⟨u, rfl, (Plan.setStatus_of_ne hut _).trans hu⟩
        · rintro (rfl | ⟨u, rfl, hu⟩)
          · exact ⟨t, rfl, hst⟩
          · have hut : u ≠ t := by
              rintro rfl
              rw [Plan.setStatus_self] at hu
              cases hu
            exact ⟨u, rfl, (Plan.setStatus_of_ne hut _).symm.trans hu⟩
      · obtain ⟨u, heq, hu⟩ := hplaces.mem_terminating.mp hmem
        obtain rfl := Item.state.inj heq
        rw [Plan.setStatus_self] at hu
        cases hu
    have hready : P.status t ≠ .ready := by
      rw [hst]
      exact fun heq => by cases heq
    rw [if_pos hpos, hhead]
    simp only [Kernel.removeItem, hrun, Option.bind_eq_bind, Option.bind_some, Option.map_some,
      Option.pure_def]
    refine ⟨_, A', rfl, rfl, rfl, .inl ⟨t, hst, { h with
      places := hplaces
      dying := ?_
      marked := h.marked_setStatus hready fun heq => by cases heq
      bound := fun u w hu hw => ?_ }⟩⟩
    · have hdying := h.dying
      have hne : k.uxDeletedTasksWaitingCleanUp ≠ 0 := fun heq => by
        rw [heq] at hpos
        exact absurd hpos (by decide)
      dsimp only
      rw [toNat_pred hne]
      omega
    · have hut : u ≠ t := by
        rintro rfl
        rw [Plan.setStatus_self] at hu
        cases hu
      rw [Plan.setStatus_of_ne hut] at hu
      exact h.bound u w hu hw
  · rw [if_neg hpos]
    refine ⟨k, A, rfl, rfl, rfl, .inr ⟨fun t hst => hpos ?_, h⟩⟩
    rw [UInt32.lt_iff_toNat_lt, h.dying]
    exact List.length_pos_of_mem (h.places.mem_terminating.mpr ⟨t, rfl, hst⟩)

/-! ### Resumed and new tasks -/

omit [DecidableEq τ] [DecidableEq ε] in
/-- `prvTaskIsTaskSuspended` -/
theorem prvTaskIsTaskSuspended [DecidableEq ε] (h : Follows prio d A k P) (t : τ) :
    k.prvTaskIsTaskSuspended t = true ↔ P.Suspended t := by
  unfold Kernel.prvTaskIsTaskSuspended Plan.Suspended
  rw [h.places.state, h.places.event]
  cases P.status t <;> cases P.waits t <;> simp [Status.list, Waits.list]

/-- A suspended task leaves its list and becomes ready. -/
theorem resumeTask (h : Follows prio d A k P) {t : τ} (hsuspended : P.Suspended t) :
    ∃ n lists A', k.removeItem (.state t) = some (n, { k with lists := lists }) ∧
      Follows prio d A' (Kernel.prvAddTaskToReadyList { k with lists := lists } t)
        (P.moveTo t .ready) := by
  have hnot : ∀ status, P.status t = status → status = .held := fun _ heq =>
    heq.symm.trans hsuspended.1
  obtain ⟨n, lists, A₁, hremove, h₁⟩ := h.removeState (t := t)
    (fun heq => by cases hnot _ heq) (fun heq => by cases hnot _ heq)
    fun heq => by cases hnot _ heq
  obtain ⟨A₂, h₂⟩ := h₁.addReady (t := t) (Plan.setStatus_self _)
  have hmoved : (P.setStatus t .absent).setStatus t .ready = P.moveTo t .ready := by
    rw [Plan.setStatus_setStatus]
    unfold Plan.moveTo Plan.setWaits
    rw [Plan.setStatus_waits, ← hsuspended.2, Function.update_eq_self]
    rfl
  rw [hmoved] at h₂
  exact ⟨n, lists, A₂, hremove, h₂⟩

/-- `vTaskResume` -/
theorem vTaskResume (h : Follows prio d A k P) (t : τ)
    (hsettled : Settled prio (k.pendSV || k.xYieldPending) P) :
    ∃ k' A' P', k.vTaskResume t = some k' ∧ Follows prio d A' k' P' ∧
      (P.Suspended t ∧ t ≠ P.current ∧ P' = P.moveTo t .ready ∨
        ¬ (P.Suspended t ∧ t ≠ P.current) ∧ P' = P) ∧
      (k'.pendSV = false → k.pendSV = false) ∧
      Settled prio (k'.pendSV || k'.xYieldPending) P' := by
  unfold Kernel.vTaskResume
  by_cases hcur : t = P.current
  · rw [if_neg (not_not.mpr (hcur.trans h.current.symm))]
    exact ⟨k, A, P, rfl, h, .inr ⟨fun hand => hand.2 hcur, rfl⟩, id, hsettled⟩
  · rw [if_pos fun heq => hcur (heq.trans h.current)]
    by_cases hsuspended : P.Suspended t
    · obtain ⟨n, lists, A', hremove, h₁⟩ := h.resumeTask hsuspended
      rw [if_pos ((h.prvTaskIsTaskSuspended t).mpr hsuspended)]
      simp only [hremove, Option.bind_eq_bind, Option.bind_some, Option.pure_def]
      have hle := h₁.priority_le (t := t)
      by_cases hask : prio P.current ≤ prio t
      · rw [if_pos (hle.mpr hask)]
        refine ⟨_, A', _, rfl, h₁.flags _ true, .inl ⟨hsuspended, hcur, rfl⟩, fun hfalse => ?_,
          .inl rfl⟩
        cases hfalse
      · rw [if_neg (mt hle.mp hask)]
        exact ⟨_, A', _, rfl, h₁, .inl ⟨hsuspended, hcur, rfl⟩, id,
          hsettled.setReady_of_le (le_of_lt (not_le.mp hask))⟩
    · rw [if_neg (mt (h.prvTaskIsTaskSuspended t).mp hsuspended)]
      exact ⟨k, A, P, rfl, h, .inr ⟨fun hand => hsuspended hand.1, rfl⟩, id, hsettled⟩

/-- `xTaskResumeFromISR`, and the context switch that it asks for. -/
theorem xTaskResumeFromISR (h : Follows prio d A k P) (t : τ)
    (hsettled : Settled prio (k.pendSV || k.xYieldPending) P) :
    ∃ k' A' P', ((k.xTaskResumeFromISR t).map fun r => if r.1 then r.2.portYield else r.2) =
        some k' ∧ Follows prio d A' k' P' ∧
      (P.Suspended t ∧ P' = P.wake t ∨ ¬ P.Suspended t ∧ P' = P) ∧
      (k'.pendSV = false → k.pendSV = false) ∧
      Settled prio (k'.pendSV || k'.xYieldPending) P' := by
  unfold Kernel.xTaskResumeFromISR
  by_cases hsuspended : P.Suspended t
  · rw [if_pos ((h.prvTaskIsTaskSuspended t).mpr hsuspended)]
    by_cases hopen : P.depth = 0
    · obtain ⟨n, lists, A', hremove, h₁⟩ := h.resumeTask hsuspended
      have hwake : P.wake t = P.moveTo t .ready := if_pos hopen
      rw [if_pos (h.open_iff.mpr hopen)]
      simp only [hremove, Option.bind_eq_bind, Option.bind_some, Option.pure_def, Option.map_some,
        decide_eq_true_eq]
      by_cases hask : prio P.current ≤ prio t
      · rw [if_pos (h.priority_le.mpr hask)]
        refine ⟨_, A', _, rfl, h₁.flags _ true, .inl ⟨hsuspended, hwake.symm⟩, fun hfalse => ?_,
          .inl rfl⟩
        cases hfalse
      · rw [if_neg (mt h.priority_le.mp hask)]
        exact ⟨_, A', _, rfl, h₁, .inl ⟨hsuspended, hwake.symm⟩, id,
          hsettled.setReady_of_le (le_of_lt (not_le.mp hask))⟩
    · obtain ⟨A', hplaces⟩ := h.places.addWoken hsuspended.2
      have hwake : P.wake t = P.setWaits t .woken := if_neg hopen
      rw [if_neg fun heq => hopen (h.open_iff.mp heq)]
      exact ⟨_, A', _, rfl, h.setWaits hplaces, .inl ⟨hsuspended, hwake.symm⟩, id, hsettled⟩
  · rw [if_neg (mt (h.prvTaskIsTaskSuspended t).mp hsuspended)]
    exact ⟨k, A, P, rfl, h, .inr ⟨hsuspended, rfl⟩, id, hsettled⟩

/-- `prvAddNewTaskToReadyList` -/
theorem prvAddNewTaskToReadyList (h : Follows prio d A k P) {t : τ} (habsent : P.status t = .absent)
    (hsettled : Settled prio (k.pendSV || k.xYieldPending) P) :
    ∃ A', Follows prio d A' (k.prvAddNewTaskToReadyList t) (P.setStatus t .ready) ∧
      ((k.prvAddNewTaskToReadyList t).pendSV = false → k.pendSV = false) ∧
      Settled prio ((k.prvAddNewTaskToReadyList t).pendSV ||
        (k.prvAddNewTaskToReadyList t).xYieldPending) (P.setStatus t .ready) := by
  obtain ⟨A', h₁⟩ := h.addReady habsent
  have hlt := h₁.priority_lt (t := t)
  unfold Kernel.prvAddNewTaskToReadyList
  dsimp only
  by_cases hask : prio P.current < prio t
  · rw [if_pos (hlt.mpr hask)]
    refine ⟨A', h₁.flags _ true, fun hfalse => ?_, .inl rfl⟩
    cases hfalse
  · rw [if_neg (mt hlt.mp hask)]
    exact ⟨A', h₁, id, hsettled.setReady_of_le (not_lt.mp hask)⟩

end Follows

end Rtos

end RtosLwip
