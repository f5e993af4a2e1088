import Mathlib.Order.Fin.Basic
import RtosLwip.Rtos.Places

/-!
# The Scheduler Follows a Plan

The variables of the scheduler are those of a plan: the bits of the priorities that have a
ready task, the tick count, and a tick before which no task is due. The functions that
move one task, and the choice of the next one.

## Main definitions

* `Follows`: The variables are those of a plan.

## Theorems

* `portGetHighestPriority_spec`: The number of leading zeros leads to the greatest priority.
* `Follows.removeState`, `Follows.addReady`, `Follows.removeEvent`: One task moves.
* `Follows.switchContext`: A ready task of the greatest priority is chosen.
-/

namespace RtosLwip

namespace Rtos

/-! ### The ready priorities -/

/-- The ready list of the priority has a task, as far as the bits say. -/
def Marked (bits : UInt32) (p : Priority) : Prop := bits.toNat.testBit p.val = true

theorem toNat_shift : ∀ p : Priority, (1 <<< UInt32.ofNat p.val : UInt32).toNat = 2 ^ p.val := by
  decide

theorem marked_record {bits : UInt32} {p q : Priority} :
    Marked (portRecordReadyPriority p bits) q ↔ q = p ∨ Marked bits q := by
  unfold Marked portRecordReadyPriority
  rw [UInt32.toNat_or, toNat_shift, Nat.testBit_or, Nat.testBit_two_pow, Bool.or_eq_true,
    decide_eq_true_eq, Fin.val_inj]
  tauto

theorem marked_reset {bits : UInt32} {p q : Priority} :
    Marked (portResetReadyPriority p bits) q ↔ q ≠ p ∧ Marked bits q := by
  have hnot : (~~~(1 <<< UInt32.ofNat p.val) : UInt32).toNat = 2 ^ 32 - (2 ^ p.val + 1) := by
    revert p
    decide
  have hlt : 2 ^ p.val < 2 ^ 32 := Nat.pow_lt_pow_right (by decide) (lt_trans p.isLt (by decide))
  have hq : q.val < 32 := lt_trans q.isLt (by decide)
  unfold Marked portResetReadyPriority
  rw [UInt32.toNat_and, hnot, Nat.testBit_and, Nat.testBit_two_pow_sub_succ hlt,
    Nat.testBit_two_pow, Bool.and_eq_true, Bool.and_eq_true, Bool.not_eq_true',
    decide_eq_true_eq, decide_eq_false_iff_not, Fin.val_inj]
  tauto

/-- The bits above those of the priorities are not set. -/
theorem record_lt {bits : UInt32} {p : Priority} (h : bits.toNat < 2 ^ configMaxPriorities) :
    (portRecordReadyPriority p bits).toNat < 2 ^ configMaxPriorities := by
  unfold portRecordReadyPriority
  rw [UInt32.toNat_or, toNat_shift]
  exact Nat.or_lt_two_pow h (Nat.pow_lt_pow_right (by decide) p.isLt)

theorem reset_lt {bits : UInt32} {p : Priority} (h : bits.toNat < 2 ^ configMaxPriorities) :
    (portResetReadyPriority p bits).toNat < 2 ^ configMaxPriorities := by
  unfold portResetReadyPriority
  rw [UInt32.toNat_and]
  exact lt_of_le_of_lt Nat.and_le_left h

/-- The number of leading zeros leads to the greatest priority that is marked. -/
theorem portGetHighestPriority_spec {bits : UInt32} (h : bits.toNat < 2 ^ configMaxPriorities)
    {p : Priority} (hp : Marked bits p) :
    ∃ hlt : (portGetHighestPriority bits).toNat < configMaxPriorities,
      Marked bits ⟨(portGetHighestPriority bits).toNat, hlt⟩ ∧
        ∀ q, Marked bits q → q ≤ ⟨(portGetHighestPriority bits).toNat, hlt⟩ := by
  have hne : bits.toNat ≠ 0 := by
    intro hzero
    unfold Marked at hp
    rw [hzero, Nat.zero_testBit] at hp
    cases hp
  have hlog : bits.toNat.log2 < configMaxPriorities := (Nat.log2_lt hne).mpr h
  have hlog31 : bits.toNat.log2 ≤ 31 := le_trans (Nat.le_of_lt hlog) (by decide)
  have htop : (portGetHighestPriority bits).toNat = bits.toNat.log2 := by
    have hbits : bits ≠ 0 := fun heq => hne (by rw [heq]; rfl)
    unfold portGetHighestPriority ucPortCountLeadingZeros
    rw [if_neg hbits, UInt32.toNat_sub, UInt32.toNat_ofNat']
    have h31 : (31 : UInt32).toNat = 31 := rfl
    rw [h31]
    omega
  refine ⟨htop ▸ hlog, ?_, fun q hq => ?_⟩
  · unfold Marked
    dsimp only
    rw [htop]
    exact Nat.testBit_log2 hne
  · rw [Fin.le_def]
    dsimp only
    rw [htop, Nat.le_log2 hne]
    exact Nat.ge_two_pow_of_testBit hq

/-! ### Following a plan -/

/-- A counter that does not wrap around. -/
theorem toNat_succ {n : UInt32} (h : n + 1 ≠ 0) : (n + 1).toNat = n.toNat + 1 := by
  have hn := n.toNat_lt
  have hone : (1 : UInt32).toNat = 1 := rfl
  have hne : (n + 1).toNat ≠ 0 := fun heq => h (UInt32.toNat_inj.mp heq)
  rw [UInt32.toNat_add, hone] at hne ⊢
  omega

theorem toNat_pred {n : UInt32} (h : n ≠ 0) : (n - 1).toNat = n.toNat - 1 := by
  have hn := n.toNat_lt
  have hone : (1 : UInt32).toNat = 1 := rfl
  have hne : n.toNat ≠ 0 := fun heq => h (UInt32.toNat_inj.mp heq)
  rw [UInt32.toNat_sub, hone]
  omega

variable {τ ε : Type}

/-- No task is due before the next unblock time, as long as the tick count does not wrap. -/
def Bound (next : UInt32) (P : Plan τ ε) : Prop :=
  ∀ t w, P.status t = .until w → w / tickPeriod = P.now / tickPeriod →
    next.toNat ≤ w % tickPeriod

/-- The scheduler is where the plan is. -/
structure Follows (prio : τ → Priority) (d : Bool) (A : Contents (ListId ε) (Item τ))
    (k : Kernel τ ε) (P : Plan τ ε) : Prop where
  places : Places prio d k.lists A P
  delayed : k.pxDelayedTaskList = .delayed d
  overflow : k.pxOverflowDelayedTaskList = .delayed (!d)
  priority : k.uxPriority = prio
  clock : k.xTickCount = UInt32.ofNat P.now
  wraps : k.xNumOfOverflows = UInt32.ofNat (P.now / tickPeriod)
  current : k.pxCurrentTCB = P.current
  depth : k.uxSchedulerSuspended.toNat = P.depth
  missed : k.uxPendedTicks.toNat = P.missed
  dying : k.uxDeletedTasksWaitingCleanUp.toNat = (A.items .terminating).length
  marked : ∀ p, Marked k.uxTopReadyPriority p ↔ ∃ t, P.status t = .ready ∧ prio t = p
  top : k.uxTopReadyPriority.toNat < 2 ^ configMaxPriorities
  bound : Bound k.xNextTaskUnblockTime P

namespace Follows

variable {prio : τ → Priority} {d : Bool} {A : Contents (ListId ε) (Item τ)} {k : Kernel τ ε}
  {P : Plan τ ε} {t : τ}

/-- The requests for a context switch are not part of a plan. -/
theorem flags (h : Follows prio d A k P) (pending requested : Bool) :
    Follows prio d A { k with xYieldPending := pending, pendSV := requested } P :=
  ⟨h.places, h.delayed, h.overflow, h.priority, h.clock, h.wraps, h.current, h.depth, h.missed,
    h.dying, h.marked, h.top, h.bound⟩

/-- The scheduler is suspended where it is in the plan. -/
theorem open_iff (h : Follows prio d A k P) : k.uxSchedulerSuspended = 0 ↔ P.depth = 0 := by
  rw [← h.depth, ← UInt32.toNat_inj]
  rfl

/-- `vTaskSuspendAll` -/
theorem vTaskSuspendAll (h : Follows prio d A k P) (hwrap : k.uxSchedulerSuspended + 1 ≠ 0) :
    Follows prio d A k.vTaskSuspendAll P.lock :=
  { h with
    places := { h.places with state := h.places.state }
    depth := (toNat_succ hwrap).trans (congrArg (· + 1) h.depth) }

/-- The comparison of a task with the current one. -/
theorem priority_le (h : Follows prio d A k P) :
    k.uxPriority k.pxCurrentTCB ≤ k.uxPriority t ↔ prio P.current ≤ prio t := by
  rw [h.priority, h.current]

theorem priority_lt (h : Follows prio d A k P) :
    k.uxPriority k.pxCurrentTCB < k.uxPriority t ↔ prio P.current < prio t := by
  rw [h.priority, h.current]

/-- The count of a list. -/
theorem length_eq (h : Follows prio d A k P) (l : ListId ε) : k.length l = (A.items l).length :=
  h.places.holds.count l

/-- The task at the head of a list. -/
theorem headTask_eq (h : Follows prio d A k P) (l : ListId ε) :
    k.headTask l = (A.items l).head?.map Item.owner := by
  unfold Kernel.headTask
  rw [h.places.holds.head]

/-- Nobody waits in the list of delayed tasks. -/
theorem no_delayed (h : Follows prio d A k P) (hempty : k.length k.pxDelayedTaskList = 0)
    {u : τ} {w : Nat} (hu : P.status u = .until w) : w / tickPeriod ≠ P.now / tickPeriod := by
  intro hperiod
  rw [h.delayed, h.length_eq] at hempty
  have hmem : .state u ∈ A.items (.delayed d) :=
    h.places.mem_delayed.mpr ⟨u, w, rfl, hu, if_pos hperiod⟩
  rw [List.eq_nil_of_length_eq_zero hempty] at hmem
  exact absurd hmem List.not_mem_nil

/-- The head of the list of delayed tasks is due first. -/
theorem head_delayed (h : Follows prio d A k P) (hne : k.length k.pxDelayedTaskList ≠ 0) :
    ∃ t w, k.headTask k.pxDelayedTaskList = some t ∧ P.status t = .until w ∧
      w / tickPeriod = P.now / tickPeriod ∧
      k.lists.xItemValue (.item (.state t)) = UInt32.ofNat w ∧
      ∀ u v, P.status u = .until v → v / tickPeriod = P.now / tickPeriod →
        w % tickPeriod ≤ v % tickPeriod := by
  rw [h.headTask_eq, h.delayed]
  rw [h.delayed, h.length_eq] at hne
  obtain ⟨i, rest, hitems⟩ := List.exists_cons_of_ne_nil (List.ne_nil_of_length_pos
    (Nat.pos_of_ne_zero hne))
  have hi : i ∈ A.items (.delayed d) := by
    rw [hitems]
    exact List.mem_cons_self
  obtain ⟨t, w, rfl, hst, hlist⟩ := h.places.mem_delayed.mp hi
  have hperiod : w / tickPeriod = P.now / tickPeriod := by
    by_contra hother
    rw [if_neg hother] at hlist
    cases d <;> cases hlist
  refine ⟨t, w, by rw [hitems]; rfl, hst, hperiod, ?_, fun u v hu hv => ?_⟩
  · rw [h.places.holds.value, h.places.wake t w hst]
  · have hmem : .state u ∈ A.items (.delayed d) :=
      h.places.mem_delayed.mpr ⟨u, v, rfl, hu, if_pos hv⟩
    have hsorted := h.places.delayed d
    unfold Contents.Sorted at hsorted
    rw [hitems] at hmem hsorted
    rcases List.mem_cons.mp hmem with heq | hrest
    · obtain rfl := Item.state.inj heq
      rw [hst] at hu
      rw [Status.until.inj hu]
    · have hle := (List.pairwise_cons.mp hsorted).1 _ hrest
      rw [h.places.wake t w hst, h.places.wake u v hu, UInt32.le_iff_toNat_le,
        UInt32.toNat_ofNat', UInt32.toNat_ofNat'] at hle
      exact hle

/-- `prvResetNextTaskUnblockTime` -/
theorem prvResetNextTaskUnblockTime (h : Follows prio d A k P) :
    ∃ next, k.prvResetNextTaskUnblockTime = some { k with xNextTaskUnblockTime := next } ∧
      Follows prio d A { k with xNextTaskUnblockTime := next } P := by
  unfold Kernel.prvResetNextTaskUnblockTime
  by_cases hempty : k.length k.pxDelayedTaskList = 0
  · rw [if_pos hempty]
    refine ⟨portMaxDelay, rfl, { h with bound := fun u w hu hw => ?_ }⟩
    exact absurd hw (h.no_delayed hempty hu)
  · obtain ⟨t, w, hhead, -, -, hvalue, hfirst⟩ := h.head_delayed hempty
    rw [if_neg hempty, hhead]
    refine ⟨_, rfl, { h with bound := fun u v hu hv => ?_ }⟩
    dsimp only
    rw [hvalue, UInt32.toNat_ofNat']
    exact hfirst u v hu hv

/-- As many tasks are about to be deleted. -/
theorem length_terminating {s s' : Lists (ListId ε) (Item τ)}
    {A' : Contents (ListId ε) (Item τ)} {P' : Plan τ ε} (h : Places prio d s A P)
    (h' : Places prio d s' A' P')
    (hsame : ∀ u, P'.status u = .dying ↔ P.status u = .dying) :
    (A'.items .terminating).length = (A.items .terminating).length := by
  refine h'.holds.length_eq h.holds fun i => ?_
  rw [h'.mem_terminating, h.mem_terminating]
  simp only [hsame]

variable [DecidableEq τ]

/-- Another priority has the ready tasks that it had. -/
theorem ready_setStatus {status : Status} {q : Priority} (hq : q ≠ prio t) :
    (∃ u, (P.setStatus t status).status u = .ready ∧ prio u = q) ↔
      ∃ u, P.status u = .ready ∧ prio u = q := by
  constructor
  · rintro ⟨u, hu, hp⟩
    have hut : u ≠ t := by
      rintro rfl
      exact hq hp.symm
    exact ⟨u, (Plan.setStatus_of_ne hut _).symm.trans hu, hp⟩
  · rintro ⟨u, hu, hp⟩
    have hut : u ≠ t := by
      rintro rfl
      exact hq hp.symm
    exact ⟨u, (Plan.setStatus_of_ne hut _).trans hu, hp⟩

/-- The state of one task changes, and with it the bits of the priorities. -/
theorem setStatus (h : Follows prio d A k P) {status : Status}
    {lists : Lists (ListId ε) (Item τ)} {A' : Contents (ListId ε) (Item τ)} {bits : UInt32}
    (hplaces : Places prio d lists A' (P.setStatus t status))
    (hmarked : ∀ p, Marked bits p ↔ ∃ u, (P.setStatus t status).status u = .ready ∧ prio u = p)
    (htop : bits.toNat < 2 ^ configMaxPriorities)
    (hdying : P.status t = .dying ↔ status = .dying)
    (htick : ∀ w, status = .until w → w / tickPeriod = P.now / tickPeriod →
      k.xNextTaskUnblockTime.toNat ≤ w % tickPeriod) :
    Follows prio d A' { k with lists := lists, uxTopReadyPriority := bits }
      (P.setStatus t status) := by
  refine { h with
    places := hplaces
    dying := ?_
    marked := hmarked
    top := htop
    bound := fun u w hu hperiod => ?_ }
  · refine h.dying.trans (length_terminating h.places hplaces fun u => ?_).symm
    by_cases hut : u = t
    · subst hut
      rw [Plan.setStatus_self]
      exact hdying.symm
    · rw [Plan.setStatus_of_ne hut]
  · by_cases hut : u = t
    · subst hut
      rw [Plan.setStatus_self] at hu
      exact htick w hu hperiod
    · rw [Plan.setStatus_of_ne hut] at hu
      exact h.bound u w hu hperiod

/-- What a task waits for changes. -/
theorem setWaits (h : Follows prio d A k P) {waits : Waits ε}
    {lists : Lists (ListId ε) (Item τ)} {A' : Contents (ListId ε) (Item τ)}
    (hplaces : Places prio d lists A' (P.setWaits t waits)) :
    Follows prio d A' { k with lists := lists } (P.setWaits t waits) :=
  { h with
    places := hplaces
    dying := h.dying.trans (length_terminating h.places hplaces fun _ => Iff.rfl).symm }

/-- The bits stay if the task is not ready, before and after. -/
theorem marked_setStatus (h : Follows prio d A k P) (hold : P.status t ≠ .ready) {status : Status}
    (hnew : status ≠ .ready) (p : Priority) :
    Marked k.uxTopReadyPriority p ↔
      ∃ u, (P.setStatus t status).status u = .ready ∧ prio u = p := by
  rw [h.marked]
  constructor
  · rintro ⟨u, hu, hp⟩
    have hut : u ≠ t := by
      rintro rfl
      exact hold hu
    exact ⟨u, (Plan.setStatus_of_ne hut _).trans hu, hp⟩
  · rintro ⟨u, hu, hp⟩
    by_cases hut : u = t
    · subst hut
      rw [Plan.setStatus_self] at hu
      exact absurd hu hnew
    · exact ⟨u, (Plan.setStatus_of_ne hut _).symm.trans hu, hp⟩

variable [DecidableEq ε]

/-- A task that is blocked is taken out of its list. -/
theorem removeState (h : Follows prio d A k P) (habsent : P.status t ≠ .absent)
    (hready : P.status t ≠ .ready) (hdying : P.status t ≠ .dying) :
    ∃ n lists A', k.removeItem (.state t) = some (n, { k with lists := lists }) ∧
      Follows prio d A' { k with lists := lists } (P.setStatus t .absent) := by
  obtain ⟨l, lists, A', hl, hrun, hplaces⟩ := h.places.removeState habsent
  refine ⟨_, lists, A', by rw [Kernel.removeItem, hrun]; rfl, ?_⟩
  exact h.setStatus hplaces (h.marked_setStatus hready fun heq => by cases heq) h.top
    (iff_of_false hdying fun heq => by cases heq) fun w heq => by cases heq

/-- A task that is in no list is made ready. -/
theorem addReady (h : Follows prio d A k P) (habsent : P.status t = .absent) :
    ∃ A', Follows prio d A' (k.prvAddTaskToReadyList t) (P.setStatus t .ready) := by
  obtain ⟨A', hplaces⟩ := h.places.addState habsent .ready rfl
    fun w heq => by cases heq
  have hdying : P.status t ≠ .dying := by
    rw [habsent]
    exact fun heq => by cases heq
  have hprio : k.uxPriority t = prio t := congrFun h.priority t
  unfold Kernel.prvAddTaskToReadyList
  rw [hprio]
  refine ⟨A', h.setStatus hplaces (fun p => ?_) (record_lt h.top)
    (iff_of_false hdying fun heq => by cases heq) fun w heq => by cases heq⟩
  rw [marked_record, h.marked]
  by_cases hp : p = prio t
  · exact iff_of_true (.inl hp) ⟨t, Plan.setStatus_self _, hp.symm⟩
  · rw [or_iff_right hp, ready_setStatus hp]

/-- A task that is in no list is held. -/
theorem addHeld (h : Follows prio d A k P) (habsent : P.status t = .absent) :
    ∃ A', Follows prio d A' { k with lists := k.lists.vListInsertEnd .suspended (.state t) }
      (P.setStatus t .held) := by
  obtain ⟨A', hplaces⟩ := h.places.addState habsent .held rfl
    fun w heq => by cases heq
  have hold : ∀ status, P.status t = status → status = .absent := fun _ heq =>
    heq.symm.trans habsent
  refine ⟨A', h.setStatus hplaces (h.marked_setStatus (fun heq => ?_) fun heq => by cases heq) h.top
    (iff_of_false (fun heq => ?_) fun heq => by cases heq) fun w heq => by cases heq⟩
  · cases hold _ heq
  · cases hold _ heq

/-- A task leaves the list of its event. -/
theorem removeEvent (h : Follows prio d A k P) (t : τ) :
    ∃ lists A', k.removeEvent t = some { k with lists := lists } ∧
      Follows prio d A' { k with lists := lists } (P.setWaits t .no) := by
  unfold Kernel.removeEvent
  by_cases hno : P.waits t = .no
  · have hfree : k.lists.pvContainer (.event t) = none := by
      rw [h.places.event, hno]
      rfl
    have hsame : P.setWaits t .no = P := by
      unfold Plan.setWaits
      rw [← hno, Function.update_eq_self]
    rw [if_pos hfree, hsame]
    exact ⟨k.lists, A, rfl, h⟩
  · have hin : k.lists.pvContainer (.event t) ≠ none := by
      rw [h.places.event]
      exact mt Waits.list_eq_none.mp hno
    obtain ⟨n, lists, A', hrun, hplaces⟩ := h.places.removeEvent hno
    rw [if_neg hin]
    refine ⟨lists, A', ?_, h.setWaits hplaces⟩
    rw [Kernel.removeItem, hrun]
    rfl

/-- A task of any kind is taken out of its list, and its priority is not marked any more if it was
    the last one that was ready. -/
theorem removeAny (h : Follows prio d A k P) (habsent : P.status t ≠ .absent)
    (hdying : P.status t ≠ .dying) :
    ∃ n lists bits A', k.removeItem (.state t) = some (n, { k with lists := lists }) ∧
      (if n = 0 then Kernel.taskResetReadyPriority { k with lists := lists } (prio t)
        else { k with lists := lists }) =
        { k with lists := lists, uxTopReadyPriority := bits } ∧
      (P.status t = .ready →
        bits = if n = 0 then portResetReadyPriority (prio t) k.uxTopReadyPriority
          else k.uxTopReadyPriority) ∧
      Follows prio d A' { k with lists := lists, uxTopReadyPriority := bits }
        (P.setStatus t .absent) := by
  obtain ⟨l, lists, A', hl, hrun, hplaces⟩ := h.places.removeState habsent
  have hlength : Kernel.length { k with lists := lists } (.ready (prio t)) =
      (A'.items (.ready (prio t))).length := hplaces.holds.count _
  have hdy : P.status t = .dying ↔ (.absent : Status) = .dying :=
    iff_of_false hdying fun heq => by cases heq
  -- which tasks of the priority are left
  have hleft : (∃ u, (P.setStatus t .absent).status u = .ready ∧ prio u = prio t) ↔
      A'.items (.ready (prio t)) ≠ [] := by
    constructor
    · rintro ⟨u, hu, hp⟩
      exact List.ne_nil_of_mem (hplaces.mem_ready.mpr ⟨u, rfl, hu, hp⟩)
    · intro hne
      obtain ⟨i, hi⟩ := List.exists_mem_of_ne_nil _ hne
      obtain ⟨u, -, hu, hp⟩ := hplaces.mem_ready.mp hi
      exact ⟨u, hu, hp⟩
  have hlist : P.status t = .ready → l = .ready (prio t) := by
    intro hready
    rw [hready] at hl
    exact (Option.some.inj hl).symm
  by_cases hreset : (A'.items l).length = 0 ∧ A'.items (.ready (prio t)) = []
  · -- nobody is left
    refine ⟨(A'.items l).length, lists, portResetReadyPriority (prio t) k.uxTopReadyPriority, A',
      ?_, ?_, ?_,
      h.setStatus hplaces (fun p => ?_) (reset_lt h.top) hdy fun w heq => by cases heq⟩
    · rw [Kernel.removeItem, hrun]
      rfl
    · rw [if_pos hreset.1]
      unfold Kernel.taskResetReadyPriority
      rw [hlength, if_pos (by rw [hreset.2]; rfl)]
    · intro _
      rw [if_pos hreset.1]
    · rw [marked_reset]
      by_cases hp : p = prio t
      · subst hp
        exact iff_of_false (fun hand => hand.1 rfl) fun hex => hleft.mp hex hreset.2
      · rw [and_iff_right hp, h.marked, ready_setStatus hp]
  · refine ⟨(A'.items l).length, lists, k.uxTopReadyPriority, A', ?_, ?_, ?_,
      h.setStatus hplaces (fun p => ?_) h.top hdy fun w heq => by cases heq⟩
    · rw [Kernel.removeItem, hrun]
      rfl
    · by_cases hn : (A'.items l).length = 0
      · rw [if_pos hn]
        unfold Kernel.taskResetReadyPriority
        rw [hlength, if_neg fun heq => hreset ⟨hn, List.eq_nil_of_length_eq_zero heq⟩]
      · rw [if_neg hn]
    · intro hready
      rw [if_neg]
      intro hn
      refine hreset ⟨hn, ?_⟩
      rw [← hlist hready]
      exact List.eq_nil_of_length_eq_zero hn
    · by_cases hp : p = prio t
      · subst hp
        by_cases hempty : A'.items (.ready (prio t)) = []
        · -- the task was not ready
          refine h.marked_setStatus (fun hready => hreset ⟨?_, hempty⟩)
            (fun heq => by cases heq) _
          rw [hlist hready, hempty]
          rfl
        · refine iff_of_true ?_ (hleft.mpr hempty)
          obtain ⟨u, hu, hp⟩ := hleft.mpr hempty
          refine (h.marked _).mpr ⟨u, ?_, hp⟩
          have hut : u ≠ t := by
            rintro rfl
            rw [Plan.setStatus_self] at hu
            cases hu
          exact (Plan.setStatus_of_ne hut _).symm.trans hu
      · rw [h.marked, ready_setStatus hp]

/-- `taskSELECT_HIGHEST_PRIORITY_TASK`: the next one of the ready tasks of the greatest priority. -/
theorem taskSelectHighestPriorityTask (h : Follows prio d A k P) (hready : P.status t = .ready) :
    ∃ u lists, k.taskSelectHighestPriorityTask =
        some { k with pxCurrentTCB := u, lists := lists } ∧
      P.status u = .ready ∧ (∀ v, P.status v = .ready → prio v ≤ prio u) ∧
      Contents.next (A.cursor (.ready (prio u))) (A.items (.ready (prio u))) = some (.state u) ∧
      Follows prio d (A.advance (.ready (prio u)))
        { k with pxCurrentTCB := u, lists := lists } { P with current := u } := by
  obtain ⟨hlt, hmarked, hgreatest⟩ := portGetHighestPriority_spec h.top
    ((h.marked _).mpr ⟨t, hready, rfl⟩)
  obtain ⟨v, hv, hprio⟩ := (h.marked _).mp hmarked
  have hne : A.items (.ready (prio v)) ≠ [] :=
    List.ne_nil_of_mem (h.places.mem_ready.mpr ⟨v, rfl, hv, rfl⟩)
  have hlength : 0 < k.length (.ready (prio v)) := by
    rw [h.length_eq]
    exact List.length_pos_iff.mpr hne
  obtain ⟨i, lists, hnext, hmem, hrun, hlists⟩ := h.places.holds.advance hne
  obtain ⟨u, rfl, hu, hpu⟩ := h.places.mem_ready.mp hmem
  -- the index goes on, and nothing else changes
  have hcont : lists.pvContainer = k.lists.pvContainer :=
    hlists.container_eq h.places.holds.container
  refine ⟨u, lists, ?_, hu, fun w hw => ?_, ?_, ?_⟩
  · unfold Kernel.taskSelectHighestPriorityTask
    dsimp only
    rw [dif_pos hlt, ← hprio, if_pos hlength, hrun]
    rfl
  · rw [hpu, hprio]
    exact hgreatest _ ((h.marked _).mpr ⟨w, hw, rfl⟩)
  · rw [hpu]
    exact hnext
  · rw [hpu]
    refine { h with
      places := { h.places with
        holds := hlists
        state := fun w => ?_
        event := fun w => ?_ }
      current := rfl }
    · rw [hcont]
      exact h.places.state w
    · rw [hcont]
      exact h.places.event w

end Follows

end Rtos

end RtosLwip
