import Mathlib.Data.List.Pairwise
import RtosLwip.Rtos.Plan

/-!
# Tasks and Lists

Where the items of a task are, for a task that is somewhere in a plan. The state of a task
says which list its first item is in, and what it waits for says it of the second one. The
lists of the tasks that wait are in order.

What `list.c` does to one item changes the place of one task.

## Main definitions

* `Status.list`, `Waits.list`: The lists.
* `Places`: The lists are those of a plan.

## Theorems

* `Places.removeState`, `Places.addState`, `Places.addUntil`: The first item of a task.
* `Places.removeEvent`, `Places.addEvent`, `Places.addWoken`: The second item.
-/

namespace RtosLwip

namespace Rtos

/-! ### One item -/

namespace Contents

variable {κ ι : Type}

/-- The items are in the order of their values. -/
def Sorted (A : Contents κ ι) (l : κ) : Prop :=
  (A.items l).Pairwise fun i j => A.value i ≤ A.value j

/-- What is dropped from a list in order is greater. -/
theorem lt_of_mem_dropWhile {value : ι → UInt32} {v : UInt32} {xs : List ι} {x : ι}
    (h : xs.Pairwise fun i j => value i ≤ value j) (hx : x ∈ xs.dropWhile (value · ≤ v)) :
    v < value x := by
  induction xs with
  | nil => exact absurd hx List.not_mem_nil
  | cons y ys ih =>
      obtain ⟨hy, hys⟩ := List.pairwise_cons.mp h
      by_cases hle : value y ≤ v
      · rw [List.dropWhile_cons_of_pos (by simpa using hle)] at hx
        exact ih hys hx
      · rw [List.dropWhile_cons_of_neg (by simpa using hle)] at hx
        have hlt : v < value y := UInt32.not_le.mp hle
        rcases List.mem_cons.mp hx with rfl | hmem
        · exact hlt
        · exact UInt32.lt_of_lt_of_le hlt (hy x hmem)

/-- An item that is put in at its place keeps the order. -/
theorem pairwise_placeSorted {value : ι → UInt32} {xs : List ι} (i : ι)
    (h : xs.Pairwise fun i j => value i ≤ value j) :
    (placeSorted value i xs).Pairwise fun i j => value i ≤ value j := by
  have hsplit : xs.takeWhile (value · ≤ value i) ++ xs.dropWhile (value · ≤ value i) = xs :=
    List.takeWhile_append_dropWhile
  have hparts := h
  rw [← hsplit, List.pairwise_append] at hparts
  obtain ⟨hbefore, hbehind, hacross⟩ := hparts
  unfold placeSorted
  rw [List.pairwise_append, List.pairwise_cons]
  refine ⟨hbefore, ⟨fun y hy => ?_, hbehind⟩, fun x hx y hy => ?_⟩
  · exact UInt32.le_of_lt (lt_of_mem_dropWhile h hy)
  · rcases List.mem_cons.mp hy with rfl | hmem
    · simpa using List.mem_takeWhile_imp hx
    · exact hacross x hx y hmem

end Contents

namespace Holds

variable {κ ι : Type} {s : Lists κ ι} {A : Contents κ ι} {l : κ} {i : ι}

theorem free_of_container (h : Holds s A) (hc : s.pvContainer i = none) : A.Free i := by
  intro l hmem
  rw [(h.container i l).mpr hmem] at hc
  cases hc

/-- The containers are as the contents say. -/
theorem container_eq {container : ι → Option κ} (h : Holds s A)
    (hc : ∀ j l, container j = some l ↔ j ∈ A.items l) : s.pvContainer = container := by
  funext j
  refine Option.ext fun l => ?_
  rw [h.container, hc]

/-- Lists with the same items have the same length. -/
theorem length_eq {s' : Lists κ ι} {A' : Contents κ ι} (h : Holds s A) (h' : Holds s' A') {l' : κ}
    (hmem : ∀ j, j ∈ A.items l ↔ j ∈ A'.items l') :
    (A.items l).length = (A'.items l').length :=
  ((List.perm_ext_iff_of_nodup (h.nodup l) (h'.nodup l')).mpr hmem).length_eq

/-- A list with one item more is longer by one. -/
theorem length_succ {s' : Lists κ ι} {A' : Contents κ ι} (h : Holds s A) (h' : Holds s' A')
    {l' : κ} (hmem : ∀ j, j ∈ A.items l ↔ j = i ∨ j ∈ A'.items l') (hi : i ∉ A'.items l') :
    (A.items l).length = (A'.items l').length + 1 := by
  have hperm : (A.items l).Perm (i :: A'.items l') := by
    refine (List.perm_ext_iff_of_nodup (h.nodup l) (List.nodup_cons.mpr ⟨hi, h'.nodup l'⟩)).mpr ?_
    intro j
    rw [hmem, List.mem_cons]
  rw [hperm.length_eq, List.length_cons]

variable [DecidableEq κ] [DecidableEq ι]

/-- An item is taken out of its list. -/
theorem exists_remove (h : Holds s A) (hc : s.pvContainer i = some l) :
    ∃ s' A', s.uxListRemove i = some ((A'.items l).length, s') ∧ Holds s' A' ∧
      s'.pvContainer = Function.update s.pvContainer i none ∧ A'.value = A.value ∧
      ∀ l', (A'.items l').Sublist (A.items l') := by
  have hmem := (h.container i l).mp hc
  obtain ⟨s', hrun, hs'⟩ := h.remove hmem
  have hself : (A.remove l i).items l = (A.items l).erase i := Function.update_self ..
  refine ⟨s', A.remove l i, by rw [hself]; exact hrun, hs', ?_, rfl, fun l' => ?_⟩
  · refine hs'.container_eq fun j l' => ?_
    by_cases hj : j = i
    · subst hj
      rw [Function.update_self]
      refine iff_of_false (Option.some_ne_none l').symm ?_
      by_cases hl : l' = l
      · subst hl
        rw [hself]
        exact (h.nodup l').not_mem_erase
      · intro hin
        have hother : (A.remove l j).items l' = A.items l' := Function.update_of_ne hl ..
        rw [hother, ← h.container, hc] at hin
        exact hl (Option.some.inj hin).symm
    · rw [Function.update_of_ne hj, h.container]
      by_cases hl : l' = l
      · subst hl
        rw [hself, List.mem_erase_of_ne hj]
      · have hother : (A.remove l i).items l' = A.items l' := Function.update_of_ne hl ..
        rw [hother]
  · by_cases hl : l' = l
    · subst hl
      rw [hself]
      exact List.erase_sublist
    · have hother : (A.remove l i).items l' = A.items l' := Function.update_of_ne hl ..
      rw [hother]

/-- An item that is in no list is put at the end of one. -/
theorem exists_insertEnd (h : Holds s A) (hc : s.pvContainer i = none) (l : κ) :
    ∃ A', Holds (s.vListInsertEnd l i) A' ∧ A'.value = A.value ∧
      ∀ l', l' ≠ l → A'.items l' = A.items l' :=
  ⟨A.insertEnd l i, h.insertEnd (h.free_of_container hc), rfl, fun _ hl =>
    Function.update_of_ne hl ..⟩

/-- An item that is in no list is put at its place in one that is in order. -/
theorem exists_insert (h : Holds s A) (hc : s.pvContainer i = none) (hsorted : A.Sorted l) :
    ∃ s' A', s.vListInsert l i = some s' ∧ Holds s' A' ∧
      s'.pvContainer = Function.update s.pvContainer i (some l) ∧ A'.value = A.value ∧
      A'.Sorted l ∧ ∀ l', l' ≠ l → A'.items l' = A.items l' := by
  have hfree := h.free_of_container hc
  obtain ⟨s', hrun, hs'⟩ := h.insert l hfree
  have hself : (A.insert l i).items l = Contents.placeSorted A.value i (A.items l) :=
    Function.update_self ..
  have hother : ∀ l', l' ≠ l → (A.insert l i).items l' = A.items l' := fun l' hl =>
    Function.update_of_ne hl ..
  refine ⟨s', A.insert l i, hrun, hs', ?_, rfl, ?_, hother⟩
  · refine hs'.container_eq fun j l' => ?_
    have hmem : j ∈ Contents.placeSorted A.value i (A.items l) ↔ j = i ∨ j ∈ A.items l := by
      unfold Contents.placeSorted
      rw [List.perm_middle.mem_iff, List.mem_cons, List.takeWhile_append_dropWhile]
    by_cases hj : j = i
    · subst hj
      rw [Function.update_self, Option.some.injEq]
      by_cases hl : l' = l
      · subst hl
        rw [hself, hmem]
        exact iff_of_true rfl (.inl rfl)
      · rw [hother l' hl]
        exact iff_of_false (fun heq => hl heq.symm) (hfree l')
    · rw [Function.update_of_ne hj, h.container]
      by_cases hl : l' = l
      · subst hl
        rw [hself, hmem, or_iff_right hj]
      · rw [hother l' hl]
  · unfold Contents.Sorted
    rw [hself]
    exact Contents.pairwise_placeSorted i hsorted

end Holds

/-! ### The items of a task -/

namespace Status

/-- The list of the first item of a task. Tasks that wait for a tick before the tick count wraps
    around are in one list, and the others in a second one. -/
def list {ε : Type} (p : Priority) (d : Bool) (now : Nat) : Status → Option (ListId ε)
  | absent => none
  | ready => some (.ready p)
  | .until w => some (.delayed (if w / tickPeriod = now / tickPeriod then d else !d))
  | held => some .suspended
  | dying => some .terminating

end Status

namespace Waits

/-- The list of the second item of a task. -/
def list {ε : Type} : Waits ε → Option (ListId ε)
  | no => none
  | on e => some (.event e)
  | woken => some .pendingReady

theorem list_eq_none {ε : Type} {w : Waits ε} : w.list = none ↔ w = .no := by
  cases w with
  | no => exact iff_of_true rfl rfl
  | on e => exact iff_of_false (fun h => by cases h) fun h => by cases h
  | woken => exact iff_of_false (fun h => by cases h) fun h => by cases h

end Waits

variable {τ ε : Type}

/-- The items are in the lists of a plan, with the values that put them in order. -/
structure Places (prio : τ → Priority) (d : Bool) (s : Lists (ListId ε) (Item τ))
    (A : Contents (ListId ε) (Item τ)) (P : Plan τ ε) : Prop where
  holds : Holds s A
  state : ∀ t, s.pvContainer (.state t) = (P.status t).list (prio t) d P.now
  event : ∀ t, s.pvContainer (.event t) = (P.waits t).list
  wake : ∀ t w, P.status t = .until w → A.value (.state t) = UInt32.ofNat w
  priority : ∀ t, A.value (.event t) = UInt32.ofNat (configMaxPriorities - (prio t).val)
  delayed : ∀ b, A.Sorted (.delayed b)
  events : ∀ e, A.Sorted (.event e)

namespace Places

variable {prio : τ → Priority} {d : Bool} {s : Lists (ListId ε) (Item τ)}
  {A : Contents (ListId ε) (Item τ)} {P : Plan τ ε} {t : τ}

theorem mem_state (h : Places prio d s A P) {l : ListId ε} :
    .state t ∈ A.items l ↔ (P.status t).list (prio t) d P.now = some l := by
  rw [← h.state, h.holds.container]

theorem mem_event (h : Places prio d s A P) {l : ListId ε} :
    .event t ∈ A.items l ↔ (P.waits t).list = some l := by
  rw [← h.event, h.holds.container]

theorem mem_ready (h : Places prio d s A P) {p : Priority} {i : Item τ} :
    i ∈ A.items (.ready p) ↔ ∃ t, i = .state t ∧ P.status t = .ready ∧ prio t = p := by
  cases i with
  | state t =>
      rw [h.mem_state]
      cases hst : P.status t <;> simp [Status.list, hst]
  | event t =>
      rw [h.mem_event]
      cases hw : P.waits t <;> simp [Waits.list]

theorem mem_delayed (h : Places prio d s A P) {b : Bool} {i : Item τ} :
    i ∈ A.items (.delayed b) ↔ ∃ t w, i = .state t ∧ P.status t = .until w ∧
      (if w / tickPeriod = P.now / tickPeriod then d else !d) = b := by
  cases i with
  | state t =>
      rw [h.mem_state]
      cases hst : P.status t <;> simp [Status.list, hst]
  | event t =>
      rw [h.mem_event]
      cases hw : P.waits t <;> simp [Waits.list]

theorem mem_events (h : Places prio d s A P) {e : ε} {i : Item τ} :
    i ∈ A.items (.event e) ↔ ∃ t, i = .event t ∧ P.waits t = .on e := by
  cases i with
  | state t =>
      rw [h.mem_state]
      cases hst : P.status t <;> simp [Status.list]
  | event t =>
      rw [h.mem_event]
      cases hw : P.waits t <;> simp [Waits.list, hw]

theorem mem_pending (h : Places prio d s A P) {i : Item τ} :
    i ∈ A.items .pendingReady ↔ ∃ t, i = .event t ∧ P.waits t = .woken := by
  cases i with
  | state t =>
      rw [h.mem_state]
      cases hst : P.status t <;> simp [Status.list]
  | event t =>
      rw [h.mem_event]
      cases hw : P.waits t <;> simp [Waits.list, hw]

theorem mem_terminating (h : Places prio d s A P) {i : Item τ} :
    i ∈ A.items .terminating ↔ ∃ t, i = .state t ∧ P.status t = .dying := by
  cases i with
  | state t =>
      rw [h.mem_state]
      cases hst : P.status t <;> simp [Status.list, hst]
  | event t =>
      rw [h.mem_event]
      cases hw : P.waits t <;> simp [Waits.list]

variable [DecidableEq τ]

/-- The first item of a task goes to another list, and the lists that are in order stay so. -/
theorem withState (h : Places prio d s A P) {status : Status} {s' : Lists (ListId ε) (Item τ)}
    {A' : Contents (ListId ε) (Item τ)} (hs' : Holds s' A')
    (hcont : s'.pvContainer =
      Function.update s.pvContainer (.state t) (status.list (prio t) d P.now))
    (hvalue : ∀ i, i ≠ .state t → A'.value i = A.value i)
    (hwake : ∀ w, status = .until w → A'.value (.state t) = UInt32.ofNat w)
    (hdelayed : ∀ b, A'.Sorted (.delayed b)) (hevents : ∀ e, A'.Sorted (.event e)) :
    Places prio d s' A' (P.setStatus t status) := by
  have hevent : ∀ u : τ, Item.event u ≠ .state t := fun u heq => by cases heq
  refine ⟨hs', fun u => ?_, fun u => ?_, fun u w hu => ?_, fun u => ?_, hdelayed, hevents⟩
  · rw [hcont]
    by_cases hut : u = t
    · subst hut
      rw [Function.update_self, Plan.setStatus_self]
      rfl
    · rw [Function.update_of_ne fun heq => hut (Item.state.inj heq), Plan.setStatus_of_ne hut]
      exact h.state u
  · rw [hcont, Function.update_of_ne (hevent u)]
    exact h.event u
  · by_cases hut : u = t
    · subst hut
      rw [Plan.setStatus_self] at hu
      exact hwake w hu
    · rw [Plan.setStatus_of_ne hut] at hu
      rw [hvalue _ fun heq => hut (Item.state.inj heq)]
      exact h.wake u w hu
  · rw [hvalue _ (hevent u)]
    exact h.priority u

/-- The second item of a task goes to another list, and the lists that are in order stay so. -/
theorem withEvent (h : Places prio d s A P) {waits : Waits ε} {s' : Lists (ListId ε) (Item τ)}
    {A' : Contents (ListId ε) (Item τ)} (hs' : Holds s' A')
    (hcont : s'.pvContainer = Function.update s.pvContainer (.event t) waits.list)
    (hvalue : A'.value = A.value)
    (hdelayed : ∀ b, A'.Sorted (.delayed b)) (hevents : ∀ e, A'.Sorted (.event e)) :
    Places prio d s' A' (P.setWaits t waits) := by
  refine ⟨hs', fun u => ?_, fun u => ?_, fun u w hu => ?_, fun u => ?_, hdelayed, hevents⟩
  · rw [hcont, Function.update_of_ne fun heq => by cases heq]
    exact h.state u
  · rw [hcont]
    by_cases hut : u = t
    · subst hut
      rw [Function.update_self, Plan.setWaits_self]
    · rw [Function.update_of_ne fun heq => hut (Item.event.inj heq), Plan.setWaits_of_ne hut]
      exact h.event u
  · rw [hvalue]
    exact h.wake u w hu
  · rw [hvalue]
    exact h.priority u

variable [DecidableEq ε]

/-- The first item of a task is taken out of its list. -/
theorem removeState (h : Places prio d s A P) (hst : P.status t ≠ .absent) :
    ∃ l s' A', (P.status t).list (prio t) d P.now = some l ∧
      s.uxListRemove (.state t) = some ((A'.items l).length, s') ∧
      Places prio d s' A' (P.setStatus t .absent) := by
  obtain ⟨l, hl⟩ : ∃ l : ListId ε, (P.status t).list (prio t) d P.now = some l := by
    cases hcase : P.status t with
    | absent => exact absurd hcase hst
    | ready => exact ⟨_, rfl⟩
    | «until» w => exact ⟨_, rfl⟩
    | held => exact ⟨_, rfl⟩
    | dying => exact ⟨_, rfl⟩
  obtain ⟨s', A', hrun, hs', hcont, hvalue, hsub⟩ := h.holds.exists_remove ((h.state t).trans hl)
  have hsorted : ∀ l', A.Sorted l' → A'.Sorted l' := by
    intro l' hl'
    unfold Contents.Sorted
    rw [hvalue]
    exact List.Pairwise.sublist (hsub l') hl'
  refine ⟨l, s', A', hl, hrun, h.withState hs' hcont (fun i _ => by rw [hvalue]) ?_
    (fun b => hsorted _ (h.delayed b)) fun e => hsorted _ (h.events e)⟩
  intro w heq
  cases heq

/-- The second item of a task is taken out of its list. -/
theorem removeEvent (h : Places prio d s A P) (hw : P.waits t ≠ .no) :
    ∃ n s' A', s.uxListRemove (.event t) = some (n, s') ∧
      Places prio d s' A' (P.setWaits t .no) := by
  obtain ⟨l, hl⟩ := Option.ne_none_iff_exists'.mp (mt Waits.list_eq_none.mp hw)
  obtain ⟨s', A', hrun, hs', hcont, hvalue, hsub⟩ := h.holds.exists_remove ((h.event t).trans hl)
  have hsorted : ∀ l', A.Sorted l' → A'.Sorted l' := by
    intro l' hl'
    unfold Contents.Sorted
    rw [hvalue]
    exact List.Pairwise.sublist (hsub l') hl'
  exact ⟨_, s', A', hrun, h.withEvent hs' hcont hvalue (fun b => hsorted _ (h.delayed b))
    fun e => hsorted _ (h.events e)⟩

/-- The first item of a task is put at the end of a list that has no order. -/
theorem addState (h : Places prio d s A P) (hst : P.status t = .absent) (status : Status)
    {l : ListId ε} (hl : status.list (prio t) d P.now = some l) (htick : ∀ w, status ≠ .until w) :
    ∃ A', Places prio d (s.vListInsertEnd l (.state t)) A' (P.setStatus t status) := by
  have hfree : s.pvContainer (.state t) = none := by
    rw [h.state, hst]
    rfl
  obtain ⟨A', hs', hvalue, hother⟩ := h.holds.exists_insertEnd hfree l
  have hsorted : ∀ l', l' ≠ l → A.Sorted l' → A'.Sorted l' := by
    intro l' hne hl'
    unfold Contents.Sorted
    rw [hvalue, hother l' hne]
    exact hl'
  -- the lists in order are other ones
  have hne : (∀ b, .delayed b ≠ l) ∧ ∀ e, .event e ≠ l := by
    cases status with
    | «until» w => exact absurd rfl (htick w)
    | absent => cases hl
    | ready =>
        obtain rfl := Option.some.inj hl
        simp
    | held =>
        obtain rfl := Option.some.inj hl
        simp
    | dying =>
        obtain rfl := Option.some.inj hl
        simp
  refine ⟨A', h.withState hs' (by rw [hl]; rfl) (fun i _ => by rw [hvalue])
    (fun w heq => absurd heq (htick w)) (fun b => hsorted _ (hne.1 b) (h.delayed b))
    fun e => hsorted _ (hne.2 e) (h.events e)⟩

/-- The second item of a task that was woken is put at the end of the pending ones. -/
theorem addWoken (h : Places prio d s A P) (hw : P.waits t = .no) :
    ∃ A', Places prio d (s.vListInsertEnd .pendingReady (.event t)) A' (P.setWaits t .woken) := by
  have hfree : s.pvContainer (.event t) = none := by
    rw [h.event, hw]
    rfl
  obtain ⟨A', hs', hvalue, hother⟩ := h.holds.exists_insertEnd hfree .pendingReady
  have hsorted : ∀ l', l' ≠ .pendingReady → A.Sorted l' → A'.Sorted l' := by
    intro l' hne hl'
    unfold Contents.Sorted
    rw [hvalue, hother l' hne]
    exact hl'
  exact ⟨A', h.withEvent hs' rfl hvalue
    (fun b => hsorted _ (fun heq => by cases heq) (h.delayed b))
    fun e => hsorted _ (fun heq => by cases heq) (h.events e)⟩

/-- The second item of a task is put in order into the list of an event. -/
theorem addEvent (h : Places prio d s A P) (hw : P.waits t = .no) (e : ε) :
    ∃ s' A', s.vListInsert (.event e) (.event t) = some s' ∧
      Places prio d s' A' (P.setWaits t (.on e)) := by
  have hfree : s.pvContainer (.event t) = none := by
    rw [h.event, hw]
    rfl
  obtain ⟨s', A', hrun, hs', hcont, hvalue, hsorted, hother⟩ :=
    h.holds.exists_insert hfree (h.events e)
  have hkeep : ∀ l', l' ≠ .event e → A.Sorted l' → A'.Sorted l' := by
    intro l' hne hl'
    unfold Contents.Sorted
    rw [hvalue, hother l' hne]
    exact hl'
  refine ⟨s', A', hrun, h.withEvent hs' hcont hvalue
    (fun b => hkeep _ (fun heq => by cases heq) (h.delayed b)) fun e' => ?_⟩
  by_cases he : e' = e
  · subst he
    exact hsorted
  · exact hkeep _ (fun heq => he (ListId.event.inj heq)) (h.events e')

/-- The first item of a task is put in order among those that wait for a tick. -/
theorem addUntil (h : Places prio d s A P) (hst : P.status t = .absent) (w : Nat) :
    ∃ s' A', (s.setListItemValue (.state t) (UInt32.ofNat w)).vListInsert
        (.delayed (if w / tickPeriod = P.now / tickPeriod then d else !d)) (.state t) = some s' ∧
      Places prio d s' A' (P.setStatus t (.until w)) := by
  have hfree : s.pvContainer (.state t) = none := by
    rw [h.state, hst]
    rfl
  have hset := h.holds.setValue (.state t) (UInt32.ofNat w)
  have hvalues : ∀ i, i ≠ .state t → (A.setValue (.state t) (UInt32.ofNat w)).value i = A.value i :=
    fun i hi => Function.update_of_ne hi ..
  -- the item is in no list, so that its value is in no order
  have hset_sorted : ∀ l, A.Sorted l → (A.setValue (.state t) (UInt32.ofNat w)).Sorted l := by
    intro l hl
    have hmem : ∀ i ∈ A.items l, i ≠ .state t := by
      rintro i hi rfl
      rw [(h.holds.container _ _).mpr hi] at hfree
      cases hfree
    refine List.Pairwise.imp_of_mem ?_ hl
    intro i j hi hj hle
    rw [hvalues i (hmem i hi), hvalues j (hmem j hj)]
    exact hle
  obtain ⟨s', A', hrun, hs', hcont, hvalue, hsorted, hother⟩ :=
    hset.exists_insert hfree (hset_sorted _ (h.delayed
      (if w / tickPeriod = P.now / tickPeriod then d else !d)))
  have hkeep : ∀ l', l' ≠ .delayed (if w / tickPeriod = P.now / tickPeriod then d else !d) →
      A.Sorted l' → A'.Sorted l' := by
    intro l' hne hl'
    have hsame := hset_sorted l' hl'
    unfold Contents.Sorted at hsame ⊢
    rw [hvalue, hother l' hne]
    exact hsame
  refine ⟨s', A', hrun, h.withState hs' hcont (fun i hi => ?_) (fun w' heq => ?_) (fun b => ?_)
    fun e => hkeep _ (fun heq => by cases heq) (h.events e)⟩
  · rw [hvalue]
    exact hvalues i hi
  · obtain rfl := Status.until.inj heq
    rw [hvalue]
    exact Function.update_self ..
  · by_cases hb : b = if w / tickPeriod = P.now / tickPeriod then d else !d
    · rw [hb]
      exact hsorted
    · exact hkeep _ (fun heq => hb (ListId.delayed.inj heq)) (h.delayed b)

end Places

end Rtos

end RtosLwip
