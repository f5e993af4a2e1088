import Mathlib.Algebra.Group.Nat.Defs
import Mathlib.Logic.Function.Basic
import RtosLwip.Rtos.Kernel

/-!
# What the Scheduler Is For

The scheduler without its lists: a clock that does not wrap around, and for each task
whether it is ready, waits until a tick, or is held. A task that waits for an event waits
for it until its tick comes.

A step is one call. It leaves open which of the tasks of the highest priority is chosen,
and nothing else.

## Main definitions

* `Plan`: The clock, and where each task is.
* `Plan.tick`, `Plan.unlock`: A tick, and the end of a time without scheduling.
* `Plan.Step`, `Plan.Run`: What a call does, and a run of calls.
* `Plan.Sound`: What holds in every run.

## Theorems

* `Plan.Sound.step`, `Plan.Sound.run`: It does.
-/

namespace RtosLwip

namespace Rtos

/-- Where a task is: in no list, ready, waiting for a tick, held, or about to be deleted. -/
inductive Status where
  | absent
  | ready
  | until (wake : Nat)
  | held
  | dying
  deriving DecidableEq

/-- What a task waits for: nothing, an event, or the end of a time without scheduling since its
    event has come. -/
inductive Waits (ε : Type) where
  | no
  | on (e : ε)
  | woken

instance {ε : Type} : ∀ w : Waits ε, Decidable (w = .woken)
  | .no => .isFalse fun h => by cases h
  | .on _ => .isFalse fun h => by cases h
  | .woken => .isTrue rfl

structure Plan (τ ε : Type) where
  now : Nat
  status : τ → Status
  waits : τ → Waits ε
  current : τ
  depth : Nat
  missed : Nat

/-- How many ticks there are until the tick count is zero again. -/
def tickPeriod : Nat := 4294967296

variable {τ ε : Type}

namespace Plan

/-- The tasks whose tick has come are ready. -/
def expire (P : Plan τ ε) : Plan τ ε :=
  { P with
    status := fun t => if P.status t = .until P.now then .ready else P.status t
    waits := fun t => if P.status t = .until P.now then .no else P.waits t }

/-- The clock goes on by one. -/
def advance (P : Plan τ ε) : Plan τ ε := expire { P with now := P.now + 1 }

/-- A tick. -/
def tick (P : Plan τ ε) : Plan τ ε :=
  if P.depth = 0 then P.advance else { P with missed := P.missed + 1 }

/-- The tasks whose event has come are ready. -/
def release (P : Plan τ ε) : Plan τ ε :=
  { P with
    status := fun t => if P.waits t = .woken then .ready else P.status t
    waits := fun t => if P.waits t = .woken then .no else P.waits t }

/-- The clock goes on by a number of ticks. -/
def advances : Nat → Plan τ ε → Plan τ ε
  | 0, P => P
  | n + 1, P => advances n P.advance

def lock (P : Plan τ ε) : Plan τ ε := { P with depth := P.depth + 1 }

/-- At the end of a time without scheduling, what was put off is done. -/
def unlock (P : Plan τ ε) : Plan τ ε :=
  if P.depth - 1 = 0 then
    { advances P.missed (release { P with depth := 0 }) with missed := 0 }
  else
    { P with depth := P.depth - 1 }

/-- A task is suspended, and does not wait for an event without end. -/
def Suspended (P : Plan τ ε) (t : τ) : Prop := P.status t = .held ∧ P.waits t = .no

variable [DecidableEq τ]

def setStatus (P : Plan τ ε) (t : τ) (status : Status) : Plan τ ε :=
  { P with status := Function.update P.status t status }

def setWaits (P : Plan τ ε) (t : τ) (waits : Waits ε) : Plan τ ε :=
  { P with waits := Function.update P.waits t waits }

/-- A task waits for nothing any more, and is somewhere else. -/
def moveTo (P : Plan τ ε) (t : τ) (status : Status) : Plan τ ε :=
  (P.setStatus t status).setWaits t .no

/-- A task that was woken is ready, or will be as the scheduling goes on. -/
def wake (P : Plan τ ε) (t : τ) : Plan τ ε :=
  if P.depth = 0 then P.moveTo t .ready else P.setWaits t .woken

/-- The current task waits for a number of ticks. -/
def delay (P : Plan τ ε) (n : Nat) : Plan τ ε :=
  P.lock.setStatus P.current (.until (P.now + n))

/-- The current task waits for an event, for a number of ticks or without end. -/
def wait (P : Plan τ ε) (e : ε) (n : UInt32) : Plan τ ε :=
  (P.lock.setStatus P.current
    (if n = portMaxDelay then .held else .until (P.now + n.toNat))).setWaits P.current (.on e)

variable (prio : τ → Priority)

/-- What a call does. -/
inductive Step : Plan τ ε → Call τ ε → Plan τ ε → Prop
  | tick (P) : Step P .tick P.tick
  | switch (P) (t : τ) (hopen : P.depth = 0) (hready : P.status t = .ready)
      (htop : ∀ u, P.status u = .ready → prio u ≤ prio t) : Step P .switch { P with current := t }
  | putOff (P) (hlocked : P.depth ≠ 0) : Step P .switch P
  | wake (P) (e : ε) (t : τ) (hwaits : P.waits t = .on e)
      (htop : ∀ u, P.waits u = .on e → prio u ≤ prio t) : Step P (.wake e) (P.wake t)
  | resumeFromISR (P) (t : τ) (hheld : P.Suspended t) : Step P (.resumeFromISR t) (P.wake t)
  | ignoreFromISR (P) (t : τ) (hheld : ¬ P.Suspended t) : Step P (.resumeFromISR t) P
  | yield (P) : Step P .yield P
  | suspendAll (P) : Step P .suspendAll P.lock
  | resumeAll (P) : Step P .resumeAll P.unlock
  | delay (P) (n : UInt32) (hrunning : P.status P.current = .ready) :
      Step P (.delay n) (P.delay n.toNat)
  | delayUntil (P) (prev inc : UInt32) (hrunning : P.status P.current = .ready)
      (hdelay : Kernel.xShouldDelay (UInt32.ofNat P.now) prev (prev + inc) = true) :
      Step P (.delayUntil prev inc) (P.delay (prev + inc - UInt32.ofNat P.now).toNat)
  | pass (P) (prev inc : UInt32) (hrunning : P.status P.current = .ready)
      (hdelay : Kernel.xShouldDelay (UInt32.ofNat P.now) prev (prev + inc) = false) :
      Step P (.delayUntil prev inc) P.lock
  | wait (P) (e : ε) (n : UInt32) (hrunning : P.status P.current = .ready) :
      Step P (.wait e n) (P.wait e n)
  | leave (P) : Step P .leave P.unlock
  | suspend (P) (t : τ) : Step P (.suspend t) (P.moveTo t .held)
  | resume (P) (t : τ) (hheld : P.Suspended t) (hother : t ≠ P.current) :
      Step P (.resume t) (P.moveTo t .ready)
  | ignore (P) (t : τ) (hheld : ¬ (P.Suspended t ∧ t ≠ P.current)) : Step P (.resume t) P
  | create (P) (t : τ) (habsent : P.status t = .absent) :
      Step P (.create t) (P.setStatus t .ready)
  | delete (P) (t : τ) :
      Step P (.delete t) (P.moveTo t (if t = P.current then .dying else .absent))
  | cleanUp (P) (t : τ) (hdying : P.status t = .dying) : Step P .cleanUp (P.setStatus t .absent)
  | rest (P) (hdying : ∀ t, P.status t ≠ .dying) : Step P .cleanUp P

/-- One call after the other. -/
inductive Run : Plan τ ε → List (Call τ ε) → Plan τ ε → Prop
  | nil (P) : Run P [] P
  | cons {P Q R : Plan τ ε} {c : Call τ ε} {calls : List (Call τ ε)} (hstep : Step prio P c Q)
      (hrest : Run Q calls R) : Run P (c :: calls) R

/-- When a call may come: the idle task stays ready, and a delay is one tick at least. -/
def Permits (P : Plan τ ε) (idle : τ) : Call τ ε → Prop
  | .delay n => P.current ≠ idle ∧ 0 < n
  | .delayUntil _ _ => P.current ≠ idle
  | .wait _ n => P.current ≠ idle ∧ 0 < n
  | .suspend t => t ≠ idle
  | .delete t => t ≠ idle
  | _ => True

omit [DecidableEq τ] in
/-- Ticks to come are less than two periods away, only a task that is blocked waits for an event,
    no task that was woken is put off without a reason, and there is always a task to run. -/
structure Sound (idle : τ) (P : Plan τ ε) : Prop where
  timely : ∀ t w, P.status t = .until w → P.now < w ∧ w / tickPeriod ≤ P.now / tickPeriod + 1
  waiting : ∀ t, P.waits t ≠ .no → P.status t = .held ∨ ∃ w, P.status t = .until w
  locked : ∀ t, P.waits t = .woken → P.depth ≠ 0
  idle : P.status idle = .ready

/-! ### Invariants -/

section Clock

variable {P : Plan τ ε} {idle t : τ}

omit [DecidableEq τ]

@[simp] theorem advance_now : P.advance.now = P.now + 1 := rfl
@[simp] theorem advance_missed : P.advance.missed = P.missed := rfl
@[simp] theorem expire_status_until {w : Nat} :
    P.expire.status t = .until w ↔ P.status t = .until w ∧ w ≠ P.now := by
  unfold expire
  dsimp only
  by_cases hdue : P.status t = .until P.now
  · rw [if_pos hdue, hdue]
    constructor
    · intro h
      cases h
    · rintro ⟨heq, hne⟩
      exact absurd (Status.until.inj heq).symm hne
  · rw [if_neg hdue]
    constructor
    · intro h
      refine ⟨h, ?_⟩
      rintro rfl
      exact hdue h
    · exact fun h => h.1

/-- A task that still waits is where it was. -/
theorem expire_waits (h : P.expire.waits t ≠ .no) :
    P.expire.waits t = P.waits t ∧ P.expire.status t = P.status t := by
  unfold expire at h ⊢
  dsimp only at h ⊢
  by_cases hdue : P.status t = .until P.now
  · rw [if_pos hdue] at h
    exact absurd rfl h
  · rw [if_neg hdue, if_neg hdue]
    exact ⟨rfl, rfl⟩

/-- Nothing happens if nobody is due. -/
theorem expire_eq (h : ∀ u, P.status u ≠ .until P.now) : P.expire = P := by
  unfold expire
  simp only [h, if_false]

theorem expire_ready (h : P.status t = .ready) : P.expire.status t = .ready := by
  unfold expire
  dsimp only
  rw [h]
  exact if_neg fun heq => by cases heq

theorem Sound.advance (h : P.Sound idle) : P.advance.Sound idle where
  timely u w hu := by
    obtain ⟨hstatus, hne⟩ := expire_status_until.mp hu
    obtain ⟨hlt, hperiod⟩ := h.timely u w hstatus
    dsimp only at hne
    rw [advance_now]
    unfold tickPeriod at hperiod ⊢
    omega
  waiting u hu := by
    obtain ⟨hwaits, hstatus⟩ := expire_waits hu
    have hwait : P.waits u ≠ .no := by
      intro hno
      exact hu (hwaits.trans hno)
    rcases h.waiting u hwait with hheld | ⟨w, huntil⟩
    · exact .inl (hstatus.trans hheld)
    · exact .inr ⟨w, hstatus.trans huntil⟩
  locked u hu := by
    have hne : P.advance.waits u ≠ .no := by
      intro hno
      rw [hno] at hu
      cases hu
    exact h.locked u ((expire_waits hne).1.symm.trans hu)
  idle := expire_ready h.idle

theorem Sound.advances (h : P.Sound idle) (n : Nat) : (advances n P).Sound idle := by
  induction n generalizing P with
  | zero => exact h
  | succ n ih => exact ih h.advance

theorem Sound.tick (h : P.Sound idle) : P.tick.Sound idle := by
  unfold Plan.tick
  by_cases hopen : P.depth = 0
  · rw [if_pos hopen]
    exact h.advance
  · rw [if_neg hopen]
    exact ⟨h.timely, h.waiting, h.locked, h.idle⟩

/-- Nobody who was woken is put off any longer. -/
theorem Sound.release (h : P.Sound idle) : (release { P with depth := 0 }).Sound idle := by
  have hstay : ∀ u, P.waits u ≠ .woken →
      (Plan.release { P with depth := 0 }).status u = P.status u ∧
        (Plan.release { P with depth := 0 }).waits u = P.waits u := by
    intro u hu
    exact ⟨if_neg hu, if_neg hu⟩
  have hmove : ∀ u, P.waits u = .woken →
      (Plan.release { P with depth := 0 }).status u = .ready ∧
        (Plan.release { P with depth := 0 }).waits u = .no := by
    intro u hu
    exact ⟨if_pos hu, if_pos hu⟩
  constructor
  · intro u w hu
    by_cases hwoken : P.waits u = .woken
    · rw [(hmove u hwoken).1] at hu
      cases hu
    · rw [(hstay u hwoken).1] at hu
      exact h.timely u w hu
  · intro u hu
    by_cases hwoken : P.waits u = .woken
    · exact absurd (hmove u hwoken).2 hu
    · rw [(hstay u hwoken).2] at hu
      rw [(hstay u hwoken).1]
      exact h.waiting u hu
  · intro u hu
    by_cases hwoken : P.waits u = .woken
    · rw [(hmove u hwoken).2] at hu
      cases hu
    · rw [(hstay u hwoken).2] at hu
      exact absurd hu hwoken
  · by_cases hwoken : P.waits idle = .woken
    · exact (hmove idle hwoken).1
    · rw [(hstay idle hwoken).1]
      exact h.idle

/-- Nothing happens if nobody was woken. -/
theorem release_eq (h : ∀ u, P.waits u ≠ .woken) : P.release = P := by
  unfold Plan.release
  simp only [h, if_false]

theorem Sound.unlock (h : P.Sound idle) : P.unlock.Sound idle := by
  unfold Plan.unlock
  by_cases hlast : P.depth - 1 = 0
  · rw [if_pos hlast]
    have hdone := h.release.advances P.missed
    exact ⟨hdone.timely, hdone.waiting, hdone.locked, hdone.idle⟩
  · rw [if_neg hlast]
    exact ⟨h.timely, h.waiting, fun _ _ => hlast, h.idle⟩

/-! What a tick and the end of a time without scheduling leave as it is. -/

theorem advances_spec (n : Nat) : (advances n P).depth = P.depth ∧
    (advances n P).current = P.current ∧ (advances n P).now = P.now + n ∧
    (advances n P).missed = P.missed := by
  induction n generalizing P with
  | zero => exact ⟨rfl, rfl, rfl, rfl⟩
  | succ n ih =>
      obtain ⟨hdepth, hcurrent, hnow, hmissed⟩ := ih (P := P.advance)
      refine ⟨hdepth, hcurrent, hnow.trans ?_, hmissed⟩
      rw [advance_now]
      omega

theorem advances_ready (h : P.status t = .ready) (n : Nat) :
    (advances n P).status t = .ready := by
  induction n generalizing P with
  | zero => exact h
  | succ n ih => exact ih (expire_ready h)

theorem release_ready (h : P.status t = .ready) : P.release.status t = .ready := by
  unfold Plan.release
  dsimp only
  rw [h, ite_self]

@[simp] theorem tick_depth : P.tick.depth = P.depth := by
  unfold Plan.tick
  by_cases hopen : P.depth = 0
  · rw [if_pos hopen]
    rfl
  · rw [if_neg hopen]

@[simp] theorem tick_current : P.tick.current = P.current := by
  unfold Plan.tick
  by_cases hopen : P.depth = 0
  · rw [if_pos hopen]
    rfl
  · rw [if_neg hopen]

theorem tick_ready (h : P.status t = .ready) : P.tick.status t = .ready := by
  unfold Plan.tick
  by_cases hopen : P.depth = 0
  · rw [if_pos hopen]
    exact expire_ready h
  · rw [if_neg hopen]
    exact h

theorem unlock_depth : P.unlock.depth = P.depth - 1 := by
  unfold Plan.unlock
  by_cases hlast : P.depth - 1 = 0
  · rw [if_pos hlast, hlast]
    exact (advances_spec P.missed).1
  · rw [if_neg hlast]

@[simp] theorem unlock_current : P.unlock.current = P.current := by
  unfold Plan.unlock
  by_cases hlast : P.depth - 1 = 0
  · rw [if_pos hlast]
    exact (advances_spec P.missed).2.1
  · rw [if_neg hlast]

theorem unlock_ready (h : P.status t = .ready) : P.unlock.status t = .ready := by
  unfold Plan.unlock
  by_cases hlast : P.depth - 1 = 0
  · rw [if_pos hlast]
    exact advances_ready (release_ready (P := { P with depth := 0 }) h) P.missed
  · rw [if_neg hlast]
    exact h

theorem Sound.lock (h : P.Sound idle) : P.lock.Sound idle :=
  ⟨h.timely, h.waiting, fun _ _ => Nat.succ_ne_zero P.depth, h.idle⟩

end Clock

section Moves

variable {P : Plan τ ε} {idle t : τ}

@[simp] theorem setStatus_waits (status : Status) : (P.setStatus t status).waits = P.waits := rfl
@[simp] theorem setWaits_status (waits : Waits ε) : (P.setWaits t waits).status = P.status := rfl
@[simp] theorem setStatus_self (status : Status) : (P.setStatus t status).status t = status :=
  Function.update_self ..
@[simp] theorem setWaits_self (waits : Waits ε) : (P.setWaits t waits).waits t = waits :=
  Function.update_self ..

@[simp] theorem setStatus_current (status : Status) :
    (P.setStatus t status).current = P.current := rfl

theorem setStatus_setStatus (status status' : Status) :
    (P.setStatus t status).setStatus t status' = P.setStatus t status' := by
  unfold Plan.setStatus
  dsimp only
  rw [Function.update_idem]

theorem setStatus_of_ne {u : τ} (h : u ≠ t) (status : Status) :
    (P.setStatus t status).status u = P.status u := Function.update_of_ne h ..

theorem setWaits_of_ne {u : τ} (h : u ≠ t) (waits : Waits ε) :
    (P.setWaits t waits).waits u = P.waits u := Function.update_of_ne h ..

/-- It does not matter whether a task that is due becomes ready before the others. -/
theorem expire_moveTo (h : P.status t = .until P.now) :
    (P.moveTo t .ready).expire = P.expire := by
  have hstatus : ∀ u, (P.moveTo t .ready).expire.status u = P.expire.status u := by
    intro u
    unfold Plan.moveTo Plan.expire
    by_cases hut : u = t
    · subst hut
      simp [Plan.setStatus, Plan.setWaits, h]
    · simp [Plan.setStatus, Plan.setWaits, hut]
  have hwaits : ∀ u, (P.moveTo t .ready).expire.waits u = P.expire.waits u := by
    intro u
    unfold Plan.moveTo Plan.expire
    by_cases hut : u = t
    · subst hut
      simp [Plan.setStatus, Plan.setWaits, h]
    · simp [Plan.setStatus, Plan.setWaits, hut]
  calc (P.moveTo t .ready).expire
      = { P with
          status := (P.moveTo t .ready).expire.status
          waits := (P.moveTo t .ready).expire.waits } := rfl
    _ = { P with status := P.expire.status, waits := P.expire.waits } := by
        rw [funext hstatus, funext hwaits]
    _ = P.expire := rfl

/-- It does not matter whether a task that was woken becomes ready before the others. -/
theorem release_moveTo (h : P.waits t = .woken) : (P.moveTo t .ready).release = P.release := by
  have hstatus : ∀ u, (P.moveTo t .ready).release.status u = P.release.status u := by
    intro u
    unfold Plan.moveTo Plan.release
    by_cases hut : u = t
    · subst hut
      simp [Plan.setStatus, Plan.setWaits, h]
    · simp [Plan.setStatus, Plan.setWaits, hut]
  have hwaits : ∀ u, (P.moveTo t .ready).release.waits u = P.release.waits u := by
    intro u
    unfold Plan.moveTo Plan.release
    by_cases hut : u = t
    · subst hut
      simp [Plan.setStatus, Plan.setWaits, h]
    · simp [Plan.setStatus, Plan.setWaits, hut]
  calc (P.moveTo t .ready).release
      = { P with
          status := (P.moveTo t .ready).release.status
          waits := (P.moveTo t .ready).release.waits } := rfl
    _ = { P with status := P.release.status, waits := P.release.waits } := by
        rw [funext hstatus, funext hwaits]
    _ = P.release := rfl

@[simp] theorem moveTo_self (status : Status) : (P.moveTo t status).status t = status :=
  Function.update_self ..

theorem moveTo_ready {u : τ} (h : P.status u = .ready) :
    (P.moveTo t .ready).status u = .ready := by
  by_cases hut : u = t
  · subst hut
    exact moveTo_self _
  · exact (setStatus_of_ne hut _).trans h

@[simp] theorem wake_depth : (P.wake t).depth = P.depth := by
  unfold Plan.wake
  by_cases hopen : P.depth = 0
  · rw [if_pos hopen]
    rfl
  · rw [if_neg hopen]
    rfl

theorem wake_ready {u : τ} (h : P.status u = .ready) : (P.wake t).status u = .ready := by
  unfold Plan.wake
  by_cases hopen : P.depth = 0
  · rw [if_pos hopen]
    exact moveTo_ready h
  · rw [if_neg hopen]
    exact h

@[simp] theorem wake_current : (P.wake t).current = P.current := by
  unfold Plan.wake
  by_cases hopen : P.depth = 0
  · rw [if_pos hopen]
    rfl
  · rw [if_neg hopen]
    rfl

/-- A task waits for nothing any more as it is taken out of its lists and put into another one. -/
theorem setStatus_setWaits_setStatus (status : Status) :
    ((P.setStatus t .absent).setWaits t .no).setStatus t status = P.moveTo t status := by
  unfold Plan.moveTo Plan.setStatus Plan.setWaits
  simp

/-- A task that waits for nothing goes anywhere but to the tasks that wait for a tick. -/
theorem Sound.moveTo (h : P.Sound idle) {status : Status} (hidle : t = idle → status = .ready)
    (htick : ∀ w, status ≠ .until w) : (P.moveTo t status).Sound idle := by
  unfold Plan.moveTo
  constructor
  · intro u w hu
    by_cases hut : u = t
    · subst hut
      rw [setWaits_status, setStatus_self] at hu
      exact absurd hu (htick w)
    · rw [setWaits_status, setStatus_of_ne hut] at hu
      exact h.timely u w hu
  · intro u hu
    by_cases hut : u = t
    · subst hut
      rw [setWaits_self] at hu
      exact absurd rfl hu
    · rw [setWaits_of_ne hut] at hu
      rw [setWaits_status, setStatus_of_ne hut]
      exact h.waiting u hu
  · intro u hu
    by_cases hut : u = t
    · subst hut
      rw [setWaits_self] at hu
      cases hu
    · rw [setWaits_of_ne hut] at hu
      exact h.locked u hu
  · by_cases hit : idle = t
    · rw [hit, setWaits_status, setStatus_self]
      exact hidle hit.symm
    · rw [setWaits_status, setStatus_of_ne hit]
      exact h.idle

/-- A task that is not there waits for nothing, and does not start to. -/
theorem Sound.setStatus (h : P.Sound idle) {status : Status} (hno : P.waits t = .no)
    (hidle : t = idle → status = .ready) (htick : ∀ w, status ≠ .until w) :
    (P.setStatus t status).Sound idle := by
  have hmove : P.setStatus t status = P.moveTo t status := by
    unfold Plan.moveTo Plan.setWaits
    rw [setStatus_waits, ← hno, Function.update_eq_self]
    rfl
  rw [hmove]
  exact h.moveTo hidle htick

theorem Sound.wake (h : P.Sound idle) (hwait : P.status t = .held ∨ ∃ w, P.status t = .until w) :
    (P.wake t).Sound idle := by
  unfold Plan.wake
  by_cases hopen : P.depth = 0
  · rw [if_pos hopen]
    exact h.moveTo (fun _ => rfl) fun w heq => by cases heq
  · rw [if_neg hopen]
    refine ⟨h.timely, fun u hu => ?_, fun _ _ => hopen, h.idle⟩
    by_cases hut : u = t
    · subst hut
      exact hwait
    · rw [setWaits_of_ne hut] at hu
      exact h.waiting u hu

/-- The tick of the current task is not more than a period away. -/
theorem Sound.delay (h : P.Sound idle) (hcur : P.current ≠ idle) {n : Nat} (hpos : 0 < n)
    (hlt : n < tickPeriod) : (P.delay n).Sound idle := by
  unfold Plan.delay
  constructor
  · intro u w hu
    by_cases hut : u = P.current
    · subst hut
      rw [setStatus_self] at hu
      obtain rfl := Status.until.inj hu
      unfold Plan.lock Plan.setStatus tickPeriod
      unfold tickPeriod at hlt
      dsimp only
      omega
    · rw [setStatus_of_ne hut] at hu
      exact h.timely u w hu
  · intro u hu
    by_cases hut : u = P.current
    · subst hut
      exact .inr ⟨_, setStatus_self _⟩
    · rw [setStatus_of_ne hut]
      exact h.waiting u hu
  · intro u _
    exact Nat.succ_ne_zero P.depth
  · rw [setStatus_of_ne hcur.symm]
    exact h.idle

theorem Sound.wait (h : P.Sound idle) (hcur : P.current ≠ idle) (e : ε) {n : UInt32}
    (hpos : 0 < n) : (P.wait e n).Sound idle := by
  have hlt : n.toNat < tickPeriod := n.toNat_lt
  have hn : 0 < n.toNat := UInt32.lt_iff_toNat_lt.mp hpos
  unfold Plan.wait
  constructor
  · intro u w hu
    rw [setWaits_status] at hu
    by_cases hut : u = P.current
    · subst hut
      rw [setStatus_self] at hu
      by_cases hend : n = portMaxDelay
      · rw [if_pos hend] at hu
        cases hu
      · rw [if_neg hend] at hu
        obtain rfl := Status.until.inj hu
        unfold Plan.lock Plan.setStatus Plan.setWaits tickPeriod
        unfold tickPeriod at hlt
        dsimp only
        omega
    · rw [setStatus_of_ne hut] at hu
      exact h.timely u w hu
  · intro u hu
    by_cases hut : u = P.current
    · subst hut
      rw [setWaits_status, setStatus_self]
      by_cases hend : n = portMaxDelay
      · exact .inl (if_pos hend)
      · exact .inr ⟨_, if_neg hend⟩
    · rw [setWaits_of_ne hut] at hu
      rw [setWaits_status, setStatus_of_ne hut]
      exact h.waiting u hu
  · intro u _
    exact Nat.succ_ne_zero P.depth
  · rw [setWaits_status, setStatus_of_ne hcur.symm]
    exact h.idle

omit [DecidableEq τ] in
/-- A task that is ready, absent or dying waits for nothing. -/
theorem Sound.waits_no (h : P.Sound idle) (hheld : P.status t ≠ .held)
    (htick : ∀ w, P.status t ≠ .until w) : P.waits t = .no := by
  by_contra hne
  rcases h.waiting t hne with heq | ⟨w, heq⟩
  · exact hheld heq
  · exact htick w heq

end Moves

/-- A wake time that is still to come is ahead of the tick count. -/
theorem xShouldDelay_pos {tick prev inc : UInt32}
    (h : Kernel.xShouldDelay tick prev (prev + inc) = true) : 0 < (prev + inc - tick).toNat := by
  rw [Nat.pos_iff_ne_zero]
  intro hzero
  -- the wake time would be the tick count
  have hwake : prev + inc = tick := by
    have hsub : prev + inc - tick = 0 := UInt32.toNat_inj.mp hzero
    calc prev + inc = prev + inc - tick + tick := by rw [UInt32.sub_add_cancel]
      _ = tick := by rw [hsub, UInt32.zero_add]
  unfold Kernel.xShouldDelay at h
  rw [hwake] at h
  by_cases hprev : tick < prev
  · rw [if_pos hprev] at h
    simp at h
  · rw [if_neg hprev] at h
    simp [hprev] at h

variable {prio : τ → Priority}

/-- What a call that may come keeps. -/
theorem Sound.step {P Q : Plan τ ε} {idle : τ} {c : Call τ ε} (h : P.Sound idle)
    (hstep : Step prio P c Q) (hc : P.Permits idle c) : Q.Sound idle := by
  cases hstep with
  | tick => exact h.tick
  | switch t hopen hready htop => exact ⟨h.timely, h.waiting, h.locked, h.idle⟩
  | putOff hlocked => exact h
  | wake e t hwaits htop =>
      refine h.wake (h.waiting t ?_)
      rw [hwaits]
      intro heq
      cases heq
  | resumeFromISR t hheld => exact h.wake (.inl hheld.1)
  | ignoreFromISR t hheld => exact h
  | yield => exact h
  | suspendAll => exact h.lock
  | resumeAll => exact h.unlock
  | delay n hrunning => exact h.delay hc.1 (UInt32.lt_iff_toNat_lt.mp hc.2) n.toNat_lt
  | delayUntil prev inc hrunning hdelay =>
      exact h.delay hc (xShouldDelay_pos hdelay) (UInt32.toNat_lt _)
  | pass prev inc hrunning hdelay => exact h.lock
  | wait e n hrunning => exact h.wait hc.1 e hc.2
  | leave => exact h.unlock
  | suspend t => exact h.moveTo (fun heq => absurd heq hc) fun w heq => by cases heq
  | resume t hheld hother => exact h.moveTo (fun _ => rfl) fun w heq => by cases heq
  | ignore t hheld => exact h
  | create t habsent =>
      have hno : P.waits t = .no := by
        refine h.waits_no ?_ fun w => ?_
        · rw [habsent]
          exact fun heq => by cases heq
        · rw [habsent]
          exact fun heq => by cases heq
      exact h.setStatus hno (fun _ => rfl) fun w heq => by cases heq
  | delete t =>
      refine h.moveTo (fun heq => absurd heq hc) fun w heq => ?_
      by_cases hcur : t = P.current
      · rw [if_pos hcur] at heq
        cases heq
      · rw [if_neg hcur] at heq
        cases heq
  | cleanUp t hdying =>
      have hno : P.waits t = .no := by
        refine h.waits_no ?_ fun w => ?_
        · rw [hdying]
          exact fun heq => by cases heq
        · rw [hdying]
          exact fun heq => by cases heq
      refine h.setStatus hno (fun heq => ?_) fun w heq => by cases heq
      -- the idle task is ready
      rw [heq, h.idle] at hdying
      cases hdying
  | rest hdying => exact h

end Plan

end Rtos

end RtosLwip
