import Mathlib.Data.List.Perm.Basic
import Mathlib.Data.List.Range
import RtosLwip.Base.Run

/-!
# The Connections of the Web Server

The list of active connections of `httpConns.c` and the counter
`currentHttpConns` beside it. A connection is allocated when it is accepted,
and the oldest one is killed for it when there is no memory. It is freed when
it is closed, when it is killed and when its control block is lost, but only
the first of these takes it off the counter.

When `tcp_close` fails, the control block is left behind without a connection,
and polled until it can be closed: `mhttpPoll` then passes a NULL connection to
`mhttpConnClose`, which reads its configuration through it.

Connections are numbered in the order they are allocated. A control block that
waits to be closed has the number its connection had.

## Main definitions

* `ConnPool`, `PoolEvent`, `poolStep`: The connections, and what happens to them.
* `killOldestConnection`, `mhttpConnFree`, `mhttpConnAlloc`, `mhttpAccept`,
  `connCloseOrAbort`: The functions of the source.
* `Counted`: The counter is right and every connection is freed once.
* `Ledger`: What holds whether or not the counter is right.
* `KeepsCount`: The steps that keep the counter right.

## Theorems

* `ledger_step`: Every step keeps the ledger.
* `ledger_run`: Every connection is freed once, in every run.
* `counted_step_iff`: Exactly the steps under the condition keep the counter right.
* `counted_iff_meets`: The same, for whole runs.
-/

namespace RtosLwip

namespace Http

/-- `MEMP_NUM_TCP_PCB`, the control blocks there are. -/
def numTcpPcb : Nat := 64

/-- The list of connections, the newest first, the control blocks without a connection that
    are still to be closed, the counter, how many connections were allocated, and those that
    were freed. The last field tells that a NULL pointer was followed. -/
structure ConnPool where
  conns : List Nat
  closing : List Nat
  currentHttpConns : Nat
  allocated : Nat
  freed : List Nat
  undefined : Bool

/-- No connection yet. -/
def ConnPool.start : ConnPool := ⟨[], [], 0, 0, [], false⟩

/-- `mhttpConnFree`. -/
def mhttpConnFree (mhc : Nat) (s : ConnPool) : ConnPool :=
  { s with conns := s.conns.erase mhc, freed := mhc :: s.freed }

/-- `_mhttpConnCloseOrAbort` of a connection. `closed` is the success of `tcp_close`. -/
def connCloseOrAbort (mhc : Nat) (abortConn closed : Bool) (s : ConnPool) : ConnPool :=
  let s := mhttpConnFree mhc s
  if abortConn then s
  else
    let s := { s with currentHttpConns := (s.currentHttpConns + 255) % 256 }
    -- error closing, try again later in poll
    if closed then s else { s with closing := mhc :: s.closing }

/-- `_killOldestConnection`. The only connection is not killed. -/
def killOldestConnection (s : ConnPool) : ConnPool :=
  match s.conns with
  | [] => s
  | [_] => s
  | _ :: c :: rest => connCloseOrAbort ((c :: rest).getLast (List.cons_ne_nil c rest)) true true s

/-- `mhttpConnAlloc`. The arguments are the successes of the two allocations. -/
def mhttpConnAlloc (mem again : Bool) (s : ConnPool) : Bool × ConnPool :=
  let s := if mem then s else killOldestConnection s
  if mem || again then
    (true, { s with conns := s.allocated :: s.conns, allocated := s.allocated + 1 })
  else (false, s)

/-- `_mhttpAccept`, called as long as there are control blocks. -/
def mhttpAccept (mem again : Bool) (s : ConnPool) : ConnPool :=
  if s.conns.length + s.closing.length < numTcpPcb then
    let r := mhttpConnAlloc mem again s
    if r.1 then { r.2 with currentHttpConns := (r.2.currentHttpConns + 1) % 256 } else r.2
  else s

/-- What happens to the connections. -/
inductive PoolEvent where
  /-- A connection is accepted; the arguments tell whether there is memory. -/
  | accept (mem again : Bool)
  /-- `mhttpConnClose`, with the success of `tcp_close`. -/
  | close (mhc : Nat) (closed : Bool)
  /-- A control block is lost: `__mhttpErr`, if it still has its connection. -/
  | err (mhc : Nat)
  /-- `mhttpPoll` for a control block whose connection is gone. -/
  | poll (pcb : Nat)

/-- One callback of the stack. Nothing is said about what comes behind a NULL pointer. -/
def poolStep (s : ConnPool) (e : PoolEvent) : ConnPool :=
  if s.undefined then s
  else
    match e with
    | .accept mem again => mhttpAccept mem again s
    | .close mhc closed => if mhc ∈ s.conns then connCloseOrAbort mhc false closed s else s
    | .err mhc =>
      if mhc ∈ s.conns then mhttpConnFree mhc s
      else { s with closing := s.closing.erase mhc }
    -- `mhttpConnClose(NULL, pcb)` reads `mhc->runCfg`
    | .poll pcb => if pcb ∈ s.closing then { s with undefined := true } else s

/-- The counter is the number of connections, and every connection that was allocated is in
    use or was freed, and freed once. -/
structure Counted (s : ConnPool) : Prop where
  defined : s.undefined = false
  counter : s.currentHttpConns = s.conns.length
  ledger : (s.freed ++ s.conns).Perm (List.range s.allocated)

/-- Every connection is in use or was freed, once, and they are no more than there are control
    blocks. -/
structure Ledger (s : ConnPool) : Prop where
  perm : (s.freed ++ s.conns).Perm (List.range s.allocated)
  room : s.conns.length ≤ numTcpPcb

/-- Nothing is freed beside the counter, and no NULL pointer is followed. -/
def KeepsCount (s : ConnPool) (e : PoolEvent) : Prop :=
  match e with
  -- a second connection is there to be killed when there is no memory
  | .accept mem _ =>
    mem = true ∨ s.conns.length < 2 ∨ numTcpPcb ≤ s.conns.length + s.closing.length
  | .close _ _ => True
  | .err mhc => mhc ∉ s.conns
  | .poll pcb => pcb ∉ s.closing

theorem mhttpConnFree_length {mhc : Nat} {s : ConnPool} (h : mhc ∈ s.conns) :
    (mhttpConnFree mhc s).conns.length + 1 = s.conns.length := by
  have hpos : 0 < s.conns.length := List.length_pos_of_mem h
  simp only [mhttpConnFree, List.length_erase_of_mem h]
  omega

/-- Freeing a connection in use moves it to the freed ones. -/
theorem ledger_free {mhc : Nat} {s : ConnPool} (hs : Ledger s) (h : mhc ∈ s.conns) :
    Ledger (mhttpConnFree mhc s) := by
  have hlen := mhttpConnFree_length h
  refine ⟨?_, Nat.le_trans (by omega) hs.room⟩
  have hback : (mhc :: s.conns.erase mhc).Perm s.conns := (List.perm_cons_erase h).symm
  exact List.perm_middle.symm.trans ((hback.append_left s.freed).trans hs.perm)

/-- The ledger does not speak of the counter and of the control blocks to be closed. -/
theorem Ledger.of_same {s t : ConnPool} (h : Ledger s) (hconns : t.conns = s.conns)
    (hfreed : t.freed = s.freed) (halloc : t.allocated = s.allocated) : Ledger t :=
  ⟨by rw [hconns, hfreed, halloc]; exact h.perm, by rw [hconns]; exact h.room⟩

theorem ledger_close {mhc : Nat} {s : ConnPool} (abortConn closed : Bool) (hs : Ledger s)
    (h : mhc ∈ s.conns) : Ledger (connCloseOrAbort mhc abortConn closed s) := by
  have hfree := ledger_free hs h
  unfold connCloseOrAbort
  cases abortConn with
  | true => exact hfree
  | false => cases closed <;> exact hfree.of_same rfl rfl rfl

/-- Killing the oldest connection changes nothing if there is no second one. -/
theorem killOldestConnection_few {s : ConnPool} (h : s.conns.length < 2) :
    killOldestConnection s = s := by
  unfold killOldestConnection
  split
  · rfl
  · rfl
  · next _ c rest heq =>
      rw [heq, List.length_cons, List.length_cons] at h
      omega

/-- Otherwise one connection is gone, and the counter stays as it is. -/
theorem killOldestConnection_many {s : ConnPool} (hs : Ledger s) (h : ¬ s.conns.length < 2) :
    Ledger (killOldestConnection s) ∧
      (killOldestConnection s).conns.length + 1 = s.conns.length ∧
      (killOldestConnection s).currentHttpConns = s.currentHttpConns := by
  unfold killOldestConnection
  split
  · next heq => exact absurd (by rw [heq]; decide) h
  · next heq => exact absurd (by rw [heq]; exact Nat.lt_succ_self 1) h
  · next _ c rest heq =>
      have hmem : (c :: rest).getLast (List.cons_ne_nil c rest) ∈ s.conns := by
        rw [heq]
        exact List.mem_cons_of_mem _ (List.getLast_mem _)
      exact ⟨ledger_close true true hs hmem, mhttpConnFree_length hmem, rfl⟩

/-- A new connection is in use. -/
theorem ledger_add {s : ConnPool} (hs : Ledger s) (h : s.conns.length < numTcpPcb) (n : Nat) :
    Ledger { s with
      conns := s.allocated :: s.conns
      allocated := s.allocated + 1
      currentHttpConns := n } := by
  refine ⟨?_, h⟩
  rw [List.range_succ]
  exact List.perm_middle.trans
    ((hs.perm.cons s.allocated).trans (List.perm_append_singleton _ _).symm)

theorem ledger_accept (mem again : Bool) {s : ConnPool} (hs : Ledger s) :
    Ledger (mhttpAccept mem again s) := by
  unfold mhttpAccept
  split
  · next hroom =>
      have hkill : Ledger (if mem then s else killOldestConnection s) ∧
          (if mem then s else killOldestConnection s).conns.length ≤ s.conns.length := by
        by_cases hmem : mem = true
        · rw [if_pos hmem]
          exact ⟨hs, Nat.le_refl _⟩
        · rw [if_neg hmem]
          by_cases hfew : s.conns.length < 2
          · rw [killOldestConnection_few hfew]
            exact ⟨hs, Nat.le_refl _⟩
          · rcases killOldestConnection_many hs hfew with ⟨hl, hlen, -⟩
            exact ⟨hl, by omega⟩
      unfold mhttpConnAlloc
      generalize (if mem then s else killOldestConnection s) = t at hkill
      by_cases hok : (mem || again) = true
      · simp only [if_pos hok, if_true]
        exact ledger_add hkill.1 (by omega) _
      · simp only [if_neg hok, Bool.false_eq_true, if_false]
        exact hkill.1
  · exact hs

theorem ledger_step (s : ConnPool) (e : PoolEvent) (hs : Ledger s) : Ledger (poolStep s e) := by
  unfold poolStep
  split
  · exact hs
  · cases e with
    | accept mem again => exact ledger_accept mem again hs
    | close mhc closed =>
        simp only []
        split
        · next hmem => exact ledger_close false closed hs hmem
        · exact hs
    | err mhc =>
        simp only []
        split
        · next hmem => exact ledger_free hs hmem
        · exact hs.of_same rfl rfl rfl
    | poll pcb =>
        simp only []
        split
        · exact hs.of_same rfl rfl rfl
        · exact hs

/-- Given the ledger, only the counter is in question. -/
theorem Ledger.counted_iff {s : ConnPool} (h : Ledger s) :
    Counted s ↔ s.undefined = false ∧ s.currentHttpConns = s.conns.length :=
  ⟨fun hc => ⟨hc.defined, hc.counter⟩, fun hc => ⟨hc.1, hc.2, h.perm⟩⟩

/-- An accepted connection is counted right unless another one was killed for it. -/
theorem counter_accept_iff (mem again : Bool) {s : ConnPool} (hs : Ledger s)
    (hc : s.currentHttpConns = s.conns.length) :
    (mhttpAccept mem again s).currentHttpConns = (mhttpAccept mem again s).conns.length ↔
      KeepsCount s (.accept mem again) := by
  unfold mhttpAccept KeepsCount
  by_cases hroom : s.conns.length + s.closing.length < numTcpPcb
  · rw [if_pos hroom]
    have hbound : s.conns.length < 64 := Nat.lt_of_le_of_lt (Nat.le_add_right _ _) hroom
    unfold mhttpConnAlloc
    by_cases hquiet : mem = true ∨ s.conns.length < 2
    · -- nothing is killed
      have hsame : (if mem then s else killOldestConnection s) = s := by
        rcases hquiet with hmem | hfew
        · rw [if_pos hmem]
        · rw [killOldestConnection_few hfew, ite_self]
      rw [hsame]
      refine iff_of_true ?_ (by tauto)
      by_cases hok : (mem || again) = true
      · simp only [if_pos hok, if_true, List.length_cons, hc]
        omega
      · simp only [if_neg hok, Bool.false_eq_true, if_false, hc]
    · have hmem : ¬ mem = true := fun h => hquiet (.inl h)
      have hmany : ¬ s.conns.length < 2 := fun h => hquiet (.inr h)
      rcases killOldestConnection_many hs hmany with ⟨-, hlen, hcount⟩
      rw [if_neg hmem]
      have hkills : ¬ (mem = true ∨ s.conns.length < 2 ∨
          numTcpPcb ≤ s.conns.length + s.closing.length) := by
        rintro (h | h | h)
        · exact hmem h
        · exact hmany h
        · omega
      refine iff_of_false ?_ hkills
      by_cases hok : (mem || again) = true
      · simp only [if_pos hok, if_true, List.length_cons, hcount, hc]
        omega
      · simp only [if_neg hok, Bool.false_eq_true, if_false, hcount, hc]
        omega
  · rw [if_neg hroom]
    exact iff_of_true hc (.inr (.inr (Nat.le_of_not_lt hroom)))

theorem mhttpAccept_undefined (mem again : Bool) (s : ConnPool) :
    (mhttpAccept mem again s).undefined = s.undefined := by
  have hkill : (killOldestConnection s).undefined = s.undefined := by
    unfold killOldestConnection
    split <;> rfl
  unfold mhttpAccept mhttpConnAlloc
  split
  · cases mem
    · cases again <;> exact hkill
    · rfl
  · rfl

/-- A connection that is closed is taken off the counter. -/
theorem counter_close {mhc : Nat} {s : ConnPool} (closed : Bool) (hs : Ledger s)
    (hc : s.currentHttpConns = s.conns.length) (h : mhc ∈ s.conns) :
    (connCloseOrAbort mhc false closed s).currentHttpConns =
      (connCloseOrAbort mhc false closed s).conns.length := by
  have hlen := mhttpConnFree_length h
  have hbound : s.conns.length ≤ 64 := hs.room
  have hless : (s.currentHttpConns + 255) % 256 = (mhttpConnFree mhc s).conns.length := by
    rw [hc]
    omega
  cases closed <;> exact hless

/-- Exactly the steps under the condition keep the counter right. -/
theorem counted_step_iff (s : ConnPool) (e : PoolEvent) (hs : Ledger s) (hc : Counted s) :
    Counted (poolStep s e) ↔ KeepsCount s e := by
  rw [(ledger_step s e hs).counted_iff]
  unfold poolStep
  rw [if_neg (by rw [hc.defined]; nofun)]
  cases e with
  | accept mem again =>
      rw [mhttpAccept_undefined, hc.defined, counter_accept_iff mem again hs hc.counter]
      exact and_iff_right rfl
  | close mhc closed =>
      refine iff_of_true ?_ trivial
      simp only []
      split
      · next hmem =>
          refine ⟨?_, counter_close closed hs hc.counter hmem⟩
          cases closed <;> exact hc.defined
      · exact ⟨hc.defined, hc.counter⟩
  | err mhc =>
      simp only [KeepsCount]
      by_cases hmem : mhc ∈ s.conns
      · rw [if_pos hmem]
        refine iff_of_false (fun h => ?_) (not_not.mpr hmem)
        -- one connection less, and the counter as it was
        have hlen := mhttpConnFree_length hmem
        have hcount : s.currentHttpConns = (mhttpConnFree mhc s).conns.length := h.2
        rw [hc.counter] at hcount
        omega
      · rw [if_neg hmem]
        exact iff_of_true ⟨hc.defined, hc.counter⟩ hmem
  | poll pcb =>
      simp only [KeepsCount]
      by_cases hmem : pcb ∈ s.closing
      · rw [if_pos hmem]
        exact iff_of_false (fun h => absurd h.1 nofun) (not_not.mpr hmem)
      · rw [if_neg hmem]
        exact iff_of_true ⟨hc.defined, hc.counter⟩ hmem

theorem ledger_start : Ledger ConnPool.start := ⟨List.Perm.refl [], Nat.zero_le _⟩

theorem counted_start : Counted ConnPool.start := ⟨rfl, rfl, List.Perm.refl []⟩

/-- The counter is right and every connection freed once all along a run, exactly if no
    connection loses its control block or is killed, and no control block without a connection
    is polled. -/
theorem counted_iff_meets (evs : List PoolEvent) :
    (∀ past, past <+: evs → Counted (run poolStep ConnPool.start past)) ↔
      Meets poolStep KeepsCount ConnPool.start evs :=
  always_iff_meets (fun s e hs hc => ⟨ledger_step s e hs, counted_step_iff s e hs hc⟩)
    ConnPool.start ledger_start counted_start evs

/-- The connections themselves are accounted for in every run. -/
theorem ledger_run (evs : List PoolEvent) : Ledger (run poolStep ConnPool.start evs) :=
  run_invariant ledger_step ConnPool.start ledger_start evs

/-- A connection is accepted, and its peer resets it. -/
theorem not_counted_reset :
    ¬ Counted (run poolStep ConnPool.start [.accept true true, .err 0]) := by
  intro h
  exact absurd h.counter (by decide)

end Http

end RtosLwip
