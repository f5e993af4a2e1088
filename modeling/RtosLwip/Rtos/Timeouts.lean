import RtosLwip.Rtos.Delays

/-!
# Timeouts

A function that waits for a queue may be woken and find that another task was faster, and then
it waits again. It must not wait for longer than it was told to, so it looks at the clock before
it waits, and keeps how many ticks are left.

Each look takes the tick count and the number of times it has wrapped around. Together with the
plan, which has a clock that does not wrap, they tell that the time is over at the first look
behind the last of the ticks, and not before.

## Main definitions

* `TimeOut`, `xTaskCheckForTimeOut`: The time of the last look, and the next one.
* `polls`: A task that looks at the clock again and again.

## Theorems

* `xTaskCheckForTimeOut_eq`: One look.
* `timeout_exact`: The time is over once the ticks have been counted, over all looks.
-/

namespace RtosLwip

namespace Rtos

variable {τ ε : Type}

/-- `TimeOut_t` -/
structure TimeOut where
  xOverflowCount : UInt32
  xTimeOnEntering : UInt32

namespace Kernel

/-- `vTaskSetTimeOutState`, and `vTaskInternalSetTimeOutState` -/
def vTaskSetTimeOutState (k : Kernel τ ε) : TimeOut := ⟨k.xNumOfOverflows, k.xTickCount⟩

/-- `xTaskCheckForTimeOut`: whether the time is over, and what is left in `pxTimeOut` and in
    `pxTicksToWait`. -/
def xTaskCheckForTimeOut (k : Kernel τ ε) (pxTimeOut : TimeOut) (pxTicksToWait : UInt32) :
    Bool × TimeOut × UInt32 :=
  let xElapsedTime := k.xTickCount - pxTimeOut.xTimeOnEntering
  if pxTicksToWait = portMaxDelay then
    (false, pxTimeOut, pxTicksToWait)
  else if k.xNumOfOverflows ≠ pxTimeOut.xOverflowCount ∧
      pxTimeOut.xTimeOnEntering ≤ k.xTickCount then
    (true, pxTimeOut, pxTicksToWait)
  else if xElapsedTime < pxTicksToWait then
    (false, k.vTaskSetTimeOutState, pxTicksToWait - xElapsedTime)
  else
    (true, pxTimeOut, 0)

/-- A look less than a whole period behind the one before takes off the ticks in between. -/
theorem xTaskCheckForTimeOut_eq {k : Kernel τ ε} {pxTimeOut : TimeOut} {last now : Nat} {n : UInt32}
    (hlast : pxTimeOut = ⟨UInt32.ofNat (last / tickPeriod), UInt32.ofNat last⟩)
    (hclock : k.xTickCount = UInt32.ofNat now)
    (hwraps : k.xNumOfOverflows = UInt32.ofNat (now / tickPeriod)) (hpast : last ≤ now)
    (hrecent : now < last + tickPeriod) (hn : n ≠ portMaxDelay) :
    k.xTaskCheckForTimeOut pxTimeOut n =
      if now - last < n.toNat then
        (false, k.vTaskSetTimeOutState, n - UInt32.ofNat (now - last))
      else
        (true, pxTimeOut, 0) := by
  have helapsed : UInt32.ofNat now - UInt32.ofNat last = UInt32.ofNat (now - last) := by
    rw [← UInt32.toNat_inj]
    simp only [UInt32.toNat_sub, UInt32.toNat_ofNat']
    unfold tickPeriod at hrecent
    omega
  have hless : UInt32.ofNat (now - last) < n ↔ now - last < n.toNat := by
    rw [UInt32.lt_iff_toNat_lt, UInt32.toNat_ofNat', Nat.mod_eq_of_lt]
    unfold tickPeriod at hrecent
    omega
  -- it has not wrapped around and come past the last look again
  have hpassed : ¬ (UInt32.ofNat (now / tickPeriod) ≠ UInt32.ofNat (last / tickPeriod) ∧
      UInt32.ofNat last ≤ UInt32.ofNat now) := by
    rintro ⟨hne, hle⟩
    rw [UInt32.le_iff_toNat_le, UInt32.toNat_ofNat', UInt32.toNat_ofNat'] at hle
    have hperiod : now / tickPeriod ≠ last / tickPeriod := fun heq => hne (by rw [heq])
    unfold tickPeriod at hperiod hrecent
    omega
  unfold xTaskCheckForTimeOut
  subst hlast
  dsimp only
  rw [if_neg hn, hclock, hwraps, if_neg hpassed, helapsed]
  by_cases hlt : now - last < n.toNat
  · rw [if_pos (hless.mpr hlt), if_pos hlt]
  · rw [if_neg (mt hless.mp hlt), if_neg hlt]

end Kernel

variable [DecidableEq τ] [DecidableEq ε]

/-- A task looks at the clock behind each of the rounds, until the time is over: what it is told,
    and the scheduler then. -/
def polls (s : System τ ε) (pxTimeOut : TimeOut) (pxTicksToWait : UInt32) :
    List (List (Call τ ε)) → Option (List Bool × System τ ε)
  | [] => some ([], s)
  | calls :: rounds => do
    let s ← Call.runs s calls
    let r := s.kernel.xTaskCheckForTimeOut pxTimeOut pxTicksToWait
    if r.1 then
      return ([true], s)
    else
      let rs ← polls s r.2.1 r.2.2 rounds
      return (false :: rs.1, rs.2)

variable {prio : τ → Priority} {idle : τ}

/-- The time is over at the first look behind the last of the ticks. -/
theorem Tracks.polls_exact {s : System τ ε} {P : Plan τ ε} (h : Tracks prio idle s P) {n : UInt32}
    (hn : n ≠ portMaxDelay) (hpos : 0 < n.toNat) {rounds : List (List (Call τ ε))}
    (hallowed : System.Allowed idle s rounds.flatten)
    (hrecent : ticks rounds.flatten + s.kernel.uxPendedTicks.toNat < tickPeriod) :
    ∃ told s', polls s s.kernel.vTaskSetTimeOutState n rounds = some (told, s') ∧
      Call.runs s (rounds.take told.length).flatten = some s' ∧
      (true ∉ told → told.length = rounds.length) ∧
      (true ∈ told ↔ n.toNat + s'.kernel.uxPendedTicks.toNat ≤
        ticks (rounds.take told.length).flatten + s.kernel.uxPendedTicks.toNat) := by
  induction rounds generalizing s P n with
  | nil =>
      refine ⟨[], s, rfl, rfl, fun _ => rfl, iff_of_false List.not_mem_nil ?_⟩
      rw [List.take_nil, List.flatten_nil]
      exact Nat.not_le.mpr (Nat.add_lt_add_right hpos _)
  | cons calls rounds ih =>
      rw [List.flatten_cons] at hallowed hrecent
      rw [ticks_append] at hrecent
      obtain ⟨hcalls, hrest⟩ := System.allowed_append hallowed
      obtain ⟨s₁, P₁, hruns, hrun, h₁⟩ := h.runs hcalls
      obtain ⟨d, A, hf⟩ := h.follows
      obtain ⟨d₁, A₁, hf₁⟩ := h₁.follows
      -- The clock of the plan has gone on by the ticks that were counted, less than a whole period.
      obtain ⟨hsum, hpast, -⟩ := hrun.clock
      rw [← hf.missed, ← hf₁.missed] at hsum
      have hlast : s.kernel.vTaskSetTimeOutState =
          ⟨UInt32.ofNat (P.now / tickPeriod), UInt32.ofNat P.now⟩ := by
        unfold Kernel.vTaskSetTimeOutState
        rw [hf.wraps, hf.clock]
      have hcheck := Kernel.xTaskCheckForTimeOut_eq hlast hf₁.clock hf₁.wraps hpast (by omega) hn
      by_cases hlt : P₁.now - P.now < n.toNat
      · -- some ticks are left, and the task waits again
        rw [if_pos hlt] at hcheck
        have hleft : (n - UInt32.ofNat (P₁.now - P.now)).toNat = n.toNat - (P₁.now - P.now) := by
          have hnlt := n.toNat_lt
          simp only [UInt32.toNat_sub, UInt32.toNat_ofNat']
          omega
        have hmax : n - UInt32.ofNat (P₁.now - P.now) ≠ portMaxDelay := by
          intro heq
          rw [heq] at hleft
          have hnlt := n.toNat_lt
          have hmax : portMaxDelay.toNat = 2 ^ 32 - 1 := rfl
          refine hn (UInt32.toNat_inj.mp ?_)
          omega
        obtain ⟨told, s', hpolls, hruns', hall, hover⟩ :=
          ih h₁ hmax (by omega) (hrest s₁ hruns) (by omega)
        refine ⟨false :: told, s', ?_, ?_, fun hnone => ?_, ?_⟩
        · rw [polls, hruns]
          simp only [Option.bind_eq_bind, Option.bind_some, hcheck, hpolls]
          rfl
        · rw [List.length_cons, List.take_succ_cons, List.flatten_cons, Call.runs_append, hruns]
          exact hruns'
        · have hlength := hall fun hmem => hnone (List.mem_cons_of_mem _ hmem)
          rw [List.length_cons, List.length_cons, hlength]
        · rw [List.mem_cons, or_iff_right (by decide), hover, List.length_cons, List.take_succ_cons,
            List.flatten_cons, ticks_append, hleft]
          omega
      · -- the time is over
        rw [if_neg hlt] at hcheck
        have hone : ((calls :: rounds).take [true].length).flatten = calls := by simp
        refine ⟨[true], s₁, ?_, ?_, fun hnone => absurd List.mem_cons_self hnone, ?_⟩
        · rw [polls, hruns]
          simp only [Option.bind_eq_bind, Option.bind_some, hcheck]
          rfl
        · rw [hone]
          exact hruns
        · rw [hone]
          refine iff_of_true List.mem_cons_self ?_
          omega

/-- A task that notes the time, and looks at it again and again, is told that its time is over at
    the first look behind `n` counted ticks, and not before: however the tick count wraps around
    and whatever happens between the looks. -/
theorem timeout_exact {first : τ} {rest : List τ} (hnodup : (first :: rest).Nodup)
    (hidle : idle ∈ first :: rest) {before : List (Call τ ε)} {rounds : List (List (Call τ ε))}
    {n : UInt32} {s₀ : System τ ε}
    (hallowed : System.Allowed idle ⟨Kernel.boot prio first rest, false⟩
      (before ++ rounds.flatten))
    (hreach : Call.runs ⟨Kernel.boot prio first rest, false⟩ before = some s₀)
    (hn : n ≠ portMaxDelay) (hpos : 0 < n)
    (hrecent : ticks rounds.flatten + s₀.kernel.uxPendedTicks.toNat < tickPeriod) :
    ∃ told s, polls s₀ s₀.kernel.vTaskSetTimeOutState n rounds = some (told, s) ∧
      Call.runs s₀ (rounds.take told.length).flatten = some s ∧
      (true ∉ told → told.length = rounds.length) ∧
      (true ∈ told ↔ n.toNat + s.kernel.uxPendedTicks.toNat ≤
        ticks (rounds.take told.length).flatten + s₀.kernel.uxPendedTicks.toNat) := by
  obtain ⟨P₀, -, htracks⟩ := Kernel.boot_tracks ε prio hnodup hidle
  obtain ⟨hbefore, hbehind⟩ := System.allowed_append hallowed
  obtain ⟨s, P, hruns, -, h⟩ := htracks.runs hbefore
  obtain rfl := Option.some.inj (hruns.symm.trans hreach)
  exact h.polls_exact hn (UInt32.lt_iff_toNat_lt.mp hpos) (hbehind s hreach) hrecent

/-- A timeout of two ticks, with looks behind the first and the third one. -/
theorem timeout_exact_third :
    ∃ told, ∃ s : System (Fin 2) Unit, polls ⟨Kernel.boot (Fin.castLE (by decide)) 1 [0], false⟩
        ⟨0, 0⟩ 2 [[.tick], [.tick, .tick]] = some (told, s) ∧ true ∈ told := by
  let s₀ : System (Fin 2) Unit := ⟨Kernel.boot (Fin.castLE (by decide)) 1 [0], false⟩
  obtain ⟨told, s, hpolls, hruns, hall, hover⟩ := timeout_exact (by decide)
    (show (0 : Fin 2) ∈ [1, 0] by decide)
    (show System.Allowed 0 s₀ ([] ++ [[.tick], [.tick, .tick]].flatten) by decide)
    (show Call.runs s₀ [] = some s₀ from rfl) (show (2 : UInt32) ≠ portMaxDelay by decide)
    (by decide) (by decide)
  refine ⟨told, s, hpolls, ?_⟩
  by_contra hnone
  -- if it was never told so, it has looked behind all three ticks
  rw [hall hnone] at hruns hover
  have hticks : Call.runs s₀ [.tick, .tick, .tick] = some s := hruns
  have hcount : (Call.runs s₀ [.tick, .tick, .tick]).map (fun s => s.kernel.uxPendedTicks) =
      some 0 := by decide
  rw [hticks] at hcount
  have hpended : s.kernel.uxPendedTicks = 0 := Option.some.inj hcount
  refine hnone (hover.mpr ?_)
  rw [hpended]
  decide

end Rtos

end RtosLwip
