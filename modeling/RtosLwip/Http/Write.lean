import Mathlib.Algebra.Group.Nat.Defs
import Mathlib.Data.List.Basic

/-!
# Writing to a Connection

`extHttpWrite` of `httpConns.c`, through which every response leaves the web
server: it never asks `tcp_write` for more than the send buffer has room for or
for more than two segments, and when the stack is short of memory it asks again
for half as much.

What the stack answers is chosen freely: `Pcb` holds the room in the send
buffer, the segment size, and for every call of `extHttpWrite` a callback makes
whether the queue of segments is full and what `tcp_write` answers for each
length. The calls are numbered as they stand in the source.

## Main definitions

* `TcpErr`: What `tcp_write` answers.
* `Pcb`: The control block during one callback.
* `Pcb.retryLen`, `writeLoop`, `extHttpWrite`: The functions of the source.
* `Pcb.Whole`, `Pcb.Refuses`: The stack takes all of the bytes at once, or none of them.

## Theorems

* `writeLoop_fuel`: The loop ends by itself.
* `extHttpWrite_le`: No more is queued than was asked for.
* `extHttpWrite_failed`: A failed write queues nothing.
* `extHttpWrite_eq_iff`: All of it is queued exactly if the stack takes it at once.
* `extHttpWrite_eq_zero_iff`: Nothing is queued exactly if the stack refuses it.
-/

namespace RtosLwip

namespace Http

/-- What `tcp_write` answers: everything queued, out of memory, or another error. -/
inductive TcpErr where
  | ok
  | mem
  | other
  deriving DecidableEq

/-- The TCP control block during one callback. The functions tell for every call of
    `extHttpWrite` whether the queue of segments is full and what `tcp_write` answers. -/
structure Pcb where
  sndBuf : Nat
  mss : Nat
  queueFull : Nat → Bool
  write : Nat → Nat → TcpErr

/-- The control block when `n` bytes were queued. -/
def Pcb.after (pcb : Pcb) (n : Nat) : Pcb := { pcb with sndBuf := pcb.sndBuf - n }

/-- `MHTTPD_MAX_WRITE_LEN`, kept in an `u16_t`. -/
def Pcb.maxWriteLen (pcb : Pcb) : Nat := 2 * pcb.mss % 65536

/-- The length to try behind a write of `len` bytes the stack had no memory for. -/
def Pcb.retryLen (pcb : Pcb) (call len : Nat) : Nat :=
  -- no need to try smaller sizes when there is no room at all
  if pcb.sndBuf = 0 ∨ pcb.queueFull call then 1 else len / 2

/-- The loop of `extHttpWrite`. The length at least halves, so `len` rounds are enough. -/
def writeLoop (pcb : Pcb) (call : Nat) : Nat → Nat → TcpErr × Nat
  | 0, _ => (.mem, 0)
  | fuel + 1, len =>
    match pcb.write call len with
    | .ok => (.ok, len)
    | .other => (.other, 0)
    | .mem =>
      if 1 < pcb.retryLen call len then writeLoop pcb call fuel (pcb.retryLen call len)
      else (.mem, 0)

/-- `extHttpWrite`: the error of `tcp_write` and the bytes queued. -/
def extHttpWrite (pcb : Pcb) (call length : Nat) : TcpErr × Nat :=
  if length = 0 then (.ok, 0)
  else
    let len := min (min length pcb.sndBuf) pcb.maxWriteLen
    writeLoop pcb call (len + 1) len

/-- As long as the loop goes on, the length gets smaller. -/
theorem Pcb.retryLen_lt {pcb : Pcb} {call len : Nat} (h : 1 < pcb.retryLen call len) :
    pcb.retryLen call len < len := by
  unfold retryLen at h ⊢
  split at h
  · exact absurd h (Nat.lt_irrefl 1)
  · next hfull =>
      rw [if_neg hfull]
      omega

/-- Fuel beyond the length makes no difference: the loop ends by itself. -/
theorem writeLoop_fuel (pcb : Pcb) (call fuel extra len : Nat) (h : len < fuel) :
    writeLoop pcb call (fuel + extra) len = writeLoop pcb call fuel len := by
  induction fuel generalizing len with
  | zero => omega
  | succ fuel ih =>
      rw [Nat.add_right_comm]
      simp only [writeLoop]
      split
      · rfl
      · rfl
      · split
        · next hlt =>
            have hless := Pcb.retryLen_lt hlt
            exact ih _ (by omega)
        · rfl

theorem writeLoop_le (pcb : Pcb) (call fuel len : Nat) : (writeLoop pcb call fuel len).2 ≤ len := by
  induction fuel generalizing len with
  | zero => exact Nat.zero_le len
  | succ fuel ih =>
      simp only [writeLoop]
      split
      · exact Nat.le_refl len
      · exact Nat.zero_le len
      · split
        · next hlt => exact Nat.le_trans (ih _) (Nat.le_of_lt (Pcb.retryLen_lt hlt))
        · exact Nat.zero_le len

theorem writeLoop_failed (pcb : Pcb) (call fuel len : Nat)
    (h : (writeLoop pcb call fuel len).1 ≠ .ok) : (writeLoop pcb call fuel len).2 = 0 := by
  induction fuel generalizing len with
  | zero => rfl
  | succ fuel ih =>
      cases hw : pcb.write call len with
      | ok => simp only [writeLoop, hw, ne_eq, not_true_eq_false] at h
      | other => simp only [writeLoop, hw]
      | mem =>
          simp only [writeLoop, hw] at h ⊢
          by_cases hlt : 1 < pcb.retryLen call len
          · rw [if_pos hlt] at h ⊢
            exact ih _ h
          · rw [if_neg hlt]

/-- No more is queued than was asked for. -/
theorem extHttpWrite_le (pcb : Pcb) (call length : Nat) :
    (extHttpWrite pcb call length).2 ≤ length := by
  unfold extHttpWrite
  split
  · exact Nat.zero_le length
  · exact Nat.le_trans (writeLoop_le pcb call _ _) (by omega)

/-- A failed write queues nothing. -/
theorem extHttpWrite_failed (pcb : Pcb) (call length : Nat)
    (h : (extHttpWrite pcb call length).1 ≠ .ok) : (extHttpWrite pcb call length).2 = 0 := by
  unfold extHttpWrite at h ⊢
  split at h
  · exact absurd rfl h
  · next hlen =>
      rw [if_neg hlen]
      exact writeLoop_failed pcb call _ _ h

/-- The stack takes `n` bytes at once when a call offers them. -/
def Pcb.Whole (pcb : Pcb) (call n : Nat) : Prop :=
  n = 0 ∨ n ≤ pcb.sndBuf ∧ n ≤ pcb.maxWriteLen ∧ pcb.write call n = .ok

/-- All of it is queued exactly if the stack takes it at once. -/
theorem extHttpWrite_eq_iff (pcb : Pcb) (call n : Nat) :
    (extHttpWrite pcb call n).2 = n ↔ pcb.Whole call n := by
  unfold Pcb.Whole extHttpWrite
  by_cases hn : n = 0
  · rw [if_pos hn]
    exact iff_of_true hn.symm (.inl hn)
  · rw [if_neg hn]
    simp only [hn, false_or]
    generalize hlen : min (min n pcb.sndBuf) pcb.maxWriteLen = len
    constructor
    · intro h
      have hle := writeLoop_le pcb call (len + 1) len
      -- the whole of it is queued, so it was not cut before the loop either
      have heq : len = n := by omega
      refine ⟨by omega, by omega, ?_⟩
      subst heq
      cases hw : pcb.write call len with
      | ok => rfl
      | other =>
          simp only [writeLoop, hw] at h
          exact absurd h.symm hn
      | mem =>
          simp only [writeLoop, hw] at h
          by_cases hlt : 1 < pcb.retryLen call len
          · rw [if_pos hlt] at h
            have hsmall := writeLoop_le pcb call len (pcb.retryLen call len)
            have hless := Pcb.retryLen_lt hlt
            omega
          · rw [if_neg hlt] at h
            exact absurd h.symm hn
    · rintro ⟨hsnd, hmax, hok⟩
      have heq : len = n := by omega
      rw [heq]
      simp only [writeLoop, hok]

/-- Of `len` bytes none is taken: the first length tried that the stack is not short of memory
    for is answered with another error, or there is none. -/
def Pcb.NoneTaken (pcb : Pcb) (call len : Nat) : Prop :=
  ∀ k, (0 < k → 1 < len / 2 ^ k ∧ pcb.queueFull call = false) →
    (∀ j < k, pcb.write call (len / 2 ^ j) = .mem) → pcb.write call (len / 2 ^ k) ≠ .ok

/-- The stack takes none of `n` bytes when a call offers them. -/
def Pcb.Refuses (pcb : Pcb) (call n : Nat) : Prop :=
  min (min n pcb.sndBuf) pcb.maxWriteLen = 0 ∨
    pcb.NoneTaken call (min (min n pcb.sndBuf) pcb.maxWriteLen)

/-- When the stack is short of memory for the whole, everything depends on the half. -/
theorem Pcb.noneTaken_half {pcb : Pcb} {call len : Nat} (hmem : pcb.write call len = .mem)
    (hfull : pcb.queueFull call = false) (hlt : 1 < len / 2) :
    pcb.NoneTaken call len ↔ pcb.NoneTaken call (len / 2) := by
  have hdiv : ∀ k, len / 2 ^ (k + 1) = len / 2 / 2 ^ k := fun k => by
    rw [Nat.pow_succ', Nat.div_div_eq_div_mul]
  constructor
  · intro h k hk hmems
    rw [← hdiv]
    refine h (k + 1) (fun _ => ?_) fun j hj => ?_
    · rw [hdiv]
      cases k with
      | zero => exact ⟨by rwa [Nat.pow_zero, Nat.div_one], hfull⟩
      | succ k => exact hk k.succ_pos
    · cases j with
      | zero => rwa [Nat.pow_zero, Nat.div_one]
      | succ j =>
          rw [hdiv]
          exact hmems j (by omega)
  · intro h k hk hmems
    cases k with
    | zero =>
        rw [Nat.pow_zero, Nat.div_one, hmem]
        nofun
    | succ k =>
        have hbig := hk k.succ_pos
        rw [hdiv] at hbig ⊢
        refine h k (fun _ => hbig) fun j hj => ?_
        rw [← hdiv]
        exact hmems (j + 1) (by omega)

/-- When no smaller length is tried, everything depends on the first one. -/
theorem Pcb.noneTaken_last {pcb : Pcb} {call len : Nat} (hok : pcb.write call len ≠ .ok)
    (hlast : pcb.queueFull call = true ∨ ¬ 1 < len / 2 ∨ pcb.write call len ≠ .mem) :
    pcb.NoneTaken call len := by
  intro k hk hmems
  cases k with
  | zero => rwa [Nat.pow_zero, Nat.div_one]
  | succ k =>
      rcases hk k.succ_pos with ⟨hbig, hfull⟩
      have hfirst := hmems 0 k.succ_pos
      rw [Nat.pow_zero, Nat.div_one] at hfirst
      rcases hlast with hq | hsmall | hmem
      · rw [hfull] at hq
        exact absurd hq nofun
      · have hle : len / 2 ^ (k + 1) ≤ len / 2 := by
          rw [Nat.pow_succ', ← Nat.div_div_eq_div_mul]
          exact Nat.div_le_self _ _
        omega
      · exact absurd hfirst hmem

theorem writeLoop_eq_zero_iff (pcb : Pcb) (call fuel len : Nat) (hfuel : len < fuel)
    (hlen : len ≠ 0) (hroom : pcb.sndBuf ≠ 0) :
    (writeLoop pcb call fuel len).2 = 0 ↔ pcb.NoneTaken call len := by
  induction fuel generalizing len with
  | zero => omega
  | succ fuel ih =>
      cases hw : pcb.write call len with
      | ok =>
          simp only [writeLoop, hw, hlen, false_iff]
          intro h
          refine h 0 nofun nofun ?_
          rwa [Nat.pow_zero, Nat.div_one]
      | other =>
          simp only [writeLoop, hw, true_iff]
          exact Pcb.noneTaken_last (by rw [hw]; nofun) (.inr (.inr (by rw [hw]; nofun)))
      | mem =>
          have hok : pcb.write call len ≠ .ok := by rw [hw]; nofun
          simp only [writeLoop, hw, Pcb.retryLen, hroom, false_or]
          cases hfull : pcb.queueFull call with
          | true =>
              simp only [if_true, Nat.lt_irrefl, if_false, true_iff]
              exact Pcb.noneTaken_last hok (.inl hfull)
          | false =>
              simp only [Bool.false_eq_true, if_false]
              by_cases hlt : 1 < len / 2
              · rw [if_pos hlt, ih (len / 2) (by omega) (by omega)]
                exact (Pcb.noneTaken_half hw hfull hlt).symm
              · rw [if_neg hlt]
                exact iff_of_true rfl (Pcb.noneTaken_last hok (.inr (.inl hlt)))

/-- Nothing is queued exactly if the stack refuses it. -/
theorem extHttpWrite_eq_zero_iff (pcb : Pcb) (call n : Nat) :
    (extHttpWrite pcb call n).2 = 0 ↔ pcb.Refuses call n := by
  unfold Pcb.Refuses extHttpWrite
  by_cases hn : n = 0
  · rw [if_pos hn, hn, Nat.zero_min, Nat.zero_min]
    exact iff_of_true rfl (.inl rfl)
  · rw [if_neg hn]
    simp only []
    by_cases hlen : min (min n pcb.sndBuf) pcb.maxWriteLen = 0
    · have hle := writeLoop_le pcb call 1 0
      rw [hlen]
      exact iff_of_true (Nat.le_zero.mp hle) (.inl rfl)
    · have hroom : pcb.sndBuf ≠ 0 := by omega
      rw [writeLoop_eq_zero_iff pcb call _ _ (Nat.lt_succ_self _) hlen hroom]
      exact (or_iff_right hlen).symm

end Http

end RtosLwip
