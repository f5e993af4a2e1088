import Mathlib.Data.List.Perm.Subperm
import Mathlib.Data.List.Nodup
import RtosLwip.Base.Run
import RtosLwip.Cmd.Handle

/-!
# Who Frees a Command

A command datagram changes hands: the stack gives its pbuf to `_rawUdpEchoRecv`,
which puts it into a `UdpCmd` from a memory pool, posts that to a mailbox, and
from there `_extUdpCmdThread` takes both over, frees the pbuf as soon as it has
copied the payload, and returns the `UdpCmd` when the reply is out.

The callback gives up in three places, and in none of them does it free the
pbuf. The `UdpCmd` is returned in the one place where there is one. So what is
lost are the pbufs of the datagrams that the callback does not manage to post,
one for each, and nothing else: `leaked_step` counts them.

The callback runs in the thread of the stack and the command thread in its own.
What may come between two steps of the callback is only that the command thread
takes something out of the mailbox, which it may as well have done before, so
the callback is one event and every step of the command thread is another. The
pool is shared with others, so whether it has anything left is part of the event.

A pbuf goes by the number of its reception, and a `UdpCmd` by the number of its
allocation.

## Main definitions

* `Service`: The mailbox, the command thread, and what was freed and returned.
* `rawUdpEchoRecv`, `threadStep`: The callback and the thread.
* `settle`: The thread works the mailbox off.
* `FreedOnce`: Every pbuf was freed once, and every `UdpCmd` returned once.
* `Posted`: A datagram reaches the mailbox.

## Theorems

* `sound_step`: Nothing is freed or returned twice, and no `UdpCmd` is lost.
* `leaked_step`: A datagram that is not posted loses its pbuf.
* `freedOnce_settle_iff`: When everything is freed.
-/

namespace RtosLwip

namespace Cmd

/-- A pbuf the stack handed over, with its payload. -/
structure Pbuf where
  id : Nat
  payload : List UInt8

/-- `UdpCmd`, by the number of its allocation. -/
structure UdpCmd where
  id : Nat
  p : Pbuf
  ip : UInt32
  port : UInt16

/-- Where `_extUdpCmdThread` is in its loop: waiting for the mailbox, having
    fetched a command, having copied and freed its pbuf, or having answered it. -/
inductive ThreadState where
  | waiting
  | fetched (cmd : UdpCmd)
  | copied (cmd : UdpCmd) (size : Nat)
  | answered (cmd : UdpCmd)

/-- The command service: its device, the mailbox, the thread, and the pbufs and
    commands that were handed out and given back. -/
structure Service where
  dev : Device
  effects : List Effect
  mailbox : List UdpCmd
  thread : ThreadState
  received : Nat
  freed : List Nat
  taken : Nat
  returned : List Nat

/-- The service before the first datagram. -/
def Service.start (dev : Device) : Service where
  dev := dev
  effects := []
  mailbox := []
  thread := .waiting
  received := 0
  freed := []
  taken := 0
  returned := []

/-- `_rawUdpEchoRecv`, with the thread. `mem` says whether the pool has anything
    left. -/
def rawUdpEchoRecv (addr : Option UInt32) (port : UInt16) (payload : List UInt8) (mem : Bool)
    (s : Service) : Service :=
  let p : Pbuf := ⟨s.received, payload⟩
  let s := { s with received := s.received + 1 }
  match addr with
  | none => s
  | some ip =>
    if mem = false then
      s
    else
      let cmd : UdpCmd := ⟨s.taken, p, ip, port⟩
      let s := { s with taken := s.taken + 1 }
      if mboxSize ≤ s.mailbox.length then
        -- `memp_free` of the command; its pbuf is not mentioned again
        { s with returned := cmd.id :: s.returned }
      else
        { s with mailbox := s.mailbox ++ [cmd] }

/-- The next step of `_extUdpCmdThread`. It waits while the mailbox is empty. -/
def threadStep (s : Service) : Service :=
  match s.thread with
  | .waiting =>
    match s.mailbox with
    | [] => s
    | cmd :: rest => { s with mailbox := rest, thread := .fetched cmd }
  | .fetched cmd =>
    { s with
      dev := receive s.dev cmd.p.payload
      freed := cmd.p.id :: s.freed
      thread := .copied cmd (cmd.p.payload.take bufLength).length }
  | .copied cmd size =>
    let r := extCmdPaserHandler s.dev size
    { s with
      dev := r.1
      effects := s.effects ++ r.2
        ++ if r.1.parser.out = [] then [] else [.sendto r.1.parser.out cmd.ip cmd.port]
      thread := .answered cmd }
  | .answered cmd => { s with returned := cmd.id :: s.returned, thread := .waiting }

/-- What happens next: a datagram arrives, or the thread gets to run. -/
inductive Event where
  | recv (addr : Option UInt32) (port : UInt16) (payload : List UInt8) (mem : Bool)
  | thread

/-- One step of the service. -/
def step (s : Service) : Event → Service
  | .recv addr port payload mem => rawUdpEchoRecv addr port payload mem s
  | .thread => threadStep s

/-- The pbuf the thread still has to free. -/
def ThreadState.pbufs : ThreadState → List Nat
  | .fetched cmd => [cmd.p.id]
  | _ => []

/-- The command the thread still has to return. -/
def ThreadState.cmds : ThreadState → List Nat
  | .waiting => []
  | .fetched cmd => [cmd.id]
  | .copied cmd _ => [cmd.id]
  | .answered cmd => [cmd.id]

/-- The pbufs that are freed or will be. -/
def Service.pbufs (s : Service) : List Nat :=
  s.freed ++ (s.thread.pbufs ++ s.mailbox.map (·.p.id))

/-- The commands that are returned or will be. -/
def Service.cmds (s : Service) : List Nat :=
  s.returned ++ (s.thread.cmds ++ s.mailbox.map (·.id))

/-- Nothing is freed or returned twice, and every command is accounted for. -/
structure Sound (s : Service) : Prop where
  nodup : s.pbufs.Nodup
  bound : ∀ p ∈ s.pbufs, p < s.received
  cmds : s.cmds.Perm (List.range s.taken)

theorem sound_start (dev : Device) : Sound (.start dev) :=
  ⟨List.nodup_nil, fun _ h => absurd h List.not_mem_nil, List.Perm.refl _⟩

/-- The thread moves pbufs and commands on, and neither adds nor loses any. -/
theorem threadStep_moves (s : Service) :
    (threadStep s).pbufs.Perm s.pbufs ∧ (threadStep s).cmds.Perm s.cmds ∧
      (threadStep s).received = s.received ∧ (threadStep s).taken = s.taken := by
  unfold threadStep
  rcases hthread : s.thread with _ | cmd | ⟨cmd, size⟩ | cmd
  · rcases hmail : s.mailbox with _ | ⟨cmd, rest⟩
    · exact ⟨.refl _, .refl _, rfl, rfl⟩
    · refine ⟨?_, ?_, rfl, rfl⟩
      · simp only [Service.pbufs, ThreadState.pbufs, hthread, hmail, List.map_cons,
          List.nil_append, List.singleton_append, List.Perm.refl]
      · simp only [Service.cmds, ThreadState.cmds, hthread, hmail, List.map_cons,
          List.nil_append, List.singleton_append, List.Perm.refl]
  · -- the pbuf goes from the thread to the ones that are freed
    refine ⟨?_, ?_, rfl, rfl⟩
    · simp only [Service.pbufs, ThreadState.pbufs, hthread, List.nil_append, List.cons_append]
      exact List.perm_middle.symm
    · simp only [Service.cmds, ThreadState.cmds, hthread, List.Perm.refl]
  · refine ⟨?_, ?_, rfl, rfl⟩
    · simp only [Service.pbufs, ThreadState.pbufs, hthread, List.Perm.refl]
    · simp only [Service.cmds, ThreadState.cmds, hthread, List.Perm.refl]
  · -- the command goes from the thread to the ones that are returned
    refine ⟨?_, ?_, rfl, rfl⟩
    · simp only [Service.pbufs, ThreadState.pbufs, hthread, List.Perm.refl]
    · simp only [Service.cmds, ThreadState.cmds, hthread, List.nil_append, List.cons_append]
      exact List.perm_middle.symm

/-- The datagram reaches the mailbox: it has an address, there is memory for a
    command, and the mailbox is not full. -/
def Posted (s : Service) : Event → Prop
  | .recv addr _ _ mem => addr ≠ none ∧ mem = true ∧ s.mailbox.length < mboxSize
  | .thread => True

instance (s : Service) : ∀ e, Decidable (Posted s e)
  | .recv _ _ _ _ => inferInstanceAs (Decidable (_ ∧ _ ∧ _))
  | .thread => .isTrue trivial

theorem posted_thread (s : Service) : Posted s .thread := trivial

/-- What the callback does with a datagram: it posts it with its pbuf, or it loses
    the pbuf and keeps nothing. -/
theorem rawUdpEchoRecv_cases (addr : Option UInt32) (port : UInt16) (payload : List UInt8)
    (mem : Bool) (s : Service) :
    (rawUdpEchoRecv addr port payload mem s).received = s.received + 1 ∧
      ((Posted s (.recv addr port payload mem) ∧
          (rawUdpEchoRecv addr port payload mem s).pbufs = s.pbufs ++ [s.received] ∧
          (rawUdpEchoRecv addr port payload mem s).taken = s.taken + 1 ∧
          (rawUdpEchoRecv addr port payload mem s).cmds = s.cmds ++ [s.taken]) ∨
        (¬ Posted s (.recv addr port payload mem) ∧
          (rawUdpEchoRecv addr port payload mem s).pbufs = s.pbufs ∧
          ((rawUdpEchoRecv addr port payload mem s).taken = s.taken ∧
              (rawUdpEchoRecv addr port payload mem s).cmds = s.cmds ∨
            (rawUdpEchoRecv addr port payload mem s).taken = s.taken + 1 ∧
              (rawUdpEchoRecv addr port payload mem s).cmds = s.taken :: s.cmds))) := by
  unfold rawUdpEchoRecv
  rcases addr with _ | ip
  · exact ⟨rfl, Or.inr ⟨fun h => absurd rfl h.1, rfl, Or.inl ⟨rfl, rfl⟩⟩⟩
  · by_cases hmem : mem = false
    · dsimp only
      rw [if_pos hmem]
      refine ⟨rfl, Or.inr ⟨fun h => ?_, rfl, Or.inl ⟨rfl, rfl⟩⟩⟩
      exact absurd (hmem.symm.trans h.2.1) (by decide)
    · dsimp only
      rw [if_neg hmem]
      by_cases hfull : mboxSize ≤ s.mailbox.length
      · rw [if_pos hfull]
        refine ⟨rfl, Or.inr ⟨fun h => ?_, rfl, Or.inr ⟨rfl, rfl⟩⟩⟩
        exact absurd h.2.2 (Nat.not_lt_of_le hfull)
      · rw [if_neg hfull]
        refine ⟨rfl, Or.inl ⟨⟨nofun, Bool.eq_true_of_not_eq_false hmem,
          Nat.lt_of_not_le hfull⟩, ?_, rfl, ?_⟩⟩
        · simp only [Service.pbufs, List.map_append, List.map_cons, List.map_nil,
            List.append_assoc]
        · simp only [Service.cmds, List.map_append, List.map_cons, List.map_nil,
            List.append_assoc]

theorem nodup_append_one {l : List Nat} {n : Nat} (hnodup : l.Nodup) (hbound : ∀ p ∈ l, p < n) :
    (l ++ [n]).Nodup := by
  rw [List.nodup_append']
  refine ⟨hnodup, List.nodup_singleton n, fun p hp hn => ?_⟩
  rw [List.mem_singleton] at hn
  have := hbound p hp
  omega

/-- A pbuf is new when it is handed over, and a command when it is allocated, so
    nothing comes back that was given away before. -/
theorem sound_step (s : Service) (e : Event) (h : Sound s) : Sound (step s e) := by
  cases e with
  | thread =>
      rcases threadStep_moves s with ⟨hpbufs, hcmds, hreceived, htaken⟩
      refine ⟨hpbufs.nodup_iff.mpr h.nodup, fun p hp => ?_, ?_⟩
      · change p < (threadStep s).received
        rw [hreceived]
        exact h.bound p (hpbufs.mem_iff.mp hp)
      · change (threadStep s).cmds.Perm (List.range (threadStep s).taken)
        rw [htaken]
        exact hcmds.trans h.cmds
  | recv addr port payload mem =>
      have hrange : (List.range (s.taken + 1)).Perm (s.taken :: List.range s.taken) := by
        rw [List.range_succ]
        exact List.perm_append_singleton _ _
      rcases rawUdpEchoRecv_cases addr port payload mem s with
        ⟨hreceived, ⟨-, hpbufs, htaken, hcmds⟩ | ⟨-, hpbufs, hrest⟩⟩
      · refine ⟨?_, fun p hp => ?_, ?_⟩
        · rw [step, hpbufs]
          exact nodup_append_one h.nodup h.bound
        · rw [step, hpbufs, List.mem_append, List.mem_singleton] at hp
          rw [step, hreceived]
          rcases hp with hp | rfl
          · exact Nat.lt_succ_of_lt (h.bound p hp)
          · exact Nat.lt_succ_self _
        · rw [step, hcmds, htaken]
          exact (List.perm_append_singleton _ _).trans ((h.cmds.cons _).trans hrange.symm)
      · refine ⟨?_, fun p hp => ?_, ?_⟩
        · rw [step, hpbufs]
          exact h.nodup
        · rw [step, hpbufs] at hp
          rw [step, hreceived]
          exact Nat.lt_succ_of_lt (h.bound p hp)
        · rcases hrest with ⟨htaken, hcmds⟩ | ⟨htaken, hcmds⟩
          · rw [step, hcmds, htaken]
            exact h.cmds
          · rw [step, hcmds, htaken]
            exact (h.cmds.cons _).trans hrange.symm

/-- The number of pbufs that nobody will free. -/
def Service.leaked (s : Service) : Nat := s.received - s.pbufs.length

theorem Sound.length_le {s : Service} (h : Sound s) : s.pbufs.length ≤ s.received := by
  have hsub : s.pbufs ⊆ List.range s.received := fun p hp => List.mem_range.mpr (h.bound p hp)
  have hle := (List.subperm_of_subset h.nodup hsub).length_le
  rwa [List.length_range] at hle

/-- Every datagram that is not posted loses its pbuf, for good. -/
theorem leaked_step (s : Service) (e : Event) (h : Sound s) :
    (step s e).leaked = s.leaked + if Posted s e then 0 else 1 := by
  have hle := h.length_le
  unfold Service.leaked
  cases e with
  | thread =>
      rcases threadStep_moves s with ⟨hpbufs, -, hreceived, -⟩
      rw [if_pos (posted_thread s), step, hreceived, hpbufs.length_eq]
      rfl
  | recv addr port payload mem =>
      rcases rawUdpEchoRecv_cases addr port payload mem s with
        ⟨hreceived, ⟨hposted, hpbufs, -⟩ | ⟨hposted, hpbufs, -⟩⟩
      · rw [if_pos hposted, step, hreceived, hpbufs, List.length_append, List.length_singleton]
        omega
      · rw [if_neg hposted, step, hreceived, hpbufs]
        omega

/-- Nothing has leaked after a run exactly if every datagram was posted. -/
theorem leaked_run (s : Service) (h : Sound s) (evs : List Event) :
    (run step s evs).leaked = 0 ↔ s.leaked = 0 ∧ Meets step Posted s evs := by
  induction evs generalizing s with
  | nil => simp only [run_nil, Meets, and_true]
  | cons e rest ih =>
      rw [run_cons, ih (step s e) (sound_step s e h), leaked_step s e h, Meets]
      by_cases hposted : Posted s e
      · rw [if_pos hposted]
        simp only [Nat.add_zero, hposted, true_and]
      · rw [if_neg hposted]
        simp only [Nat.add_eq_zero_iff, Nat.one_ne_zero, and_false, false_and, hposted]

/-- The steps the thread has to make until it waits again. -/
def ThreadState.steps : ThreadState → Nat
  | .waiting => 0
  | .fetched _ => 3
  | .copied _ _ => 2
  | .answered _ => 1

/-- The steps until the thread waits at an empty mailbox. -/
def Service.work (s : Service) : Nat := s.thread.steps + 4 * s.mailbox.length

/-- The thread works off what has arrived so far. -/
def settle (s : Service) : Service := run step s (List.replicate s.work .thread)

theorem work_threadStep (s : Service) : (threadStep s).work = s.work - 1 := by
  unfold threadStep Service.work
  rcases hthread : s.thread with _ | cmd | ⟨cmd, size⟩ | cmd
  · rcases hmail : s.mailbox with _ | ⟨cmd, rest⟩
    · simp only [hthread, hmail, ThreadState.steps, List.length_nil]
    · simp only [ThreadState.steps, List.length_cons]
      omega
  · simp only [ThreadState.steps]
    omega
  · simp only [ThreadState.steps]
    omega
  · simp only [ThreadState.steps]
    omega

/-- After its work the thread waits at an empty mailbox, and what was to be freed
    or returned has been. -/
theorem settle_rest (s : Service) (h : Sound s) :
    Sound (settle s) ∧ (settle s).leaked = s.leaked ∧
      (settle s).pbufs = (settle s).freed ∧ (settle s).cmds = (settle s).returned := by
  unfold settle
  generalize hn : s.work = n
  induction n generalizing s with
  | zero =>
      rw [List.replicate_zero, run_nil]
      unfold Service.work at hn
      have hmail : s.mailbox = [] := List.eq_nil_of_length_eq_zero (by omega)
      have hwaiting : s.thread = .waiting := by
        rcases hthread : s.thread with _ | cmd | ⟨cmd, size⟩ | cmd
        · rfl
        all_goals
          rw [hthread] at hn
          simp only [ThreadState.steps] at hn
          omega
      refine ⟨h, rfl, ?_, ?_⟩
      · simp only [Service.pbufs, hmail, hwaiting, ThreadState.pbufs, List.map_nil,
          List.append_nil]
      · simp only [Service.cmds, hmail, hwaiting, ThreadState.cmds, List.map_nil,
          List.append_nil]
  | succ n ih =>
      rw [List.replicate_succ, run_cons]
      have hwork : (step s .thread).work = n := by
        rw [step, work_threadStep]
        omega
      have hleaked := leaked_step s .thread h
      rw [if_pos (posted_thread s), Nat.add_zero] at hleaked
      rcases ih (step s .thread) (sound_step s .thread h) hwork with ⟨hsound, hsame, hrest⟩
      exact ⟨hsound, hsame.trans hleaked, hrest⟩

/-- Every pbuf handed over was freed exactly once, and every command taken from
    the pool was returned exactly once. -/
def FreedOnce (s : Service) : Prop :=
  (∀ p < s.received, s.freed.count p = 1) ∧ ∀ c < s.taken, s.returned.count c = 1

instance (s : Service) : Decidable (FreedOnce s) := inferInstanceAs (Decidable (_ ∧ _))

theorem count_of_perm_range {l : List Nat} {n : Nat} (h : l.Perm (List.range n)) :
    ∀ k < n, l.count k = 1 := by
  intro k hk
  rw [h.count_eq]
  exact List.count_eq_one_of_mem List.nodup_range (List.mem_range.mpr hk)

/-- Once the thread has worked off what arrived, everything has been freed exactly
    if nothing leaked. -/
theorem freedOnce_settle (s : Service) (h : Sound s) :
    FreedOnce (settle s) ↔ s.leaked = 0 := by
  rcases settle_rest s h with ⟨hsound, hleaked, hpbufs, hcmds⟩
  rw [← hleaked]
  have hreturned : ∀ c < (settle s).taken, (settle s).returned.count c = 1 := by
    rw [← hcmds]
    exact count_of_perm_range hsound.cmds
  unfold Service.leaked
  constructor
  · rintro ⟨hfreed, -⟩
    have hsub : List.range (settle s).received ⊆ (settle s).freed := by
      intro p hp
      have hone := hfreed p (List.mem_range.mp hp)
      exact List.count_pos_iff.mp (by omega)
    have hle := (List.subperm_of_subset List.nodup_range hsub).length_le
    rw [List.length_range] at hle
    rw [hpbufs]
    omega
  · intro hzero
    refine ⟨?_, hreturned⟩
    rw [← hpbufs]
    have hsub : (settle s).pbufs ⊆ List.range (settle s).received :=
      fun p hp => List.mem_range.mpr (hsound.bound p hp)
    refine count_of_perm_range ((List.subperm_of_subset hsound.nodup hsub).perm_of_length_le ?_)
    rw [List.length_range]
    omega

/-- Whatever arrives and whenever the thread gets to run: when it has worked off
    what arrived, every pbuf was freed once and every command returned once exactly
    if every datagram was posted. -/
theorem freedOnce_settle_iff (dev : Device) (evs : List Event) :
    FreedOnce (settle (run step (.start dev) evs)) ↔ Meets step Posted (.start dev) evs := by
  have hsound : Sound (run step (.start dev) evs) :=
    run_invariant (fun s e => sound_step s e) _ (sound_start dev) evs
  rw [freedOnce_settle _ hsound, leaked_run _ (sound_start dev)]
  exact and_iff_right rfl

/-- A datagram that arrives while the pool is empty: its pbuf is never freed. -/
theorem not_freedOnce_noMemory :
    ¬ FreedOnce (settle
      (run step (.start (.factory 1)) [.recv (some 0xC0A8A603) 3600 [] false])) := by
  intro h
  exact absurd (h.1 0 (by decide)) (by decide)

end Cmd

end RtosLwip
