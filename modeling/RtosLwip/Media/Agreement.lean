import RtosLwip.Media.Task

/-!
# The State Machine and the Connection

A transmitter keeps in two places whether a video source is connected: in the
runtime parameters, which the poll sets, and in the state of the state machine,
which follows the events the poll posts. The two agree when the mailbox is empty
as long as every event gets there. The poll sets its flag before it posts, and
does not look at whether that worked. When it did not, the flag says that the
change has been seen, so no later poll posts it again.

What is preserved is not agreement, since the state machine lags behind, but that
it will agree once it has handled what is under way. `target` is where that leads.

## Main definitions

* `Task.target`: The state the events under way lead to.
* `Task.wanted`: The state the runtime parameters ask for.
* `Toggles`: A poll finds that the connection has changed.
* `Announced`: A poll that does so gets its event posted.

## Theorems

* `poll_of_toggles`, `poll_of_not_toggles`: What a poll does.
* `target_eq_wanted_iff`: The events under way lead to the right state exactly as
  long as every change is announced.
* `agrees_of_announced`: Then the two agree whenever nothing is under way.
-/

namespace RtosLwip

namespace Media

open Cmd

/-- The state the events under way lead to. -/
def Task.target (s : Task) : State := s.pending.foldl State.next s.currentState

/-- The state for a connection flag. -/
def stateOf (connected : Prop) [Decidable connected] : State :=
  if connected then .connect else .disconnect

/-- A video source is connected, as far as the runtime parameters say. -/
def Connected (cfg : RuntimeCfg) : Prop := cfg.isTransmitter = true ∧ cfg.runtime.isConnect = 1

instance (cfg : RuntimeCfg) : Decidable (Connected cfg) := inferInstanceAs (Decidable (_ ∧ _))

/-- The state the runtime parameters ask for. -/
def Task.wanted (s : Task) : State := stateOf (Connected s.runCfg)

/-- The FPGA of a transmitter reports another connection than the one held. -/
def Toggles (s : Task) (fpga : FpgaParams) : Prop :=
  s.runCfg.isTransmitter = true ∧ ¬ (fpga.sdiStatus = 1 ↔ s.runCfg.runtime.isConnect = 1)

instance (s : Task) (fpga : FpgaParams) : Decidable (Toggles s fpga) :=
  inferInstanceAs (Decidable (_ ∧ _))

/-- The flag of the runtime parameters is a truth value, and set only on a
    transmitter. -/
def FlagSound (s : Task) : Prop :=
  s.runCfg.runtime.isConnect = 0 ∨
    (s.runCfg.runtime.isConnect = 1 ∧ s.runCfg.isTransmitter = true)

theorem extFpgaTimerJob_isConnect (fpga : FpgaParams) (p : RunTimeParam) :
    (extFpgaTimerJob fpga p).isConnect = if fpga.sdiStatus = 1 then 1 else 0 := by
  unfold extFpgaTimerJob
  by_cases hparams : fpga.paramStatus ≠ 1
  · simp only [if_pos hparams]
  · simp only [if_neg hparams, extFpgaReadParams]

/-- The event for a reported connection. -/
def FpgaParams.event (fpga : FpgaParams) : Event :=
  if fpga.sdiStatus = 1 then .connect else .disconnect

/-- The runtime parameters held once a change has been found: the reported ones, or
    the old ones without the connection. -/
def Task.taken (fpga : FpgaParams) (s : Task) : RunTimeParam :=
  if fpga.sdiStatus = 1 then extFpgaTimerJob fpga s.mediaParams
  else { s.runCfg.runtime with isConnect := 0 }

theorem taken_isConnect (fpga : FpgaParams) (s : Task) :
    (s.taken fpga).isConnect = if fpga.sdiStatus = 1 then 1 else 0 := by
  unfold Task.taken
  by_cases hsdi : fpga.sdiStatus = 1
  · rw [if_pos hsdi, extFpgaTimerJob_isConnect]
  · rw [if_neg hsdi, if_neg hsdi]

/-- The task with the parameters it holds once a change has been found. -/
def Task.update (fpga : FpgaParams) (s : Task) : Task :=
  { s with
    runCfg := { s.runCfg with runtime := s.taken fpga }
    mediaParams := extFpgaTimerJob fpga s.mediaParams }

/-- A poll that finds a change holds the new parameters and posts the event. -/
theorem poll_of_toggles (fpga : FpgaParams) (mem : Bool) (s : Task) (hflag : FlagSound s)
    (h : Toggles s fpga) :
    s.extMediaPollDevice fpga mem
      = (Task.extMediaPostEvent fpga.event mem (s.update fpga)).2 := by
  have hreport := extFpgaTimerJob_isConnect fpga s.mediaParams
  unfold Task.extMediaPollDevice FpgaParams.event Task.update Task.taken
  simp only [if_pos h.1]
  by_cases hsdi : fpga.sdiStatus = 1
  · -- a source has been connected
    rw [if_pos hsdi] at hreport
    have hoff : s.runCfg.runtime.isConnect = 0 := by
      rcases hflag with hoff | ⟨hon, -⟩
      · exact hoff
      · exact absurd ⟨fun _ => hon, fun _ => hsdi⟩ h.2
    have hcompare : extMediaCompareParams s.runCfg.runtime (extFpgaTimerJob fpga s.mediaParams)
        = (true, extFpgaTimerJob fpga s.mediaParams) := by
      rw [extMediaCompareParams, if_pos (Or.inl ⟨hoff, hreport⟩)]
    have hsame : { extFpgaTimerJob fpga s.mediaParams with isConnect := 1 }
        = extFpgaTimerJob fpga s.mediaParams := by
      rw [← hreport]
    rw [if_neg fun h => absurd (hreport.symm.trans h.1) (by decide), if_pos ⟨hreport, hoff⟩,
      hcompare, if_pos hsdi, if_pos hsdi]
    simp only [if_true, hsame]
    rfl
  · -- the source is gone
    rw [if_neg hsdi] at hreport
    have hon : s.runCfg.runtime.isConnect = 1 := by
      by_contra hoff
      exact h.2 ⟨fun h => absurd h hsdi, fun h => absurd h hoff⟩
    rw [if_pos ⟨hreport, hon⟩, if_neg hsdi, if_neg hsdi]
    rfl

/-- Any other poll reads the FPGA and leaves it at that. -/
theorem poll_of_not_toggles (fpga : FpgaParams) (mem : Bool) (s : Task)
    (h : ¬ Toggles s fpga) :
    s.extMediaPollDevice fpga mem =
      if s.runCfg.isTransmitter then
        { s with mediaParams := extFpgaTimerJob fpga s.mediaParams }
      else s := by
  have hreport := extFpgaTimerJob_isConnect fpga s.mediaParams
  unfold Task.extMediaPollDevice
  by_cases htx : s.runCfg.isTransmitter = true
  · simp only [if_pos htx]
    have hsame : fpga.sdiStatus = 1 ↔ s.runCfg.runtime.isConnect = 1 := by
      by_contra hdiff
      exact h ⟨htx, hdiff⟩
    have hgone : ¬ ((extFpgaTimerJob fpga s.mediaParams).isConnect = 0 ∧
        s.runCfg.runtime.isConnect = 1) := by
      rintro ⟨hreported, hon⟩
      rw [hreport, if_pos (hsame.mpr hon)] at hreported
      exact absurd hreported (by decide)
    have hcome : ¬ ((extFpgaTimerJob fpga s.mediaParams).isConnect = 1 ∧
        s.runCfg.runtime.isConnect = 0) := by
      rintro ⟨hreported, hoff⟩
      have hsdi : ¬ fpga.sdiStatus = 1 := fun hsdi =>
        absurd (hoff.symm.trans (hsame.mp hsdi)) (by decide)
      rw [hreport, if_neg hsdi] at hreported
      exact absurd hreported (by decide)
    rw [if_neg hgone, if_neg hcome]
  · simp only [if_neg htx]

/-- A poll that finds a change gets its event posted: there is memory for it, and
    the mailbox is not full. -/
def Announced (s : Task) : Happening → Prop
  | .poll fpga mem => Toggles s fpga → mem = true ∧ s.mailbox.length < mboxSize
  | _ => True

instance (s : Task) : ∀ e, Decidable (Announced s e)
  | .poll _ _ => inferInstanceAs (Decidable (_ → _))
  | .expire _ => .isTrue trivial
  | .ack _ => .isTrue trivial
  | .thread => .isTrue trivial

theorem target_append (s : Task) (event : Event) :
    Task.target { s with mailbox := s.mailbox ++ [event] } = s.target.next event := by
  rw [Task.target, pending_append, List.foldl_append]
  rfl

/-- An event that does not concern the connection does not change where the events
    under way lead. -/
theorem target_post (s : Task) (event : Event) (mem : Bool) (h : ∀ st : State, st.next event = st) :
    (Task.extMediaPostEvent event mem s).2.target = s.target := by
  rw [Task.extMediaPostEvent_eq]
  split
  · rw [target_append, h]
  · rfl

/-- The thread takes a step on the way the events lead. -/
theorem target_thread (s : Task) : s.extMediaControlThread.target = s.target := by
  unfold Task.extMediaControlThread
  rcases hevent : s.event with _ | event
  · rcases hmail : s.mailbox with _ | ⟨event, rest⟩
    · rfl
    · simp only [Task.target, Task.pending, hevent, hmail, Option.toList_none, List.nil_append,
        Option.toList_some, List.singleton_append]
  · rcases s.handle_frame event with ⟨hstate, -, -, hmail, -⟩
    simp only [Task.target, Task.pending, hevent, Option.toList_none, List.nil_append,
      Option.toList_some, List.singleton_append, List.foldl_cons, hstate, hmail]

theorem runCfg_post (s : Task) (event : Event) (mem : Bool) :
    (Task.extMediaPostEvent event mem s).2.runCfg = s.runCfg := by
  rw [Task.extMediaPostEvent_eq]
  split <;> rfl

theorem runCfg_thread (s : Task) : s.extMediaControlThread.runCfg = s.runCfg := by
  unfold Task.extMediaControlThread
  rcases s.event with _ | event
  · rcases s.mailbox with _ | ⟨event, rest⟩ <;> rfl
  · exact (s.handle_frame event).2.1

/-- Only the poll changes the configuration. -/
theorem runCfg_expire (s : Task) (mem : Bool) : (s.msgTimerCallback mem).runCfg = s.runCfg := by
  unfold Task.msgTimerCallback
  split
  · exact runCfg_post _ _ _
  · rfl

theorem target_expire (s : Task) (mem : Bool) : (s.msgTimerCallback mem).target = s.target := by
  unfold Task.msgTimerCallback
  split
  · exact target_post _ _ _ fun _ => rfl
  · rfl

theorem flagSound_of_runCfg {s t : Task} (h : t.runCfg = s.runCfg) (hs : FlagSound s) :
    FlagSound t := by
  unfold FlagSound
  rw [h]
  exact hs

theorem wanted_of_runCfg {s t : Task} (h : t.runCfg = s.runCfg) : t.wanted = s.wanted := by
  unfold Task.wanted
  simp only [h]

theorem stateOf_eq_iff (p q : Prop) [Decidable p] [Decidable q] :
    stateOf p = stateOf q ↔ (p ↔ q) := by
  unfold stateOf
  by_cases hp : p <;> by_cases hq : q <;> simp [hp, hq]

/-- What a poll that finds a change leaves in the configuration. -/
theorem runCfg_poll_of_toggles (fpga : FpgaParams) (mem : Bool) (s : Task) (hflag : FlagSound s)
    (h : Toggles s fpga) :
    (s.extMediaPollDevice fpga mem).runCfg = { s.runCfg with runtime := s.taken fpga } := by
  rw [poll_of_toggles fpga mem s hflag h, runCfg_post]
  rfl

theorem flagSound_step (s : Task) (e : Happening) (hflag : FlagSound s) : FlagSound (step s e) := by
  cases e with
  | thread => exact flagSound_of_runCfg (runCfg_thread s) hflag
  | ack mem => exact flagSound_of_runCfg (runCfg_post s .ack mem) hflag
  | expire mem => exact flagSound_of_runCfg (runCfg_expire s mem) hflag
  | poll fpga mem =>
      by_cases htoggles : Toggles s fpga
      · unfold FlagSound
        rw [step, runCfg_poll_of_toggles fpga mem s hflag htoggles]
        simp only [taken_isConnect]
        by_cases hsdi : fpga.sdiStatus = 1
        · rw [if_pos hsdi]
          exact Or.inr ⟨rfl, htoggles.1⟩
        · rw [if_neg hsdi]
          exact Or.inl rfl
      · rw [step, poll_of_not_toggles fpga mem s htoggles]
        split <;> exact hflag

/-- A poll that finds a change asks for the state it reports. -/
theorem wanted_poll_of_toggles (fpga : FpgaParams) (mem : Bool) (s : Task) (hflag : FlagSound s)
    (h : Toggles s fpga) :
    (s.extMediaPollDevice fpga mem).wanted = stateOf (fpga.sdiStatus = 1) := by
  unfold Task.wanted
  rw [stateOf_eq_iff, runCfg_poll_of_toggles fpga mem s hflag h, Connected]
  simp only [taken_isConnect]
  by_cases hsdi : fpga.sdiStatus = 1
  · rw [if_pos hsdi]
    exact iff_of_true ⟨h.1, rfl⟩ hsdi
  · rw [if_neg hsdi]
    exact iff_of_false (fun h => absurd h.2 (by decide)) hsdi

/-- That is not the state that was asked for before. -/
theorem wanted_ne_of_toggles {fpga : FpgaParams} {s : Task} (h : Toggles s fpga) :
    s.wanted ≠ stateOf (fpga.sdiStatus = 1) := by
  intro heq
  have hsame := (stateOf_eq_iff _ _).mp heq
  refine h.2 ?_
  rw [← hsame, Connected]
  exact ⟨fun h => h.2, fun hon => ⟨h.1, hon⟩⟩

theorem next_event (fpga : FpgaParams) (state : State) :
    state.next fpga.event = stateOf (fpga.sdiStatus = 1) := by
  unfold FpgaParams.event stateOf
  split <;> rfl

/-- One step: the events under way still lead to the right state exactly if a change
    was announced. -/
theorem target_eq_wanted_step (s : Task) (e : Happening) (hflag : FlagSound s)
    (h : s.target = s.wanted) :
    FlagSound (step s e) ∧ ((step s e).target = (step s e).wanted ↔ Announced s e) := by
  refine ⟨flagSound_step s e hflag, ?_⟩
  cases e with
  | thread =>
      refine iff_of_true ?_ trivial
      exact (target_thread s).trans (h.trans (wanted_of_runCfg (runCfg_thread s)).symm)
  | ack mem =>
      refine iff_of_true ?_ trivial
      exact (target_post s .ack mem fun _ => rfl).trans
        (h.trans (wanted_of_runCfg (runCfg_post s .ack mem)).symm)
  | expire mem =>
      refine iff_of_true ?_ trivial
      exact (target_expire s mem).trans (h.trans (wanted_of_runCfg (runCfg_expire s mem)).symm)
  | poll fpga mem =>
      by_cases htoggles : Toggles s fpga
      · have hmail : (s.update fpga).mailbox = s.mailbox := rfl
        rw [step, wanted_poll_of_toggles fpga mem s hflag htoggles,
          poll_of_toggles fpga mem s hflag htoggles, Task.extMediaPostEvent_eq, hmail]
        by_cases hpost : mem = true ∧ s.mailbox.length < mboxSize
        · rw [if_pos hpost, ← hmail, target_append, next_event]
          exact iff_of_true rfl fun _ => hpost
        · -- the flag says that the change is known, and no event does
          rw [if_neg hpost]
          refine iff_of_false (fun heq => ?_) fun hann => hpost (hann htoggles)
          exact wanted_ne_of_toggles htoggles (h.symm.trans heq)
      · rw [step, poll_of_not_toggles fpga mem s htoggles]
        refine iff_of_true ?_ fun h => absurd h htoggles
        split <;> exact h

theorem target_start (cfg : RuntimeCfg) : (Task.start cfg).target = (Task.start cfg).wanted := by
  have hzero : (Task.start cfg).runCfg.runtime.isConnect = 0 := rfl
  have hoff : ¬ Connected (Task.start cfg).runCfg := fun h =>
    absurd (hzero.symm.trans h.2) (by decide)
  unfold Task.wanted stateOf
  rw [if_neg hoff]
  rfl

/-- The events under way lead to the right state, all along a run, exactly if every
    change in it is announced. -/
theorem target_eq_wanted_iff (cfg : RuntimeCfg) (evs : List Happening) :
    (∀ past, past <+: evs →
        (run step (.start cfg) past).target = (run step (.start cfg) past).wanted)
      ↔ Meets step Announced (.start cfg) evs := by
  exact always_iff_meets target_eq_wanted_step _ (Or.inl rfl) (target_start cfg) evs

/-- Nothing is under way: the mailbox is empty, and no event is being handled. -/
def Idle (s : Task) : Prop := s.mailbox = [] ∧ s.event = none

instance (s : Task) : Decidable (Idle s) := inferInstanceAs (Decidable (_ ∧ _))

/-- The state machine and the runtime parameters agree. -/
def Agrees (s : Task) : Prop := s.currentState = .connect ↔ Connected s.runCfg

instance (s : Task) : Decidable (Agrees s) := inferInstanceAs (Decidable (_ ↔ _))

/-- In every run whose changes are all announced, the state machine and the runtime
    parameters agree whenever nothing is under way. -/
theorem agrees_of_announced (cfg : RuntimeCfg) (evs : List Happening)
    (hann : Meets step Announced (.start cfg) evs) :
    ∀ past, past <+: evs →
      Idle (run step (.start cfg) past) → Agrees (run step (.start cfg) past) := by
  intro past hpast hidle
  have htarget := (target_eq_wanted_iff cfg evs).mpr hann past hpast
  have hpending :
      (run step (.start cfg) past).target = (run step (.start cfg) past).currentState := by
    rw [Task.target, Task.pending, hidle.1, hidle.2]
    rfl
  rw [hpending] at htarget
  unfold Agrees
  rw [htarget]
  unfold Task.wanted stateOf
  split
  · exact iff_of_true rfl ‹_›
  · exact iff_of_false (fun h => State.noConfusion h) ‹_›

/-- A transmitter as it is delivered. -/
def transmitter : RuntimeCfg := extCfgFromFactory { RuntimeCfg.zero with isTx := 1 }

/-- A source with its parameters. -/
def source1080p : FpgaParams := ⟨1, 1, 1920, 1080, 11, 0, 1, 2⟩

/-- A source is connected and the thread handles the event. -/
theorem agrees_of_announced_connect :
    Agrees (run step (.start transmitter) [.poll source1080p true, .thread, .thread]) :=
  agrees_of_announced transmitter [.poll source1080p true, .thread, .thread] (by decide +kernel) _
    (List.prefix_refl _) (by decide +kernel)

/-- A source is connected while the pool is empty: the runtime parameters say so, and
    the state machine never hears of it. -/
theorem not_agrees_noMemory :
    Idle (run step (.start transmitter) [.poll source1080p false]) ∧
      ¬ Agrees (run step (.start transmitter) [.poll source1080p false]) := by
  decide +kernel

end Media

end RtosLwip
