import RtosLwip.Media.Agreement

/-!
# Parameters while Connected

The parameters of the video are read from the FPGA by every poll, and taken over by
the one poll that finds a source connected. The comparison that would notice a new
format is only reached on that poll, where the new connection decides alone. So the
parameters held are the reported ones as long as the source does not change its
format without being disconnected.

What is held is also what was last announced, once the thread has caught up: every
message carries the parameters of the moment, and the parameters held only change
with a connection whose event sends one. For that the events under way have to
alternate, since an event for the state that the machine is in sends nothing.

## Main definitions

* `mediaOf`: The parameters of the video and the audio.
* `KeepsUp`: The parameters held are the reported ones, and were announced.
* `Unchanged`: A poll while connected reports the parameters of the one before.
* `Alternates`: Every connection event changes the state.

## Theorems

* `current_iff`: When the parameters held are the reported ones.
* `told_step`: The parameters held are announced.
* `keepsUp_iff`: When a run keeps up with the FPGA.
-/

namespace RtosLwip

namespace Media

open Cmd

/-- The parameters of the video and the audio: all but the flag that is not used and
    the connection. -/
def mediaOf (p : RunTimeParam) : RunTimeParam := { p with vIsInterlaced := 0, isConnect := 0 }

/-- The last message that was sent. -/
def lastSent (log : List Entry) : Option Effect :=
  log.findSome? fun
    | .sent m => some m
    | _ => none

/-- While connected, the parameters held are the ones last reported. -/
def Current (s : Task) : Prop :=
  Connected s.runCfg → mediaOf s.runCfg.runtime = mediaOf s.mediaParams

/-- While connected, the parameters held are the ones last reported, and when nothing
    is under way the last message was about them. -/
def KeepsUp (s : Task) : Prop :=
  Current s ∧ (Idle s → Connected s.runCfg → lastSent s.log = some (Task.message s.runCfg))

/-- A poll that finds the source still connected reports the same parameters as
    before. -/
def Unchanged (s : Task) : Happening → Prop
  | .poll fpga _ => Connected s.runCfg → fpga.sdiStatus = 1 →
      mediaOf (extFpgaTimerJob fpga s.mediaParams) = mediaOf s.mediaParams
  | _ => True

instance (s : Task) : Decidable (Current s) := inferInstanceAs (Decidable (_ → _))

instance (s : Task) : ∀ e, Decidable (Unchanged s e)
  | .poll _ _ => inferInstanceAs (Decidable (_ → _))
  | .expire _ => .isTrue trivial
  | .ack _ => .isTrue trivial
  | .thread => .isTrue trivial

theorem mediaParams_post (s : Task) (event : Event) (mem : Bool) :
    (Task.extMediaPostEvent event mem s).2.mediaParams = s.mediaParams := by
  rw [Task.extMediaPostEvent_eq]
  split <;> rfl

theorem mediaParams_thread (s : Task) : s.extMediaControlThread.mediaParams = s.mediaParams := by
  unfold Task.extMediaControlThread
  rcases s.event with _ | event
  · rcases s.mailbox with _ | ⟨event, rest⟩ <;> rfl
  · exact (s.handle_frame event).2.2.1

theorem mediaParams_expire (s : Task) (mem : Bool) :
    (s.msgTimerCallback mem).mediaParams = s.mediaParams := by
  unfold Task.msgTimerCallback
  split
  · exact mediaParams_post _ _ _
  · rfl

theorem current_of_same {s t : Task} (hcfg : t.runCfg = s.runCfg)
    (hparams : t.mediaParams = s.mediaParams) (h : Current s) : Current t := by
  unfold Current
  rw [hcfg, hparams]
  exact h

/-- One step: the parameters held are still the reported ones exactly if these did
    not change. -/
theorem current_step (s : Task) (e : Happening) (hflag : FlagSound s) (h : Current s) :
    FlagSound (step s e) ∧ (Current (step s e) ↔ Unchanged s e) := by
  refine ⟨flagSound_step s e hflag, ?_⟩
  cases e with
  | thread =>
      exact iff_of_true (current_of_same (runCfg_thread s) (mediaParams_thread s) h) trivial
  | ack mem =>
      exact iff_of_true (current_of_same (runCfg_post s _ _) (mediaParams_post s _ _) h) trivial
  | expire mem =>
      exact iff_of_true (current_of_same (runCfg_expire s _) (mediaParams_expire s _) h) trivial
  | poll fpga mem =>
      by_cases htoggles : Toggles s fpga
      · have hstep := poll_of_toggles fpga mem s hflag htoggles
        by_cases hsdi : fpga.sdiStatus = 1
        · -- a new connection takes the parameters over
          refine iff_of_true (fun _ => ?_) fun hconn _ => ?_
          · rw [step, hstep, runCfg_post, mediaParams_post]
            simp only [Task.update, Task.taken, if_pos hsdi]
          · exact absurd ⟨fun _ => hconn.2, fun _ => hsdi⟩ htoggles.2
        · refine iff_of_true (fun hconn => ?_) fun _ hsdi' => absurd hsdi' hsdi
          rw [step, hstep, runCfg_post] at hconn
          have hone := hconn.2
          simp only [Task.update, taken_isConnect, if_neg hsdi] at hone
          exact absurd hone (by decide)
      · have hstep : step s (.poll fpga mem) = if s.runCfg.isTransmitter then
            { s with mediaParams := extFpgaTimerJob fpga s.mediaParams } else s :=
          poll_of_not_toggles fpga mem s htoggles
        rw [hstep]
        by_cases htx : s.runCfg.isTransmitter = true
        · rw [if_pos htx]
          constructor
          · intro hcurrent hconn _
            exact (hcurrent hconn).symm.trans (h hconn)
          · intro hsame hconn
            have hsdi : fpga.sdiStatus = 1 := by
              by_contra hnot
              exact htoggles ⟨htx, fun hiff => hnot (hiff.mpr hconn.2)⟩
            exact (h hconn).trans (hsame hconn hsdi).symm
        · rw [if_neg htx]
          exact iff_of_true h fun hconn => absurd hconn.1 htx

/-- The parameters held are the reported ones, all along a run, exactly if they never
    change while a source is connected. -/
theorem current_iff (cfg : RuntimeCfg) (evs : List Happening) :
    (∀ past, past <+: evs → Current (run step (.start cfg) past))
      ↔ Meets step Unchanged (.start cfg) evs := by
  have hstart : Current (.start cfg) := by
    have hzero : (Task.start cfg).runCfg.runtime.isConnect = 0 := rfl
    exact fun hconn => absurd (hzero.symm.trans hconn.2) (by decide)
  exact always_iff_meets current_step _ (Or.inl rfl) hstart evs

/-- An event about the connection. -/
def Event.isConnection : Event → Bool
  | .connect => true
  | .disconnect => true
  | _ => false

/-- Every event about the connection changes the state it is handled in. -/
def Alternates : State → List Event → Prop
  | _, [] => True
  | state, e :: rest =>
    (e.isConnection = true → state.next e ≠ state) ∧ Alternates (state.next e) rest

theorem alternates_append_one (state : State) (l : List Event) (e : Event) :
    Alternates state (l ++ [e]) ↔ Alternates state l ∧
      (e.isConnection = true → (l.foldl State.next state).next e ≠ l.foldl State.next state) := by
  induction l generalizing state with
  | nil => simp only [List.nil_append, Alternates, List.foldl_nil, and_true, true_and]
  | cons x rest ih => simp only [List.cons_append, Alternates, ih, List.foldl_cons, and_assoc]

/-- What is held has been announced, or is about to be. -/
structure Told (s : Task) : Prop where
  flag : FlagSound s
  target : s.target = s.wanted
  alternates : Alternates s.currentState s.pending
  told : Connected s.runCfg →
    .connect ∈ s.pending ∨ lastSent s.log = some (Task.message s.runCfg)

theorem told_start (cfg : RuntimeCfg) : Told (.start cfg) where
  flag := Or.inl rfl
  target := target_start cfg
  alternates := trivial
  told := by
    have hzero : (Task.start cfg).runCfg.runtime.isConnect = 0 := rfl
    exact fun hconn => absurd (hzero.symm.trans hconn.2) (by decide)

/-- Posting an event that is not about the connection. -/
theorem told_post (s : Task) (event : Event) (mem : Bool) (hother : event.isConnection = false)
    (hnext : ∀ st : State, st.next event = st) (h : Told s) :
    Told (Task.extMediaPostEvent event mem s).2 where
  flag := flagSound_of_runCfg (runCfg_post s event mem) h.flag
  target := (target_post s event mem hnext).trans
    (h.target.trans (wanted_of_runCfg (runCfg_post s event mem)).symm)
  alternates := by
    rw [Task.extMediaPostEvent_eq]
    split
    · rw [pending_append, alternates_append_one]
      exact ⟨h.alternates, fun hconn => absurd (hother.symm.trans hconn) Bool.false_ne_true⟩
    · exact h.alternates
  told := by
    rw [Task.extMediaPostEvent_eq]
    split
    · intro hconn
      rw [pending_append]
      exact (h.told hconn).imp_left (List.mem_append_left _)
    · exact h.told

/-- The poll that finds a change and posts it. -/
theorem told_poll_of_toggles (s : Task) (fpga : FpgaParams) (mem : Bool) (htoggles : Toggles s fpga)
    (hpost : mem = true ∧ s.mailbox.length < mboxSize) (h : Told s) :
    Told (s.extMediaPollDevice fpga mem) := by
  have hann : Announced s (.poll fpga mem) := fun _ => hpost
  have hconnected : Connected (s.extMediaPollDevice fpga mem).runCfg → fpga.sdiStatus = 1 := by
    intro hconn
    by_contra hsdi
    rw [runCfg_poll_of_toggles fpga mem s h.flag htoggles] at hconn
    have hone := hconn.2
    simp only [taken_isConnect, if_neg hsdi] at hone
    exact absurd hone (by decide)
  have hpoll : s.extMediaPollDevice fpga mem = { s.update fpga with
      mailbox := (s.update fpga).mailbox ++ [fpga.event] } := by
    rw [poll_of_toggles fpga mem s h.flag htoggles, Task.extMediaPostEvent_eq]
    exact if_pos hpost
  refine ⟨flagSound_step s (.poll fpga mem) h.flag,
    (target_eq_wanted_step s (.poll fpga mem) h.flag h.target).2.mpr hann, ?_, ?_⟩
  · rw [hpoll, pending_append, alternates_append_one]
    refine ⟨h.alternates, fun _ => ?_⟩
    -- the event asks for another state than the one the others lead to
    rw [next_event]
    have hother := wanted_ne_of_toggles htoggles
    rw [← h.target] at hother
    exact hother.symm
  · intro hconn
    have hsdi := hconnected hconn
    left
    rw [hpoll, pending_append]
    refine List.mem_append_right _ ?_
    rw [FpgaParams.event, if_pos hsdi]
    exact List.mem_singleton_self _

/-- Handling an event sends the parameters held, or leaves the last message as it
    was; an event that changes the state sends them. -/
theorem lastSent_handle (s : Task) (event : Event) :
    lastSent (s.handle event).log = some (Task.message s.runCfg) ∨
      (s.currentState.next event = s.currentState ∧
        lastSent (s.handle event).log = lastSent s.log) := by
  by_cases hchanges : s.currentState.next event ≠ s.currentState
  · rw [Task.handle_of_changes s event hchanges]
    exact Or.inl rfl
  · have hstays := not_not.mp hchanges
    by_cases hack : event = .ack
    · rw [hack, Task.handle_ack]
      exact Or.inr ⟨rfl, rfl⟩
    by_cases htimeout : event = .timeout
    · rw [htimeout, Task.handle_timeout]
      split
      · exact Or.inl rfl
      · exact Or.inr ⟨rfl, rfl⟩
    · rw [Task.handle_of_stays s event hstays hack htimeout]
      exact Or.inr ⟨hstays, rfl⟩

/-- The thread handles the event it had fetched. -/
theorem told_handle (s : Task) (event : Event) (hevent : s.event = some event) (h : Told s) :
    Alternates (s.handle event).currentState s.mailbox ∧
      (Connected s.runCfg →
        .connect ∈ s.mailbox ∨ lastSent (s.handle event).log = some (Task.message s.runCfg)) := by
  have hpending := pending_of_event hevent
  have halt := h.alternates
  have htold := h.told
  rw [hpending] at halt htold
  rw [(s.handle_frame event).1]
  refine ⟨halt.2, fun hconn => ?_⟩
  rcases lastSent_handle s event with hsent | ⟨hstays, hsame⟩
  · exact Or.inr hsent
  · -- the event changes nothing, so it is not the connection
    rw [hsame]
    refine (htold hconn).imp_left fun hmem => ?_
    rcases List.mem_cons.mp hmem with heq | hmem
    · rw [← heq] at halt hstays
      exact absurd hstays (halt.1 rfl)
    · exact hmem

theorem told_step (s : Task) (e : Happening) (h : Told s) (hann : Announced s e) :
    Told (step s e) := by
  cases e with
  | ack mem => exact told_post s .ack mem rfl (fun _ => rfl) h
  | expire mem =>
      change Told (s.msgTimerCallback mem)
      unfold Task.msgTimerCallback
      by_cases hrunning : s.timer = .running
      · rw [if_pos hrunning]
        exact told_post { s with timer := .expired } .timeout mem rfl (fun _ => rfl)
          ⟨h.flag, h.target, h.alternates, h.told⟩
      · rw [if_neg hrunning]
        exact h
  | poll fpga mem =>
      by_cases htoggles : Toggles s fpga
      · exact told_poll_of_toggles s fpga mem htoggles (hann htoggles) h
      · rw [step, poll_of_not_toggles fpga mem s htoggles]
        split
        · exact ⟨h.flag, h.target, h.alternates, h.told⟩
        · exact h
  | thread =>
      refine ⟨flagSound_step s .thread h.flag,
        (target_eq_wanted_step s .thread h.flag h.target).2.mpr trivial, ?_, ?_⟩
      · unfold step Task.extMediaControlThread
        rcases hevent : s.event with _ | event
        · rcases hmail : s.mailbox with _ | ⟨event, rest⟩
          · exact h.alternates
          · exact pending_fetch hevent hmail ▸ h.alternates
        · have hpending : Task.pending { s.handle event with event := none } = s.mailbox := by
            rw [Task.pending, (s.handle_frame event).2.2.2.1]
            rfl
          rw [hpending]
          exact (told_handle s event hevent h).1
      · unfold step Task.extMediaControlThread
        rcases hevent : s.event with _ | event
        · rcases hmail : s.mailbox with _ | ⟨event, rest⟩
          · exact h.told
          · exact pending_fetch hevent hmail ▸ h.told
        · have hpending : Task.pending { s.handle event with event := none } = s.mailbox := by
            rw [Task.pending, (s.handle_frame event).2.2.2.1]
            rfl
          rw [hpending, (s.handle_frame event).2.1]
          exact (told_handle s event hevent h).2

/-- In a run whose changes of the connection are all announced, the parameters held
    while a source is connected are the reported ones and have been announced exactly
    if the reported ones never change while it is connected. -/
theorem keepsUp_iff (cfg : RuntimeCfg) (evs : List Happening)
    (hann : Meets step Announced (.start cfg) evs) :
    (∀ past, past <+: evs → KeepsUp (run step (.start cfg) past))
      ↔ Meets step Unchanged (.start cfg) evs := by
  rw [← current_iff]
  refine ⟨fun h past hpast => (h past hpast).1, fun h past hpast => ⟨h past hpast, ?_⟩⟩
  intro hidle hconn
  rcases hpast with ⟨rest, rfl⟩
  have htold := meets_invariant told_step _ (told_start cfg) past
    ((meets_append _ _ _).mp hann).1
  have hnone : (run step (.start cfg) past).pending = [] := by
    rw [Task.pending, hidle.1, hidle.2]
    rfl
  rcases htold.told hconn with hmem | hsent
  · rw [hnone] at hmem
    exact absurd hmem List.not_mem_nil
  · exact hsent

/-- A source is connected and its parameters are announced. -/
theorem keepsUp_iff_connect :
    KeepsUp (run step (.start transmitter) [.poll source1080p true, .thread, .thread]) :=
  (keepsUp_iff transmitter [.poll source1080p true, .thread, .thread] (by decide +kernel)).mpr
    (by decide +kernel) _ (List.prefix_refl _)

/-- The same source in another format. -/
def source720p : FpgaParams := ⟨1, 1, 1280, 720, 11, 0, 1, 2⟩

/-- The source changes its format without being disconnected: the old one is held,
    and nothing is sent. -/
theorem not_current_newFormat :
    ¬ Current (run step (.start transmitter)
      [.poll source1080p true, .thread, .thread, .poll source720p true, .thread]) := by
  decide +kernel

end Media

end RtosLwip
