import RtosLwip.Base.History
import RtosLwip.Media.Agreement

/-!
# Messages until They Are Acknowledged

A change of state is announced once at once and then repeated by the timer, up to
five messages, until it is acknowledged. The acknowledgement stops the timer. It
does not take back an expiry that is already in the mailbox, and it sets the count
of messages back to zero, so an expiry that is handled after it sends a message,
and starts the timer for more.

Whether that happens shows when the acknowledgement is handled. The timer is
stopped then, so no further expiry comes in before the next change of state, and
the expiries to look out for are those in the mailbox ahead of it. With none of
those, the task is in one of two phases, and stays silent in one of them.

## Main definitions

* `sentSince`, `ackedSince`: The log since the last change of state.
* `Restrained`: What a log should look like.
* `Task.ahead`: The events under way up to the next change of state.
* `NoStaleExpiry`: No expiry is ahead when an acknowledgement is handled.
* `Silent`, `Repeating`: The two phases.

## Theorems

* `phased_posts`, `phased_expire`, `phased_handle`: What a post, the timer and the
  thread preserve.
* `restrained_of_noStaleExpiry`: The log of every such run is as it should be.
-/

namespace RtosLwip

namespace Media

open Cmd

/-- A message. -/
def Entry.isSent : Entry → Bool
  | .sent _ => true
  | _ => false

/-- An acknowledgement that was handled. -/
def Entry.acks : Entry → Bool
  | .handled _ .ack => true
  | _ => false

/-- An event that changed the state. -/
def Entry.changes : Entry → Bool
  | .handled state event => state.next event ≠ state
  | _ => false

/-- The log since the last change of state. -/
def since (log : List Entry) : List Entry := log.takeWhile fun e => !e.changes

/-- The number of messages since the last change of state. -/
def sentSince (log : List Entry) : Nat := (since log).countP Entry.isSent

/-- Something was acknowledged since the last change of state. -/
def ackedSince (log : List Entry) : Bool := (since log).any Entry.acks

/-- One to five messages since the last change of state, when there was one. -/
def OneToFive (log : List Entry) : Prop :=
  log.any Entry.changes = true → 1 ≤ sentSince log ∧ sentSince log ≤ 5

instance (log : List Entry) : Decidable (OneToFive log) := inferInstanceAs (Decidable (_ → _))

/-- No message is sent after an acknowledgement until the state changes, and every
    change of state causes one to five messages until the next one. -/
structure Restrained (log : List Entry) : Prop where
  silent : EachPast (fun e past => e.isSent = true → ackedSince past = false) log
  counted : EachPast (fun e past => e.changes = true → OneToFive past) log
  now : OneToFive log

instance (log : List Entry) : Decidable (Restrained log) :=
  have (e : Entry) (past : List Entry) : Decidable (e.isSent = true → ackedSince past = false) :=
    inferInstance
  have (e : Entry) (past : List Entry) : Decidable (e.changes = true → OneToFive past) :=
    inferInstance
  decidable_of_iff
    (EachPast (fun e past => e.isSent = true → ackedSince past = false) log ∧
      EachPast (fun e past => e.changes = true → OneToFive past) log ∧ OneToFive log)
    ⟨fun h => ⟨h.1, h.2.1, h.2.2⟩, fun h => ⟨h.silent, h.counted, h.now⟩⟩

section Log

variable {e : Entry} {log : List Entry}

theorem since_of_changes (h : e.changes = true) : since (e :: log) = [] := by
  rw [since, List.takeWhile_cons_of_neg]
  rw [h]
  decide

theorem since_of_not_changes (h : e.changes = false) : since (e :: log) = e :: since log := by
  rw [since, List.takeWhile_cons_of_pos]
  · rfl
  · rw [h]
    rfl

theorem sentSince_of_changes (h : e.changes = true) : sentSince (e :: log) = 0 := by
  rw [sentSince, since_of_changes h, List.countP_nil]

theorem ackedSince_of_changes (h : e.changes = true) : ackedSince (e :: log) = false := by
  rw [ackedSince, since_of_changes h, List.any_nil]

theorem changes_handled {state : State} {event : Event} (h : state.next event ≠ state) :
    (Entry.handled state event).changes = true := decide_eq_true h

theorem sentSince_sent (m : Effect) : sentSince (.sent m :: log) = sentSince log + 1 := by
  rw [sentSince, since_of_not_changes rfl, List.countP_cons_of_pos rfl]
  rfl

theorem ackedSince_sent (m : Effect) : ackedSince (.sent m :: log) = ackedSince log := by
  rw [ackedSince, since_of_not_changes rfl, List.any_cons]
  rfl

/-- Handling an event that changes nothing is no message and no change. -/
theorem sentSince_handled {state : State} {event : Event} (h : state.next event = state) :
    sentSince (.handled state event :: log) = sentSince log := by
  have hnot : (Entry.handled state event).changes = false := decide_eq_false (not_not.mpr h)
  rw [sentSince, since_of_not_changes hnot, List.countP_cons_of_neg Bool.false_ne_true]
  rfl

theorem ackedSince_handled {state : State} {event : Event} (h : state.next event = state)
    (hack : event ≠ .ack) : ackedSince (.handled state event :: log) = ackedSince log := by
  have hnot : (Entry.handled state event).changes = false := decide_eq_false (not_not.mpr h)
  have hacks : (Entry.handled state event).acks = false := by
    cases event with
    | ack => exact absurd rfl hack
    | _ => rfl
  rw [ackedSince, since_of_not_changes hnot, List.any_cons, hacks, Bool.false_or]
  rfl

/-- An event that changes nothing may be handled at any time. -/
theorem Restrained.handled {state : State} {event : Event} (h : Restrained log)
    (hstays : state.next event = state) : Restrained (.handled state event :: log) where
  silent := ⟨fun hsent => absurd hsent Bool.false_ne_true, h.silent⟩
  counted := ⟨fun hchanges => absurd hstays (of_decide_eq_true hchanges), h.counted⟩
  now := by
    have hnot : (Entry.handled state event).changes = false := decide_eq_false (not_not.mpr hstays)
    intro hany
    rw [List.any_cons, hnot, Bool.false_or] at hany
    rw [sentSince_handled hstays]
    exact h.now hany

/-- A change of state, with its first message. -/
theorem Restrained.changed {state : State} {event : Event} (h : Restrained log)
    (hchanges : state.next event ≠ state) (m : Effect) :
    Restrained (.sent m :: .handled state event :: log) where
  silent := ⟨fun _ => ackedSince_of_changes (changes_handled hchanges),
    fun hsent => absurd hsent Bool.false_ne_true, h.silent⟩
  counted := ⟨fun hsent => absurd hsent Bool.false_ne_true, fun _ => h.now, h.counted⟩
  now := by
    intro _
    rw [sentSince_sent, sentSince_of_changes (changes_handled hchanges)]
    decide

/-- A message more, when nothing was acknowledged and there were fewer than five. -/
theorem Restrained.repeated (h : Restrained log) (m : Effect) (hacked : ackedSince log = false)
    (hfew : sentSince log < 5) : Restrained (.sent m :: log) where
  silent := ⟨fun _ => hacked, h.silent⟩
  counted := ⟨fun hsent => absurd hsent Bool.false_ne_true, h.counted⟩
  now := by
    intro _
    rw [sentSince_sent]
    exact ⟨by omega, by omega⟩

end Log

/-- The event leaves the state as it is. -/
def State.stays (state : State) (event : Event) : Bool := state.next event = state

/-- The events under way up to the next one that changes the state. -/
def Task.ahead (s : Task) : List Event := s.pending.takeWhile s.currentState.stays

/-- When an acknowledgement is handled, no expiry is ahead of it in the mailbox. -/
def NoStaleExpiry (s : Task) : Happening → Prop
  | .thread => s.event = some .ack → .timeout ∉ s.mailbox.takeWhile s.currentState.stays
  | _ => True

instance (s : Task) : ∀ e, Decidable (NoStaleExpiry s e)
  | .thread => inferInstanceAs (Decidable (_ → _))
  | .poll _ _ => .isTrue trivial
  | .expire _ => .isTrue trivial
  | .ack _ => .isTrue trivial

/-- No timer runs and no expiry is ahead, so nothing will be sent until the state
    changes. -/
def Silent (s : Task) : Prop := s.timer = .stopped ∧ .timeout ∉ s.ahead

/-- The message is being repeated: the count is one less than the messages, as long
    as there are fewer than five. After that the timer is stopped, and the expiries
    that are left do not make the count overflow. -/
structure Repeating (s : Task) : Prop where
  acked : ackedSince s.log = false
  sent : sentSince s.log = min (s.timeoutCount.toNat + 1) 5
  count : s.timeoutCount.toNat ≤ 4 ∨
    (s.timer = .stopped ∧ s.timeoutCount.toNat + s.pending.count .timeout ≤ 14)

/-- The log is as it should be, and the task is in one of its phases. -/
structure Phased (s : Task) : Prop where
  restrained : Restrained s.log
  room : s.mailbox.length ≤ mboxSize
  phase : Silent s ∨ Repeating s

theorem phased_start (cfg : RuntimeCfg) : Phased (.start cfg) where
  restrained := ⟨trivial, trivial, fun h => absurd h Bool.false_ne_true⟩
  room := Nat.zero_le _
  phase := Or.inl ⟨rfl, List.not_mem_nil⟩

/-- The task after somebody has posted an event, or tried to, other than an expiry. -/
structure Posts (s t : Task) : Prop where
  currentState : t.currentState = s.currentState
  timeoutCount : t.timeoutCount = s.timeoutCount
  timer : t.timer = s.timer
  event : t.event = s.event
  log : t.log = s.log
  mailbox : t.mailbox = s.mailbox ∨
    ∃ e, e ≠ .timeout ∧ s.mailbox.length < mboxSize ∧ t.mailbox = s.mailbox ++ [e]

theorem posts_post (s : Task) (event : Event) (mem : Bool) (h : event ≠ .timeout) :
    Posts s (Task.extMediaPostEvent event mem s).2 := by
  rw [Task.extMediaPostEvent_eq]
  by_cases hpost : mem = true ∧ s.mailbox.length < mboxSize
  · rw [if_pos hpost]
    exact ⟨rfl, rfl, rfl, rfl, rfl, Or.inr ⟨event, h, hpost.2, rfl⟩⟩
  · rw [if_neg hpost]
    exact ⟨rfl, rfl, rfl, rfl, rfl, Or.inl rfl⟩

theorem Posts.of_same {s t u : Task} (h : Posts t u) (hstate : t.currentState = s.currentState)
    (hcount : t.timeoutCount = s.timeoutCount) (htimer : t.timer = s.timer)
    (hevent : t.event = s.event) (hlog : t.log = s.log) (hmail : t.mailbox = s.mailbox) :
    Posts s u where
  currentState := h.currentState.trans hstate
  timeoutCount := h.timeoutCount.trans hcount
  timer := h.timer.trans htimer
  event := h.event.trans hevent
  log := h.log.trans hlog
  mailbox := by
    rw [← hmail]
    exact h.mailbox

/-- A poll only posts. -/
theorem posts_poll (s : Task) (fpga : FpgaParams) (mem : Bool) :
    Posts s (s.extMediaPollDevice fpga mem) := by
  unfold Task.extMediaPollDevice
  dsimp only
  split
  · split
    · exact (posts_post _ .disconnect mem nofun).of_same rfl rfl rfl rfl rfl rfl
    · split
      · split
        · exact (posts_post _ .connect mem nofun).of_same rfl rfl rfl rfl rfl rfl
        · exact ⟨rfl, rfl, rfl, rfl, rfl, Or.inl rfl⟩
      · exact ⟨rfl, rfl, rfl, rfl, rfl, Or.inl rfl⟩
  · exact ⟨rfl, rfl, rfl, rfl, rfl, Or.inl rfl⟩

theorem mem_takeWhile_append_one {p : Event → Bool} {l : List Event} {e x : Event}
    (h : x ∈ (l ++ [e]).takeWhile p) : x ∈ l.takeWhile p ∨ x = e := by
  induction l with
  | nil =>
      have hmem := (List.takeWhile_sublist p).subset h
      exact Or.inr (List.mem_singleton.mp hmem)
  | cons y rest ih =>
      rw [List.cons_append, List.takeWhile_cons] at h
      rw [List.takeWhile_cons]
      by_cases hp : p y = true
      · rw [if_pos hp] at h ⊢
        rcases List.mem_cons.mp h with rfl | h
        · exact Or.inl (List.mem_cons_self ..)
        · rcases ih h with h | h
          · exact Or.inl (List.mem_cons_of_mem _ h)
          · exact Or.inr h
      · rw [if_neg hp] at h
        exact absurd h List.not_mem_nil

/-- Posting anything but an expiry keeps the phase. -/
theorem phased_posts {s t : Task} (hpost : Posts s t) (h : Phased s) : Phased t := by
  have hpending : t.pending = s.pending ∨ ∃ e, e ≠ .timeout ∧ t.pending = s.pending ++ [e] := by
    unfold Task.pending
    rw [hpost.event]
    rcases hpost.mailbox with hmail | ⟨e, he, -, hmail⟩
    · exact Or.inl (by rw [hmail])
    · exact Or.inr ⟨e, he, by rw [hmail, List.append_assoc]⟩
  refine ⟨?_, ?_, ?_⟩
  · rw [hpost.log]
    exact h.restrained
  · rcases hpost.mailbox with hmail | ⟨e, -, hroom, hmail⟩
    · rw [hmail]
      exact h.room
    · rw [hmail, List.length_append, List.length_singleton]
      exact hroom
  · rcases h.phase with ⟨htimer, hahead⟩ | hrep
    · refine Or.inl ⟨hpost.timer.trans htimer, fun hmem => hahead ?_⟩
      unfold Task.ahead at hmem ⊢
      rw [hpost.currentState] at hmem
      rcases hpending with heq | ⟨e, he, heq⟩
      · rwa [heq] at hmem
      · rw [heq] at hmem
        rcases mem_takeWhile_append_one hmem with hmem | hmem
        · exact hmem
        · exact absurd hmem.symm he
    · refine Or.inr ⟨?_, ?_, ?_⟩
      · rw [hpost.log]
        exact hrep.acked
      · rw [hpost.log, hpost.timeoutCount]
        exact hrep.sent
      · rw [hpost.timeoutCount, hpost.timer]
        rcases hrep.count with hfew | ⟨hstopped, hcount⟩
        · exact Or.inl hfew
        · refine Or.inr ⟨hstopped, ?_⟩
          rcases hpending with heq | ⟨e, he, heq⟩
          · rw [heq]
            exact hcount
          · rw [heq, List.count_append, List.count_singleton, if_neg (by simpa using he)]
            exact hcount

/-- The timer runs out only while the message is being repeated. -/
theorem phased_expire (s : Task) (mem : Bool) (h : Phased s) : Phased (s.msgTimerCallback mem) := by
  unfold Task.msgTimerCallback
  by_cases hrun : s.timer = .running
  · rw [if_pos hrun]
    have hrep : Repeating s := by
      rcases h.phase with ⟨hstopped, -⟩ | hrep
      · exact absurd (hrun.symm.trans hstopped) nofun
      · exact hrep
    have hfew : s.timeoutCount.toNat ≤ 4 := by
      rcases hrep.count with hfew | ⟨hstopped, -⟩
      · exact hfew
      · exact absurd (hrun.symm.trans hstopped) nofun
    rw [Task.extMediaPostEvent_eq]
    split
    · rename_i hpost
      refine ⟨h.restrained, ?_, Or.inr ⟨hrep.acked, hrep.sent, Or.inl hfew⟩⟩
      rw [List.length_append, List.length_singleton]
      exact hpost.2
    · exact ⟨h.restrained, h.room, Or.inr ⟨hrep.acked, hrep.sent, Or.inl hfew⟩⟩
  · rw [if_neg hrun]
    exact h

theorem ahead_of_stays {s : Task} {event : Event} {rest : List Event}
    (hpending : s.pending = event :: rest) (h : s.currentState.next event = s.currentState) :
    s.ahead = event :: rest.takeWhile s.currentState.stays := by
  rw [Task.ahead, hpending, List.takeWhile_cons]
  exact if_pos (decide_eq_true h)

section Handle

variable {s : Task} {event : Event}

/-- A change of state starts the messages. -/
theorem phased_changes (hchanges : s.currentState.next event ≠ s.currentState) (h : Phased s) :
    Phased { s.handle event with event := none } := by
  rw [Task.handle_of_changes s event hchanges]
  refine ⟨h.restrained.changed hchanges _, h.room, Or.inr ⟨?_, ?_, Or.inl (Nat.zero_le 4)⟩⟩
  · rw [ackedSince_sent]
    exact ackedSince_of_changes (changes_handled hchanges)
  · rw [sentSince_sent, sentSince_of_changes (changes_handled hchanges)]
    rfl

/-- An acknowledgement ends them, unless an expiry is ahead. -/
theorem phased_ack (hstale : .timeout ∉ s.mailbox.takeWhile s.currentState.stays)
    (h : Phased s) : Phased { s.handle .ack with event := none } := by
  rw [Task.handle_ack]
  exact ⟨h.restrained.handled rfl, h.room, Or.inl ⟨rfl, hstale⟩⟩

/-- An expiry sends the next one, until there are five. -/
theorem phased_timeout (hevent : s.event = some .timeout) (h : Phased s) :
    Phased { s.handle .timeout with event := none } := by
  have hpending : s.pending = .timeout :: s.mailbox := pending_of_event hevent
  have hstays : s.currentState.next .timeout = s.currentState := rfl
  have hother : Event.timeout ≠ .ack := nofun
  have hrep : Repeating s := by
    rcases h.phase with ⟨-, hahead⟩ | hrep
    · rw [ahead_of_stays hpending hstays] at hahead
      exact absurd (List.mem_cons_self ..) hahead
    · exact hrep
  have hlog := h.restrained.handled hstays
  have hsent := hrep.sent
  -- at most eight expiries are left in the mailbox, so the count does not overflow
  have hleft : s.mailbox.count .timeout ≤ 8 := Nat.le_trans List.count_le_length h.room
  have hall : s.pending.count .timeout = s.mailbox.count .timeout + 1 := by
    rw [hpending, List.count_cons_self]
  have hnext : (s.timeoutCount + 1).toNat = s.timeoutCount.toNat + 1 := by
    rw [UInt16.toNat_add]
    simp only [UInt16.reduceToNat]
    rcases hrep.count with hfew | ⟨-, hcount⟩ <;> omega
  have hmore : s.timeoutCount + 1 < 5 ↔ s.timeoutCount.toNat + 1 < 5 := by
    rw [UInt16.lt_iff_toNat_lt, hnext]
    rfl
  rw [Task.handle_timeout]
  by_cases hless : s.timeoutCount.toNat + 1 < 5
  · rw [if_pos (hmore.mpr hless)]
    refine ⟨hlog.repeated _ ?_ ?_, h.room, Or.inr ⟨?_, ?_, Or.inl ?_⟩⟩
    · rw [ackedSince_handled hstays hother]
      exact hrep.acked
    · rw [sentSince_handled hstays]
      omega
    · rw [ackedSince_sent, ackedSince_handled hstays hother]
      exact hrep.acked
    · rw [sentSince_sent, sentSince_handled hstays, hnext]
      omega
    · rw [hnext]
      omega
  · -- the fifth expiry: the timer is not started again
    rw [if_neg fun h => hless (hmore.mp h)]
    refine ⟨hlog, h.room, Or.inr ⟨?_, ?_, Or.inr ⟨rfl, ?_⟩⟩⟩
    · rw [ackedSince_handled hstays hother]
      exact hrep.acked
    · rw [sentSince_handled hstays, hnext]
      omega
    · change (s.timeoutCount + 1).toNat + s.mailbox.count .timeout ≤ 14
      rw [hnext]
      rcases hrep.count with hfew | ⟨-, hcount⟩ <;> omega

/-- An event the tables leave out changes no phase. -/
theorem phased_stays (hevent : s.event = some event)
    (hstays : s.currentState.next event = s.currentState) (hack : event ≠ .ack)
    (htimeout : event ≠ .timeout) (h : Phased s) :
    Phased { s.handle event with event := none } := by
  have hpending := pending_of_event hevent
  rw [Task.handle_of_stays s event hstays hack htimeout]
  refine ⟨h.restrained.handled hstays, h.room, ?_⟩
  rcases h.phase with ⟨htimer, hahead⟩ | hrep
  · rw [ahead_of_stays hpending hstays] at hahead
    exact Or.inl ⟨htimer, fun hmem => hahead (List.mem_cons_of_mem _ hmem)⟩
  · refine Or.inr ⟨?_, ?_, ?_⟩
    · rw [ackedSince_handled hstays hack]
      exact hrep.acked
    · rw [sentSince_handled hstays]
      exact hrep.sent
    · rcases hrep.count with hfew | ⟨hstopped, hcount⟩
      · exact Or.inl hfew
      · rw [hpending, List.count_cons_of_ne htimeout] at hcount
        exact Or.inr ⟨hstopped, hcount⟩

/-- The task once the thread has handled the event it had fetched. -/
theorem phased_handle (hevent : s.event = some event)
    (hstale : event = .ack → .timeout ∉ s.mailbox.takeWhile s.currentState.stays)
    (h : Phased s) : Phased { s.handle event with event := none } := by
  by_cases hack : event = .ack
  · have hahead := hstale hack
    rw [hack]
    exact phased_ack hahead h
  by_cases htimeout : event = .timeout
  · rw [htimeout] at hevent ⊢
    exact phased_timeout hevent h
  by_cases hstays : s.currentState.next event = s.currentState
  · exact phased_stays hevent hstays hack htimeout h
  · exact phased_changes hstays h

end Handle

theorem phased_step (s : Task) (e : Happening) (h : Phased s) (hstale : NoStaleExpiry s e) :
    Phased (step s e) := by
  cases e with
  | poll fpga mem => exact phased_posts (posts_poll s fpga mem) h
  | expire mem => exact phased_expire s mem h
  | ack mem => exact phased_posts (posts_post s .ack mem nofun) h
  | thread =>
      unfold step Task.extMediaControlThread
      rcases hevent : s.event with _ | event
      · rcases hmail : s.mailbox with _ | ⟨event, rest⟩
        · exact h
        · have hsame := (pending_fetch hevent hmail).symm
          refine ⟨h.restrained, ?_, ?_⟩
          · have hroom := h.room
            rw [hmail, List.length_cons] at hroom
            exact Nat.le_of_succ_le hroom
          · rcases h.phase with ⟨htimer, hahead⟩ | hrep
            · refine Or.inl ⟨htimer, ?_⟩
              rw [Task.ahead, hsame]
              exact hahead
            · refine Or.inr ⟨hrep.acked, hrep.sent, ?_⟩
              rw [hsame]
              exact hrep.count
      · refine phased_handle hevent (fun hack => hstale ?_) h
        rw [hevent, hack]

/-- In every run in which no expiry is ahead of an acknowledgement, no message is
    sent between it and the next change of state, and every change of state causes
    one to five messages. -/
theorem restrained_of_noStaleExpiry (cfg : RuntimeCfg) (evs : List Happening)
    (hstale : Meets step NoStaleExpiry (.start cfg) evs) :
    ∀ past, past <+: evs → Restrained (run step (.start cfg) past).log := by
  rintro past ⟨rest, rfl⟩
  have hpast := ((meets_append _ _ _).mp hstale).1
  exact (meets_invariant phased_step _ (phased_start cfg) past hpast).restrained

/-- A source is connected, and the message is acknowledged before the timer runs
    out. -/
theorem restrained_of_noStaleExpiry_acked :
    Restrained (run step (.start transmitter)
      [.poll source1080p true, .thread, .thread, .ack true, .thread, .thread]).log :=
  restrained_of_noStaleExpiry transmitter
    [.poll source1080p true, .thread, .thread, .ack true, .thread, .thread] (by decide +kernel) _
    (List.prefix_refl _)

/-- The timer runs out while the acknowledgement is still in the mailbox: the message
    is sent again. -/
theorem not_restrained_expiryBehindAck :
    ¬ Restrained (run step (.start transmitter)
      [.poll source1080p true, .thread, .thread, .ack true, .expire true,
        .thread, .thread, .thread, .thread]).log := by
  decide +kernel

end Media

end RtosLwip
