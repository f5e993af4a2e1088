import RtosLwip.Base.Run
import RtosLwip.Cmd.Responses
import RtosLwip.Cmd.Setup

/-!
# The Media Task

`extMediaTask.c` and `extFsm.c`. A transmitter polls the FPGA for whether a video
source is connected and with which parameters. When that changes, the poll posts
an event to a mailbox; a thread takes the events out one after the other and runs
a small state machine, which tells a server about the change, again and again
until the server acknowledges or five messages are out.

Events come from three sides: the poll, the message timer and the UDP commands,
which post the acknowledgement. All three allocate from a shared pool and post
without waiting, so a post may fail in two ways.

The message timer fires once. It has then expired but is not stopped, and a timer
that is not stopped cannot be started.

What the task does is one step after the other: a poll, an expiry, a post, the
thread fetching an event, the thread handling it. The log is not part of the
source. It records which events were handled in which state, and what was sent,
with the newest entry first.

## Main definitions

* `StateTable`, `extFsmHandle`: State machines.
* `Task`: The state of the task.
* `mediaStateMachine`: Its tables.
* `extMediaPostEvent`, `extMediaPollDevice`, `extMediaControlThread`: What it does.
* `Happening`, `step`: One step.

## Theorems

* `handle_of_changes`, `handle_ack`, `handle_timeout`, `handle_of_stays`: What
  handling an event does.
* `handle_frame`: The state machine follows the events.
* `extMediaPostEvent_eq`: What posting an event does.
-/

namespace RtosLwip

namespace Media

open Cmd

/-- `EXT_RUNTIME_CFG`, as the commands know it. -/
abbrev RuntimeCfg := Cmd.RuntimeCfg

section Fsm

variable {κ ε σ : Type}

/-- `transition_t`. A handler is given the current state, and answers none for
    `EXT_STATE_CONTINUE`. -/
structure Transition (κ ε σ : Type) where
  event : ε
  handle : κ → σ → Option κ × σ

/-- `statemachine_t` -/
structure StateTable (κ ε σ : Type) where
  state : κ
  eventHandlers : List (Transition κ ε σ)

variable [DecidableEq κ] [DecidableEq ε]

/-- `extFsmHandle`, with the tables up to the one that ends them: the first handler
    for the event in a table of the current state decides, and without one nothing
    happens. -/
def extFsmHandle (currentState : κ) (currentEvent : ε) (s : σ) :
    List (StateTable κ ε σ) → κ × σ
  | [] => (currentState, s)
  | table :: rest =>
    if table.state = currentState then
      match table.eventHandlers.find? fun t => t.event = currentEvent with
      | some t =>
        let r := t.handle currentState s
        (r.1.getD currentState, r.2)
      | none => extFsmHandle currentState currentEvent s rest
    else
      extFsmHandle currentState currentEvent s rest

end Fsm

/-- `EXT_MEDIA_STATE_T` -/
inductive State where
  | disconnect
  | connect
  deriving DecidableEq

/-- `EXT_MEDIA_EVENT_T` -/
inductive Event where
  | connect
  | disconnect
  | ack
  | nack
  | timeout
  deriving DecidableEq

/-- `_mediaMsgTimer`. It may be started when it is stopped. -/
inductive TimerState where
  | stopped
  | running
  | expired
  deriving DecidableEq

/-- What the log records. -/
inductive Entry where
  | handled (state : State) (event : Event)
  | sent (message : Effect)
  deriving DecidableEq

/-- The media task, with `runCfg`. `event` is what the thread has fetched. -/
structure Task where
  runCfg : RuntimeCfg
  mediaParams : RunTimeParam
  currentState : State
  timeoutCount : UInt16
  timer : TimerState
  mailbox : List Event
  event : Option Event
  log : List Entry

namespace Task

/-- After `extMediaInit`, with a configuration just loaded: its runtime parameters
    are not kept in flash, and nothing is connected. -/
def start (cfg : RuntimeCfg) : Task where
  runCfg := { cfg with runtime := { cfg.runtime with isConnect := 0 } }
  mediaParams := RuntimeCfg.zero.runtime
  currentState := .disconnect
  timeoutCount := 0
  timer := .stopped
  mailbox := []
  event := none
  log := []

/-- `sys_timer_stop` -/
def sysTimerStop (s : Task) : Task := { s with timer := .stopped }

/-- `sys_timer_start`, which does nothing to a timer that was started. -/
def sysTimerStart (s : Task) : Task :=
  if s.timer = .stopped then { s with timer := .running } else s

/-- The message of `extIpCmdSendMediaData`. -/
def message (cfg : RuntimeCfg) : Effect :=
  .sendto (mediaFrame cfg true) cfg.ipSvr811 cfg.portSvr811

/-- `_sendMsgStartTimer` -/
def sendMsgStartTimer (s : Task) : Task :=
  sysTimerStart { s with log := .sent (message s.runCfg) :: s.log }

/-- `_fsmConnectEvent` -/
def fsmConnectEvent (currentState : State) (s : Task) : Option State × Task :=
  let s := { s.sysTimerStop with timeoutCount := 0 }
  (some .connect, if currentState = .disconnect then s.sendMsgStartTimer else s)

/-- `_fsmDisconnEvent` -/
def fsmDisconnEvent (currentState : State) (s : Task) : Option State × Task :=
  let s := { s.sysTimerStop with timeoutCount := 0 }
  (some .disconnect, if currentState = .connect then s.sendMsgStartTimer else s)

/-- `_fsmAckEvent` -/
def fsmAckEvent (_ : State) (s : Task) : Option State × Task :=
  (none, { s.sysTimerStop with timeoutCount := 0 })

/-- `_fsmTimeoutEvent` -/
def fsmTimeoutEvent (_ : State) (s : Task) : Option State × Task :=
  let s := { s.sysTimerStop with timeoutCount := s.timeoutCount + 1 }
  (none, if s.timeoutCount < 5 then s.sendMsgStartTimer else s)

/-- `_disconnState` -/
def disconnState : List (Transition State Event Task) :=
  [⟨.connect, fsmConnectEvent⟩, ⟨.ack, fsmAckEvent⟩, ⟨.timeout, fsmTimeoutEvent⟩]

/-- `_connectState` -/
def connectState : List (Transition State Event Task) :=
  [⟨.disconnect, fsmDisconnEvent⟩, ⟨.ack, fsmAckEvent⟩, ⟨.timeout, fsmTimeoutEvent⟩]

/-- `_mediaStateMachine` -/
def mediaStateMachine : List (StateTable State Event Task) :=
  [⟨.disconnect, disconnState⟩, ⟨.connect, connectState⟩]

/-- `extMediaPostEvent`: whether the event was posted. `mem` says whether the pool
    has anything left. -/
def extMediaPostEvent (event : Event) (mem : Bool) (s : Task) : Bool × Task :=
  if mem = false then
    (false, s)
  else if mboxSize ≤ s.mailbox.length then
    (false, s)
  else
    (true, { s with mailbox := s.mailbox ++ [event] })

/-- The state machine handles an event. -/
def handle (event : Event) (s : Task) : Task :=
  let s := { s with log := .handled s.currentState event :: s.log }
  let r := extFsmHandle s.currentState event s mediaStateMachine
  { r.2 with currentState := r.1 }

/-- The next step of `_extMediaControlThread`: it fetches an event, or handles the
    one it has fetched. -/
def extMediaControlThread (s : Task) : Task :=
  match s.event with
  | none =>
    match s.mailbox with
    | [] => s
    | event :: rest => { s with mailbox := rest, event := some event }
  | some event => { s.handle event with event := none }

/-- `_msgTimerCallback`, when the timer runs out. -/
def msgTimerCallback (mem : Bool) (s : Task) : Task :=
  if s.timer = .running then
    (extMediaPostEvent .timeout mem { s with timer := .expired }).2
  else
    s

end Task

/-- The registers of the FPGA that a poll reads. -/
structure FpgaParams where
  sdiStatus : UInt8
  paramStatus : UInt8
  width : UInt16
  height : UInt16
  frameRate : UInt8
  sampling : UInt8
  depth : UInt8
  intlcSegm : UInt8
  deriving DecidableEq

/-- `_frameRateTable` -/
def frameRateTable : List (UInt8 × UInt8) :=
  [(2, 23), (3, 24), (5, 25), (6, 29), (7, 30), (9, 50), (10, 59), (11, 60)]

/-- `_vDepthTable` -/
def vDepthTable : List (UInt8 × UInt8) := [(0, 8), (1, 10), (2, 12), (3, 16)]

/-- `_translateFrameRate` from the FPGA. A rate that is not listed becomes a depth. -/
def translateFrameRate (rate : UInt8) : UInt8 :=
  ((frameRateTable.find? fun e => e.1 = rate).map (·.2)).getD 8

/-- `_translateDepth` from the FPGA. A depth that is not listed becomes a rate. -/
def translateDepth (depth : UInt8) : UInt8 :=
  ((vDepthTable.find? fun e => e.1 = depth).map (·.2)).getD 23

/-- `extFpgaReadParams` -/
def extFpgaReadParams (fpga : FpgaParams) (p : RunTimeParam) : RunTimeParam :=
  { p with
    vWidth := fpga.width
    vHeight := fpga.height
    vFrameRate := translateFrameRate fpga.frameRate
    vColorSpace := fpga.sampling
    vDepth := translateDepth fpga.depth
    vIsSegmented := fpga.intlcSegm }

/-- `extFpgaTimerJob` -/
def extFpgaTimerJob (fpga : FpgaParams) (p : RunTimeParam) : RunTimeParam :=
  let p := { p with isConnect := if fpga.sdiStatus = 1 then 1 else 0 }
  if fpga.paramStatus ≠ 1 then p else extFpgaReadParams fpga p

/-- `_extMediaCompareParams`: whether the parameters are taken over, and the
    parameters held afterwards. -/
def extMediaCompareParams (dest newParam : RunTimeParam) : Bool × RunTimeParam :=
  if (dest.isConnect = 0 ∧ newParam.isConnect = 1) ∨
      (dest.vWidth ≠ newParam.vWidth ∨ dest.vHeight ≠ newParam.vHeight ∨
        dest.vFrameRate ≠ newParam.vFrameRate ∨ dest.vColorSpace ≠ newParam.vColorSpace ∨
        dest.vDepth ≠ newParam.vDepth ∨ dest.vIsSegmented ≠ newParam.vIsSegmented) then
    (true, newParam)
  else
    (false, dest)

namespace Task

/-- Set `runCfg.runtime`. -/
def setRuntime (p : RunTimeParam) (s : Task) : Task :=
  { s with runCfg := { s.runCfg with runtime := p } }

/-- `extMediaPollDevice`. Nobody looks at whether its event was posted. -/
def extMediaPollDevice (fpga : FpgaParams) (mem : Bool) (s : Task) : Task :=
  if s.runCfg.isTransmitter then
    let s := { s with mediaParams := extFpgaTimerJob fpga s.mediaParams }
    if s.mediaParams.isConnect = 0 ∧ s.runCfg.runtime.isConnect = 1 then
      (extMediaPostEvent .disconnect mem
        (s.setRuntime { s.runCfg.runtime with isConnect := 0 })).2
    else if s.mediaParams.isConnect = 1 ∧ s.runCfg.runtime.isConnect = 0 then
      let r := extMediaCompareParams s.runCfg.runtime s.mediaParams
      if r.1 then
        (extMediaPostEvent .connect mem (s.setRuntime { r.2 with isConnect := 1 })).2
      else
        s.setRuntime r.2
    else
      s
  else
    s

end Task

/-- What happens next: a poll of the FPGA, the message timer running out, an
    acknowledgement from the UDP commands, or a step of the thread. -/
inductive Happening where
  | poll (fpga : FpgaParams) (mem : Bool)
  | expire (mem : Bool)
  | ack (mem : Bool)
  | thread

/-- One step of the task. -/
def step (s : Task) : Happening → Task
  | .poll fpga mem => s.extMediaPollDevice fpga mem
  | .expire mem => s.msgTimerCallback mem
  | .ack mem => (s.extMediaPostEvent .ack mem).2
  | .thread => s.extMediaControlThread

/-- The events under way: the one the thread has fetched, and the mailbox. -/
def Task.pending (s : Task) : List Event := s.event.toList ++ s.mailbox

theorem pending_append (s : Task) (event : Event) :
    Task.pending { s with mailbox := s.mailbox ++ [event] } = s.pending ++ [event] :=
  (List.append_assoc _ _ _).symm

theorem pending_of_event {s : Task} {event : Event} (h : s.event = some event) :
    s.pending = event :: s.mailbox := by
  rw [Task.pending, h]
  rfl

/-- Fetching an event leaves it under way. -/
theorem pending_fetch {s : Task} {event : Event} {rest : List Event} (hevent : s.event = none)
    (hmail : s.mailbox = event :: rest) :
    s.pending = Task.pending { s with mailbox := rest, event := some event } := by
  rw [Task.pending, Task.pending, hevent, hmail]
  rfl

/-- The state an event leads to. -/
def State.next (state : State) : Event → State
  | .connect => .connect
  | .disconnect => .disconnect
  | _ => state

namespace Task

variable (s : Task) (event : Event)

/-- An event that changes the state is announced at once: the count starts again,
    and so does the timer. -/
theorem handle_of_changes (h : s.currentState.next event ≠ s.currentState) :
    s.handle event = { s with
      currentState := s.currentState.next event
      timeoutCount := 0
      timer := .running
      log := .sent (message s.runCfg) :: .handled s.currentState event :: s.log } := by
  rcases s with ⟨runCfg, mediaParams, _ | _, timeoutCount, timer, mailbox, fetched, log⟩ <;>
    rcases event <;> first | rfl | exact absurd rfl h

theorem handle_ack : s.handle .ack = { s with
    timeoutCount := 0
    timer := .stopped
    log := .handled s.currentState .ack :: s.log } := by
  rcases s with ⟨runCfg, mediaParams, _ | _, timeoutCount, timer, mailbox, fetched, log⟩ <;> rfl

/-- An expiry repeats the message and starts the timer again, unless it is the
    fifth. -/
theorem handle_timeout : s.handle .timeout =
    if s.timeoutCount + 1 < 5 then
      { s with
        timeoutCount := s.timeoutCount + 1
        timer := .running
        log := .sent (message s.runCfg) :: .handled s.currentState .timeout :: s.log }
    else
      { s with
        timeoutCount := s.timeoutCount + 1
        timer := .stopped
        log := .handled s.currentState .timeout :: s.log } := by
  by_cases hmore : s.timeoutCount + 1 < 5
  · rw [if_pos hmore]
    rcases s with ⟨runCfg, mediaParams, _ | _, timeoutCount, timer, mailbox, fetched, log⟩ <;>
    · unfold handle
      simp only [extFsmHandle, mediaStateMachine, disconnState, connectState, fsmTimeoutEvent,
        sysTimerStop, List.find?_cons, reduceCtorEq, decide_false, decide_true, if_true, if_false,
        hmore]
      rfl
  · rw [if_neg hmore]
    rcases s with ⟨runCfg, mediaParams, _ | _, timeoutCount, timer, mailbox, fetched, log⟩ <;>
    · unfold handle
      simp only [extFsmHandle, mediaStateMachine, disconnState, connectState, fsmTimeoutEvent,
        sysTimerStop, List.find?_cons, reduceCtorEq, decide_false, decide_true, if_true, if_false,
        hmore]
      rfl

/-- The tables leave out the events that change nothing, and the refusal. -/
theorem handle_of_stays (h : s.currentState.next event = s.currentState) (hack : event ≠ .ack)
    (htimeout : event ≠ .timeout) :
    s.handle event = { s with log := .handled s.currentState event :: s.log } := by
  rcases s with ⟨runCfg, mediaParams, _ | _, timeoutCount, timer, mailbox, fetched, log⟩ <;>
    rcases event <;>
    first | rfl | exact State.noConfusion h | exact absurd rfl hack | exact absurd rfl htimeout

/-- The four things that handling an event can be. -/
theorem handle_cases (P : Task → Event → Prop)
    (changes : ∀ e, s.currentState.next e ≠ s.currentState → P s e)
    (ack : P s .ack) (timeout : P s .timeout)
    (stays : ∀ e, s.currentState.next e = s.currentState → e ≠ .ack → e ≠ .timeout → P s e) :
    P s event := by
  by_cases hack : event = .ack
  · rw [hack]
    exact ack
  by_cases htimeout : event = .timeout
  · rw [htimeout]
    exact timeout
  by_cases hstays : s.currentState.next event = s.currentState
  · exact stays event hstays hack htimeout
  · exact changes event hstays

/-- The state machine follows the events, and leaves the rest of the task alone. -/
theorem handle_frame : (s.handle event).currentState = s.currentState.next event ∧
    (s.handle event).runCfg = s.runCfg ∧ (s.handle event).mediaParams = s.mediaParams ∧
    (s.handle event).mailbox = s.mailbox ∧ (s.handle event).event = s.event := by
  refine handle_cases s event (fun s e => (s.handle e).currentState = s.currentState.next e ∧
    (s.handle e).runCfg = s.runCfg ∧ (s.handle e).mediaParams = s.mediaParams ∧
    (s.handle e).mailbox = s.mailbox ∧ (s.handle e).event = s.event) ?_ ?_ ?_ ?_
  · intro e hchanges
    rw [handle_of_changes s e hchanges]
    exact ⟨rfl, rfl, rfl, rfl, rfl⟩
  · rw [handle_ack]
    exact ⟨rfl, rfl, rfl, rfl, rfl⟩
  · rw [handle_timeout]
    split <;> exact ⟨rfl, rfl, rfl, rfl, rfl⟩
  · intro e hstays hack htimeout
    rw [handle_of_stays s e hstays hack htimeout]
    exact ⟨hstays.symm, rfl, rfl, rfl, rfl⟩

/-- An event that is posted goes to the end of the mailbox; one that is not changes
    nothing. -/
theorem extMediaPostEvent_eq (mem : Bool) : (extMediaPostEvent event mem s).2 =
    if mem = true ∧ s.mailbox.length < mboxSize then
      { s with mailbox := s.mailbox ++ [event] }
    else s := by
  unfold extMediaPostEvent
  by_cases hmem : mem = false
  · rw [if_pos hmem, if_neg (fun h => absurd (hmem.symm.trans h.1) (by decide))]
  · by_cases hfull : mboxSize ≤ s.mailbox.length
    · rw [if_neg hmem, if_pos hfull, if_neg (fun h => absurd h.2 (Nat.not_lt_of_le hfull))]
    · rw [if_neg hmem, if_neg hfull, if_pos ⟨Bool.eq_true_of_not_eq_false hmem,
        Nat.lt_of_not_le hfull⟩]

end Task

end Media

end RtosLwip
