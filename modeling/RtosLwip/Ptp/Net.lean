import RtosLwip.Ptp.Msg

/-!
# Network, Timers and the Environment of a Step

`ptpNet.c` and `ptpTimer.c`: the packet queues the network callbacks fill, the
sending of messages, and the one-shot timers.

What the daemon does not decide is collected in a `StepEnv`, one for each step
of the state machine: whether the network can be initialised, which packets
arrive and which timers run out while the step is under way, what the clock
reads, what becomes of a message handed to the network, and what an
uninitialised variable holds. A step asks each of these questions at most once
for a message type, so the message type is the index.

A system timer is created when it is started and deleted when it is stopped. It
stays there when it has run out, and `sys_timer_start` refuses to start a timer
that is there; in this the two ports of the source agree. As in the port for
Unix, the callback of a timer gets the index the timer was set up with.

`netSend` returns the length whether or not the packet went out, so its callers
never see a failure; the time of the caller's variable is then whatever was
there before.

## Main definitions

* `StepEnv`: What the environment does during one step.
* `netQPut`, `netQGet`, `netQEmpty`, `netQCheck`: The packet queue.
* `netRecv`, `netSend`, `ptpNetInit`: Receiving, sending, initialising.
* `sysTimerStart`, `sysTimerStop`: The system timers.
* `timerStart`, `timerStop`, `timerExpired`, `timerCallback`: The timers.
-/

namespace RtosLwip

namespace Ptp

/-- What the environment does during one step of the state machine. -/
structure StepEnv where
  /-- Whether `ptpNetInit` succeeds. -/
  netInitOk : Bool
  /-- The hardware address of the interface. -/
  hwaddr : PortUuid
  /-- The packets that arrive before the step looks into the queues. -/
  arrivals : List (Channel × Packet)
  /-- The timers that run out before the step looks at them. -/
  fires : Timer → Bool
  /-- The timers that run out before the step starts them. -/
  firesLate : Timer → Bool
  /-- The time when a message of the type is issued. -/
  time : MsgType → TimeInternal
  /-- The time when `updateClock` resets the clock. -/
  clockTime : TimeInternal
  /-- The time of egress of a message of the type, or none when the packet
      could not be allocated or sent. -/
  transmit : MsgType → Option TimeInternal
  /-- What `rand` returns when the timer is started. -/
  rand : Timer → Nat
  /-- What an uninitialised time holds. -/
  localTime : TimeInternal
  /-- What an uninitialised timestamp holds. -/
  localStamp : MsgType → Timestamp

/-- `PTP_PBUF_QUEUE_SIZE`. -/
def ptpPbufQueueSize : Nat := 4

/-- `_netQInit`. -/
def netQInit (queue : BufQueue) : BufQueue :=
  { queue with head := 0, tail := 0 }

/-- `_netQPut`: whether there was room, and the queue. -/
def netQPut (queue : BufQueue) (pbuf : Packet) : Bool × BufQueue :=
  if (queue.head + 1) % ptpPbufQueueSize ≠ queue.tail then
    let head := (queue.head + 1) % ptpPbufQueueSize
    (true, { queue with head := head, pbuf := queue.pbuf.set head pbuf })
  else
    (false, queue)

/-- `_netQGet`. -/
def netQGet (queue : BufQueue) : Option Packet × BufQueue :=
  if queue.tail ≠ queue.head then
    let tail := (queue.tail + 1) % ptpPbufQueueSize
    (some (queue.pbuf.getD tail default), { queue with tail := tail })
  else
    (none, queue)

/-- The loop of `_netQEmpty`. -/
def netQEmptyLoop : Nat → BufQueue → BufQueue
  | 0, queue => queue
  | fuel + 1, queue =>
    if queue.tail ≠ queue.head then
      netQEmptyLoop fuel { queue with tail := (queue.tail + 1) % ptpPbufQueueSize }
    else
      queue

/-- `_netQEmpty`. The queue never holds more packets than it has places. -/
def netQEmpty (queue : BufQueue) : BufQueue :=
  netQEmptyLoop ptpPbufQueueSize queue

/-- `_netQCheck`. -/
def netQCheck (queue : BufQueue) : Bool := queue.tail ≠ queue.head

/-- `_netRecv`: the next packet, or none where the source returns the length 0.
    A packet that is too long or empty is dropped. -/
def netRecv (queue : BufQueue) : Option Packet × BufQueue :=
  match netQGet queue with
  | (none, queue) => (none, queue)
  | (some p, queue) =>
    if ptpPacketSize < p.payload.length then
      (none, queue)
    else if p.payload.length = 0 then
      (none, queue)
    else
      (some p, queue)

/-- `ptpNetSelect`. -/
def ptpNetSelect (s : Port) : Bool :=
  netQCheck s.clock.netPath.eventQ || netQCheck s.clock.netPath.generalQ

/-- `ptpNetEmptyEventQ`. -/
def ptpNetEmptyEventQ (s : Port) : Port :=
  { s with clock.netPath.eventQ := netQEmpty s.clock.netPath.eventQ }

/-- `ptpNetRecvEvent`. -/
def ptpNetRecvEvent (s : Port) : Option Packet × Port :=
  let r := netRecv s.clock.netPath.eventQ
  (r.1, { s with clock.netPath.eventQ := r.2 })

/-- `ptpNetRecvGeneral`. -/
def ptpNetRecvGeneral (s : Port) : Option Packet × Port :=
  let r := netRecv s.clock.netPath.generalQ
  (r.1, { s with clock.netPath.generalQ := r.2 })

/-- `_udpRecvEventCallback` and `_udpRecvGeneralCallback`: a packet for which
    there is no room is dropped. -/
def udpRecvCallback (ch : Channel) (p : Packet) (s : Port) : Port :=
  match ch with
  | .event => { s with clock.netPath.eventQ := (netQPut s.clock.netPath.eventQ p).2 }
  | .general => { s with clock.netPath.generalQ := (netQPut s.clock.netPath.generalQ p).2 }

/-- The packets that arrive during a step. -/
def arrive (env : StepEnv) (s : Port) : Port :=
  env.arrivals.foldl (fun s p => udpRecvCallback p.1 p.2 s) s

/-- `_netSend`, for the message in the output buffer: the length and the time of
    the caller's variable. -/
def netSend (env : StepEnv) (type : MsgType) (length : Nat) (time : TimeInternal) (s : Port) :
    Nat × TimeInternal × Port :=
  (length, (env.transmit type).getD time, s.log (.sent type (s.clock.msgObuf.take length)))

/-- `ptpNetInit`, behind `ptpNetShutdown`. -/
def ptpNetInit (env : StepEnv) (s : Port) : Bool × Port :=
  (env.netInitOk, { s with
    clock.netPath := ⟨netQInit s.clock.netPath.eventQ, netQInit s.clock.netPath.generalQ⟩
    clock.portUuidField := env.hwaddr })

/-- Set the state of one timer. -/
def setTimer (t : Timer) (v : TimerState) (s : Port) : Port :=
  { s with timers := fun t' => if t' = t then v else s.timers t' }

/-- `sys_timer_start`: "Timer has been started" is all that happens to a system
    timer that is there, even when it has run out. -/
def sysTimerStart (millisec : Nat) (x : TimerState) : TimerState :=
  if x.timeId then x else { x with timeId := true, running := some millisec }

/-- `sys_timer_stop`. -/
def sysTimerStop (x : TimerState) : TimerState :=
  { x with timeId := false, running := none }

/-- `initTimer`. Setting a system timer up anew leaves its `timeId` alone. -/
def initTimer (s : Port) : Port :=
  { s with timers := fun t => { s.timers t with expired := false } }

/-- A timer runs out, when it was running: `timerCallback` marks it as expired. -/
def TimerState.fire (x : TimerState) : TimerState :=
  if x.running.isSome then { x with running := none, expired := true } else x

/-- `timerCallback`. -/
def timerCallback (t : Timer) (s : Port) : Port :=
  setTimer t (s.timers t).fire s

/-- `timerStop`. -/
def timerStop (t : Timer) (s : Port) : Port :=
  setTimer t { sysTimerStop (s.timers t) with expired := false } s

/-- `timerStart`. -/
def timerStart (env : StepEnv) (t : Timer) (intervalMs : Nat) (s : Port) : Port :=
  let x := if env.firesLate t then (s.timers t).fire else s.timers t
  setTimer t (sysTimerStart intervalMs { x with expired := false }) s

/-- `timerExpired`: an expiry is reported once. -/
def timerExpired (env : StepEnv) (t : Timer) (s : Port) : Bool × Port :=
  let s := if env.fires t then timerCallback t s else s
  if (s.timers t).expired then
    (true, setTimer t { s.timers t with expired := false } s)
  else
    (false, s)

/-- `getRand`. -/
def getRand (env : StepEnv) (t : Timer) (randMax : Nat) : Nat := env.rand t % randMax

end Ptp

end RtosLwip
