import RtosLwip.Base.Run
import RtosLwip.Ptp.Protocol

/-!
# The Running Daemon

`ptpMain.c`: the state the daemon starts in, and the events that drive it from
there. The main loop runs one step of the state machine after the other; packets
arrive and timers run out between two steps, or during one, which is part of the
step's environment.

The run-time options are compile-time constants of the source, `defaultRtOpts`.
Everything is proved for arbitrary options; only the size of the foreign-master
table is the one of the array behind it.

## Main definitions

* `defaultRtOpts`: The options `_ptpdTask` sets.
* `powerUp`: The port after `_ptpdStartup`.
* `Event`, `engineStep`: What drives the daemon.
* `quietEnv`, `quietStep`, `peerMessage`, `peerAnnounce`: Steps and messages for
  concrete runs.
-/

namespace RtosLwip

namespace Ptp

/-- `DEFAULT_MAX_FOREIGN_RECORDS`. -/
def defaultMaxForeignRecords : Nat := 5

/-- The options `_ptpdTask` sets. -/
def defaultRtOpts : RunTimeOpts where
  announceInterval := 1
  syncInterval := 0
  clockQuality := ⟨248, 0xFE, 5000⟩
  priority1 := 248
  priority2 := 248
  domainNumber := 0
  slaveOnly := true
  currentUtcOffset := 34
  inboundLatency := .zero
  outboundLatency := .zero
  maxForeignRecords := defaultMaxForeignRecords
  delayMechanism := .e2e
  servo := ⟨false, false, 2, 16, 6, 1⟩

/-- The corrections of `_ptpdStartup`: a slave-only clock has the clock class
    255, and there is no negative or zero attenuation. -/
def startupOpts (rtOpts : RunTimeOpts) : RunTimeOpts :=
  { rtOpts with
    maxForeignRecords := defaultMaxForeignRecords
    clockQuality.clockClass := if rtOpts.slaveOnly then 255 else rtOpts.clockQuality.clockClass
    servo.ap := if rtOpts.servo.ap < 1 then 1 else rtOpts.servo.ap
    servo.ai := if rtOpts.servo.ai < 1 then 1 else rtOpts.servo.ai }

/-- A queue after `memset` with zero. -/
def BufQueue.zero : BufQueue := ⟨List.replicate ptpPbufQueueSize default, 0, 0⟩

/-- The clock after `memset` with zero, with its options and its table. -/
def zeroClock (rtOpts : RunTimeOpts) : PtpClock :=
  let c : PtpClock := default
  { c with
    portDS := { c.portDS with portState := .initializing, delayMechanism := .disabled }
    foreignMasterDS := { c.foreignMasterDS with
      records := List.replicate defaultMaxForeignRecords default }
    msgObuf := List.replicate ptpPacketSize 0
    netPath := ⟨.zero, .zero⟩
    recommendedState := .initializing
    rtOpts := rtOpts }

/-- The port after `_ptpdStartup`. Entering the initializing state from itself
    asks nothing of the environment. -/
def powerUp (rtOpts : RunTimeOpts) : Port where
  clock := { zeroClock (startupOpts rtOpts) with messageActivity := true }
  timers := fun _ => .idle
  clockOps := []
  history := []

/-- What drives the daemon: a step of the state machine, a packet, or a timer. -/
inductive Event where
  | step (env : StepEnv)
  | packet (ch : Channel) (p : Packet)
  | expire (t : Timer)

/-- One event. -/
def engineStep (s : Port) : Event → Port
  | .step env => ptpStateMachine env s
  | .packet ch p => udpRecvCallback ch p s
  | .expire t => timerCallback t s

/-- The options of a clock that may become master. -/
def masterOpts : RunTimeOpts := { defaultRtOpts with slaveOnly := false }

/-- An environment in which the packets of `arrivals` come in and nothing else
    happens: no timer runs out, nothing can be sent, and the clock stands at
    zero. -/
def quietEnv (arrivals : List (Channel × Packet)) : StepEnv where
  netInitOk := true
  hwaddr := .replicate 6 0
  arrivals := arrivals
  fires := fun _ => false
  firesLate := fun _ => false
  time := fun _ => .zero
  clockTime := .zero
  transmit := fun _ => none
  rand := fun _ => 0
  localTime := .zero
  localStamp := fun _ => default

/-- A step in a quiet environment. -/
def quietStep (arrivals : List (Channel × Packet)) : Event := .step (quietEnv arrivals)

/-- A message of the port 1 of the clock `id`, with the sequence number `seq`. -/
def peerMessage (type : MsgType) (id flags seq : UInt8) (body : List UInt8) : List UInt8 :=
  [type.code, 2, 0, type.length.toUInt8, 0, 0, flags, 0, 0, 0, 0, 0, 0, 0, 0, 0, 0, 0, 0, 0,
    0, 0, 0, 0, 0, 0, 0, id, 0, 1, 0, seq, 0, 0] ++ body

/-- The Announce of a grandmaster `id` with the first priority `priority`. -/
def peerAnnounce (id priority seq : UInt8) : Channel × Packet :=
  (.general, ⟨peerMessage .announce id 0 seq
    [0, 0, 0, 0, 0, 0, 0, 0, 0, 0, 0, 0, 0, priority, 6, 0x20, 0, 0, 128,
      0, 0, 0, 0, 0, 0, 0, id, 0, 0, 0x20], .zero⟩)

end Ptp

end RtosLwip
