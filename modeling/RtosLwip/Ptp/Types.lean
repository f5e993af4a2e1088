import Mathlib.Data.List.Basic

/-!
# The PTP Port's Data

The data types of the PTP daemon: `datatypes.h`, `datatypes_dep.h` and the
enumerations of `constants.h`. Integers keep the width they have in the source,
except for the four indices of the foreign-master table, which are natural
numbers; the table has five records, so they stay far from the 16-bit range.

The `events` word of the source is used as a set of flags, of which the daemon
sets and reads four; it is a record of these four here.

`msgTmpHeader` and `msgTmp` are scratch space: every handler fills what it
reads, so a message's header and body are passed as values. The statistics
behind `DEFAULT_PARENTS_STATS`, which is off, are left out.

A `Port` is the clock together with what it acts on: the timers, the operations
on the hardware clock, and a history of what the port has done. The history is
no part of the source. It is written where the code acts and never read by it;
the properties of whole runs are stated over it.

## Main definitions

* `TimeInternal`, `Timestamp`, `PortIdentity`: Times and identities.
* `MsgHeader`, `MsgAnnounce` and the other bodies: The messages.
* `DefaultDS`, `CurrentDS`, `ParentDS`, `PortDS`, `ForeignMasterDS`: The data sets.
* `PtpClock`: The daemon's state.
* `Effect`: What the history records.
* `Port`: The clock, its timers and its history.
-/

namespace RtosLwip

namespace Ptp

/-- `TimeInternal`. -/
structure TimeInternal where
  seconds : Int32
  nanoseconds : Int32
  deriving DecidableEq, Repr, Inhabited

/-- `uint48bit_t`. -/
structure UInt48 where
  lsb : UInt32
  msb : UInt16
  deriving DecidableEq, Repr, Inhabited

/-- `Timestamp`, the time a message carries. -/
structure Timestamp where
  secondsField : UInt48
  nanosecondsField : UInt32
  deriving DecidableEq, Repr, Inhabited

/-- `ClockIdentity`, of `CLOCK_IDENTITY_LENGTH` octets. -/
abbrev ClockIdentity := Vector UInt8 8

/-- The hardware address, of `PTP_UUID_LENGTH` octets. -/
abbrev PortUuid := Vector UInt8 6

/-- `PortIdentity`. -/
structure PortIdentity where
  clockIdentity : ClockIdentity
  portNumber : Int16
  deriving DecidableEq, Repr, Inhabited

/-- `ClockQuality`. -/
structure ClockQuality where
  clockClass : UInt8
  clockAccuracy : UInt8
  offsetScaledLogVariance : Int16
  deriving DecidableEq, Repr, Inhabited

/-- `MsgHeader`. -/
structure MsgHeader where
  transportSpecific : UInt8
  messageType : UInt8
  versionPTP : UInt8
  messageLength : Int16
  domainNumber : UInt8
  flagField0 : UInt8
  flagField1 : UInt8
  correctionfield : Int64
  sourcePortIdentity : PortIdentity
  sequenceId : Int16
  controlField : UInt8
  logMessageInterval : Int8
  deriving DecidableEq, Repr, Inhabited

/-- `MsgAnnounce`. -/
structure MsgAnnounce where
  originTimestamp : Timestamp
  currentUtcOffset : Int16
  grandmasterPriority1 : UInt8
  grandmasterClockQuality : ClockQuality
  grandmasterPriority2 : UInt8
  grandmasterIdentity : ClockIdentity
  stepsRemoved : Int16
  timeSource : UInt8
  deriving DecidableEq, Repr, Inhabited

/-- `MsgDelayResp`, `MsgPDelayResp` and `MsgPDelayRespFollowUp`: a time and the
    port that asked for it. -/
structure MsgResp where
  timestamp : Timestamp
  requestingPortIdentity : PortIdentity
  deriving DecidableEq, Repr, Inhabited

/-- The PTP states. -/
inductive PtpState where
  | initializing
  | faulty
  | disabled
  | listening
  | preMaster
  | master
  | passive
  | uncalibrated
  | slave
  deriving DecidableEq, Repr, Inhabited

/-- The delay mechanisms; `disabled` stands for every value other than `E2E`
    and `P2P`. -/
inductive DelayMechanism where
  | e2e
  | p2p
  | disabled
  deriving DecidableEq, Repr, Inhabited

/-- The PTP timers. -/
inductive Timer where
  | pDelayReqInterval
  | delayReqInterval
  | syncInterval
  | announceReceipt
  | announceInterval
  | qualificationTimeout
  deriving DecidableEq, Repr, Inhabited

/-- The PTP messages. -/
inductive MsgType where
  | sync
  | delayReq
  | pDelayReq
  | pDelayResp
  | followUp
  | delayResp
  | pDelayRespFollowUp
  | announce
  | signaling
  | management
  deriving DecidableEq, Repr, Inhabited

/-- The code of a message type on the wire. -/
def MsgType.code : MsgType → UInt8
  | .sync => 0x0
  | .delayReq => 0x1
  | .pDelayReq => 0x2
  | .pDelayResp => 0x3
  | .followUp => 0x8
  | .delayResp => 0x9
  | .pDelayRespFollowUp => 0xA
  | .announce => 0xB
  | .signaling => 0xC
  | .management => 0xD

/-- The message type of a code. -/
def MsgType.ofCode (code : UInt8) : Option MsgType :=
  [sync, delayReq, pDelayReq, pDelayResp, followUp, delayResp, pDelayRespFollowUp, announce,
    signaling, management].find? fun t => t.code = code

/-- `Servo`. -/
structure Servo where
  noResetClock : Bool
  noAdjust : Bool
  ap : Int16
  ai : Int16
  sDelay : Int16
  sOffset : Int16
  deriving DecidableEq, Repr, Inhabited

/-- `RunTimeOpts`. -/
structure RunTimeOpts where
  announceInterval : Int8
  syncInterval : Int8
  clockQuality : ClockQuality
  priority1 : UInt8
  priority2 : UInt8
  domainNumber : UInt8
  slaveOnly : Bool
  currentUtcOffset : Int16
  inboundLatency : TimeInternal
  outboundLatency : TimeInternal
  maxForeignRecords : Nat
  delayMechanism : DelayMechanism
  servo : Servo
  deriving DecidableEq, Repr, Inhabited

/-- `DefaultDS`. -/
structure DefaultDS where
  twoStepFlag : Bool
  clockIdentity : ClockIdentity
  numberPorts : Int16
  clockQuality : ClockQuality
  priority1 : UInt8
  priority2 : UInt8
  domainNumber : UInt8
  slaveOnly : Bool
  deriving DecidableEq, Repr, Inhabited

/-- `CurrentDS`. -/
structure CurrentDS where
  stepsRemoved : Int16
  offsetFromMaster : TimeInternal
  meanPathDelay : TimeInternal
  deriving DecidableEq, Repr, Inhabited

/-- `ParentDS`, without the statistics. -/
structure ParentDS where
  parentPortIdentity : PortIdentity
  grandmasterIdentity : ClockIdentity
  grandmasterClockQuality : ClockQuality
  grandmasterPriority1 : UInt8
  grandmasterPriority2 : UInt8
  deriving DecidableEq, Repr, Inhabited

/-- `TimePropertiesDS`. -/
structure TimePropertiesDS where
  currentUtcOffset : Int16
  currentUtcOffsetValid : Bool
  leap59 : Bool
  leap61 : Bool
  timeTraceable : Bool
  frequencyTraceable : Bool
  ptpTimescale : Bool
  timeSource : UInt8
  deriving DecidableEq, Repr, Inhabited

/-- `PortDS`. -/
structure PortDS where
  portIdentity : PortIdentity
  portState : PtpState
  logMinDelayReqInterval : Int8
  peerMeanPathDelay : TimeInternal
  logAnnounceInterval : Int8
  announceReceiptTimeout : UInt8
  logSyncInterval : Int8
  delayMechanism : DelayMechanism
  logMinPdelayReqInterval : Int8
  versionNumber : UInt8
  deriving DecidableEq, Repr, Inhabited

/-- `ForeignMasterRecord`. -/
structure ForeignMasterRecord where
  foreignMasterPortIdentity : PortIdentity
  foreignMasterAnnounceMessages : Int16
  announce : MsgAnnounce
  header : MsgHeader
  deriving DecidableEq, Repr, Inhabited

/-- `ForeignMasterDS`. -/
structure ForeignMasterDS where
  records : List ForeignMasterRecord
  count : Nat
  capacity : Nat
  i : Nat
  best : Nat
  deriving DecidableEq, Repr, Inhabited

/-- Record `j` of the table. -/
def ForeignMasterDS.record (ds : ForeignMasterDS) (j : Nat) : ForeignMasterRecord :=
  ds.records.getD j default

/-- `Filter`. -/
structure Filter where
  yPrev : Int32
  ySum : Int32
  s : Int16
  sPrev : Int16
  n : Int32
  deriving DecidableEq, Repr, Inhabited

/-- The flags of the `events` word that the daemon uses. -/
structure Events where
  stateDecisionEvent : Bool
  synchronizationFault : Bool
  masterClockSelected : Bool
  masterClockChanged : Bool
  deriving DecidableEq, Repr, Inhabited

/-- A received packet: its payload and the time the hardware stamped it with. -/
structure Packet where
  payload : List UInt8
  time : TimeInternal
  deriving DecidableEq, Repr, Inhabited

/-- `BufQueue`, a ring of `PTP_PBUF_QUEUE_SIZE` places. -/
structure BufQueue where
  pbuf : List Packet
  head : Nat
  tail : Nat
  deriving DecidableEq, Repr, Inhabited

/-- The queues of `NetPath`. -/
structure NetPath where
  eventQ : BufQueue
  generalQ : BufQueue
  deriving DecidableEq, Repr, Inhabited

/-- The two sockets a packet can arrive on. -/
inductive Channel where
  | event
  | general
  deriving DecidableEq, Repr, Inhabited

/-- `PtpClock`, the daemon's state. -/
structure PtpClock where
  defaultDS : DefaultDS
  currentDS : CurrentDS
  parentDS : ParentDS
  timePropertiesDS : TimePropertiesDS
  portDS : PortDS
  foreignMasterDS : ForeignMasterDS
  msgObuf : List UInt8
  tms : TimeInternal
  tsm : TimeInternal
  pdelayT1 : TimeInternal
  pdelayT2 : TimeInternal
  pdelayT3 : TimeInternal
  pdelayT4 : TimeInternal
  timestampSyncRecieve : TimeInternal
  timestampDelayReqSend : TimeInternal
  timestampDelayReqRecieve : TimeInternal
  correctionFieldSync : TimeInternal
  correctionFieldPDelayResp : TimeInternal
  sentPDelayReqSequenceId : Int16
  sentDelayReqSequenceId : Int16
  sentSyncSequenceId : Int16
  sentAnnounceSequenceId : Int16
  recvSyncSequenceId : Int16
  waitingForFollowUp : Bool
  waitingForPDelayRespFollowUp : Bool
  ofmFilt : Filter
  owdFilt : Filter
  observedDrift : Int32
  messageActivity : Bool
  netPath : NetPath
  recommendedState : PtpState
  portUuidField : PortUuid
  inboundLatency : TimeInternal
  outboundLatency : TimeInternal
  servo : Servo
  events : Events
  rtOpts : RunTimeOpts
  deriving Repr, Inhabited

/-- A message as it is handed to its handler: the header, the time it was
    received with the inbound latency taken off, and its bytes. -/
structure Message where
  header : MsgHeader
  time : TimeInternal
  buf : List UInt8
  deriving DecidableEq, Repr, Inhabited

/-- What the history of a port records. -/
inductive Effect where
  /-- A message was handed to its handler. -/
  | received (m : Message)
  /-- An Announce was accepted. -/
  | announced (header : MsgHeader) (announce : MsgAnnounce)
  /-- `addForeign` wrote record `j`. -/
  | added (j : Nat) (header : MsgHeader) (announce : MsgAnnounce)
  /-- The number of foreign masters was set to zero. -/
  | reset
  /-- `bmc` installed a master through `s1`. -/
  | installed (header : MsgHeader) (announce : MsgAnnounce)
  /-- A message was handed to the network. -/
  | sent (type : MsgType) (bytes : List UInt8)
  /-- A two-step Sync or PDelayResp was accepted and waits for its follow-up. -/
  | awaiting (m : Message)
  /-- `initClock` ended the waiting and cleared the times of the peer delay. -/
  | cleared
  /-- A PDelayReq went out, with its time of egress if the hardware gave one. -/
  | requested (sequenceId : Int16) (egress : Option TimeInternal)
  /-- `updateOffset` was called, for message `m`. -/
  | offset (twoStep : Bool) (m : Message) (ingress origin correction : TimeInternal)
  /-- `updatePeerDelay` was called, for message `m`. -/
  | peerDelay (twoStep : Bool) (m : Message) (t1 t2 t3 t4 : TimeInternal)
  deriving DecidableEq, Repr

/-- An operation on the hardware clock. -/
inductive ClockOp where
  | setTime (time : TimeInternal)
  | adjFreq (adj : Int32)
  deriving DecidableEq, Repr

/-- A one-shot timer: whether its system timer has been created, the interval it
    is running for, and whether it has expired and nobody has looked yet. -/
structure TimerState where
  timeId : Bool
  running : Option Nat
  expired : Bool
  deriving DecidableEq, Repr, Inhabited

/-- A timer whose system timer has not been created. -/
def TimerState.idle : TimerState := ⟨false, none, false⟩

/-- The port: the clock, the timers, the operations on the hardware clock, and
    the history, newest first. -/
structure Port where
  clock : PtpClock
  timers : Timer → TimerState
  clockOps : List ClockOp
  history : List Effect

/-- Write an effect into the history. -/
def Port.log (e : Effect) (s : Port) : Port :=
  { s with history := e :: s.history }

end Ptp

end RtosLwip
