import RtosLwip.Ptp.Servo

/-!
# The Best Master Clock Algorithm

`ptpBmc.c`: the foreign-master table, the data set comparison, and the state
decision with the updates of the data sets it makes.

`memcmp` is known by its sign only, which is all its callers look at.

The local data set that `copyD0` prepares for the comparison goes into the
scratch message of the source. It sets every field the comparison reads; the
others are of no consequence and have their default here.

## Main definitions

* `initData`: The data sets at start-up.
* `addForeign`: A foreign master's Announce enters the table.
* `m1`, `s1`: The data sets of a master and of a slave.
* `bmcDataSetComparison`: Which of two announced clocks is better.
* `bmcStateDecision`, `bmc`: The recommended state.
-/

namespace RtosLwip

namespace Ptp

/-- `EUI48toEUI64`. -/
def eui48ToEui64 (e : PortUuid) : ClockIdentity :=
  #v[e.get 0, e.get 1, e.get 2, 0xff, 0xfe, e.get 3, e.get 4, e.get 5]

/-- `NUMBER_PORTS`. -/
def numberPorts : Int16 := 1

/-- `DEFAULT_DELAYREQ_INTERVAL`. -/
def defaultDelayReqInterval : Int8 := 3

/-- `DEFAULT_PDELAYREQ_INTERVAL`. -/
def defaultPDelayReqInterval : Int8 := 1

/-- `DEFAULT_ANNOUNCE_RECEIPT_TIMEOUT`. -/
def defaultAnnounceReceiptTimeout : UInt8 := 6

/-- `VERSION_PTP`. -/
def versionPTP : UInt8 := 2

/-- `DEFAULT_TIME_SOURCE`, the internal oscillator. -/
def defaultTimeSource : UInt8 := 0xA0

/-- `initData`. The round-robin index and the best index of the table stay as
    they are. -/
def initData (c : PtpClock) : PtpClock :=
  let rtOpts := c.rtOpts
  let clockIdentity := eui48ToEui64 c.portUuidField
  { c with
    defaultDS := {
      twoStepFlag := true
      clockIdentity := clockIdentity
      numberPorts := numberPorts
      clockQuality := rtOpts.clockQuality
      priority1 := rtOpts.priority1
      priority2 := rtOpts.priority2
      domainNumber := rtOpts.domainNumber
      slaveOnly := rtOpts.slaveOnly }
    portDS := { c.portDS with
      portIdentity := ⟨clockIdentity, numberPorts⟩
      logMinDelayReqInterval := defaultDelayReqInterval
      peerMeanPathDelay := .zero
      logAnnounceInterval := rtOpts.announceInterval
      announceReceiptTimeout := defaultAnnounceReceiptTimeout
      logSyncInterval := rtOpts.syncInterval
      delayMechanism := rtOpts.delayMechanism
      logMinPdelayReqInterval := defaultPDelayReqInterval
      versionNumber := versionPTP }
    foreignMasterDS := { c.foreignMasterDS with
      count := 0
      capacity := rtOpts.maxForeignRecords }
    inboundLatency := rtOpts.inboundLatency
    outboundLatency := rtOpts.outboundLatency
    servo := rtOpts.servo }

/-- `memcmp`, by its sign. -/
def memcmp : List UInt8 → List UInt8 → Int
  | a :: as, b :: bs => if a = b then memcmp as bs else if a < b then -1 else 1
  | _, _ => 0

/-- `isSamePortIdentity`. -/
def isSamePortIdentity (a b : PortIdentity) : Bool :=
  memcmp a.clockIdentity.toList b.clockIdentity.toList = 0 && a.portNumber = b.portNumber

/-- The search of `addForeign`, with `n` records still to look at and the next
    of them at `j`. -/
def foreignSearch (ds : ForeignMasterDS) (p : PortIdentity) : Nat → Nat → Option Nat
  | 0, _ => none
  | n + 1, j =>
    if isSamePortIdentity p (ds.record j).foreignMasterPortIdentity then
      some j
    else
      foreignSearch ds p n ((j + 1) % ds.count)

/-- What `addForeign` does to the table: the index of the record written and
    the table. The search begins at the best record. -/
def addForeignRecord (ds : ForeignMasterDS) (header : MsgHeader) (announce : MsgAnnounce) :
    Nat × ForeignMasterDS :=
  match foreignSearch ds header.sourcePortIdentity ds.count ds.best with
  | some j =>
    let record := { ds.record j with
      foreignMasterAnnounceMessages := (ds.record j).foreignMasterAnnounceMessages + 1
      header := header
      announce := announce }
    (j, { ds with records := ds.records.set j record })
  | none =>
    let j := ds.i
    (j, { ds with
      count := if ds.count < ds.capacity then ds.count + 1 else ds.count
      records := ds.records.set j ⟨header.sourcePortIdentity, 0, announce, header⟩
      i := (ds.i + 1) % ds.capacity })

/-- `addForeign`. -/
def addForeign (header : MsgHeader) (announce : MsgAnnounce) (s : Port) : Port :=
  let r := addForeignRecord s.clock.foreignMasterDS header announce
  { s with clock.foreignMasterDS := r.2 }.log (.added r.1 header announce)

/-- `m1`: the local clock is becoming master. -/
def m1 (s : Port) : Port :=
  let c := s.clock
  { s with clock := { c with
    currentDS := ⟨0, .zero, .zero⟩
    parentDS := {
      parentPortIdentity := ⟨c.defaultDS.clockIdentity, 0⟩
      grandmasterIdentity := c.defaultDS.clockIdentity
      grandmasterClockQuality := c.defaultDS.clockQuality
      grandmasterPriority1 := c.defaultDS.priority1
      grandmasterPriority2 := c.defaultDS.priority2 }
    timePropertiesDS := {
      currentUtcOffset := c.rtOpts.currentUtcOffset
      currentUtcOffsetValid := false
      leap59 := false
      leap61 := false
      timeTraceable := false
      frequencyTraceable := false
      ptpTimescale := false
      timeSource := defaultTimeSource } } }

/-- `p1`. -/
def p1 (s : Port) : Port := s

/-- The parent data set `s1` installs. -/
def parentOf (header : MsgHeader) (announce : MsgAnnounce) : ParentDS where
  parentPortIdentity := header.sourcePortIdentity
  grandmasterIdentity := announce.grandmasterIdentity
  grandmasterClockQuality := announce.grandmasterClockQuality
  grandmasterPriority1 := announce.grandmasterPriority1
  grandmasterPriority2 := announce.grandmasterPriority2

/-- The time properties data set `s1` installs. -/
def timePropertiesOf (header : MsgHeader) (announce : MsgAnnounce) : TimePropertiesDS where
  currentUtcOffset := announce.currentUtcOffset
  currentUtcOffsetValid := getFlag header.flagField1 flag1UtcOffsetValid
  leap59 := getFlag header.flagField1 flag1Leap59
  leap61 := getFlag header.flagField1 flag1Leap61
  timeTraceable := getFlag header.flagField1 flag1TimeTraceable
  frequencyTraceable := getFlag header.flagField1 flag1FrequencyTraceable
  ptpTimescale := getFlag header.flagField1 flag1PtpTimescale
  timeSource := announce.timeSource

/-- `s1`: the local clock is synchronized to the announced one. -/
def s1 (header : MsgHeader) (announce : MsgAnnounce) (s : Port) : Port :=
  let c := s.clock
  let isFromCurrentParent :=
    isSamePortIdentity c.parentDS.parentPortIdentity header.sourcePortIdentity
  { s with clock := { c with
    currentDS.stepsRemoved := announce.stepsRemoved + 1
    events.masterClockChanged := c.events.masterClockChanged || !isFromCurrentParent
    parentDS := parentOf header announce
    timePropertiesDS := timePropertiesOf header announce } }

/-- `copyD0`: the local data set as a header and an announce. -/
def copyD0 (c : PtpClock) : MsgHeader × MsgAnnounce :=
  let header : MsgHeader := default
  let announce : MsgAnnounce := default
  ({ header with sourcePortIdentity.clockIdentity := c.defaultDS.clockIdentity },
    { announce with
      grandmasterPriority1 := c.defaultDS.priority1
      grandmasterIdentity := c.defaultDS.clockIdentity
      grandmasterClockQuality := c.defaultDS.clockQuality
      grandmasterPriority2 := c.defaultDS.priority2
      stepsRemoved := 0 })

/-- `A_better_then_B`, and `A_better_by_topology_then_B` as well. -/
def aBetter : Int := 1

/-- `B_better_then_A`, and `B_better_by_topology_then_A` as well. -/
def bBetter : Int := -1

/-- `COMPARE_AB_RETURN_BETTER`: the smaller value is the better one, and equal
    values leave it to `next`. -/
def compareABReturnBetter {α : Type} [LT α] [DecidableLT α] (a b : α) (next : Int) : Int :=
  if b < a then bBetter else if a < b then aBetter else next

/-- `bmcDataSetComparison`, where `own` is the identity of the local clock. -/
def bmcDataSetComparison (own : ClockIdentity) (headerA : MsgHeader) (announceA : MsgAnnounce)
    (headerB : MsgHeader) (announceB : MsgAnnounce) : Int :=
  let qualityA := announceA.grandmasterClockQuality
  let qualityB := announceB.grandmasterClockQuality
  let stepsA := announceA.stepsRemoved.toInt
  let stepsB := announceB.stepsRemoved.toInt
  let idA := headerA.sourcePortIdentity.clockIdentity.toList
  let idB := headerB.sourcePortIdentity.clockIdentity.toList
  let gmComp := memcmp announceA.grandmasterIdentity.toList announceB.grandmasterIdentity.toList
  if gmComp ≠ 0 then
    compareABReturnBetter announceA.grandmasterPriority1 announceB.grandmasterPriority1 <|
    compareABReturnBetter qualityA.clockClass qualityB.clockClass <|
    compareABReturnBetter qualityA.clockAccuracy qualityB.clockAccuracy <|
    compareABReturnBetter qualityA.offsetScaledLogVariance qualityB.offsetScaledLogVariance <|
    compareABReturnBetter announceA.grandmasterPriority2 announceB.grandmasterPriority2 <|
    if 0 < gmComp then bBetter else aBetter
  else if stepsB + 1 < stepsA then
    bBetter
  else if stepsA + 1 < stepsB then
    aBetter
  else if stepsB < stepsA then
    -- the sender's own identity stands for an error
    if memcmp idA own.toList = 0 then 0 else bBetter
  else if stepsA < stepsB then
    if memcmp idB own.toList = 0 then 0 else aBetter
  else if 0 < memcmp idA idB then
    bBetter
  else if memcmp idA idB < 0 then
    aBetter
  else
    0

/-- `bmcStateDecision`. -/
def bmcStateDecision (header : MsgHeader) (announce : MsgAnnounce) (s : Port) :
    PtpState × Port :=
  let c := s.clock
  if c.foreignMasterDS.count = 0 ∧ c.portDS.portState = .listening then
    (.listening, s)
  else
    let d0 := copyD0 c
    let comp := bmcDataSetComparison c.portDS.portIdentity.clockIdentity d0.1 d0.2 header announce
    if c.defaultDS.clockQuality.clockClass < 128 then
      if comp = aBetter then (.master, m1 s) else (.passive, p1 s)
    else
      if comp = aBetter then
        (.master, m1 s)
      else
        (.slave, (s1 header announce s).log (.installed header announce))

/-- The comparison of two records of the table. -/
def compareRecords (own : ClockIdentity) (ds : ForeignMasterDS) (a b : Nat) : Int :=
  bmcDataSetComparison own (ds.record a).header (ds.record a).announce
    (ds.record b).header (ds.record b).announce

/-- The scan of `bmc`. -/
def bmcBest (own : ClockIdentity) (ds : ForeignMasterDS) : Nat :=
  (List.range' 1 (ds.count - 1)).foldl
    (fun best i => if compareRecords own ds i best < 0 then i else best) 0

/-- `bmc`: the recommended state. -/
def bmc (s : Port) : PtpState × Port :=
  let ds := s.clock.foreignMasterDS
  let best := bmcBest s.clock.portDS.portIdentity.clockIdentity ds
  let s := { s with clock.foreignMasterDS.best := best }
  bmcStateDecision (ds.record best).header (ds.record best).announce s

end Ptp

end RtosLwip
