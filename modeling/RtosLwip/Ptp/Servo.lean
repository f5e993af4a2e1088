import RtosLwip.Ptp.Net

/-!
# The Clock Servo

`ptpServo.c`: offset and delay computation, exponential smoothing, and the PI
controller that steers the hardware clock. The parts behind
`DEFAULT_PARENTS_STATS` are left out.

## Main definitions

* `initClock`: Clearing the servo and the pairing of messages.
* `filter`: Exponential smoothing.
* `updateOffset`, `updateDelay`, `updatePeerDelay`, `updateClock`: The servo.
-/

namespace RtosLwip

namespace Ptp

/-- `ADJ_FREQ_MAX`. -/
def adjFreqMax : Int32 := 512000

/-- `DEFAULT_CALIBRATED_OFFSET_NS`. -/
def defaultCalibratedOffsetNs : Int32 := 10000

/-- `DEFAULT_UNCALIBRATED_OFFSET_NS`. -/
def defaultUncalibratedOffsetNs : Int32 := 1000000

/-- `MAX_ADJ_OFFSET_NS`. -/
def maxAdjOffsetNs : Int32 := 100000000

/-- `adjFreq`. -/
def adjFreq (adj : Int32) (s : Port) : Port :=
  let adj := if adjFreqMax < adj then adjFreqMax
    else if adj < -adjFreqMax then -adjFreqMax else adj
  { s with clockOps := s.clockOps ++ [.adjFreq adj] }

/-- `setTime`. -/
def setTime (time : TimeInternal) (s : Port) : Port :=
  { s with clockOps := s.clockOps ++ [.setTime time] }

/-- `initClock`. -/
def initClock (s : Port) : Port :=
  let c := s.clock
  let s := { s with clock := { c with
    tms := .zero
    observedDrift := 0
    owdFilt := { c.owdFilt with n := 0, s := c.servo.sDelay }
    ofmFilt := { c.ofmFilt with n := 0, s := c.servo.sOffset }
    waitingForFollowUp := false
    waitingForPDelayRespFollowUp := false
    pdelayT1 := .zero
    pdelayT2 := .zero
    pdelayT3 := .zero
    pdelayT4 := .zero } }
  let s := if s.clock.servo.noAdjust then s else adjFreq 0 s
  (ptpNetEmptyEventQ s).log .cleared

/-- `order`. -/
def order (n : Int32) : Int32 :=
  let n := if n < 0 then -n else n
  if n = 0 then 0 else floorLog2 n.toUInt32

/-- `ptp_max`. -/
def ptpMax (a b : Int32) : Int32 := if b < a then a else b

/-- `ptp_min`. -/
def ptpMin (a b : Int32) : Int32 := if b < a then b else a

/-- `filter`: the new value and the filter. -/
def filter (nsecCurrent : Int32) (filt : Filter) : Int32 × Filter :=
  let filt := { filt with n := filt.n + 1 }
  let filt := if filt.n = 1 then
    { filt with yPrev := nsecCurrent, ySum := nsecCurrent, sPrev := 0 } else filt
  let s : Int32 := filt.s.toInt32
  -- speed up the filter as long as there are few samples
  let full : Int32 := (1 : Int32) <<< s
  let (s, filt) := if filt.n < full then (order filt.n, filt) else (s, { filt with n := full })
  -- use the lower order, the higher one would overflow
  let s := ptpMin s (30 - order (ptpMax filt.yPrev nsecCurrent))
  let sPrev := filt.sPrev.toInt32
  let ySum := if s < sPrev then filt.ySum >>> (sPrev - s)
    else if sPrev < s then filt.ySum <<< (s - sPrev) else filt.ySum
  let ySum := ySum + (nsecCurrent - filt.yPrev)
  let yPrev := ySum >>> s
  (yPrev, { filt with ySum := ySum, yPrev := yPrev, sPrev := s.toInt16 })

/-- Take the path delay off the time from master to slave, as `updateOffset`
    does. -/
def subtractDelay (c : PtpClock) (tms : TimeInternal) : TimeInternal :=
  match c.portDS.delayMechanism with
  | .e2e => subTime tms c.currentDS.meanPathDelay
  | .p2p => subTime tms c.portDS.peerMeanPathDelay
  | .disabled => tms

/-- `updateOffset`. -/
def updateOffset (syncEventIngressTimestamp preciseOriginTimestamp correctionField : TimeInternal)
    (s : Port) : Port :=
  let c := s.clock
  let tms := subTime (subTime syncEventIngressTimestamp preciseOriginTimestamp) correctionField
  let offset := subtractDelay c tms
  if offset.seconds ≠ 0 then
    { s with clock := { c with
      tms := tms
      currentDS.offsetFromMaster := offset
      events.synchronizationFault := c.events.synchronizationFault ||
        c.portDS.portState = .slave } }
  else
    let f := filter offset.nanoseconds c.ofmFilt
    let c := { c with
      tms := tms
      currentDS.offsetFromMaster := ⟨offset.seconds, f.1⟩
      ofmFilt := f.2 }
    if f.1.abs < defaultCalibratedOffsetNs then
      { s with clock := { c with
        events.masterClockSelected := c.events.masterClockSelected ||
          c.portDS.portState = .uncalibrated } }
    else if defaultUncalibratedOffsetNs < f.1.abs then
      { s with clock := { c with
        events.synchronizationFault := c.events.synchronizationFault ||
          c.portDS.portState = .slave } }
    else
      { s with clock := c }

/-- `updateDelay`. -/
def updateDelay (delayEventEgressTimestamp recieveTimestamp correctionField : TimeInternal)
    (s : Port) : Port :=
  let c := s.clock
  -- Tms valid?
  if c.ofmFilt.n = 0 then
    s
  else
    let tsm := subTime (subTime recieveTimestamp delayEventEgressTimestamp) correctionField
    let delay := div2Time (addTime c.tms tsm)
    if delay.seconds ≠ 0 then
      { s with clock := { c with tsm := tsm, currentDS.meanPathDelay := delay } }
    else
      let f := filter delay.nanoseconds c.owdFilt
      { s with clock := { c with
        tsm := tsm
        currentDS.meanPathDelay := ⟨delay.seconds, f.1⟩
        owdFilt := f.2 } }

/-- `updatePeerDelay`. -/
def updatePeerDelay (correctionField : TimeInternal) (twoStep : Bool) (s : Port) : Port :=
  let c := s.clock
  let sum := if twoStep then
      addTime (subTime c.pdelayT2 c.pdelayT1) (subTime c.pdelayT4 c.pdelayT3)
    else
      subTime c.pdelayT4 c.pdelayT1
  let delay := div2Time (subTime sum correctionField)
  if delay.seconds ≠ 0 then
    { s with clock.portDS.peerMeanPathDelay := delay }
  else
    let f := filter delay.nanoseconds c.owdFilt
    { s with clock := { c with
      portDS.peerMeanPathDelay := ⟨delay.seconds, f.1⟩
      owdFilt := f.2 } }

/-- `updateClock`. -/
def updateClock (env : StepEnv) (s : Port) : Port :=
  let c := s.clock
  if c.currentDS.offsetFromMaster.seconds ≠ 0 ∨
      maxAdjOffsetNs < c.currentDS.offsetFromMaster.nanoseconds.abs then
    -- if seconds, reset the clock or set the frequency adjustment to the maximum
    if c.servo.noAdjust then
      s
    else if c.servo.noResetClock then
      let adj := if 0 < c.currentDS.offsetFromMaster.nanoseconds then adjFreqMax else -adjFreqMax
      adjFreq (-adj) s
    else
      initClock (setTime (subTime env.clockTime c.currentDS.offsetFromMaster) s)
  else
    -- the PI controller, normalised to a sync interval of one second
    let interval := c.portDS.logSyncInterval.toInt32
    let offsetNorm := c.currentDS.offsetFromMaster.nanoseconds
    let offsetNorm := if 0 < interval then offsetNorm >>> interval
      else if interval < 0 then offsetNorm <<< (-interval) else offsetNorm
    let drift := c.observedDrift + offsetNorm / c.servo.ai.toInt32
    let drift := if adjFreqMax < drift then adjFreqMax
      else if drift < -adjFreqMax then -adjFreqMax else drift
    let s := { s with clock.observedDrift := drift }
    if c.servo.noAdjust then
      s
    else
      adjFreq (-(offsetNorm / c.servo.ap.toInt32 + drift)) s

end Ptp

end RtosLwip
