import RtosLwip.Ptp.ExactTime
import RtosLwip.Ptp.Transition

/-!
# The Exact Offset from the Master

The offset of a port from its master is the time a Sync arrived, less the time
it was sent, its corrections and the mean path delay. `updateOffset` computes it
by subtractions of times, whose fields are 32-bit integers, and nothing looks at
their range: where the conversion of the time of origin fails, or a field
overflows, the port carries on with whatever came out. No message is dropped.

This file says when what comes out is the exact offset. Wraps of the seconds
may cancel, for the seconds are added modulo `2^32` throughout. A wrap of the
nanoseconds shows in the result, unless another one takes it back.

## Main definitions

* `exactOffset`: The exact offset, in nanoseconds.
* `unfilteredOffset`: What `updateOffset` computes.
* `ExactSteps`: The subtractions are exact, or their wraps cancel.
* `SetsExactly`: A message is used with its exact offset, or dropped.

## Theorems

* `ns_unfilteredOffset_iff`: When the offset computed is the exact one.
* `exactSteps_of_fits`: Ranges in which every subtraction is exact.
* `stored_of_twoStep`: What a Sync leaves for its Follow_Up.
* `setsExactly_iff`: When the messages are used with their exact offset.
-/

namespace RtosLwip

namespace Ptp

/-- The path delay that `updateOffset` takes off. -/
def pathDelay (c : PtpClock) : TimeInternal :=
  match c.portDS.delayMechanism with
  | .e2e => c.currentDS.meanPathDelay
  | .p2p => c.portDS.peerMeanPathDelay
  | .disabled => .zero

/-- The offset that `updateOffset` computes, before it is filtered. -/
def unfilteredOffset (ingress origin correction : TimeInternal) (c : PtpClock) : TimeInternal :=
  subtractDelay c (subTime (subTime ingress origin) correction)

/-- The exact offset, in nanoseconds, for corrections of so many nanoseconds. -/
def exactOffset (ingress : TimeInternal) (origin : Timestamp) (corrections : Int)
    (delay : TimeInternal) : Int :=
  ingress.ns - origin.ns - corrections - delay.ns

/-- The time of origin can be represented. -/
def OriginFits (origin : Timestamp) : Prop :=
  origin.secondsField.msb = 0 ∧ Representable origin

instance (origin : Timestamp) : Decidable (OriginFits origin) :=
  inferInstanceAs (Decidable (_ ∧ _))

/-- The difference of the nanoseconds fields in the last subtraction: of what
    the other subtractions leave, and of the path delay. -/
def lastDifference (ingress : TimeInternal) (origin : Timestamp)
    (correction delay : TimeInternal) : Int :=
  (subTime (subTime ingress (internalTime origin)) correction).nanoseconds.toInt -
    delay.nanoseconds.toInt

/-- The differences of the nanoseconds fields do not wrap, or their wraps cancel,
    and the seconds left in the end fit their field. -/
structure ExactSteps (ingress : TimeInternal) (origin : Timestamp)
    (correction delay : TimeInternal) (exact : Int) : Prop where
  carries : carry32 (ingress.nanoseconds.toInt - origin.nanosecondsField.toNat) +
    carry32 (lastDifference ingress origin correction delay) = 0
  seconds : InInt32 ((exact - ((lastDifference ingress origin correction delay).bmod
    (2 ^ 32)).tmod 1000000000) / 1000000000)

/-- Taking nothing off a time leaves its nanoseconds. -/
theorem ns_subTime_zero {t : TimeInternal} (h : t.Normal) : (subTime t .zero).ns = t.ns := by
  unfold TimeInternal.Normal at h
  have hrange : InInt32 (t.nanoseconds.toInt - (0 : Int)) := by
    unfold InInt32
    omega
  have hdiv := Int.mul_tdiv_add_tmod t.nanoseconds.toInt 1000000000
  have hlo := Int.lt_tmod_of_pos t.nanoseconds.toInt (by decide : (0 : Int) < 1000000000)
  have hhi := Int.tmod_lt_of_pos t.nanoseconds.toInt (by decide : (0 : Int) < 1000000000)
  have hzero : t.nanoseconds.toInt.tdiv 1000000000 = 0 := by
    rcases Int.le_total 0 t.nanoseconds.toInt with hpos | hneg
    · have hrest := Int.tmod_nonneg 1000000000 hpos
      omega
    · have hrest := Int.tmod_nonneg 1000000000 (Int.neg_nonneg_of_nonpos hneg)
      rw [Int.neg_tmod] at hrest
      omega
  rw [(ns_subTime t .zero).1, TimeInternal.ns, show TimeInternal.zero.seconds.toInt = 0 from rfl,
    show TimeInternal.zero.nanoseconds.toInt = 0 from rfl, bmod_of_inInt32 hrange, Int.sub_zero,
    Int.sub_zero, hzero, Int.add_zero, bmod_of_inInt32 (inInt32_toInt t.seconds)]
  omega

/-- The delay is taken off, whatever the mechanism. -/
theorem ns_subtractDelay (c : PtpClock) {t : TimeInternal} (h : t.Normal) :
    (subtractDelay c t).ns = (subTime t (pathDelay c)).ns := by
  unfold subtractDelay pathDelay
  cases c.portDS.delayMechanism with
  | e2e => rfl
  | p2p => rfl
  | disabled => exact (ns_subTime_zero h).symm

/-- What the two first subtractions leave, up to multiples of `2^32` seconds. -/
theorem ns_masterToSlave (ingress : TimeInternal) {origin : Timestamp}
    (horigin : OriginFits origin) {correction : TimeInternal}
    (hnormal : correction.Normal) :
    ∃ k, (subTime (subTime ingress (internalTime origin)) correction).ns
      = ingress.ns - origin.ns - correction.ns +
        carry32 (ingress.nanoseconds.toInt - origin.nanosecondsField.toNat) +
        4294967296000000000 * k := by
  rcases ns_subTime_wrapped ingress (internalTime origin) with ⟨k, hk⟩
  rcases ns_subTime_wrapped (subTime ingress (internalTime origin)) correction with ⟨k', hk'⟩
  have hfirst := (ns_subTime ingress (internalTime origin)).2
  unfold TimeInternal.Normal at hfirst hnormal
  -- the second subtraction is of two fields below a second
  rw [(carry32_eq_zero_iff _).mpr (by unfold InInt32; omega)] at hk'
  -- the field of the wire is stored as a signed one: a wrap that the difference takes back
  have hseconds : (internalTime origin).seconds.toInt = origin.secondsField.lsb.toNat := by
    have hlt : origin.secondsField.lsb.toNat < 2147483647 := by
      have h := horigin.2
      rw [Representable, UInt32.lt_iff_toNat_lt] at h
      exact h
    rw [internalTime, ← Int32.toInt_toBitVec, UInt32.toBitVec_toInt32, BitVec.toInt_eq_toNat_bmod,
      UInt32.toNat_toBitVec]
    exact Int.bmod_eq_of_le (by omega) (by omega)
  have hnanos : (internalTime origin).nanoseconds.toInt
      = (origin.nanosecondsField.toNat : Int).bmod (2 ^ 32) := by
    rw [internalTime, ← Int32.toInt_toBitVec, UInt32.toBitVec_toInt32, BitVec.toInt_eq_toNat_bmod,
      UInt32.toNat_toBitVec]
  have hfield := bmod_eq_add_carry32
    (ingress.nanoseconds.toInt - (origin.nanosecondsField.toNat : Int).bmod (2 ^ 32))
  rw [Int.sub_bmod_bmod, bmod_eq_add_carry32 (ingress.nanoseconds.toInt - _)] at hfield
  have horiginNs : (internalTime origin).ns = origin.secondsField.lsb.toNat * 1000000000 +
      (origin.nanosecondsField.toNat : Int).bmod (2 ^ 32) := by
    rw [TimeInternal.ns, hseconds, hnanos]
  rw [hnanos, horiginNs] at hk
  refine ⟨k + k', ?_⟩
  rw [hk', hk, Timestamp.ns, horigin.1, UInt16.toNat_zero]
  omega

/-- A number of nanoseconds that is exact up to wraps is exact when the wraps of
    the nanoseconds cancel and the seconds fit. -/
theorem eq_iff_of_wrapped {S r exact k1 k2 k least : Int} (hS : InInt32 S)
    (h1 : -4 < k1 ∧ k1 < 4) (h2 : -4 < k2 ∧ k2 < 4) (hleast : 0 ≤ least ∧ least ≤ 2)
    (h : S * 1000000000 + r = exact + 4294967296 * k1 + 4294967296 * k2 -
      281474976710656 * least + 4294967296000000000 * k) :
    S * 1000000000 + r = exact ↔
      least = 0 ∧ 4294967296 * k1 + 4294967296 * k2 = 0 ∧
        InInt32 ((exact - r) / 1000000000) := by
  constructor
  · intro heq
    refine ⟨by omega, by omega, ?_⟩
    rw [show (exact - r) / 1000000000 = S by omega]
    exact hS
  · rintro ⟨hzero, hcancel, hfits⟩
    unfold InInt32 at hS hfits
    omega

/-- When the offset computed is the exact one. `least` counts the corrections
    whose sign cannot be taken off. -/
theorem ns_unfilteredOffset_iff (c : PtpClock) (ingress : TimeInternal) {origin : Timestamp}
    (horigin : OriginFits origin) {correction : TimeInternal} (hnormal : correction.Normal)
    {corrections least : Int} (hleast : 0 ≤ least ∧ least ≤ 2)
    (hcorrection : correction.ns = corrections + 281474976710656 * least) :
    (unfilteredOffset ingress (internalTime origin) correction c).ns
        = exactOffset ingress origin corrections (pathDelay c) ↔
      least = 0 ∧ ExactSteps ingress origin correction (pathDelay c)
        (exactOffset ingress origin corrections (pathDelay c)) := by
  rcases ns_masterToSlave ingress horigin hnormal with ⟨k, hk⟩
  have htms := (ns_subTime (subTime ingress (internalTime origin)) correction).2
  have hexact : exactOffset ingress origin corrections (pathDelay c)
      = ingress.ns - origin.ns - corrections - (pathDelay c).ns := rfl
  generalize exactOffset ingress origin corrections (pathDelay c) = exact at hexact ⊢
  have hsteps : ExactSteps ingress origin correction (pathDelay c) exact ↔
      carry32 (ingress.nanoseconds.toInt - origin.nanosecondsField.toNat) +
          carry32 (lastDifference ingress origin correction (pathDelay c)) = 0 ∧
        InInt32 ((exact - ((lastDifference ingress origin correction (pathDelay c)).bmod
          (2 ^ 32)).tmod 1000000000) / 1000000000) :=
    ⟨fun h => ⟨h.carries, h.seconds⟩, fun h => ⟨h.1, h.2⟩⟩
  rw [hsteps, unfilteredOffset, ns_subtractDelay c htms, (ns_subTime _ (pathDelay c)).1]
  have hdiff : lastDifference ingress origin correction (pathDelay c)
      = (subTime (subTime ingress (internalTime origin)) correction).nanoseconds.toInt -
        (pathDelay c).nanoseconds.toInt := rfl
  rw [← hdiff]
  -- what the two differences of the nanoseconds fields wrap by, and the seconds
  have hfield := origin.nanosecondsField.toNat_lt
  have hing := inInt32_toInt ingress.nanoseconds
  have hdelay := inInt32_toInt (pathDelay c).nanoseconds
  have hfirst := inInt32_bmod (ingress.nanoseconds.toInt - origin.nanosecondsField.toNat)
  have hlast := inInt32_bmod (lastDifference ingress origin correction (pathDelay c))
  rw [bmod_eq_add_carry32] at hfirst hlast
  rcases exists_carry32 (ingress.nanoseconds.toInt - origin.nanosecondsField.toNat) with
    ⟨k1, hk1⟩
  rcases exists_carry32 (lastDifference ingress origin correction (pathDelay c)) with ⟨k2, hk2⟩
  rw [hk1] at hk hfirst ⊢
  rw [bmod_eq_add_carry32 (lastDifference ingress origin correction (pathDelay c)), hk2]
  rw [hk2] at hlast
  generalize lastDifference ingress origin correction (pathDelay c) = last at hdiff hlast ⊢
  generalize subTime (subTime ingress (internalTime origin)) correction = tms at hk htms hdiff ⊢
  have hsum := Int.mul_tdiv_add_tmod (last + 4294967296 * k2) 1000000000
  generalize (last + 4294967296 * k2).tdiv 1000000000 = q at hsum ⊢
  generalize (last + 4294967296 * k2).tmod 1000000000 = r at hsum ⊢
  have hseconds := bmod_eq_add_carry32 (tms.seconds.toInt - (pathDelay c).seconds.toInt + q)
  rcases exists_carry32 (tms.seconds.toInt - (pathDelay c).seconds.toInt + q) with ⟨k3, hk3⟩
  rw [hk3] at hseconds
  have hdelayNs : (pathDelay c).ns
      = (pathDelay c).seconds.toInt * 1000000000 + (pathDelay c).nanoseconds.toInt := rfl
  rw [TimeInternal.ns] at hk
  unfold TimeInternal.Normal at htms
  unfold InInt32 at hfirst hlast hing hdelay
  refine eq_iff_of_wrapped (k := k + k3) (inInt32_bmod _) ?_ ?_ hleast ?_
  · omega
  · omega
  · rw [hseconds]
    omega

/-- Ranges in which every subtraction is exact: the time of arrival is not too
    far behind the nanoseconds field of the origin, and the path delay is no more
    than a second away from its own range. -/
theorem exactSteps_of_fits (ingress : TimeInternal) (origin : Timestamp)
    (correction delay : TimeInternal) {exact : Int}
    (hfirst : InInt32 (ingress.nanoseconds.toInt - origin.nanosecondsField.toNat))
    (hdelay : -1147483648 ≤ delay.nanoseconds.toInt ∧ delay.nanoseconds.toInt ≤ 1147483648)
    (hexact : -2147483647000000000 ≤ exact ∧ exact ≤ 2147483647000000000) :
    ExactSteps ingress origin correction delay exact := by
  have htms := (ns_subTime (subTime ingress (internalTime origin)) correction).2
  unfold TimeInternal.Normal at htms
  have hlast : InInt32 (lastDifference ingress origin correction delay) := by
    unfold lastDifference InInt32
    omega
  refine ⟨?_, ?_⟩
  · rw [(carry32_eq_zero_iff _).mpr hfirst, (carry32_eq_zero_iff _).mpr hlast]
    rfl
  · have hlo := Int.lt_tmod_of_pos ((lastDifference ingress origin correction delay).bmod
      (2 ^ 32)) (by decide : (0 : Int) < 1000000000)
    have hhi := Int.tmod_lt_of_pos ((lastDifference ingress origin correction delay).bmod
      (2 ^ 32)) (by decide : (0 : Int) < 1000000000)
    unfold InInt32
    omega

/-! ### The messages -/

/-- The arguments of a call of `updateOffset`. -/
def offsetCall : Effect → Option (TimeInternal × TimeInternal × TimeInternal)
  | .offset _ _ ingress origin correction => some (ingress, origin, correction)
  | _ => none

/-- The calls of `updateOffset`, the newest first. -/
def offsetCalls (s : Port) : List (TimeInternal × TimeInternal × TimeInternal) :=
  s.history.filterMap offsetCall

/-- The clock is as it was: the offset, the filters, the servo and the hardware. -/
structure SameClock (s s' : Port) : Prop where
  offsetFromMaster : s'.clock.currentDS.offsetFromMaster = s.clock.currentDS.offsetFromMaster
  ofmFilt : s'.clock.ofmFilt = s.clock.ofmFilt
  owdFilt : s'.clock.owdFilt = s.clock.owdFilt
  observedDrift : s'.clock.observedDrift = s.clock.observedDrift
  clockOps : s'.clockOps = s.clockOps

/-- A number of nanoseconds that a time can hold. -/
def OffsetFits (v : Int) : Prop := ∃ t : TimeInternal, t.ns = v

/-- A message that brings the offset of `s` up to date uses the exact one, or is
    dropped when this or the time of origin cannot be represented. -/
structure SetsExactly (s s' : Port) (ingress : TimeInternal) (origin : Timestamp)
    (corrections : Int) : Prop where
  exact : OriginFits origin →
    OffsetFits (exactOffset ingress origin corrections (pathDelay s.clock)) →
    ∃ a b c, offsetCalls s' = (a, b, c) :: offsetCalls s ∧
      (unfilteredOffset a b c s.clock).ns
        = exactOffset ingress origin corrections (pathDelay s.clock)
  dropped : ¬ (OriginFits origin ∧
      OffsetFits (exactOffset ingress origin corrections (pathDelay s.clock))) →
    offsetCalls s' = offsetCalls s ∧ SameClock s s'

/-- A one-step Sync that is accepted. -/
structure AcceptsSync (m : Message) (s : Port) : Prop where
  type : MsgType.ofCode m.header.messageType = some .sync
  length : MsgType.sync.length ≤ m.buf.length
  state : s.clock.portDS.portState = .uncalibrated ∨ s.clock.portDS.portState = .slave
  notFromSelf : isSamePortIdentity s.clock.portDS.portIdentity m.header.sourcePortIdentity = false
  fromParent : isFromCurrentParent m s = true
  oneStep : isTwoStep m = false

/-- A Follow_Up that is accepted, when `sync` is the Sync it is waited for with. -/
structure AcceptsFollowUp (sync m : Message) (s : Port) : Prop where
  type : MsgType.ofCode m.header.messageType = some .followUp
  length : MsgType.followUp.length ≤ m.buf.length
  state : s.clock.portDS.portState = .uncalibrated ∨ s.clock.portDS.portState = .slave
  notFromSelf : isSamePortIdentity s.clock.portDS.portIdentity m.header.sourcePortIdentity = false
  fromParent : isFromCurrentParent m s = true
  waiting : s.clock.waitingForFollowUp = true
  sequenceId : s.clock.recvSyncSequenceId = m.header.sequenceId
  ingress : s.clock.timestampSyncRecieve = sync.time
  correction : s.clock.correctionFieldSync
    = scaledNanosecondsToInternalTime sync.header.correctionfield

/-- A two-step Sync that is accepted leaves what its Follow_Up is used with. -/
theorem stored_of_twoStep (env : StepEnv) {m : Message} {s : Port}
    (hparent : isFromCurrentParent m s = true) (htwo : isTwoStep m = true) :
    let s' := syncFollowing env m false s
    s'.clock.waitingForFollowUp = true ∧ s'.clock.recvSyncSequenceId = m.header.sequenceId ∧
      s'.clock.timestampSyncRecieve = m.time ∧
      s'.clock.correctionFieldSync = scaledNanosecondsToInternalTime m.header.correctionfield := by
  unfold syncFollowing
  rw [if_neg Bool.false_ne_true, if_neg (by rw [hparent]; decide)]
  dsimp only
  rw [if_pos htwo]
  exact ⟨rfl, rfl, rfl, rfl⟩

/-- The servo, and the request behind it, call `updateOffset` no more. -/
theorem offsetCalls_steered (env : StepEnv) (a b c : TimeInternal) (u : Port) :
    offsetCalls (issueDelayReqTimerExpired env (updateClock env (updateOffset a b c u)))
      = offsetCalls u := by
  have hrequests : ∀ {v w : View}, Requests v w →
      w.history.filterMap offsetCall = v.history.filterMap offsetCall := by
    intro v w h
    cases h with
    | nothing => rfl
    | delayReq bytes => rfl
    | pDelayReq bytes egress t1 _ => rfl
  change (view _).history.filterMap offsetCall = (view u).history.filterMap offsetCall
  cases steers_updateClock env (rfl : view u = view u) a b c with
  | keep h => exact hrequests h
  | reset h => exact (hrequests h).trans rfl

theorem offsetCalls_sync (env : StepEnv) {m : Message} {s : Port} (h : AcceptsSync m s) :
    offsetCalls (dispatch env m s) = (m.time, toInternalTime env.localTime (msgUnpackSync m.buf),
      scaledNanosecondsToInternalTime m.header.correctionfield) :: offsetCalls s := by
  have hfollow : offsetCalls (syncFollowing env m false s)
      = (m.time, toInternalTime env.localTime (msgUnpackSync m.buf),
        scaledNanosecondsToInternalTime m.header.correctionfield) :: offsetCalls s := by
    unfold syncFollowing
    rw [if_neg Bool.false_ne_true, if_neg (by rw [h.fromParent]; decide)]
    dsimp only
    rw [if_neg (by rw [h.oneStep]; decide), offsetCalls_steered]
    rfl
  rw [← hfollow]
  unfold dispatch handleSync
  dsimp only
  rw [h.type, h.notFromSelf]
  dsimp only
  rw [if_neg (Nat.not_lt.mpr h.length)]
  rcases h.state with hst | hst
  · rw [hst]
  · rw [hst]

theorem offsetCalls_followUp (env : StepEnv) {sync m : Message} {s : Port}
    (h : AcceptsFollowUp sync m s) : offsetCalls (dispatch env m s)
      = (sync.time, toInternalTime env.localTime (msgUnpackFollowUp m.buf),
        addTime (scaledNanosecondsToInternalTime m.header.correctionfield)
          (scaledNanosecondsToInternalTime sync.header.correctionfield)) :: offsetCalls s := by
  have hfollow : offsetCalls (followUpFollowing env m s)
      = (sync.time, toInternalTime env.localTime (msgUnpackFollowUp m.buf),
        addTime (scaledNanosecondsToInternalTime m.header.correctionfield)
          (scaledNanosecondsToInternalTime sync.header.correctionfield)) :: offsetCalls s := by
    rw [← h.ingress, ← h.correction]
    unfold followUpFollowing
    rw [if_neg (by rw [h.waiting]; decide), if_neg (by rw [h.fromParent]; decide),
      if_neg (not_not.mpr h.sequenceId), offsetCalls_steered]
    rfl
  rw [← hfollow]
  unfold dispatch handleFollowUp
  dsimp only
  rw [h.type, h.notFromSelf]
  dsimp only
  rw [if_neg (Nat.not_lt.mpr h.length), if_neg Bool.false_ne_true]
  rcases h.state with hst | hst
  · rw [hst]
  · rw [hst]

/-- The least correction field is the one whose sign cannot be taken off. -/
def isLeast (x : Int64) : Int := if x = Int64.minValue then 1 else 0

theorem ns_correction (x : Int64) : (scaledNanosecondsToInternalTime x).ns
    = correctionNs x + 281474976710656 * isLeast x := by
  rw [(ns_scaledNanoseconds x).1, isLeast]
  split
  · rfl
  · rfl

theorem isLeast_range (x : Int64) : 0 ≤ isLeast x ∧ isLeast x ≤ 1 := by
  rw [isLeast]
  split
  · decide
  · decide

theorem isLeast_eq_zero_iff (x : Int64) : isLeast x = 0 ↔ x ≠ Int64.minValue := by
  rw [isLeast]
  split
  next h => exact iff_of_false (by decide) (not_not.mpr h)
  next h => exact iff_of_true rfl h

/-- A message that hands its times to `updateOffset` uses the exact offset
    exactly when every step of the computation is exact. -/
theorem setsExactly_of_call (env : StepEnv) {s s' : Port} {ingress : TimeInternal}
    {origin : Timestamp} {correction : TimeInternal} {corrections least : Int}
    (hcall : offsetCalls s' = (ingress, toInternalTime env.localTime origin, correction) ::
      offsetCalls s) (hnormal : correction.Normal) (hleast : 0 ≤ least ∧ least ≤ 2)
    (hcorrection : correction.ns = corrections + 281474976710656 * least) :
    SetsExactly s s' ingress origin corrections ↔
      OriginFits origin ∧ least = 0 ∧ ExactSteps ingress origin correction (pathDelay s.clock)
        (exactOffset ingress origin corrections (pathDelay s.clock)) := by
  constructor
  · intro h
    -- nothing is ever dropped
    have hfits : OriginFits origin ∧
        OffsetFits (exactOffset ingress origin corrections (pathDelay s.clock)) := by
      by_contra hno
      have hlen := congrArg List.length (hcall.symm.trans (h.dropped hno).1)
      rw [List.length_cons] at hlen
      omega
    rcases h.exact hfits.1 hfits.2 with ⟨a, b, c, habc, hns⟩
    have hargs := hcall.symm.trans habc
    simp only [List.cons.injEq, Prod.mk.injEq, and_true] at hargs
    rcases hargs with ⟨rfl, rfl, rfl⟩
    rw [toInternalTime_representable hfits.1.2] at hns
    exact ⟨hfits.1,
      (ns_unfilteredOffset_iff s.clock ingress hfits.1 hnormal hleast hcorrection).mp hns⟩
  · rintro ⟨horigin, hexact⟩
    have hns := (ns_unfilteredOffset_iff s.clock ingress horigin hnormal hleast hcorrection).mpr
      hexact
    rw [toInternalTime_representable horigin.2] at hcall
    exact ⟨fun _ _ => ⟨_, _, _, hcall, hns⟩, fun hno => absurd ⟨horigin, _, hns⟩ hno⟩

/-- The Syncs, and the pairs of a Sync and its Follow_Up, that are used with
    their exact offset. -/
theorem setsExactly_iff (env : StepEnv) (sync m : Message) (s : Port) :
    (AcceptsSync m s →
      (SetsExactly s (dispatch env m s) m.time (msgUnpackSync m.buf)
          (correctionNs m.header.correctionfield) ↔
        OriginFits (msgUnpackSync m.buf) ∧ m.header.correctionfield ≠ Int64.minValue ∧
        ExactSteps m.time (msgUnpackSync m.buf)
          (scaledNanosecondsToInternalTime m.header.correctionfield) (pathDelay s.clock)
          (exactOffset m.time (msgUnpackSync m.buf) (correctionNs m.header.correctionfield)
            (pathDelay s.clock)))) ∧
    (AcceptsFollowUp sync m s →
      (SetsExactly s (dispatch env m s) sync.time (msgUnpackFollowUp m.buf)
          (correctionNs m.header.correctionfield + correctionNs sync.header.correctionfield) ↔
        OriginFits (msgUnpackFollowUp m.buf) ∧
        (m.header.correctionfield ≠ Int64.minValue ∧
          sync.header.correctionfield ≠ Int64.minValue) ∧
        ExactSteps sync.time (msgUnpackFollowUp m.buf)
          (addTime (scaledNanosecondsToInternalTime m.header.correctionfield)
            (scaledNanosecondsToInternalTime sync.header.correctionfield)) (pathDelay s.clock)
          (exactOffset sync.time (msgUnpackFollowUp m.buf)
            (correctionNs m.header.correctionfield + correctionNs sync.header.correctionfield)
            (pathDelay s.clock)))) := by
  have hm := isLeast_range m.header.correctionfield
  have hsync := isLeast_range sync.header.correctionfield
  have hmSmall := (ns_scaledNanoseconds m.header.correctionfield).2
  have hsyncSmall := (ns_scaledNanoseconds sync.header.correctionfield).2
  constructor
  · intro h
    rw [← isLeast_eq_zero_iff]
    exact setsExactly_of_call env (offsetCalls_sync env h) hmSmall.normal ⟨hm.1, by omega⟩
      (ns_correction _)
  · intro h
    have hadd := ns_addTime hmSmall hsyncSmall
    have hboth : m.header.correctionfield ≠ Int64.minValue ∧
        sync.header.correctionfield ≠ Int64.minValue ↔
        isLeast m.header.correctionfield + isLeast sync.header.correctionfield = 0 := by
      rw [← isLeast_eq_zero_iff, ← isLeast_eq_zero_iff]
      omega
    rw [hboth]
    refine setsExactly_of_call env (offsetCalls_followUp env h) hadd.2 (by omega) ?_
    rw [hadd.1, ns_correction, ns_correction]
    omega

/-- A one-step Sync of the clock 2 with a time of origin, that arrives at the
    second 9. -/
def syncFrom (origin : List UInt8) : Message :=
  let buf := peerMessage .sync 2 0 7 origin
  ⟨msgUnpackHeader buf, ⟨9, 0⟩, buf⟩

/-- A Sync of the second 1. -/
def earlySync : Message := syncFrom [0, 0, 0, 0, 0, 1, 0, 0, 0, 0]

/-- A Sync of the second `2^31`. -/
def lateSync : Message := syncFrom [0, 0, 0x80, 0, 0, 0, 0, 0, 0, 0]

/-- A port that has begun to follow the clock 2. -/
def followingPort : Port :=
  run engineStep (powerUp defaultRtOpts)
    [quietStep [], quietStep [peerAnnounce 2 2 0], quietStep []]

/-- The Sync of the second 1 is used with its exact offset. -/
theorem setsExactly_early : SetsExactly followingPort
    (dispatch (quietEnv []) earlySync followingPort) earlySync.time (msgUnpackSync earlySync.buf)
    (correctionNs earlySync.header.correctionfield) :=
  ((setsExactly_iff (quietEnv []) default earlySync followingPort).1 ⟨by decide, by decide,
    Or.inl (by decide +kernel), by decide +kernel, by decide +kernel, by decide⟩).mpr
    ⟨by decide, by decide, by decide +kernel, by decide +kernel⟩

/-- The seconds of the other one do not fit, and it is used with whatever the
    local variable held. -/
theorem not_setsExactly_late : AcceptsSync lateSync followingPort ∧ ¬ SetsExactly followingPort
    (dispatch (quietEnv []) lateSync followingPort) lateSync.time (msgUnpackSync lateSync.buf)
    (correctionNs lateSync.header.correctionfield) := by
  refine ⟨⟨by decide, by decide, Or.inl (by decide +kernel), by decide +kernel,
    by decide +kernel, by decide⟩, fun h => ?_⟩
  have hcalls := (h.dropped fun hfits => absurd hfits.1 (by decide)).1
  exact absurd (congrArg List.length hcalls) (by decide +kernel)

end Ptp

end RtosLwip
