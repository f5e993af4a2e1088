import RtosLwip.Base.Checked
import RtosLwip.Base.Run
import RtosLwip.Ptp.Engine
import RtosLwip.Ptp.ExactSums
import RtosLwip.Ptp.Servo

/-!
# The Drift that the Servo Observes

The integral term of the PI controller, over whole runs of `updateClock` with the
sync interval of one second. It is clamped after each offset that the controller
takes, and an offset that resets the clock sets it back, so it never leaves
`ADJ_FREQ_MAX`. From this it follows that what the controller computes from the next
offset fits 32 bits on the way: the drift before it is clamped, the proportional
term, their sum and its negation.

## Main definitions

* `piController`: The controller with checked operations.
* `servoStep`: An offset arrives, and the clock is updated.
* `Tuned`: The interval, and the attenuations as `_ptpdStartup` leaves them.
* `DriftBounded`: The drift is inside `ADJ_FREQ_MAX`.
* `BelowReset`: The offset is one that the frequency is adjusted for.

## Theorems

* `servoStep_belowReset`: One update with such an offset.
* `servoStep_bounded`: Every update keeps the drift bounded.
* `drift_run`: A whole run.
-/

namespace RtosLwip

namespace Ptp

/-- The controller, with checked operations: the drift and the adjustment. -/
def piController (offsetNorm observedDrift ai ap : Int32) : Option (Int32 × Int32) := do
  let drift ← checkedAdd observedDrift (← checkedDiv offsetNorm ai)
  let drift := if adjFreqMax < drift then adjFreqMax
    else if drift < -adjFreqMax then -adjFreqMax else drift
  let adj ← checkedAdd (← checkedDiv offsetNorm ap) drift
  return (drift, ← checkedNeg adj)

/-- An offset from the master, and `updateClock`. -/
def servoStep (s : Port) (e : StepEnv × TimeInternal) : Port :=
  updateClock e.1 { s with clock.currentDS.offsetFromMaster := e.2 }

/-- The sync interval is a second, and there is no negative or zero attenuation. -/
structure Tuned (s : Port) : Prop where
  interval : s.clock.portDS.logSyncInterval = 0
  ai : 1 ≤ s.clock.servo.ai
  ap : 1 ≤ s.clock.servo.ap

/-- The drift is inside `ADJ_FREQ_MAX`. -/
def DriftBounded (s : Port) : Prop :=
  -adjFreqMax.toInt ≤ s.clock.observedDrift.toInt ∧ s.clock.observedDrift.toInt ≤ adjFreqMax.toInt

/-- The offset is below the threshold of a reset. -/
def BelowReset (offset : TimeInternal) : Prop :=
  ¬ (offset.seconds ≠ 0 ∨ maxAdjOffsetNs < offset.nanoseconds.abs)

instance (offset : TimeInternal) : Decidable (BelowReset offset) :=
  inferInstanceAs (Decidable (¬ _))

/-- The port with a drift. -/
def Port.withDrift (s : Port) (offset : TimeInternal) (drift : Int32) : Port :=
  { s with clock.currentDS.offsetFromMaster := offset, clock.observedDrift := drift }

/-- What the controller comes to is what the update does. -/
structure Controlled (s : Port) (e : StepEnv × TimeInternal) : Prop where
  computed : ∃ drift adj, piController e.2.nanoseconds s.clock.observedDrift
      s.clock.servo.ai.toInt32 s.clock.servo.ap.toInt32 = some (drift, adj) ∧
    servoStep s e = if s.clock.servo.noAdjust then s.withDrift e.2 drift
      else adjFreq adj (s.withDrift e.2 drift)

theorem toInt_adjFreqMax : adjFreqMax.toInt = 512000 := rfl

theorem toInt_neg_adjFreqMax : (-adjFreqMax).toInt = -512000 := rfl

/-- The clamp takes every drift into its range. -/
theorem clamped (drift : Int32) :
    -512000 ≤ (if adjFreqMax < drift then adjFreqMax
        else if drift < -adjFreqMax then -adjFreqMax else drift).toInt ∧
      (if adjFreqMax < drift then adjFreqMax
        else if drift < -adjFreqMax then -adjFreqMax else drift).toInt ≤ 512000 := by
  simp only [Int32.lt_iff_toInt_lt, toInt_adjFreqMax, toInt_neg_adjFreqMax]
  split
  next => rw [toInt_adjFreqMax]; omega
  next hle =>
    split
    next => rw [toInt_neg_adjFreqMax]; omega
    next => omega

/-- An offset below the threshold has at most a tenth of a second. -/
theorem nanoseconds_of_belowReset {offset : TimeInternal} (hnormal : offset.NormalForm)
    (h : BelowReset offset) :
    -100000000 ≤ offset.nanoseconds.toInt ∧ offset.nanoseconds.toInt ≤ 100000000 := by
  have habs := (not_or.mp h).2
  rcases hnormal.normal with ⟨hlo, hhi⟩
  have hmin : offset.nanoseconds.toBitVec ≠ BitVec.intMin 32 := by
    intro heq
    have hint : offset.nanoseconds.toInt = -2147483648 := congrArg BitVec.toInt heq
    omega
  have hnat : offset.nanoseconds.abs.toInt = offset.nanoseconds.toInt.natAbs :=
    BitVec.toInt_abs_eq_natAbs_of_ne_intMin hmin
  rw [Int32.lt_iff_toInt_lt, hnat, show maxAdjOffsetNs.toInt = 100000000 from rfl] at habs
  omega

/-- A quotient is not further from zero than its dividend. -/
theorem tdiv_bounds {v d m : Int} (hd : 0 < d) (hlo : -m ≤ v) (hhi : v ≤ m) :
    -m ≤ v.tdiv d ∧ v.tdiv d ≤ m := by
  rcases Int.le_total 0 v with hpos | hneg
  · have hle := Int.tdiv_le_self d hpos
    have hge := Int.tdiv_nonneg hpos hd.le
    omega
  · have hle := Int.tdiv_le_self d (Int.neg_nonneg_of_nonpos hneg)
    have hge := Int.tdiv_nonneg (Int.neg_nonneg_of_nonpos hneg) hd.le
    rw [Int.neg_tdiv] at hle hge
    omega

/-- An attenuation is positive as an `int32_t` too. -/
theorem toInt32_pos {a : Int16} (h : 1 ≤ a) : 0 < a.toInt32.toInt := by
  rw [Int16.toInt_toInt32]
  exact Int.lt_of_lt_of_le (by decide) (Int16.le_iff_toInt_le.mp h)

/-- With a bounded drift and an offset of at most a tenth of a second nothing that the
    controller computes leaves 32 bits. -/
theorem piController_eq {offset drift ai ap : Int32}
    (hoffset : -100000000 ≤ offset.toInt ∧ offset.toInt ≤ 100000000)
    (hdrift : -512000 ≤ drift.toInt ∧ drift.toInt ≤ 512000) (hai : 0 < ai.toInt)
    (hap : 0 < ap.toInt) :
    piController offset drift ai ap =
      let drift' := if adjFreqMax < drift + offset / ai then adjFreqMax
        else if drift + offset / ai < -adjFreqMax then -adjFreqMax else drift + offset / ai
      some (drift', -(offset / ap + drift')) := by
  have hi := tdiv_bounds hai hoffset.1 hoffset.2
  have hp := tdiv_bounds hap hoffset.1 hoffset.2
  rw [← toInt_div32 offset hai] at hi
  rw [← toInt_div32 offset hap] at hp
  have hclamp := clamped (drift + offset / ai)
  have hsum : InInt32 (drift.toInt + (offset / ai).toInt) := by
    unfold InInt32
    omega
  rw [piController, checkedDiv_eq offset hai]
  simp only [Option.bind_eq_bind, Option.bind_some]
  rw [checkedAdd_eq hsum, Option.bind_some, checkedDiv_eq offset hap, Option.bind_some]
  generalize (if adjFreqMax < drift + offset / ai then adjFreqMax
    else if drift + offset / ai < -adjFreqMax then -adjFreqMax else drift + offset / ai) = drift'
    at hclamp ⊢
  have hout : InInt32 ((offset / ap).toInt + drift'.toInt) := by
    unfold InInt32
    omega
  have hneg : InInt32 (-(offset / ap + drift').toInt) := by
    rw [toInt_add32 hout]
    unfold InInt32
    omega
  rw [checkedAdd_eq hout, Option.bind_some, checkedNeg_eq hneg]
  rfl

/-- One update with an offset below the threshold. -/
theorem servoStep_belowReset {s : Port} (htuned : Tuned s) (hbounded : DriftBounded s)
    (e : StepEnv × TimeInternal) (hnormal : e.2.NormalForm) (h : BelowReset e.2) :
    Controlled s e := by
  have hoffset := nanoseconds_of_belowReset hnormal h
  have hpi := piController_eq hoffset hbounded (toInt32_pos htuned.ai) (toInt32_pos htuned.ap)
  refine ⟨_, _, hpi, ?_⟩
  unfold servoStep updateClock
  dsimp only
  rw [if_neg h, htuned.interval]
  rfl

/-- The drift behind an update with an offset below the threshold is clamped. -/
theorem drift_of_belowReset {s : Port} (htuned : Tuned s) (e : StepEnv × TimeInternal)
    (h : BelowReset e.2) : DriftBounded (servoStep s e) ∧ Tuned (servoStep s e) := by
  unfold servoStep updateClock
  dsimp only
  rw [if_neg h]
  split
  · exact ⟨clamped _, htuned.interval, htuned.ai, htuned.ap⟩
  · exact ⟨clamped _, htuned.interval, htuned.ai, htuned.ap⟩

/-- `initClock` sets the drift back. -/
theorem drift_initClock {s : Port} (h : Tuned s) :
    DriftBounded (initClock s) ∧ Tuned (initClock s) := by
  have hzero : -adjFreqMax.toInt ≤ (0 : Int32).toInt ∧ (0 : Int32).toInt ≤ adjFreqMax.toInt := by
    decide
  unfold initClock
  dsimp only
  split
  · exact ⟨hzero, h.interval, h.ai, h.ap⟩
  · exact ⟨hzero, h.interval, h.ai, h.ap⟩

/-- Every update keeps the drift bounded. -/
theorem servoStep_bounded {s : Port} (htuned : Tuned s) (hbounded : DriftBounded s)
    (e : StepEnv × TimeInternal) : DriftBounded (servoStep s e) ∧ Tuned (servoStep s e) := by
  by_cases h : BelowReset e.2
  · exact drift_of_belowReset htuned e h
  · have htuned' : Tuned { s with clock.currentDS.offsetFromMaster := e.2 } :=
      ⟨htuned.interval, htuned.ai, htuned.ap⟩
    unfold servoStep updateClock
    dsimp only
    rw [if_pos (Decidable.not_not.mp h)]
    split
    · exact ⟨hbounded, htuned'⟩
    · split
      · exact ⟨hbounded, htuned'.interval, htuned'.ai, htuned'.ap⟩
      · -- the clock is set, and the servo starts again
        exact drift_initClock ⟨htuned'.interval, htuned'.ai, htuned'.ap⟩

/-- The drift behind any number of updates, from `initClock` on, is inside `ADJ_FREQ_MAX`,
    and what the controller computes from the next offset fits 32 bits. -/
theorem drift_run (s : Port) (h : Tuned s) (offsets : List (StepEnv × TimeInternal))
    (hnormal : ∀ e ∈ offsets, e.2.NormalForm) :
    ∀ past, past <+: offsets →
      DriftBounded (run servoStep (initClock s) past) ∧
        ∀ e, past ++ [e] <+: offsets → BelowReset e.2 →
          Controlled (run servoStep (initClock s) past) e := by
  intro past _
  have hkept : DriftBounded (run servoStep (initClock s) past) ∧
      Tuned (run servoStep (initClock s) past) :=
    run_invariant (I := fun s => DriftBounded s ∧ Tuned s)
      (fun s e hs => servoStep_bounded hs.2 hs.1 e) _ (drift_initClock h) past
  refine ⟨hkept.1, fun e he hbelow => ?_⟩
  have hmem : e ∈ offsets := he.subset (List.mem_append_right _ List.mem_cons_self)
  exact servoStep_belowReset hkept.2 hkept.1 e (hnormal e hmem) hbelow

/-- A port whose servo has the attenuations 16 and 2. -/
def tunedPort : Port where
  clock := { (default : PtpClock) with servo := ⟨false, false, 2, 16, 6, 1⟩ }
  timers _ := .idle
  clockOps := []
  history := []

/-- Nine hundredths of a second, which the servo steers for, and seven seconds, for which
    it sets the clock. -/
def tunedOffsets : List (StepEnv × TimeInternal) :=
  [(quietEnv [], ⟨0, 90000000⟩), (quietEnv [], ⟨-7, -1⟩)]

theorem drift_run_tunedPort :
    DriftBounded (run servoStep (initClock tunedPort) tunedOffsets) ∧
      Controlled (initClock tunedPort) (quietEnv [], ⟨0, 90000000⟩) := by
  have hnormal : ∀ e ∈ tunedOffsets, e.2.NormalForm := by
    intro e he
    rcases List.mem_pair.mp he with rfl | rfl
    · exact ⟨⟨by decide, by decide⟩, by decide, by decide⟩
    · exact ⟨⟨by decide, by decide⟩, by decide, by decide⟩
  have h := drift_run tunedPort ⟨rfl, by decide, by decide⟩ tunedOffsets hnormal
  exact ⟨(h tunedOffsets List.prefix_rfl).1, (h [] List.nil_prefix).2 _ ⟨_, rfl⟩ (by decide)⟩

end Ptp

end RtosLwip
