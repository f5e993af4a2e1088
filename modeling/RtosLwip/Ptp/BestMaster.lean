import RtosLwip.Base.Scan
import RtosLwip.Ptp.Engine

/-!
# The Record the Best Master Clock Algorithm Selects

`bmcDataSetComparison` answers `aBetter` when its first clock is the better
one, and changes the sign of its answer when the clocks are exchanged. The scan
of `bmc` compares the next record with the one it keeps, in this order, and
takes the next one where the answer is negative: where the record it keeps is
the better one.

So every record the scan gives up beats the one it is given up for. The record
selected is unbeaten only when nothing was given up and no later record beats
the first, which leaves the tables all of whose records tie with the first.

## Main definitions

* `SelectsUnbeaten`: `bmc` stores the index of a record that no other beats, and
  decides on it.

## Theorems

* `bmcDataSetComparison_neg`: Exchanging the clocks changes the sign.
* `bmcBest_lt`: The record selected is in the table.
* `selectsUnbeaten_iff`: When `bmc` selects an unbeaten record.
-/

namespace RtosLwip

namespace Ptp

theorem memcmp_neg (a b : List UInt8) : memcmp b a = -memcmp a b := by
  induction a generalizing b with
  | nil => cases b <;> rfl
  | cons x as ih =>
      cases b with
      | nil => rfl
      | cons y bs =>
          simp only [memcmp]
          by_cases hxy : x = y
          · rw [if_pos hxy.symm, if_pos hxy, ih]
          · rw [if_neg (Ne.symm hxy), if_neg hxy]
            rcases UInt8.lt_or_lt_of_ne hxy with h | h
            · rw [if_neg (UInt8.lt_asymm h), if_pos h, Int.neg_neg]
            · rw [if_pos h, if_neg (UInt8.lt_asymm h)]

theorem compareABReturnBetter_neg {α : Type} [LT α] [DecidableLT α]
    (hasymm : ∀ a b : α, a < b → ¬ b < a) (a b : α) (next : Int) :
    compareABReturnBetter b a (-next) = -compareABReturnBetter a b next := by
  simp only [compareABReturnBetter]
  by_cases hba : b < a
  · rw [if_neg (hasymm b a hba), if_pos hba, if_pos hba]
    rfl
  · rw [if_neg hba, if_neg hba]
    split
    · rfl
    · rfl

/-- Exchanging the clocks changes the sign of the comparison. -/
theorem bmcDataSetComparison_neg (own : ClockIdentity) (headerA : MsgHeader)
    (announceA : MsgAnnounce) (headerB : MsgHeader) (announceB : MsgAnnounce) :
    bmcDataSetComparison own headerB announceB headerA announceA
      = -bmcDataSetComparison own headerA announceA headerB announceB := by
  simp only [bmcDataSetComparison]
  rw [memcmp_neg announceA.grandmasterIdentity.toList announceB.grandmasterIdentity.toList,
    memcmp_neg headerA.sourcePortIdentity.clockIdentity.toList
      headerB.sourcePortIdentity.clockIdentity.toList]
  generalize memcmp announceA.grandmasterIdentity.toList announceB.grandmasterIdentity.toList = gm
  generalize memcmp headerA.sourcePortIdentity.clockIdentity.toList
    headerB.sourcePortIdentity.clockIdentity.toList = id
  by_cases hgm : gm = 0
  · rw [if_neg (not_not.mpr hgm), if_neg (by rw [hgm]; decide)]
    generalize announceA.stepsRemoved.toInt = stepsA
    generalize announceB.stepsRemoved.toInt = stepsB
    simp only [bBetter, aBetter]
    split_ifs <;> omega
  · rw [if_pos hgm, if_pos (fun h => hgm (Int.neg_eq_zero.mp h))]
    have hlast :
        (if 0 < -gm then bBetter else aBetter) = -(if 0 < gm then bBetter else aBetter) := by
      simp only [bBetter, aBetter]
      split_ifs <;> omega
    rw [hlast, compareABReturnBetter_neg fun _ _ => UInt8.lt_asymm,
      compareABReturnBetter_neg fun _ _ => Int16.lt_asymm,
      compareABReturnBetter_neg fun _ _ => UInt8.lt_asymm,
      compareABReturnBetter_neg fun _ _ => UInt8.lt_asymm,
      compareABReturnBetter_neg fun _ _ => UInt8.lt_asymm]

/-- The answers of the comparison. -/
def IsAnswer (x : Int) : Prop := x = bBetter ∨ x = 0 ∨ x = aBetter

theorem isAnswer_compareABReturnBetter {α : Type} [LT α] [DecidableLT α] (a b : α) {next : Int}
    (h : IsAnswer next) : IsAnswer (compareABReturnBetter a b next) := by
  simp only [compareABReturnBetter]
  split
  · exact Or.inl rfl
  · split
    · exact Or.inr (Or.inr rfl)
    · exact h

theorem isAnswer_bmcDataSetComparison (own : ClockIdentity) (headerA : MsgHeader)
    (announceA : MsgAnnounce) (headerB : MsgHeader) (announceB : MsgAnnounce) :
    IsAnswer (bmcDataSetComparison own headerA announceA headerB announceB) := by
  have hb : IsAnswer bBetter := Or.inl rfl
  have h0 : IsAnswer 0 := Or.inr (Or.inl rfl)
  have ha : IsAnswer aBetter := Or.inr (Or.inr rfl)
  simp only [bmcDataSetComparison]
  split
  · refine isAnswer_compareABReturnBetter _ _ <| isAnswer_compareABReturnBetter _ _ <|
      isAnswer_compareABReturnBetter _ _ <| isAnswer_compareABReturnBetter _ _ <|
      isAnswer_compareABReturnBetter _ _ ?_
    split
    · exact hb
    · exact ha
  · repeat' split
    all_goals assumption

theorem compareRecords_neg (own : ClockIdentity) (ds : ForeignMasterDS) (a b : Nat) :
    compareRecords own ds b a = -compareRecords own ds a b :=
  bmcDataSetComparison_neg _ _ _ _ _

theorem isAnswer_compareRecords (own : ClockIdentity) (ds : ForeignMasterDS) (a b : Nat) :
    IsAnswer (compareRecords own ds a b) :=
  isAnswer_bmcDataSetComparison _ _ _ _ _

/-- The loop of `bmc` is a scan of the records behind the first. -/
theorem bmcBest_eq_scan (own : ClockIdentity) (ds : ForeignMasterDS) :
    bmcBest own ds
      = scan (fun i best => compareRecords own ds i best < 0) 0 (List.range' 1 (ds.count - 1)) :=
  rfl

theorem mem_zero_range {n i : Nat} (h : 0 < n) : i ∈ 0 :: List.range' 1 (n - 1) ↔ i < n := by
  rw [List.mem_cons, List.mem_range'_1]
  omega

/-- The record selected is in the table. -/
theorem bmcBest_lt (own : ClockIdentity) (ds : ForeignMasterDS) (h : 0 < ds.count) :
    bmcBest own ds < ds.count := by
  rw [bmcBest_eq_scan]
  exact (mem_zero_range h).mp (scan_mem _ 0 _)

/-- The scan keeps a record that no other beats exactly when every record ties
    with the first. -/
theorem bmcBest_unbeaten_iff (own : ClockIdentity) (ds : ForeignMasterDS) :
    (∀ i < ds.count, compareRecords own ds i (bmcBest own ds) ≠ aBetter) ↔
      ∀ i < ds.count, compareRecords own ds i 0 = 0 := by
  rcases Nat.eq_zero_or_pos ds.count with h0 | hpos
  · simp only [h0, Nat.not_lt_zero, false_implies, implies_true]
  constructor
  · intro hall i hi
    have hscan := scan_eq_or_replaces (fun i best => compareRecords own ds i best < 0) 0
      (List.range' 1 (ds.count - 1))
    rw [← bmcBest_eq_scan] at hscan
    generalize bmcBest own ds = best at hall hscan
    rcases hscan with ⟨rfl, hnone⟩ | ⟨b, hb, htest⟩
    · -- nothing was given up, and no record beats the first
      rcases isAnswer_compareRecords own ds i 0 with h | h | h
      · rcases List.mem_cons.mp ((mem_zero_range hpos).mpr hi) with rfl | hmem
        · have hself := compareRecords_neg own ds 0 0
          omega
        · exact absurd (by rw [h]; decide) (hnone i hmem)
      · exact h
      · exact absurd h (hall i hi)
    · -- the record given up for the last beats it
      have hneg := compareRecords_neg own ds best b
      rcases isAnswer_compareRecords own ds b best with h | h | h
      · rw [bBetter] at h
        omega
      · omega
      · exact absurd h (hall b ((mem_zero_range hpos).mp hb))
  · intro htie i hi
    rw [bmcBest_eq_scan, scan_eq_of_forall_not]
    · rw [htie i hi]
      decide
    · intro x hx
      rw [htie x ((mem_zero_range hpos).mp (List.mem_cons_of_mem _ hx))]
      decide

/-- `bmc` stores the index of a record that no other beats, and the state
    decision is made on this record. -/
def SelectsUnbeaten (s : Port) : Prop :=
  let ds := s.clock.foreignMasterDS
  let best := (bmc s).2.clock.foreignMasterDS.best
  (∀ i < ds.count,
    compareRecords s.clock.portDS.portIdentity.clockIdentity ds i best ≠ aBetter) ∧
  bmc s = bmcStateDecision (ds.record best).header (ds.record best).announce
    { s with clock.foreignMasterDS.best := best }

theorem foreignMasterDS_bmcStateDecision (header : MsgHeader) (announce : MsgAnnounce) (s : Port) :
    (bmcStateDecision header announce s).2.clock.foreignMasterDS = s.clock.foreignMasterDS := by
  simp only [bmcStateDecision]
  repeat' split
  all_goals rfl

/-- The index `bmc` stores. -/
theorem best_bmc (s : Port) :
    (bmc s).2.clock.foreignMasterDS.best
      = bmcBest s.clock.portDS.portIdentity.clockIdentity s.clock.foreignMasterDS := by
  simp only [bmc, foreignMasterDS_bmcStateDecision]

/-- `bmc` selects an unbeaten record exactly when every record of the table ties
    with the first. -/
theorem selectsUnbeaten_iff (s : Port) :
    SelectsUnbeaten s ↔ ∀ i < s.clock.foreignMasterDS.count,
      compareRecords s.clock.portDS.portIdentity.clockIdentity s.clock.foreignMasterDS i 0 = 0 := by
  simp only [SelectsUnbeaten, best_bmc, bmcBest_unbeaten_iff, and_iff_left_iff_imp]
  intro _
  rfl

/-- A master of the first priority 2 announces itself, and then one of 3; `bmc`
    selects the second. -/
theorem bmc_selects_the_worse :
    ¬ SelectsUnbeaten (run engineStep (powerUp defaultRtOpts)
      [quietStep [], quietStep [peerAnnounce 2 2 0], quietStep [peerAnnounce 3 3 0]]) := by
  intro h
  exact h.1 0 (by decide +kernel) (by decide +kernel)

end Ptp

end RtosLwip
