import RtosLwip.Ptp.BestMaster
import RtosLwip.Ptp.Invariant

/-!
# The Foreign-Master Table

The table of foreign masters holds at most one record for each port. `addForeign`
searches it once round from the best record, so the search sees every record
only if the best index is one of a record that is there. The index goes stale
when the table is emptied. Until then a state decision is due whenever it might
be, and `bmc` comes before the next search.

A port that is not up yet has a table of capacity zero.

## Main definitions

* `Effect.touches`: The effects on one record of the table.
* `TableOk`: A well-formed table.
* `TableInv`: A well-formed table whose records were all added since the last
  time it was emptied.

## Theorems

* `foreignSearch_eq_some`, `foreignSearch_eq_none`: What the search finds.
* `writes_addForeignRecord`: What `addForeign` does to a well-formed table.
* `foreignMasterDS_wellFormed`: The table in every run.
-/

namespace RtosLwip

namespace Ptp

theorem memcmp_eq_zero_iff {a b : List UInt8} (h : a.length = b.length) :
    memcmp a b = 0 ↔ a = b := by
  induction a generalizing b with
  | nil =>
      cases b with
      | nil => exact iff_of_true rfl rfl
      | cons y bs => exact absurd h (by simp only [List.length_nil, List.length_cons]; omega)
  | cons x as ih =>
      cases b with
      | nil => exact absurd h (by simp only [List.length_nil, List.length_cons]; omega)
      | cons y bs =>
          have hlen : as.length = bs.length := Nat.succ.inj h
          simp only [memcmp, List.cons.injEq]
          by_cases hxy : x = y
          · rw [if_pos hxy, ih hlen, and_iff_right hxy]
          · rw [if_neg hxy]
            refine iff_of_false ?_ fun h => hxy h.1
            split
            · decide
            · decide

theorem isSamePortIdentity_iff (a b : PortIdentity) : isSamePortIdentity a b = true ↔ a = b := by
  have hlen : a.clockIdentity.toList.length = b.clockIdentity.toList.length := by
    rw [Vector.length_toList, Vector.length_toList]
  rw [isSamePortIdentity, Bool.and_eq_true, decide_eq_true_eq, decide_eq_true_eq,
    memcmp_eq_zero_iff hlen, Vector.toList_inj]
  constructor
  · intro h
    cases a
    cases b
    rw [PortIdentity.mk.injEq]
    exact h
  · rintro rfl
    exact ⟨rfl, rfl⟩

/-- A record that the search finds is in the table and is the one sought. -/
theorem foreignSearch_eq_some {ds : ForeignMasterDS} {p : PortIdentity} {n j k : Nat}
    (hj : j < ds.count) (h : foreignSearch ds p n j = some k) :
    k < ds.count ∧ p = (ds.record k).foreignMasterPortIdentity := by
  induction n generalizing j with
  | zero => exact absurd h (by simp only [foreignSearch, reduceCtorEq, not_false_eq_true])
  | succ n ih =>
      rw [foreignSearch] at h
      split at h
      · rename_i hsame
        cases h
        exact ⟨hj, (isSamePortIdentity_iff _ _).mp hsame⟩
      · exact ih (Nat.mod_lt _ (Nat.zero_lt_of_lt hj)) h

/-- A search that finds nothing has seen the records it passed. -/
theorem foreignSearch_eq_none {ds : ForeignMasterDS} {p : PortIdentity} {n j : Nat}
    (hj : j < ds.count) (h : foreignSearch ds p n j = none) (k : Nat) (hk : k < n) :
    p ≠ (ds.record ((j + k) % ds.count)).foreignMasterPortIdentity := by
  induction n generalizing j k with
  | zero => exact absurd hk (Nat.not_lt_zero k)
  | succ n ih =>
      rw [foreignSearch] at h
      split at h
      · exact absurd h (by simp only [reduceCtorEq, not_false_eq_true])
      · rename_i hsame
        cases k with
        | zero =>
            rw [Nat.add_zero, Nat.mod_eq_of_lt hj]
            exact fun heq => hsame ((isSamePortIdentity_iff _ _).mpr heq)
        | succ k =>
            have hnext := ih (Nat.mod_lt _ (Nat.zero_lt_of_lt hj)) h k (Nat.lt_of_succ_lt_succ hk)
            rwa [Nat.mod_add_mod, Nat.add_assoc, Nat.add_comm 1 k] at hnext

/-- Every index of a table is met on the way once round from any other. -/
theorem exists_add_mod_eq {n i j : Nat} (hi : i < n) (hj : j < n) : ∃ k < n, (j + k) % n = i := by
  by_cases hle : j ≤ i
  · refine ⟨i - j, by omega, ?_⟩
    rw [Nat.add_sub_of_le hle, Nat.mod_eq_of_lt hi]
  · refine ⟨i + n - j, by omega, ?_⟩
    rw [Nat.add_sub_of_le (by omega), Nat.add_mod_right, Nat.mod_eq_of_lt hi]

/-- A search from the best record finds nothing only if the port is not in the
    table. -/
theorem foreignSearch_best_eq_none {ds : ForeignMasterDS} {p : PortIdentity}
    (hbest : ds.best < ds.count ∨ ds.count = 0)
    (h : foreignSearch ds p ds.count ds.best = none) (i : Nat) (hi : i < ds.count) :
    p ≠ (ds.record i).foreignMasterPortIdentity := by
  rcases hbest with hbest | hempty
  · rcases exists_add_mod_eq hi hbest with ⟨k, hk, heq⟩
    rw [← heq]
    exact foreignSearch_eq_none hbest h k hk
  · omega

/-- A well-formed table. -/
structure TableOk (ds : ForeignMasterDS) : Prop where
  length_records : ds.records.length = ds.capacity
  count_le : ds.count ≤ ds.capacity
  i_lt : ds.i < ds.capacity
  i_eq : ds.count < ds.capacity → ds.i = ds.count
  identity : ∀ j < ds.count,
    (ds.record j).foreignMasterPortIdentity = (ds.record j).header.sourcePortIdentity
  distinct : ∀ a b, a < b → b < ds.count →
    (ds.record a).foreignMasterPortIdentity ≠ (ds.record b).foreignMasterPortIdentity

theorem record_set_self {ds : ForeignMasterDS} {j : Nat} (h : j < ds.records.length)
    (r : ForeignMasterRecord) : (ds.records.set j r).getD j default = r := by
  rw [List.getD_eq_getElem?_getD, List.getElem?_set_self h, Option.getD_some]

theorem record_set_ne {ds : ForeignMasterDS} {j k : Nat} (h : k ≠ j) (r : ForeignMasterRecord) :
    (ds.records.set j r).getD k default = ds.record k := by
  rw [List.getD_eq_getElem?_getD, List.getElem?_set_ne (Ne.symm h), ForeignMasterDS.record,
    List.getD_eq_getElem?_getD]

/-- What writing record `j` does to a table. -/
structure Writes (ds : ForeignMasterDS) (header : MsgHeader) (announce : MsgAnnounce) (j : Nat)
    (ds' : ForeignMasterDS) : Prop where
  ok : TableOk ds'
  lt : j < ds'.count
  header_eq : (ds'.record j).header = header
  announce_eq : (ds'.record j).announce = announce
  other : ∀ k, k ≠ j → ds'.record k = ds.record k
  mem_of_ne : ∀ k < ds'.count, k ≠ j → k < ds.count

/-- Writing record `j` of a well-formed table, when no other record is of the
    same port. -/
theorem writes_set {ds : ForeignMasterDS} (h : TableOk ds) (j count i : Nat)
    (r : ForeignMasterRecord) (hj : j < count) (hcount : count ≤ ds.capacity)
    (hmem : ∀ k < count, k ≠ j → k < ds.count) (hi : i < ds.capacity)
    (hieq : count < ds.capacity → i = count)
    (hid : r.foreignMasterPortIdentity = r.header.sourcePortIdentity)
    (hfresh : ∀ k < ds.count, k ≠ j →
      (ds.record k).foreignMasterPortIdentity ≠ r.foreignMasterPortIdentity) :
    Writes ds r.header r.announce j
      { ds with records := ds.records.set j r, count := count, i := i } := by
  have hself : (ForeignMasterDS.record
      { ds with records := ds.records.set j r, count := count, i := i } j) = r :=
    record_set_self (by rw [h.length_records]; omega) r
  have hother : ∀ k, k ≠ j → (ForeignMasterDS.record
      { ds with records := ds.records.set j r, count := count, i := i } k) = ds.record k :=
    fun k hk => record_set_ne hk r
  refine ⟨⟨?_, hcount, hi, hieq, ?_, ?_⟩, hj, ?_, ?_, hother, hmem⟩
  · rw [List.length_set]
    exact h.length_records
  · intro k hk
    by_cases hkj : k = j
    · rw [hkj, hself]
      exact hid
    · rw [hother k hkj]
      exact h.identity k (hmem k hk hkj)
  · intro a b hab hb
    have ha : a < count := Nat.lt_trans hab hb
    by_cases haj : a = j
    · have hbj : b ≠ j := by omega
      rw [haj, hself, hother b hbj]
      exact Ne.symm (hfresh b (hmem b hb hbj) hbj)
    · rw [hother a haj]
      by_cases hbj : b = j
      · rw [hbj, hself]
        exact hfresh a (hmem a ha haj) haj
      · rw [hother b hbj]
        exact h.distinct a b hab (hmem b hb hbj)
  · rw [hself]
  · rw [hself]

/-- What `addForeign` does to a well-formed table, when the best index is one of
    a record. -/
theorem writes_addForeignRecord {ds : ForeignMasterDS} (h : TableOk ds)
    (hbest : ds.best < ds.count ∨ ds.count = 0) (header : MsgHeader) (announce : MsgAnnounce) :
    Writes ds header announce (addForeignRecord ds header announce).1
      (addForeignRecord ds header announce).2 := by
  have hle := h.count_le
  simp only [addForeignRecord]
  split
  · -- the port has a record, which is brought up to date
    rename_i j hsearch
    have hlt : ds.best < ds.count := by
      rcases hbest with hlt | hempty
      · exact hlt
      · rw [hempty, foreignSearch] at hsearch
        exact absurd hsearch (by simp only [reduceCtorEq, not_false_eq_true])
    rcases foreignSearch_eq_some hlt hsearch with ⟨hj, hid⟩
    refine writes_set h j ds.count ds.i { ds.record j with
      foreignMasterAnnounceMessages := (ds.record j).foreignMasterAnnounceMessages + 1
      header := header
      announce := announce } hj hle (fun k hk _ => hk) h.i_lt h.i_eq hid.symm fun k hk hkj => ?_
    rcases Nat.lt_or_gt_of_ne hkj with hlt | hgt
    · exact h.distinct k j hlt hj
    · exact Ne.symm (h.distinct j k hgt hk)
  · -- a new port takes the next place, or that of the oldest record
    rename_i hsearch
    have hfresh := foreignSearch_best_eq_none hbest hsearch
    have hi := h.i_lt
    have hieq := h.i_eq
    have hmod := Nat.mod_lt (ds.i + 1) (show 0 < ds.capacity by omega)
    by_cases hfull : ds.count < ds.capacity
    · rw [if_pos hfull]
      have heq := hieq hfull
      refine writes_set h ds.i (ds.count + 1) _ ⟨header.sourcePortIdentity, 0, announce, header⟩
        (by omega) hfull (fun k hk hkj => by omega) hmod (fun hroom => ?_) rfl
        fun k hk _ => Ne.symm (hfresh k hk)
      rw [heq, Nat.mod_eq_of_lt hroom]
    · rw [if_neg hfull]
      exact writes_set h ds.i ds.count _ ⟨header.sourcePortIdentity, 0, announce, header⟩
        (by omega) hle (fun k hk _ => hk) hmod (fun hlt => absurd hlt hfull) rfl
        fun k hk _ => Ne.symm (hfresh k hk)

/-- The effects on record `j`: it is written, or the table is emptied. -/
def Effect.touches (j : Nat) : Effect → Bool
  | .reset => true
  | .added k _ _ => k = j
  | _ => false

/-- A well-formed table. The newest effect on each of its records is that the
    record was written, with what stands in it. -/
def TableInv (v : View) : Prop :=
  TableOk v.foreignMasterDS ∧ ∀ j < v.foreignMasterDS.count,
    v.history.find? (Effect.touches j) = some (.added j (v.foreignMasterDS.record j).header
      (v.foreignMasterDS.record j).announce)

/-- The table within a step: the best index is one of a record. -/
def TableMid (v : View) : Prop :=
  TableInv v ∧ (v.foreignMasterDS.best < v.foreignMasterDS.count ∨ v.foreignMasterDS.count = 0)

/-- The table between two steps: the best index is one of a record, or a state
    decision is due. -/
def TableBetween (v : View) : Prop :=
  TableInv v ∧ (v.foreignMasterDS.best < v.foreignMasterDS.count ∨ v.foreignMasterDS.count = 0 ∨
    (v.decides = true ∧ v.stateDecisionEvent = true))

theorem TableMid.between {v : View} (h : TableMid v) : TableBetween v := by
  rcases h with ⟨htable, hbest | hempty⟩
  · exact ⟨htable, Or.inl hbest⟩
  · exact ⟨htable, Or.inr (Or.inl hempty)⟩

/-- What `bmc` does to the table. -/
theorem tableMid_decideOn {v : View} (h : TableMid v) (header : MsgHeader)
    (announce : MsgAnnounce) : TableMid (v.decideOn header announce).2 := by
  simp only [View.decideOn]
  repeat' split
  all_goals exact h

theorem tableMid_stateDecision {v : View} (h : TableBetween v) : TableMid v.stateDecision := by
  simp only [View.stateDecision]
  split
  · have hbest :
        TableMid { v with stateDecisionEvent := false, foreignMasterDS.best := v.best } := by
      refine ⟨⟨⟨h.1.1.length_records, h.1.1.count_le, h.1.1.i_lt, h.1.1.i_eq, h.1.1.identity,
        h.1.1.distinct⟩, h.1.2⟩, ?_⟩
      rcases Nat.eq_zero_or_pos v.foreignMasterDS.count with h0 | hpos
      · exact Or.inr h0
      · exact Or.inl (bmcBest_lt _ _ hpos)
    exact tableMid_decideOn hbest _ _
  · rename_i hdue
    rcases h with ⟨htable, hbest | hempty | hpending⟩
    · exact ⟨htable, Or.inl hbest⟩
    · exact ⟨htable, Or.inr hempty⟩
    · exact absurd (Bool.and_eq_true_iff.mpr hpending) hdue

theorem tableMid_forgetMasters {v : View} (h : TableMid v) : TableMid v.forgetMasters := by
  have hi := h.1.1.i_lt
  refine ⟨⟨⟨h.1.1.length_records, Nat.zero_le _, ?_, fun _ => rfl, ?_, ?_⟩, ?_⟩, Or.inr rfl⟩
  · exact Nat.zero_lt_of_lt hi
  · exact fun j hj => absurd hj (Nat.not_lt_zero j)
  · exact fun a b _ hb => absurd hb (Nat.not_lt_zero b)
  · exact fun j hj => absurd hj (Nat.not_lt_zero j)

/-- A foreign master's Announce leaves a state decision due. -/
theorem tableBetween_addForeign {v : View} (h : TableMid v) (m : Message)
    (hstate : v.decides = true) :
    TableBetween ((v.announced m).addForeign m.header (msgUnpackAnnounce m.buf)) := by
  have hw := writes_addForeignRecord h.1.1 h.2 m.header (msgUnpackAnnounce m.buf)
  refine ⟨⟨hw.ok, fun j hj => ?_⟩, Or.inr (Or.inr ⟨hstate, rfl⟩)⟩
  simp only [View.addForeign, View.announced] at hj ⊢
  generalize addForeignRecord v.foreignMasterDS m.header (msgUnpackAnnounce m.buf) = r at hw hj ⊢
  by_cases hjr : j = r.1
  · rw [List.find?_cons_of_pos (by simp only [Effect.touches, hjr, decide_true]), hjr,
      hw.header_eq, hw.announce_eq]
  · rw [List.find?_cons_of_neg (by simp only [Effect.touches, Ne.symm hjr, decide_false,
      Bool.false_eq_true, not_false_eq_true]), hw.other j hjr]
    exact h.1.2 j (hw.mem_of_ne j hj hjr)

theorem tableBetween_accepts {v w : View} {m : Message} (h : TableMid v) (ha : Accepts m v w) :
    TableBetween w := by
  cases ha with
  | announceForeign _ hstate _ _ => exact tableBetween_addForeign h m hstate
  | _ => exact TableMid.between h

theorem stable_tableMid : Stable TableMid where
  sent := fun _ _ _ _ h => h
  request := fun _ _ _ _ _ h => h
  clear := fun _ h => h
  state := fun _ _ _ _ h => h

theorem tableMid_timeout {v : View} (h : TableMid v) : TableMid v.timeout :=
  stable_tableMid.timeout (tableMid_forgetMasters h) fun _ => tableMid_forgetMasters h

theorem preserved_table (rtOpts : RunTimeOpts) :
    Preserved rtOpts (fun _ _ => True) (fun _ => True) TableMid TableBetween where
  mid := stable_tableMid.toQuiet
  inv := ⟨fun _ _ _ _ h => h, fun _ _ _ _ _ h => h, fun _ h => h⟩
  weaken := fun _ h => h.between
  apply := fun _ _ _ _ h happ _ => stable_tableMid.applies happ (tableMid_stateDecision h)
  timeout := fun _ _ h => (tableMid_timeout h).between
  faulty := fun _ h => (stable_tableMid.toState .faulty (by decide) h).between
  received := fun _ _ h => h
  accept := fun v m _ _ _ h ha => tableBetween_accepts (v := v.log (.received m)) h ha

theorem tableBetween_upView (rtOpts : RunTimeOpts) (hwaddr : PortUuid) :
    TableBetween (upView rtOpts hwaddr) := by
  have hds : (upView rtOpts hwaddr).foreignMasterDS
      = ⟨List.replicate defaultMaxForeignRecords default, 0, defaultMaxForeignRecords, 0, 0⟩ := rfl
  rw [TableBetween, TableInv, hds]
  refine ⟨⟨⟨rfl, by decide, by decide, fun _ => rfl, ?_, ?_⟩, ?_⟩, Or.inr (Or.inl rfl)⟩
  · exact fun j hj => absurd hj (Nat.not_lt_zero j)
  · exact fun a b _ hb => absurd hb (Nat.not_lt_zero b)
  · exact fun j hj => absurd hj (Nat.not_lt_zero j)

/-- The foreign-master table in every run. -/
theorem foreignMasterDS_wellFormed (rtOpts : RunTimeOpts) (evs : List Event) :
    let s := run engineStep (powerUp rtOpts) evs
    let ds := s.clock.foreignMasterDS
    ds.count ≤ ds.capacity ∧
    (∀ a b, a < b → b < ds.count →
      (ds.record a).foreignMasterPortIdentity ≠ (ds.record b).foreignMasterPortIdentity) ∧
    (s.clock.recommendedState = .initializing → ds.count = 0 ∧ ds.capacity = 0 ∧ ds.i = 0) ∧
    (s.clock.recommendedState ≠ .initializing → ds.i < ds.capacity) ∧
    (ds.count < ds.capacity → ds.i = ds.count) ∧
    ∀ j < ds.count, s.history.find? (Effect.touches j)
      = some (.added j (ds.record j).header (ds.record j).announce) := by
  intro s ds
  have hds : ds = (view s).foreignMasterDS := rfl
  have hrec : s.clock.recommendedState = (view s).recommendedState := rfl
  have hhist : s.history = (view s).history := rfl
  rw [hds, hrec, hhist]
  rcases engine_invariant (preserved_table rtOpts) (tableBetween_upView rtOpts) evs
    (meets_allows_true _ _) with hboot | ⟨hup, htable, -⟩
  · have hempty : (view s).foreignMasterDS.count = 0 ∧ (view s).foreignMasterDS.capacity = 0 ∧
        (view s).foreignMasterDS.i = 0 ∧ (view s).recommendedState = .initializing := by
      rcases hboot with h | h
      · rw [h]
        exact ⟨rfl, rfl, rfl, rfl⟩
      · rw [h]
        exact ⟨rfl, rfl, rfl, rfl⟩
    rcases hempty with ⟨hcount, hcap, hi, hinit⟩
    rw [hcount, hcap, hi, hinit]
    refine ⟨Nat.le_refl 0, ?_, fun _ => ⟨rfl, rfl, rfl⟩, fun h => absurd rfl h, fun _ => rfl, ?_⟩
    · exact fun a b _ hb => absurd hb (Nat.not_lt_zero b)
    · exact fun j hj => absurd hj (Nat.not_lt_zero j)
  · have hne : (view s).recommendedState ≠ .initializing := by
      rcases hup.1.recommends with h | h | h | h
      · rw [h]; decide
      · rw [h]; decide
      · rw [h]; decide
      · rw [h]; decide
    exact ⟨htable.1.count_le, htable.1.distinct, fun h => absurd h hne, fun _ => htable.1.i_lt,
      htable.1.i_eq, htable.2⟩

/-- Until the network is there, the round-robin index is not below the
    capacity. -/
theorem round_robin_at_capacity :
    ¬ (run engineStep (powerUp defaultRtOpts) []).clock.foreignMasterDS.i
      < (run engineStep (powerUp defaultRtOpts) []).clock.foreignMasterDS.capacity := by
  decide

end Ptp

end RtosLwip
