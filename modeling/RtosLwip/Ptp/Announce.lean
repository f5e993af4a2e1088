import RtosLwip.Base.History
import RtosLwip.Ptp.ForeignMaster

/-!
# The Latest Announce of Each Master

The table keeps the header and the body of an Announce for each foreign master,
and `bmc` installs the parent from there. An Announce of a foreign master is
written into its record by `addForeign`. One of the current parent, in the
states that follow a master, is not: it goes to `s1` at once and leaves the
parent's record behind, and the state decision it makes due installs the record.

So the records are the latest Announces, and what `bmc` installs is, as long as
no parent announces anything else than what its record holds.

## Main definitions

* `Effect.announcedBy`: The Announces of a port.
* `InstalledLatest`: What `bmc` installed was the latest Announce then.
* `RepeatsRecord`: An Announce of the parent repeats its record.
* `AnnounceInv`: The invariant.

## Theorems

* `announceInv_stateDecision`, `announceInv_accepts`: What keeps it.
* `records_latest_announce`: The records and the installed masters, in every run
  in which the parents repeat themselves.
-/

namespace RtosLwip

namespace Ptp

/-- An Announce of the port `p` was accepted. -/
def Effect.announcedBy (p : PortIdentity) : Effect → Bool
  | .announced header _ => header.sourcePortIdentity = p
  | _ => false

/-- What `bmc` installed was the latest Announce of its port. -/
def InstalledLatest (e : Effect) (past : List Effect) : Prop :=
  match e with
  | .installed header announce =>
    past.find? (Effect.announcedBy header.sourcePortIdentity) = some (.announced header announce)
  | _ => True

/-- Every record holds the latest Announce of its port. -/
def RecordsLatest (v : View) : Prop :=
  ∀ j < v.foreignMasterDS.count,
    v.history.find? (Effect.announcedBy (v.foreignMasterDS.record j).foreignMasterPortIdentity)
      = some (.announced (v.foreignMasterDS.record j).header
          (v.foreignMasterDS.record j).announce)

/-- An Announce of the parent of a port that follows it repeats the record that
    the table has for the parent. -/
def RepeatsRecord (v : View) (m : Message) : Prop :=
  m.type = some .announce → v.follows → v.isParent m → ∀ j < v.foreignMasterDS.count,
    (v.foreignMasterDS.record j).foreignMasterPortIdentity = m.header.sourcePortIdentity →
    m.header = (v.foreignMasterDS.record j).header ∧
      msgUnpackAnnounce m.buf = (v.foreignMasterDS.record j).announce

instance decidableRepeatsRecord (v : View) (m : Message) : Decidable (RepeatsRecord v m) :=
  inferInstanceAs (Decidable (m.type = some .announce →
    (v.portState = .uncalibrated ∨ v.portState = .slave) →
    isSamePortIdentity v.parentDS.parentPortIdentity m.header.sourcePortIdentity = true →
    ∀ j < v.foreignMasterDS.count,
    (v.foreignMasterDS.record j).foreignMasterPortIdentity = m.header.sourcePortIdentity →
    m.header = (v.foreignMasterDS.record j).header ∧
      msgUnpackAnnounce m.buf = (v.foreignMasterDS.record j).announce))

/-- The records and the installed masters are the latest Announces, and whoever
    is recommended to follow a master has one in the table. -/
def AnnounceInv (v : View) : Prop :=
  RecordsLatest v ∧ EachPast InstalledLatest v.history ∧
    (v.recommendedState = .slave → 0 < v.foreignMasterDS.count)

/-- The invariant within a step: no state decision is due. -/
def AnnounceMid (v : View) : Prop :=
  TableMid v ∧ AnnounceInv v ∧ v.stateDecisionEvent = false

/-- The invariant between two steps: a state decision is due only when it will
    be made and there is a master in the table. -/
def AnnounceBetween (v : View) : Prop :=
  TableBetween v ∧ AnnounceInv v ∧
    (v.stateDecisionEvent = true → v.decides = true ∧ 0 < v.foreignMasterDS.count)

theorem AnnounceMid.between {v : View} (h : AnnounceMid v) : AnnounceBetween v := by
  refine ⟨h.1.between, h.2.1, fun hdue => ?_⟩
  rw [h.2.2] at hdue
  exact absurd hdue Bool.false_ne_true

theorem stable_announceMid : Stable AnnounceMid where
  sent := fun v type bytes hmay h => ⟨stable_tableMid.sent v type bytes hmay h.1,
    ⟨h.2.1.1, ⟨trivial, h.2.1.2.1⟩, h.2.1.2.2⟩, h.2.2⟩
  request := fun v bytes egress t1 ht h => ⟨stable_tableMid.request v bytes egress t1 ht h.1,
    ⟨h.2.1.1, ⟨trivial, trivial, h.2.1.2.1⟩, h.2.1.2.2⟩, h.2.2⟩
  clear := fun v h => ⟨stable_tableMid.clear v h.1, ⟨h.2.1.1, ⟨trivial, h.2.1.2.1⟩, h.2.1.2.2⟩,
    h.2.2⟩
  state := by
    intro v state recommended hrec h
    refine ⟨stable_tableMid.state v state recommended hrec h.1, ⟨h.2.1.1, h.2.1.2.1, ?_⟩, h.2.2⟩
    intro hslave
    rcases hrec with heq | hlisten
    · exact h.2.1.2.2 (heq.symm.trans hslave)
    · exact absurd (hlisten.symm.trans hslave) (by decide)

theorem quiet_announceBetween : Quiet AnnounceBetween where
  sent := fun v type bytes hmay h => ⟨(preserved_table v.rtOpts).inv.sent v type bytes hmay h.1,
    ⟨h.2.1.1, ⟨trivial, h.2.1.2.1⟩, h.2.1.2.2⟩, h.2.2⟩
  request := fun v bytes egress t1 ht h =>
    ⟨(preserved_table v.rtOpts).inv.request v bytes egress t1 ht h.1,
      ⟨h.2.1.1, ⟨trivial, trivial, h.2.1.2.1⟩, h.2.1.2.2⟩, h.2.2⟩
  clear := fun v h => ⟨(preserved_table v.rtOpts).inv.clear v h.1,
    ⟨h.2.1.1, ⟨trivial, h.2.1.2.1⟩, h.2.1.2.2⟩, h.2.2⟩

/-- The decision of `bmc` on a record of the table. -/
theorem announceInv_decideOn {v : View} {j : Nat} (hj : j < v.foreignMasterDS.count)
    (hid : (v.foreignMasterDS.record j).foreignMasterPortIdentity
      = (v.foreignMasterDS.record j).header.sourcePortIdentity)
    (hlatest : RecordsLatest v) (hpast : EachPast InstalledLatest v.history) :
    let w := (v.decideOn (v.foreignMasterDS.record j).header
      (v.foreignMasterDS.record j).announce).2
    RecordsLatest w ∧ EachPast InstalledLatest w.history ∧ 0 < w.foreignMasterDS.count ∧
      w.stateDecisionEvent = v.stateDecisionEvent := by
  have hpos : 0 < v.foreignMasterDS.count := Nat.zero_lt_of_lt hj
  simp only [View.decideOn]
  split
  · exact ⟨hlatest, hpast, hpos, rfl⟩
  · split
    · exact ⟨hlatest, hpast, hpos, rfl⟩
    · split
      · exact ⟨hlatest, hpast, hpos, rfl⟩
      · refine ⟨hlatest, ⟨?_, hpast⟩, hpos, rfl⟩
        have hrecord := hlatest j hj
        rw [hid] at hrecord
        exact hrecord

theorem announceMid_stateDecision {v : View} (h : AnnounceBetween v) :
    AnnounceMid v.stateDecision := by
  refine ⟨tableMid_stateDecision h.1, ?_⟩
  simp only [View.stateDecision]
  split
  · rename_i hdue
    rw [Bool.and_eq_true] at hdue
    have hpos := (h.2.2 hdue.2).2
    have hbest : v.best < v.foreignMasterDS.count := bmcBest_lt _ _ hpos
    rcases announceInv_decideOn
      (v := { v with stateDecisionEvent := false, foreignMasterDS.best := v.best }) hbest
      (h.1.1.1.identity _ hbest) h.2.1.1 h.2.1.2.1 with ⟨hlatest, hpast, hcount, hevent⟩
    exact ⟨⟨hlatest, hpast, fun _ => hcount⟩, hevent⟩
  · rename_i hdue
    refine ⟨h.2.1, Bool.eq_false_iff.mpr fun hevent => hdue ?_⟩
    rw [(h.2.2 hevent).1, hevent, Bool.and_self]

/-- What was recommended does not matter to a port that enters listening. -/
theorem View.toState_listening (v : View) :
    ({ v with recommendedState := .listening } : View).toState .listening
      = v.toState .listening := by
  cases hclears : View.clears v.portState .listening with
  | true =>
      simp only [View.toState, hclears]
      rfl
  | false =>
      simp only [View.toState, hclears]
      rfl

/-- The table is emptied, and nobody follows a master any more. -/
theorem announceMid_timeout {v : View} (hs : Settled v) (h : AnnounceMid v) :
    AnnounceMid v.timeout := by
  have hforget : ∀ state, state ≠ .slave →
      AnnounceMid { v.forgetMasters with recommendedState := state } := fun state hne =>
    ⟨tableMid_forgetMasters h.1,
      ⟨fun j hj => absurd hj (Nat.not_lt_zero j), ⟨trivial, h.2.1.2.1⟩, fun heq => absurd heq hne⟩,
      h.2.2⟩
  simp only [View.timeout]
  split
  · exact stable_announceMid.toState .master (by decide) (hforget .master (by decide))
  · split
    · rw [← View.toState_listening]
      exact stable_announceMid.toState .listening (by decide) (hforget .listening (by decide))
    · rename_i hst
      refine hforget _ fun hslave => ?_
      rcases hs with hs | hs | hs | hs
      · exact absurd (hs.1.symm.trans hslave) (by decide)
      · exact absurd (hs.1.symm.trans hslave) (by decide)
      · exact absurd (hs.1.symm.trans hslave) (by decide)
      · rcases hs.2 with hst' | hst'
        · exact absurd (hst'.symm.trans (not_not.mp hst)) (by decide)
        · exact absurd (hst'.symm.trans (not_not.mp hst)) (by decide)

/-- The latest Announce of a port is not one of another. -/
theorem find?_announcedBy_cons {p : PortIdentity} {header : MsgHeader} (announce : MsgAnnounce)
    (history : List Effect) (h : header.sourcePortIdentity ≠ p) :
    (Effect.announced header announce :: history).find? (Effect.announcedBy p)
      = history.find? (Effect.announcedBy p) :=
  List.find?_cons_of_neg (by simp only [Effect.announcedBy, h, decide_false, Bool.false_eq_true,
    not_false_eq_true])

theorem find?_announcedBy_self (header : MsgHeader) (announce : MsgAnnounce)
    (history : List Effect) :
    (Effect.announced header announce :: history).find?
        (Effect.announcedBy header.sourcePortIdentity)
      = some (.announced header announce) :=
  List.find?_cons_of_pos (by simp only [Effect.announcedBy, decide_true])

/-- An Announce of the parent leaves the records alone. -/
theorem recordsLatest_announceParent {v : View} {m : Message} (h : RecordsLatest v)
    (hrepeats : ∀ j < v.foreignMasterDS.count,
      (v.foreignMasterDS.record j).foreignMasterPortIdentity = m.header.sourcePortIdentity →
      m.header = (v.foreignMasterDS.record j).header ∧
        msgUnpackAnnounce m.buf = (v.foreignMasterDS.record j).announce) :
    RecordsLatest ((v.announced m).s1 m.header (msgUnpackAnnounce m.buf)) := by
  intro j hj
  by_cases hid : (v.foreignMasterDS.record j).foreignMasterPortIdentity
      = m.header.sourcePortIdentity
  · rcases hrepeats j hj hid with ⟨hheader, hannounce⟩
    change List.find? (Effect.announcedBy (v.foreignMasterDS.record j).foreignMasterPortIdentity)
      (.announced m.header (msgUnpackAnnounce m.buf) :: v.history)
      = some (.announced (v.foreignMasterDS.record j).header (v.foreignMasterDS.record j).announce)
    rw [hid, ← hheader, ← hannounce]
    exact find?_announcedBy_self _ _ _
  · exact (find?_announcedBy_cons _ _ (Ne.symm hid)).trans (h j hj)

/-- An Announce of a foreign master is written into its record. -/
theorem recordsLatest_addForeign {v : View} {m : Message} (htable : TableMid v)
    (h : RecordsLatest v) :
    RecordsLatest ((v.announced m).addForeign m.header (msgUnpackAnnounce m.buf)) ∧
      0 < ((v.announced m).addForeign m.header
        (msgUnpackAnnounce m.buf)).foreignMasterDS.count := by
  have hw := writes_addForeignRecord htable.1.1 htable.2 m.header (msgUnpackAnnounce m.buf)
  simp only [RecordsLatest, View.addForeign, View.announced]
  generalize addForeignRecord v.foreignMasterDS m.header (msgUnpackAnnounce m.buf) = r at hw ⊢
  have hid := hw.ok.identity r.1 hw.lt
  rw [hw.header_eq] at hid
  refine ⟨fun j hj => ?_, Nat.zero_lt_of_lt hw.lt⟩
  -- the entry for the table itself is no Announce
  change List.find? _ (.announced m.header (msgUnpackAnnounce m.buf) :: v.history) = _
  by_cases hjr : j = r.1
  · rw [hjr, hid, hw.header_eq, hw.announce_eq]
    exact find?_announcedBy_self _ _ _
  · have hne : m.header.sourcePortIdentity ≠ (r.2.record j).foreignMasterPortIdentity := by
      rw [← hid]
      rcases Nat.lt_or_gt_of_ne hjr with hlt | hgt
      · exact Ne.symm (hw.ok.distinct j r.1 hlt hw.lt)
      · exact hw.ok.distinct r.1 j hgt hj
    rw [find?_announcedBy_cons _ _ hne, hw.other j hjr]
    exact h j (hw.mem_of_ne j hj hjr)

theorem announceBetween_accepts {v w : View} {m : Message} (hs : Settled v)
    (hP : RepeatsRecord v m) (h : AnnounceMid v) (ha : Accepts m v w) : AnnounceBetween w := by
  have htable := tableBetween_accepts h.1 ha
  cases ha with
  | announceParent htype hstate hself hparent =>
      have hslave : v.recommendedState = .slave := hs.recommended_slave hstate
      have hpos := h.2.1.2.2 hslave
      exact ⟨htable, ⟨recordsLatest_announceParent h.2.1.1 (hP htype hstate hparent),
        ⟨trivial, h.2.1.2.1⟩, fun _ => hpos⟩, fun _ => ⟨decides_of_follows hstate, hpos⟩⟩
  | announceForeign htype hstate hself hother =>
      rcases recordsLatest_addForeign (m := m) h.1 h.2.1.1 with ⟨hlatest, hpos⟩
      exact ⟨htable, ⟨hlatest, ⟨trivial, trivial, h.2.1.2.1⟩, fun _ => hpos⟩,
        fun _ => ⟨hstate, hpos⟩⟩
  | _ =>
      refine ⟨htable, ⟨h.2.1.1, ⟨trivial, h.2.1.2.1⟩, h.2.1.2.2⟩, fun hdue => ?_⟩
      exact absurd (hdue.symm.trans h.2.2) Bool.noConfusion

theorem preserved_announce (rtOpts : RunTimeOpts) :
    Preserved rtOpts RepeatsRecord (fun _ => True) AnnounceMid AnnounceBetween where
  mid := stable_announceMid.toQuiet
  inv := quiet_announceBetween
  weaken := fun _ h => h.between
  apply := fun _ _ _ _ h happ _ => stable_announceMid.applies happ (announceMid_stateDecision h)
  timeout := fun _ hs h => (announceMid_timeout hs h).between
  faulty := fun _ h => (stable_announceMid.toState .faulty (by decide) h).between
  received := fun v m h => ⟨(preserved_table v.rtOpts).received v m h.1,
    ⟨h.2.1.1, ⟨trivial, h.2.1.2.1⟩, h.2.1.2.2⟩, h.2.2⟩
  accept := fun v m _ hs hP h ha => announceBetween_accepts (v := v.log (.received m)) hs hP
    ⟨(preserved_table v.rtOpts).received v m h.1,
      ⟨h.2.1.1, ⟨trivial, h.2.1.2.1⟩, h.2.1.2.2⟩, h.2.2⟩ ha

theorem announceBetween_upView (rtOpts : RunTimeOpts) (hwaddr : PortUuid) :
    AnnounceBetween (upView rtOpts hwaddr) := by
  refine ⟨tableBetween_upView rtOpts hwaddr, ⟨fun j hj => ?_, ⟨trivial, trivial, trivial⟩,
    fun hslave => ?_⟩, fun hdue => ?_⟩
  · exact absurd hj (Nat.not_lt_zero j)
  · exact absurd (show PtpState.listening = .slave from hslave) (by decide)
  · exact absurd (show false = true from hdue) Bool.false_ne_true

/-- The records are the latest Announces of their ports, and what `bmc` installed
    was the latest then. -/
def KeepsLatest (s : Port) : Prop :=
  let ds := s.clock.foreignMasterDS
  (∀ j < ds.count,
    s.history.find? (Effect.announcedBy (ds.record j).foreignMasterPortIdentity)
      = some (.announced (ds.record j).header (ds.record j).announce)) ∧
  ∀ newer header announce past, s.history = newer ++ .installed header announce :: past →
    past.find? (Effect.announcedBy header.sourcePortIdentity) = some (.announced header announce)

/-- In every run in which an Announce of the parent repeats its record, the
    records are the latest Announces, and so is what `bmc` installs. -/
theorem records_latest_announce (rtOpts : RunTimeOpts) (evs : List Event)
    (h : Meets engineStep (Allows RepeatsRecord fun _ => True) (powerUp rtOpts) evs) :
    KeepsLatest (run engineStep (powerUp rtOpts) evs) := by
  have hhist : (run engineStep (powerUp rtOpts) evs).history
      = (view (run engineStep (powerUp rtOpts) evs)).history := rfl
  rcases engine_invariant (preserved_announce rtOpts) (announceBetween_upView rtOpts) evs h with
    hboot | ⟨-, hinv⟩
  · refine ⟨fun j hj => ?_, fun newer header announce past heq => ?_⟩
    · change j < (view (run engineStep (powerUp rtOpts) evs)).foreignMasterDS.count at hj
      rw [hboot.foreignMasterDS_eq] at hj
      exact absurd hj (Nat.not_lt_zero j)
    · rw [hhist, hboot.history_eq_nil] at heq
      exact absurd heq.symm (List.append_ne_nil_of_right_ne_nil _ (List.cons_ne_nil _ _))
  · exact ⟨hinv.2.1.1, fun newer header announce past heq =>
      (eachPast_iff _ _).mp hinv.2.1.2.1 newer _ past heq⟩

/-- A master announces itself twice in the same words. -/
theorem records_latest_announce_repeated :
    KeepsLatest (run engineStep (powerUp defaultRtOpts)
      [quietStep [], quietStep [peerAnnounce 2 2 0], quietStep [peerAnnounce 2 2 0],
        quietStep []]) :=
  records_latest_announce _ _ (by decide +kernel)

/-- The parent announces a first priority of 2 and then one of 5; its record
    keeps the 2, and `bmc` installs it again. -/
theorem record_left_behind :
    let s := run engineStep (powerUp defaultRtOpts)
      [quietStep [], quietStep [peerAnnounce 2 2 0], quietStep [peerAnnounce 2 5 1], quietStep []]
    ¬ KeepsLatest s ∧ s.clock.parentDS.grandmasterPriority1 = 2 := by
  refine ⟨fun h => ?_, by decide +kernel⟩
  exact absurd (h.1 0 (by decide +kernel)) (by decide +kernel)

end Ptp

end RtosLwip
