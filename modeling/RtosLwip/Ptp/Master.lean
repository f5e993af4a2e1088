import RtosLwip.Ptp.Invariant

/-!
# What a Master Is and Sends

Whoever is recommended to be master has itself as its grandmaster: `m1` comes
with every recommendation, from `bmc` and from the announce receipt timeout, and
the recommendation of another state comes with every `s1` of `bmc`. The `s1` of
a parent's Announce needs a port that follows a master, and what was recommended
to it is not to be master. A fault changes neither.

A clock that may not become master is never recommended to, so it never is
master, and only a master sends Sync, Follow_Up, Announce and Delay_Resp.

## Main definitions

* `MsgType.ofMaster`: The messages only a master sends.
* `View.ownGrandmaster`: The port is its own grandmaster.
* `MasterInv`: The invariant.

## Theorems

* `masterInv_stateDecision`, `masterInv_accepts`: What keeps it.
* `master_describes_itself`: Masters in every run.
-/

namespace RtosLwip

namespace Ptp

/-- The messages only a master sends. -/
def MsgType.ofMaster : MsgType → Bool
  | .sync | .followUp | .announce | .delayResp => true
  | _ => false

/-- The port is its own grandmaster. -/
def View.ownGrandmaster (v : View) : Prop :=
  v.parentDS.grandmasterIdentity = v.defaultDS.clockIdentity ∧
  v.parentDS.grandmasterPriority1 = v.defaultDS.priority1 ∧
  v.parentDS.grandmasterPriority2 = v.defaultDS.priority2 ∧
  v.stepsRemoved = 0

/-- The Announce in `bytes` describes the clock with these data. -/
def DescribesClock (ds : DefaultDS) (bytes : List UInt8) : Prop :=
  (msgUnpackAnnounce bytes).grandmasterIdentity = ds.clockIdentity ∧
  (msgUnpackAnnounce bytes).grandmasterPriority1 = ds.priority1 ∧
  (msgUnpackAnnounce bytes).grandmasterPriority2 = ds.priority2 ∧
  (msgUnpackAnnounce bytes).stepsRemoved = 0

/-- The message an effect has sent. -/
def Effect.sent? : Effect → Option (MsgType × List UInt8)
  | .sent type bytes => some (type, bytes)
  | _ => none

/-- Who is recommended to be master may be one and is its own grandmaster, and
    what was sent is what such a clock sends. -/
def MasterInv (v : View) : Prop :=
  MsgType.announce.length ≤ v.obufLength ∧
  (v.recommendedState = .master → v.ownGrandmaster ∧ v.slaveOnly = false) ∧
  ∀ p ∈ v.history.filterMap Effect.sent?,
    (p.1.ofMaster = true → v.slaveOnly = false) ∧
    (p.1 = .announce → DescribesClock v.defaultDS p.2)

/-- What a master sends keeps the invariant. -/
theorem masterInv_sent {v : View} (type : MsgType) (bytes : List UInt8)
    (hmay : MaySend v type bytes) (h : MasterInv v) : MasterInv (v.log (.sent type bytes)) := by
  refine ⟨h.1, h.2.1, fun p hmem => ?_⟩
  rcases List.mem_cons.mp hmem with rfl | hold
  · have hmaster : type.ofMaster = true → v.recommendedState = .master := by
      intro ht
      cases type with
      | announce => exact hmay.1
      | sync | followUp | delayResp => exact hmay
      | _ => exact absurd ht Bool.false_ne_true
    refine ⟨fun ht => (h.2.1 (hmaster ht)).2, ?_⟩
    rintro rfl
    rcases (h.2.1 hmay.1).1 with ⟨hid, hp1, hp2, hsteps⟩
    rcases hmay.2 h.1 with ⟨did, dp1, dp2, dsteps⟩
    exact ⟨did.trans hid, dp1.trans hp1, dp2.trans hp2, dsteps.trans hsteps⟩
  · exact h.2.2 p hold

theorem stable_masterInv : Stable MasterInv where
  sent := fun _ type bytes hmay h => masterInv_sent type bytes hmay h
  request := by
    intro v bytes egress t1 _ h
    exact masterInv_sent (v := v) .pDelayReq bytes trivial h
  clear := fun _ h => h
  state := by
    intro v _ recommended hrec h
    refine ⟨h.1, fun hmaster => ?_, h.2.2⟩
    rcases hrec with heq | hlisten
    · exact h.2.1 (heq.symm.trans hmaster)
    · exact absurd (hlisten.symm.trans hmaster) (by decide)

/-- The decision of `bmc`: who is recommended to be master has become its own
    grandmaster. -/
theorem ownGrandmaster_decideOn {v : View} {header : MsgHeader} {announce : MsgAnnounce}
    (h : (v.decideOn header announce).1 = .master) :
    (v.decideOn header announce).2.ownGrandmaster := by
  simp only [View.decideOn] at h ⊢
  split at h
  · exact absurd (show PtpState.listening = .master from h) (by decide)
  · rename_i hcount
    rw [if_neg hcount]
    split at h
    · rename_i hbetter
      rw [if_pos hbetter]
      exact ⟨rfl, rfl, rfl, rfl⟩
    · split at h
      · exact absurd (show PtpState.passive = .master from h) (by decide)
      · exact absurd (show PtpState.slave = .master from h) (by decide)

/-- What was sent does not depend on the decision. -/
theorem sents_decideOn (v : View) (header : MsgHeader) (announce : MsgAnnounce) :
    (v.decideOn header announce).2.history.filterMap Effect.sent?
      = v.history.filterMap Effect.sent? := by
  simp only [View.decideOn]
  repeat' split
  all_goals rfl

theorem masterInv_stateDecision {v : View} (h : MasterInv v) : MasterInv v.stateDecision := by
  have hsame := samePort_stateDecision v
  refine ⟨?_, ?_, ?_⟩
  · rw [hsame.obufLength]
    exact h.1
  · rw [hsame.slaveOnly]
    simp only [View.stateDecision]
    split
    · intro hmaster
      simp only at hmaster
      split at hmaster
      · exact absurd hmaster (by decide)
      · rename_i hmay
        refine ⟨ownGrandmaster_decideOn hmaster, ?_⟩
        rw [not_and, Bool.not_eq_true] at hmay
        exact hmay (Or.inl hmaster)
    · exact h.2.1
  · rw [hsame.slaveOnly, hsame.defaultDS]
    have hsents : v.stateDecision.history.filterMap Effect.sent?
        = v.history.filterMap Effect.sent? := by
      simp only [View.stateDecision]
      split
      · exact sents_decideOn _ _ _
      · rfl
    rw [hsents]
    exact h.2.2

/-- A message that is accepted is none that makes a master. -/
theorem masterInv_accepts {v w : View} {m : Message} (hs : Settled v) (h : MasterInv v)
    (ha : Accepts m v w) : MasterInv w := by
  cases ha with
  | announceParent _ hstate _ _ =>
      -- a port that follows a master is not recommended to be one
      refine ⟨h.1, fun hmaster => ?_, h.2.2⟩
      exact absurd (hmaster.symm.trans (hs.recommended_slave hstate)) (by decide)
  | _ => exact h

theorem preserved_masterInv (rtOpts : RunTimeOpts) :
    Preserved rtOpts (fun _ _ => True) (fun _ => True) MasterInv MasterInv where
  mid := stable_masterInv.toQuiet
  inv := stable_masterInv.toQuiet
  weaken := fun _ h => h
  apply := fun _ _ _ _ h happ _ => stable_masterInv.applies happ (masterInv_stateDecision h)
  timeout := fun _ _ h => stable_masterInv.timeout h
    fun hmay => ⟨h.1, fun _ => ⟨⟨rfl, rfl, rfl, rfl⟩, hmay⟩, h.2.2⟩
  faulty := fun _ h => stable_masterInv.toState .faulty (by decide) h
  received := fun _ _ h => h
  accept := fun v m _ hs _ h ha => masterInv_accepts (v := v.log (.received m)) hs h ha

theorem masterInv_upView (rtOpts : RunTimeOpts) (hwaddr : PortUuid) :
    MasterInv (upView rtOpts hwaddr) := by
  have hlen : (upView rtOpts hwaddr).obufLength = ptpPacketSize := List.length_replicate
  refine ⟨by rw [hlen]; decide, fun h => ?_, fun p hp => ?_⟩
  · exact absurd (show PtpState.listening = .master from h) (by decide)
  · exact absurd hp List.not_mem_nil

/-- A clock that is configured never to be master. -/
def neverMaster (rtOpts : RunTimeOpts) : Prop :=
  rtOpts.slaveOnly = true ∨ rtOpts.clockQuality.clockClass = 255

theorem slaveOnly_upView {rtOpts : RunTimeOpts} (h : neverMaster rtOpts) (hwaddr : PortUuid) :
    (upView rtOpts hwaddr).slaveOnly = true := by
  have hview : (upView rtOpts hwaddr).slaveOnly = (rtOpts.slaveOnly ||
      (if rtOpts.slaveOnly then 255 else rtOpts.clockQuality.clockClass) = (255 : UInt8)) := rfl
  rw [hview]
  rcases h with h | h
  · rw [h, Bool.true_or]
  · rw [h, ite_self, decide_eq_true rfl, Bool.or_true]

/-- A clock that is configured never to be master never is one and never sends
    what a master sends; whoever is master is its own grandmaster, and every
    Announce it has sent says so. -/
theorem master_describes_itself (rtOpts : RunTimeOpts) (evs : List Event) :
    let s := run engineStep (powerUp rtOpts) evs
    let c := s.clock
    (neverMaster rtOpts →
      c.portDS.portState ≠ .preMaster ∧ c.portDS.portState ≠ .master ∧
      ∀ type bytes, Effect.sent type bytes ∈ s.history →
        type ≠ .sync ∧ type ≠ .followUp ∧ type ≠ .announce ∧ type ≠ .delayResp) ∧
    (c.portDS.portState = .master →
      c.parentDS.grandmasterIdentity = c.defaultDS.clockIdentity ∧
      c.parentDS.grandmasterPriority1 = c.defaultDS.priority1 ∧
      c.parentDS.grandmasterPriority2 = c.defaultDS.priority2 ∧
      c.currentDS.stepsRemoved = 0) ∧
    ∀ bytes, Effect.sent .announce bytes ∈ s.history → DescribesClock c.defaultDS bytes := by
  intro s c
  rcases engine_invariant (preserved_masterInv rtOpts) (masterInv_upView rtOpts) evs
    (meets_allows_true _ _) with hboot | ⟨⟨hrun, hwaddr, hsame⟩, hinv⟩
  · -- nothing has been sent before the port is up
    have hhist : s.history = [] := hboot.history_eq_nil
    have hstate : c.portDS.portState ≠ .preMaster ∧ c.portDS.portState ≠ .master := by
      rcases hboot.portState_eq with h | h
      · exact ⟨fun h' => absurd (h.symm.trans h') (by decide),
          fun h' => absurd (h.symm.trans h') (by decide)⟩
      · exact ⟨fun h' => absurd (h.symm.trans h') (by decide),
          fun h' => absurd (h.symm.trans h') (by decide)⟩
    rw [hhist]
    exact ⟨fun _ => ⟨hstate.1, hstate.2, fun _ _ h => absurd h List.not_mem_nil⟩,
      fun h => absurd h hstate.2, fun _ h => absurd h List.not_mem_nil⟩
  · have hmaster : c.portDS.portState = .master → (view s).recommendedState = .master := by
      intro h
      rcases hrun with hset | hfaulty
      · exact hset.recommended_master h
      · exact absurd (hfaulty.1.symm.trans h) (by decide)
    have hsent : ∀ type bytes, Effect.sent type bytes ∈ s.history →
        (type.ofMaster = true → (view s).slaveOnly = false) ∧
        (type = .announce → DescribesClock c.defaultDS bytes) := fun type bytes h =>
      hinv.2.2 (type, bytes) (List.mem_filterMap.mpr ⟨_, h, rfl⟩)
    refine ⟨fun hnever => ?_, fun h => (hinv.2.1 (hmaster h)).1,
      fun bytes h => (hsent .announce bytes h).2 rfl⟩
    have hslave : (view s).slaveOnly = true := by
      rw [hsame.slaveOnly]
      exact slaveOnly_upView hnever hwaddr
    have hno : ∀ {b : Bool}, b = false → ¬ b = true := fun h => by rw [h]; exact Bool.false_ne_true
    refine ⟨hrun.isUp.2.2, fun h => hno (hinv.2.1 (hmaster h)).2 hslave, fun type bytes h => ?_⟩
    have hof : type.ofMaster = false :=
      Bool.eq_false_iff.mpr fun ht => hno ((hsent type bytes h).1 ht) hslave
    refine ⟨?_, ?_, ?_, ?_⟩
    all_goals
      rintro rfl
      exact absurd hof (by decide)

end Ptp

end RtosLwip
