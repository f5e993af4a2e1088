import RtosLwip.Base.History
import RtosLwip.Ptp.ForeignMaster

/-!
# Pairing a Sync with Its Follow-Up

A two-step Sync of the parent leaves its time of reception, its correction and
its sequence number behind, and a Follow_Up of the parent with this number makes
the offset from the two. The port does not remember who sent the Sync: the
Follow_Up is checked against the parent of the moment it comes in.

Leaving the states that follow a master ends the waiting. A state decision that
replaces the parent by another master and keeps the port following does not. So
the pairs are right as long as no such decision comes between the two messages.
A Follow_Up whose time does not fit the internal format is the other exception:
the conversion leaves an uninitialised variable as it is.

## Main definitions

* `Effect.pairsSync`: The two-step Syncs and the offsets made from them.
* `SyncPaired`: The offset was made from the latest Sync, which no other offset
  was made from.
* `KeepsParent`, `TimedFollowUp`: The conditions.
* `SyncInv`: The invariant.

## Theorems

* `syncInv_toState`, `syncInv_applies`, `syncInv_accepts`: What keeps it.
* `offsets_paired`: The offsets in every run under the conditions.
-/

namespace RtosLwip

namespace Ptp

/-- A two-step Sync waits for its follow-up, or an offset was made from one. -/
def Effect.pairsSync : Effect → Bool
  | .awaiting m => m.type = some .sync
  | .offset twoStep _ _ _ _ => twoStep
  | _ => false

/-- The Sync was received and waits for its follow-up, and since then no other
    has been accepted and no offset has been made from it. -/
def LatestSync (history : List Effect) (sync : Message) : Prop :=
  ∃ newer older, history = newer ++ .awaiting sync :: .received sync :: older ∧
    ∀ e ∈ newer, e.pairsSync = false

/-- An offset made from a Follow_Up was made from it and from the latest Sync,
    which is of the same port and number. -/
def SyncPaired (e : Effect) (past : List Effect) : Prop :=
  match e with
  | .offset true m ingress origin correction =>
    ∃ sync, LatestSync past sync ∧ sync.type = some .sync ∧ isTwoStep sync = true ∧
      sync.header.sequenceId = m.header.sequenceId ∧
      sync.header.sourcePortIdentity = m.header.sourcePortIdentity ∧
      ingress = sync.time ∧
      origin = internalTime (msgUnpackFollowUp m.buf) ∧
      correction = addTime (scaledNanosecondsToInternalTime m.header.correctionfield)
        (scaledNanosecondsToInternalTime sync.header.correctionfield)
  | _ => True

/-- No state decision replaces the parent by another master while a follow-up is
    awaited. -/
def KeepsParent (v : View) : Prop :=
  v.waitingForFollowUp = true → v.stateDecision.recommendedState = .slave →
    v.stateDecision.parentDS.parentPortIdentity = v.parentDS.parentPortIdentity

/-- The time of a Follow_Up that is awaited can be represented. -/
def TimedFollowUp (v : View) (m : Message) : Prop :=
  m.type = some .followUp → v.waitingForFollowUp = true → v.isParent m →
    v.recvSyncSequenceId = m.header.sequenceId → Representable (msgUnpackFollowUp m.buf)

instance decidableKeepsParent (v : View) : Decidable (KeepsParent v) :=
  inferInstanceAs (Decidable (v.waitingForFollowUp = true →
    v.stateDecision.recommendedState = .slave →
    v.stateDecision.parentDS.parentPortIdentity = v.parentDS.parentPortIdentity))

instance decidableTimedFollowUp (v : View) (m : Message) : Decidable (TimedFollowUp v m) :=
  inferInstanceAs (Decidable (m.type = some .followUp → v.waitingForFollowUp = true →
    isSamePortIdentity v.parentDS.parentPortIdentity m.header.sourcePortIdentity = true →
    v.recvSyncSequenceId = m.header.sequenceId → Representable (msgUnpackFollowUp m.buf)))

/-- The Sync a port is waiting with, and what it remembers of it. -/
structure AwaitsFollowUp (history : List Effect) (parent : PortIdentity) (sequenceId : Int16)
    (ingress correction : TimeInternal) (sync : Message) : Prop where
  latest : LatestSync history sync
  type : sync.type = some .sync
  twoStep : isTwoStep sync = true
  source : sync.header.sourcePortIdentity = parent
  sequenceId : sync.header.sequenceId = sequenceId
  ingress : sync.time = ingress
  correction : scaledNanosecondsToInternalTime sync.header.correctionfield = correction

/-- The offsets are paired, and a port that waits follows the master whose Sync
    it waits with. -/
def SyncInv (v : View) : Prop :=
  EachPast SyncPaired v.history ∧
    (v.waitingForFollowUp = true → v.follows ∧ ∃ sync, AwaitsFollowUp v.history
      v.parentDS.parentPortIdentity v.recvSyncSequenceId v.timestampSyncRecieve
      v.correctionFieldSync sync)

theorem LatestSync.cons {history : List Effect} {sync : Message} (h : LatestSync history sync)
    {e : Effect} (he : e.pairsSync = false) : LatestSync (e :: history) sync := by
  rcases h with ⟨newer, older, heq, hnewer⟩
  refine ⟨e :: newer, older, by rw [heq, List.cons_append], fun x hx => ?_⟩
  rcases List.mem_cons.mp hx with rfl | hx
  · exact he
  · exact hnewer x hx

/-- An effect that pairs nothing. -/
theorem AwaitsFollowUp.cons {history : List Effect} {parent : PortIdentity} {sequenceId : Int16}
    {ingress correction : TimeInternal} {sync : Message}
    (h : AwaitsFollowUp history parent sequenceId ingress correction sync) {e : Effect}
    (he : e.pairsSync = false) :
    AwaitsFollowUp (e :: history) parent sequenceId ingress correction sync :=
  { h with latest := h.latest.cons he }

theorem syncPaired_of_not_pairsSync {e : Effect} (he : e.pairsSync = false)
    (past : List Effect) : SyncPaired e past := by
  cases e with
  | offset twoStep _ _ _ _ =>
      cases he
      trivial
  | _ => trivial

theorem SyncInv.log {v : View} (h : SyncInv v) {e : Effect} (he : e.pairsSync = false) :
    SyncInv (v.log e) := by
  refine ⟨⟨syncPaired_of_not_pairsSync he _, h.1⟩, fun hwait => ?_⟩
  rcases h.2 hwait with ⟨hst, sync, hsync⟩
  exact ⟨hst, sync, hsync.cons he⟩

theorem syncInv_clear {v : View} (h : SyncInv v) : SyncInv v.clear :=
  ⟨⟨trivial, h.1⟩, fun hwait => absurd hwait Bool.false_ne_true⟩

theorem quiet_syncInv : Quiet SyncInv where
  sent := fun _ _ _ _ h => h.log rfl
  request := fun _ _ _ _ _ h => SyncInv.log (SyncInv.log h rfl) rfl
  clear := fun _ h => syncInv_clear h

/-- A port that stops following ends its waiting. -/
theorem syncInv_leave {v : View} (hpast : EachPast SyncPaired v.history)
    (hfollows : v.waitingForFollowUp = true → v.follows) (state : PtpState)
    (h1 : state ≠ .uncalibrated) (h2 : state ≠ .slave) : SyncInv (v.toState state) := by
  have hclears : v.waitingForFollowUp = true → View.clears v.portState state = true := by
    intro hwait
    rcases hfollows hwait with hst | hst
    · rw [hst, View.clears, decide_eq_false h1, decide_eq_false h2]
      rfl
    · rw [hst, View.clears, decide_eq_false h1, decide_eq_false h2]
      rfl
  cases hc : View.clears v.portState state with
  | true =>
      simp only [View.toState, hc, if_true]
      exact ⟨⟨trivial, hpast⟩, fun hwait => absurd hwait Bool.false_ne_true⟩
  | false =>
      simp only [View.toState, hc, Bool.false_eq_true, if_false]
      refine ⟨hpast, fun hwait => ?_⟩
      rw [hclears hwait] at hc
      exact absurd hc.symm Bool.false_ne_true

/-- A port that goes on following goes on waiting. -/
theorem syncInv_follow {v : View} (h : SyncInv v) (state : PtpState)
    (hstate : state = .uncalibrated ∨ state = .slave) : SyncInv (v.toState state) := by
  cases hc : View.clears v.portState state with
  | true =>
      simp only [View.toState, hc, if_true]
      exact ⟨⟨trivial, h.1⟩, fun hwait => absurd hwait Bool.false_ne_true⟩
  | false =>
      simp only [View.toState, hc, Bool.false_eq_true, if_false]
      refine ⟨h.1, fun hwait => ⟨?_, (h.2 hwait).2⟩⟩
      rcases hstate with rfl | rfl
      · exact Or.inl rfl
      · exact Or.inr rfl

theorem syncInv_timeout {v : View} (h : SyncInv v) : SyncInv v.timeout := by
  have hpast : EachPast SyncPaired v.forgetMasters.history := ⟨trivial, h.1⟩
  have hfollows : v.waitingForFollowUp = true → v.follows := fun hwait => (h.2 hwait).1
  simp only [View.timeout]
  split
  · exact syncInv_leave (v := { v.forgetMasters.m1 with recommendedState := .master }) hpast
      hfollows .master (by decide) (by decide)
  · split
    · exact syncInv_leave (v := v.forgetMasters) hpast hfollows .listening (by decide) (by decide)
    · exact SyncInv.log h rfl

/-- What the state decision leaves alone. -/
theorem sync_stateDecision (v : View) :
    (EachPast SyncPaired v.history → EachPast SyncPaired v.stateDecision.history) ∧
      v.stateDecision.waitingForFollowUp = v.waitingForFollowUp ∧
      ∀ parent sync, AwaitsFollowUp v.history parent v.recvSyncSequenceId v.timestampSyncRecieve
          v.correctionFieldSync sync →
        AwaitsFollowUp v.stateDecision.history parent v.stateDecision.recvSyncSequenceId
          v.stateDecision.timestampSyncRecieve v.stateDecision.correctionFieldSync sync := by
  simp only [View.stateDecision]
  split
  · simp only [View.bmc, View.decideOn]
    split
    · exact ⟨id, rfl, fun _ _ => id⟩
    · split
      · exact ⟨id, rfl, fun _ _ => id⟩
      · split
        · exact ⟨id, rfl, fun _ _ => id⟩
        · exact ⟨fun h => ⟨trivial, h⟩, rfl, fun _ _ h => h.cons rfl⟩
  · exact ⟨id, rfl, fun _ _ => id⟩

/-- Following the recommendation: a port that stops following ends its waiting,
    and one that goes on has kept its parent. -/
theorem syncInv_applies {v u : View} (h : SyncInv v) (hQ : KeepsParent v)
    (happ : Applies v.stateDecision u) (hs : Settled u) : SyncInv u := by
  rcases sync_stateDecision v with ⟨hpast, hwait, hkeep⟩
  have hport := View.portState_stateDecision v
  have hfollows : v.stateDecision.waitingForFollowUp = true → v.stateDecision.follows := by
    intro hw
    rw [View.follows, hport]
    exact (h.2 (hwait.symm.trans hw)).1
  have hinv : v.stateDecision.recommendedState = .slave → SyncInv v.stateDecision := by
    intro hslave
    refine ⟨hpast h.1, fun hw => ⟨hfollows hw, ?_⟩⟩
    rw [hwait] at hw
    rcases (h.2 hw).2 with ⟨sync, hsync⟩
    rw [hQ hw hslave]
    exact ⟨sync, hkeep _ sync hsync⟩
  cases happ with
  | stay =>
      refine ⟨hpast h.1, fun hw => ?_⟩
      exact (hinv (hs.recommended_slave (hfollows hw))).2 hw
  | enter state =>
      by_cases hstate : state = .uncalibrated ∨ state = .slave
      · refine syncInv_follow (hinv ?_) state hstate
        have hrec := hs.recommended_slave (v := v.stateDecision.toState state) ?_
        · rcases hstate with rfl | rfl
          · rwa [View.recommendedState_toState_ne _ (by decide) (by decide)] at hrec
          · rwa [View.recommendedState_toState_ne _ (by decide) (by decide)] at hrec
        · rcases hstate with rfl | rfl
          · exact Or.inl rfl
          · exact Or.inr rfl
      · rw [not_or] at hstate
        exact syncInv_leave (hpast h.1) hfollows state hstate.1 hstate.2

/-- The messages: a Sync is remembered with its parent, and the Follow_Up that is
    accepted is of the same parent and number. -/
theorem syncInv_accepts {v w : View} {m : Message} {older : List Effect}
    (hlast : v.history = .received m :: older) (hP : TimedFollowUp v m) (h : SyncInv v)
    (ha : Accepts m v w) : SyncInv w := by
  cases ha with
  | syncTwoStep htype hstate hparent htwo =>
      refine ⟨⟨trivial, h.1⟩, fun _ => ⟨hstate, m, ?_⟩⟩
      exact {
        latest := ⟨[], older, congrArg (List.cons _) hlast, fun e he => absurd he List.not_mem_nil⟩
        type := htype
        twoStep := htwo
        source := ((isSamePortIdentity_iff _ _).mp hparent).symm
        sequenceId := rfl
        ingress := rfl
        correction := rfl }
  | syncOneStep htype hstate origin =>
      exact ⟨⟨trivial, h.1⟩, fun hwait => absurd hwait Bool.false_ne_true⟩
  | followUp htype hstate hwait hparent hseq origin horigin =>
      refine ⟨⟨?_, h.1⟩, fun hw => absurd hw Bool.false_ne_true⟩
      rcases (h.2 hwait).2 with ⟨sync, hsync⟩
      refine ⟨sync, hsync.latest, hsync.type, hsync.twoStep, hsync.sequenceId.trans hseq,
        hsync.source.trans ((isSamePortIdentity_iff _ _).mp hparent), hsync.ingress.symm,
        horigin (hP htype hwait hparent hseq), ?_⟩
      rw [hsync.correction]
  | announceParent htype hstate hself hparent =>
      -- the parent is the one that announces
      refine ⟨⟨trivial, h.1⟩, fun hwait => ?_⟩
      rcases h.2 hwait with ⟨hst, sync, hsync⟩
      have hsource := (isSamePortIdentity_iff _ _).mp hparent
      rw [hsource] at hsync
      exact ⟨hst, sync, hsync.cons rfl⟩
  | announceForeign _ _ _ _ => exact SyncInv.log (SyncInv.log h rfl) rfl
  | pDelayRespTwoStep htype _ _ _ _ _ =>
      exact SyncInv.log h (by rw [Effect.pairsSync, htype]; rfl)
  | pDelayRespOneStep _ => exact SyncInv.log h rfl
  | pDelayFollowUp _ _ _ _ _ => exact SyncInv.log h rfl

theorem preserved_sync (rtOpts : RunTimeOpts) :
    Preserved rtOpts TimedFollowUp KeepsParent SyncInv SyncInv where
  mid := quiet_syncInv
  inv := quiet_syncInv
  weaken := fun _ h => h
  apply := fun _ _ _ hQ h happ hs => syncInv_applies h hQ happ hs
  timeout := fun _ _ h => syncInv_timeout h
  faulty := fun _ h =>
    syncInv_leave h.1 (fun hwait => (h.2 hwait).1) .faulty (by decide) (by decide)
  received := fun _ _ h => h.log rfl
  accept := fun v m _ _ hP h ha =>
    syncInv_accepts (v := v.log (.received m)) rfl hP (h.log rfl) ha

theorem syncInv_upView (rtOpts : RunTimeOpts) (hwaddr : PortUuid) :
    SyncInv (upView rtOpts hwaddr) :=
  ⟨⟨trivial, trivial, trivial⟩, fun hwait => absurd hwait Bool.false_ne_true⟩

/-- Every offset made from a Follow_Up is paired with the right Sync, and no two
    with the same. -/
def OffsetsPaired (s : Port) : Prop :=
  ∀ newer e past, s.history = newer ++ e :: past → SyncPaired e past

/-- In every run in which no state decision replaces the parent while a
    follow-up is awaited, and the times of the Follow_Ups can be represented, the
    offsets are paired. -/
theorem offsets_paired (rtOpts : RunTimeOpts) (evs : List Event)
    (h : Meets engineStep (Allows TimedFollowUp KeepsParent) (powerUp rtOpts) evs) :
    OffsetsPaired (run engineStep (powerUp rtOpts) evs) := by
  refine (eachPast_iff _ _).mp ?_
  rcases engine_invariant (preserved_sync rtOpts) (syncInv_upView rtOpts) evs h with
    hboot | ⟨-, hinv⟩
  · have hnil : (run engineStep (powerUp rtOpts) evs).history = [] := hboot.history_eq_nil
    rw [hnil]
    trivial
  · exact hinv.1

/-- A two-step Sync of the clock `id`. -/
def peerSync (id seq : UInt8) : Channel × Packet :=
  (.event, ⟨peerMessage .sync id flag0TwoStep seq [0, 0, 0, 0, 0, 0, 0, 0, 0, 0], ⟨1, 0⟩⟩)

/-- A Follow_Up of the clock `id`. -/
def peerFollowUp (id seq : UInt8) : Channel × Packet :=
  (.general, ⟨peerMessage .followUp id 0 seq [0, 0, 0, 0, 0, 1, 0, 0, 0, 0], .zero⟩)

/-- A message of the port `p` waits for its follow-up. -/
def Effect.awaitsFrom (p : PortIdentity) : Effect → Bool
  | .awaiting m => m.header.sourcePortIdentity = p
  | _ => false

/-- The port of the Follow_Up an offset was made from. -/
def Effect.offsetFrom : Effect → Option PortIdentity
  | .offset true m _ _ _ => some m.header.sourcePortIdentity
  | _ => none

/-- A master announces itself, sends a Sync and follows it up. -/
theorem offsets_paired_once :
    let s := run engineStep (powerUp defaultRtOpts)
      [quietStep [], quietStep [peerAnnounce 2 2 0], quietStep [peerSync 2 7],
        quietStep [peerFollowUp 2 7]]
    OffsetsPaired s ∧
      s.history.filterMap Effect.offsetFrom = [⟨#v[0, 0, 0, 0, 0, 0, 0, 2], 1⟩] :=
  ⟨offsets_paired _ _ (by decide +kernel), by decide +kernel⟩

/-- Whoever an offset is made from has sent a Sync. -/
theorem OffsetsPaired.awaits {s : Port} (h : OffsetsPaired s) {p : PortIdentity}
    (hp : p ∈ s.history.filterMap Effect.offsetFrom) :
    s.history.any (Effect.awaitsFrom p) = true := by
  rcases List.mem_filterMap.mp hp with ⟨e, he, hfrom⟩
  rcases List.append_of_mem he with ⟨newer, past, heq⟩
  have hpaired := h newer e past heq
  cases e with
  | offset twoStep m ingress origin correction =>
      cases twoStep with
      | false => exact absurd hfrom (by simp only [Effect.offsetFrom, reduceCtorEq,
          not_false_eq_true])
      | true =>
          rcases hpaired with ⟨sync, ⟨between, older, hpast, -⟩, -, -, -, hsource, -⟩
          refine List.any_eq_true.mpr ⟨.awaiting sync, ?_, ?_⟩
          · rw [heq, hpast]
            simp only [List.mem_append, List.mem_cons, true_or, or_true]
          · exact decide_eq_true (hsource.trans (Option.some.inj hfrom))
  | _ => exact absurd hfrom (by simp only [Effect.offsetFrom, reduceCtorEq, not_false_eq_true])

/-- The Sync of one master, a worse master's Announce, and the worse master's
    Follow_Up, which is taken for that of the Sync. -/
theorem followUp_of_another_master :
    ¬ OffsetsPaired (run engineStep (powerUp defaultRtOpts)
      [quietStep [], quietStep [peerAnnounce 2 2 0], quietStep [peerSync 2 7],
        quietStep [peerAnnounce 3 3 0], quietStep [peerFollowUp 3 7]]) := by
  intro h
  have hmem := h.awaits (p := ⟨#v[0, 0, 0, 0, 0, 0, 0, 3], 1⟩) (by decide +kernel)
  exact absurd hmem (by decide +kernel)

end Ptp

end RtosLwip
