import RtosLwip.Ptp.Steps

/-!
# Invariants of the Daemon

The rule that carries an invariant of the protocol view to every run of the
daemon. An invariant is proved for the things a step is made of, which
`Preserved` collects: the state decision, the change of state, the timeout, what
is sent, and the eight ways to accept a message. Everything else a step does is
a composition of these.

Within a step an invariant may be stronger than between two steps, since the
state decision comes first. So there are two: `Inv` holds where a step begins
and ends, and `Mid` from the state decision to the message.

## Main definitions

* `MaySend`: When a message is sent, and what an Announce says.
* `Accepts`: What accepting a message does.
* `Quiet`, `Stable`, `Preserved`: What an invariant has to be proved for.

## Theorems

* `accepts_of_handles`: A message is accepted, or only the port's state and
  the history change.
* `Preserved.runStep`: A step keeps the invariant.
* `engine_invariant`: Every run keeps the invariant.
-/

namespace RtosLwip

namespace Ptp

/-- When a message of the type is sent, and what an Announce says. -/
def MaySend (v : View) (type : MsgType) (bytes : List UInt8) : Prop :=
  match type with
  | .announce => v.recommendedState = .master ∧ Describes v bytes
  | .sync | .followUp | .delayResp => v.recommendedState = .master
  | _ => True

/-- What accepting a message does, before the clock is steered. -/
inductive Accepts (m : Message) (v : View) : View → Prop where
  | announceParent (htype : m.type = some .announce) (hstate : v.follows)
      (hself : ¬ v.isSelf m) (hparent : v.isParent m) :
      Accepts m v ((v.announced m).s1 m.header (msgUnpackAnnounce m.buf))
  | announceForeign (htype : m.type = some .announce) (hstate : v.decides = true)
      (hself : ¬ v.isSelf m) (hother : v.follows → ¬ v.isParent m) :
      Accepts m v ((v.announced m).addForeign m.header (msgUnpackAnnounce m.buf))
  | syncTwoStep (htype : m.type = some .sync) (hstate : v.follows) (hparent : v.isParent m)
      (htwo : isTwoStep m = true) : Accepts m v (v.awaitFollowUp m)
  | syncOneStep (htype : m.type = some .sync) (hstate : v.follows) (origin : TimeInternal) :
      Accepts m v (v.oneStepSync m origin)
  | followUp (htype : m.type = some .followUp) (hstate : v.follows)
      (hwait : v.waitingForFollowUp = true) (hparent : v.isParent m)
      (hseq : v.recvSyncSequenceId = m.header.sequenceId) (origin : TimeInternal)
      (horigin : Representable (msgUnpackFollowUp m.buf) →
        origin = internalTime (msgUnpackFollowUp m.buf)) :
      Accepts m v (v.followUp m origin)
  | pDelayRespTwoStep (htype : m.type = some .pDelayResp) (hecho : v.echoes m)
      (haddr : v.isAddressee m) (htwo : isTwoStep m = true) (t2 : TimeInternal)
      (ht2 : Representable (unpackResp m.buf).timestamp →
        t2 = internalTime (unpackResp m.buf).timestamp) :
      Accepts m v (v.awaitPDelayFollowUp m t2)
  | pDelayRespOneStep (t3 : TimeInternal) : Accepts m v (v.oneStepPDelay m t3)
  | pDelayFollowUp (htype : m.type = some .pDelayRespFollowUp)
      (hwait : v.waitingForPDelayRespFollowUp = true) (hecho : v.echoes m) (t3 : TimeInternal)
      (ht3 : Representable (unpackResp m.buf).timestamp →
        t3 = internalTime (unpackResp m.buf).timestamp) :
      Accepts m v (v.pDelayFollowUp m t3)

/-- The invariant is kept by what is sent and by a reset of the clock. -/
structure Quiet (Inv : View → Prop) : Prop where
  sent : ∀ v type bytes, MaySend v type bytes → Inv v → Inv (v.log (.sent type bytes))
  request : ∀ v bytes egress t1, (∀ t, egress = some t → t1 = t) → Inv v →
    Inv (v.request bytes egress t1)
  clear : ∀ v, Inv v → Inv v.clear

/-- The invariant does not depend on the state of the port, nor on a
    recommendation being withdrawn. -/
structure Stable (Mid : View → Prop) : Prop extends Quiet Mid where
  state : ∀ v portState recommendedState,
    (recommendedState = v.recommendedState ∨ recommendedState = .listening) → Mid v →
    Mid { v with portState := portState, recommendedState := recommendedState }

/-- The invariant is kept by everything a step is made of, when the view the
    step begins in satisfies `Q` and the message it handles satisfies `P`. -/
structure Preserved (rtOpts : RunTimeOpts) (P : View → Message → Prop)
    (Q Mid Inv : View → Prop) : Prop where
  mid : Quiet Mid
  inv : Quiet Inv
  weaken : ∀ v, Mid v → Inv v
  apply : ∀ v u, Up rtOpts v → Q v → Inv v → Applies v.stateDecision u → Settled u → Mid u
  timeout : ∀ v, Settled v → Mid v → Inv v.timeout
  faulty : ∀ v, Mid v → Inv (v.toState .faulty)
  received : ∀ v m, Mid v → Mid (v.log (.received m))
  accept : ∀ v m w, Settled v → P v m → Mid v → Accepts m (v.log (.received m)) w → Inv w

section Quiet

variable {Inv : View → Prop} (hq : Quiet Inv)

include hq

theorem Quiet.requests {v w : View} (h : Requests v w) (hv : Inv v) : Inv w := by
  cases h with
  | nothing => exact hv
  | delayReq bytes => exact hq.sent v _ _ trivial hv
  | pDelayReq bytes egress t1 h => exact hq.request v bytes egress t1 h hv

theorem Quiet.steers {v w : View} (h : Steers v w) (hv : Inv v) : Inv w := by
  cases h with
  | keep h => exact hq.requests h hv
  | reset h => exact hq.requests h (hq.clear v hv)

theorem Quiet.masterSends {v w : View} (h : MasterSends v w) (hrec : v.recommendedState = .master)
    (hv : Inv v) : Inv w := by
  have hsame : ∀ {u : View}, MasterSends v u → u.recommendedState = .master := fun hu =>
    (stays_of_masterSends hu).2.2.trans hrec
  induction h with
  | nothing => exact hv
  | sync w bytes hw ih => exact hq.sent w _ _ (hsame hw) ih
  | followUp w bytes hw ih => exact hq.sent w _ _ (hsame hw) ih
  | announce w bytes hd hw ih =>
      refine hq.sent w _ _ ⟨hsame hw, ?_⟩ ih
      rcases hw.eq_history with ⟨history, rfl⟩
      exact hd

end Quiet

section Stable

variable {Mid : View → Prop} (hst : Stable Mid)

include hst

theorem Stable.toState {v : View} (state : PtpState) (hne : state ≠ .initializing) (hv : Mid v) :
    Mid (v.toState state) := by
  have hclear : Mid (if View.clears v.portState state then v.clear else v) := by
    split
    · exact hst.clear v hv
    · exact hv
  simp only [View.toState]
  generalize (if View.clears v.portState state then v.clear else v) = u at hclear ⊢
  refine hst.state u _ _ ?_ hclear
  by_cases hl : state = .listening
  · rw [if_pos (Or.inr hl)]
    exact Or.inr hl
  · rw [if_neg (not_or.mpr ⟨hne, hl⟩)]
    exact Or.inl rfl

/-- The timeout, for an invariant that survives the loss of the table. -/
theorem Stable.timeout {v : View} (hforget : Mid v.forgetMasters)
    (hbecome : v.slaveOnly = false → Mid { v.forgetMasters.m1 with recommendedState := .master }) :
    Mid v.timeout := by
  simp only [View.timeout]
  split
  · rename_i hslave
    exact hst.toState .master (by decide) (hbecome hslave)
  · split
    · exact hst.toState .listening (by decide) hforget
    · exact hforget

/-- A stable invariant follows the recommendation. -/
theorem Stable.applies {v u : View} (h : Applies v u) (hv : Mid v) : Mid u := by
  cases h with
  | stay => exact hv
  | enter state _ hs =>
      refine hst.toState state ?_ hv
      rintro rfl
      exact (Running.isUp (Or.inl hs)).1 rfl

end Stable

/-- A message is accepted, and the clock may be steered behind it, or it is
    answered, or it changes the state only. -/
theorem accepts_of_handles {m : Message} {v w : View} (h : Handles m v w) :
    (∃ u, Accepts m v u ∧ Steers u w) ∨ Requests v w ∨ w = v.toState .faulty ∨
      (∃ bytes, v.portState = .master ∧ w = v.log (.sent .delayResp bytes)) ∨
      (∃ bytes, w = v.log (.sent .pDelayResp bytes)) ∨
      ∃ bytes bytes', w = (v.log (.sent .pDelayResp bytes)).log
        (.sent .pDelayRespFollowUp bytes') := by
  have hstill : ∀ u : View, Steers u u := fun u => .keep u .nothing
  cases h with
  | ignored => exact Or.inr (Or.inl .nothing)
  | faulty => exact Or.inr (Or.inr (Or.inl rfl))
  | announceParent h1 h2 h3 h4 => exact Or.inl ⟨_, .announceParent h1 h2 h3 h4, hstill _⟩
  | announceForeign h1 h2 h3 h4 => exact Or.inl ⟨_, .announceForeign h1 h2 h3 h4, hstill _⟩
  | syncTwoStep h1 h2 h3 h4 => exact Or.inl ⟨_, .syncTwoStep h1 h2 h3 h4, hstill _⟩
  | syncOneStep h1 h2 origin _ h => exact Or.inl ⟨_, .syncOneStep h1 h2 origin, h⟩
  | followUp h1 h2 h3 h4 h5 origin h6 _ h =>
      exact Or.inl ⟨_, .followUp h1 h2 h3 h4 h5 origin h6, h⟩
  | request _ _ h => exact Or.inr (Or.inl h)
  | delayResp hst bytes => exact Or.inr (Or.inr (Or.inr (Or.inl ⟨bytes, hst, rfl⟩)))
  | pDelayResp bytes => exact Or.inr (Or.inr (Or.inr (Or.inr (Or.inl ⟨bytes, rfl⟩))))
  | pDelayRespFollowUp bytes bytes' =>
      exact Or.inr (Or.inr (Or.inr (Or.inr (Or.inr ⟨bytes, bytes', rfl⟩))))
  | pDelayRespTwoStep h1 h2 h3 h4 t2 h5 =>
      exact Or.inl ⟨_, .pDelayRespTwoStep h1 h2 h3 h4 t2 h5, hstill _⟩
  | pDelayRespOneStep t3 => exact Or.inl ⟨_, .pDelayRespOneStep t3, hstill _⟩
  | pDelayFollowUp h1 h2 h3 t3 h4 => exact Or.inl ⟨_, .pDelayFollowUp h1 h2 h3 t3 h4, hstill _⟩

/-- A settled master has been recommended to be one. -/
theorem Settled.recommended_master {v : View} (h : Settled v) (hst : v.portState = .master) :
    v.recommendedState = .master := by
  rcases h with h | h | h | ⟨-, h | h⟩
  · exact absurd (h.2.symm.trans hst) (by decide)
  · exact h.1
  · exact absurd (h.2.symm.trans hst) (by decide)
  · exact absurd (h.symm.trans hst) (by decide)
  · exact absurd (h.symm.trans hst) (by decide)

/-- A settled port that follows a master has been recommended to. -/
theorem Settled.recommended_slave {v : View} (h : Settled v) (hst : v.follows) :
    v.recommendedState = .slave := by
  have hother : ∀ {state : PtpState}, v.portState = state → state ≠ .uncalibrated →
      state ≠ .slave → False := by
    intro state hport h1 h2
    rcases hst with hst | hst
    · exact h1 (hport.symm.trans hst)
    · exact h2 (hport.symm.trans hst)
  rcases h with h | h | h | h
  · exact (hother h.2 (by decide) (by decide)).elim
  · exact (hother h.2 (by decide) (by decide)).elim
  · exact (hother h.2 (by decide) (by decide)).elim
  · exact h.1

theorem decides_of_follows {v : View} (h : v.follows) : v.decides = true := by
  rcases h with h | h
  · rw [View.decides, h]
    rfl
  · rw [View.decides, h]
    rfl

section Preserved

variable {rtOpts : RunTimeOpts} {P : View → Message → Prop} {Q Mid Inv : View → Prop}
  (hp : Preserved rtOpts P Q Mid Inv)

include hp

theorem Preserved.receives {v w : View} (hs : Settled v) (hv : Mid v) (h : Receives P v w) :
    Inv w := by
  cases h with
  | nothing => exact hp.weaken v hv
  | short => exact hp.faulty v hv
  | message m _ hP h =>
      have hrec := hp.received v m hv
      rcases accepts_of_handles h with ⟨u, hu, hsteer⟩ | hreq | rfl | ⟨bytes, hst, rfl⟩ |
        ⟨bytes, rfl⟩ | ⟨bytes, bytes', rfl⟩
      · exact hp.inv.steers hsteer (hp.accept v m u hs hP hv hu)
      · exact hp.weaken _ (hp.mid.requests hreq hrec)
      · exact hp.faulty _ hrec
      · exact hp.weaken _ (hp.mid.sent _ _ _ (hs.recommended_master hst) hrec)
      · exact hp.weaken _ (hp.mid.sent _ _ _ trivial hrec)
      · exact hp.weaken _ (hp.mid.sent _ _ _ trivial (hp.mid.sent _ _ _ trivial hrec))

/-- A step keeps the invariant. -/
theorem Preserved.runStep {v w : View} (hup : Up rtOpts v) (hQ : Q v) (hv : Inv v)
    (h : RunStep P v w) : Inv w := by
  rcases h with ⟨u, happ, hset, hact⟩
  have hu : Mid u := hp.apply v u hup hQ hv happ hset
  cases hact with
  | timeout => exact hp.timeout u hset hu
  | handle _ _ h => exact hp.receives hset hu h
  | master hst x y _ hsend h hreq =>
      have hx := hp.mid.masterSends hsend (hset.recommended_master hst) hu
      exact hp.inv.requests hreq
        (hp.receives ((stays_of_masterSends hsend).settled hset) hx h)

/-- What holds when a port comes up and is kept by every step holds in every
    run, once the port is up. -/
theorem engine_invariant (hinit : ∀ hwaddr, Inv (upView rtOpts hwaddr)) (evs : List Event)
    (hm : Meets engineStep (Allows P Q) (powerUp rtOpts) evs) :
    Boots rtOpts (view (run engineStep (powerUp rtOpts) evs)) ∨
      (Up rtOpts (view (run engineStep (powerUp rtOpts) evs)) ∧
        Inv (view (run engineStep (powerUp rtOpts) evs))) := by
  refine meets_invariant (I := fun s => Boots rtOpts (view s) ∨
    (Up rtOpts (view s) ∧ Inv (view s))) ?_ _ (Or.inl (Or.inl rfl)) evs hm
  intro s ev hs hev
  cases ev with
  | step env =>
      rcases hs with hs | ⟨⟨hrun, hwaddr, hsame⟩, hinv⟩
      · rcases view_ptpStateMachine_boots env s hs with h | h
        · exact Or.inl h
        · refine Or.inr ?_
          rw [engineStep, h]
          exact ⟨up_upView rtOpts _, hinit _⟩
      · have h := runStep_ptpStateMachine env s hrun hev.2
        rcases samePort_running_of_runStep h with ⟨hsame', hrun'⟩
        exact Or.inr ⟨⟨hrun', hwaddr, hsame.trans hsame'⟩,
          hp.runStep ⟨hrun, hwaddr, hsame⟩ hev.1 hinv h⟩
  | packet ch p =>
      rw [engineStep, view_udpRecvCallback]
      exact hs
  | expire t =>
      rw [engineStep, view_timerCallback]
      exact hs

end Preserved

/-- A condition that asks nothing is met by every run. -/
theorem meets_allows_true (s : Port) (evs : List Event) :
    Meets engineStep (Allows (fun _ _ => True) fun _ => True) s evs := by
  induction evs generalizing s with
  | nil => trivial
  | cons ev rest ih =>
      refine ⟨?_, ih _⟩
      cases ev with
      | step env => exact ⟨trivial, fun _ _ _ => trivial⟩
      | packet ch p => trivial
      | expire t => trivial

end Ptp

end RtosLwip
