import RtosLwip.Ptp.SyncPairing

/-!
# The Four Times of a Peer Delay

The four times of a peer delay stand in four fields of the clock. Sending a
PDelay_Req writes the first if the hardware gave a time of egress, and otherwise
leaves the one before. A PDelay_Resp writes the second and the fourth, and its
follow-up the third, when it carries the number of the latest request. Nothing
ties the waiting to the responder or to the request it began with, a follow-up
is not checked for whom it is addressed to, and a reset of the clock clears the
times but not the number of the latest request.

So the times belong to one exchange as long as a response finds the time of its
request in place, its follow-up comes from the same responder before the next
request, and the times on the wire can be represented.

## Main definitions

* `Effect.setsT1`, `Effect.exchange`: What writes the first time, and what an
  exchange is made of.
* `PeerPaired`: A peer delay was made from the times of one exchange.
* `OrderlyResponse`, `OrderlyFollowUp`: The conditions.
* `PeerInv`: The invariant.

## Theorems

* `peerInv_accepts`: What keeps it.
* `peerDelays_paired`: The peer delays in every run under the condition.
-/

namespace RtosLwip

namespace Ptp

/-- The first time of an exchange is written or cleared. -/
def Effect.setsT1 : Effect → Bool
  | .requested _ _ | .cleared => true
  | _ => false

/-- A request is sent, or its response waits for the follow-up. -/
def Effect.exchange : Effect → Bool
  | .requested _ _ => true
  | .awaiting m => m.type = some .pDelayResp
  | _ => false

/-- The PDelay_Resp was sent by a responder to the port `own`, for its request
    `sequenceId`, with these times of reception. -/
structure IsResponse (own : PortIdentity) (sequenceId : Int16) (t2 t4 : TimeInternal)
    (r : Message) : Prop where
  type : r.type = some .pDelayResp
  sequenceId : r.header.sequenceId = sequenceId
  addressee : (unpackResp r.buf).requestingPortIdentity = own
  t2 : t2 = internalTime (unpackResp r.buf).timestamp
  t4 : t4 = r.time

/-- A peer delay made from a PDelay_Resp_Follow_Up was made from the times of
    one exchange: the latest request, its response to the port `own`, and the
    follow-up of the same responder. -/
def PeerPaired (own : PortIdentity) (e : Effect) (past : List Effect) : Prop :=
  match e with
  | .peerDelay true m t1 t2 t3 t4 =>
    ∃ r q, past.find? Effect.exchange = some (.awaiting r) ∧ Effect.received r ∈ past ∧
      past.find? Effect.setsT1 = some (.requested q (some t1)) ∧ IsResponse own q t2 t4 r ∧
      m.type = some .pDelayRespFollowUp ∧ m.header.sequenceId = q ∧
      (unpackResp m.buf).requestingPortIdentity = own ∧
      m.header.sourcePortIdentity = r.header.sourcePortIdentity ∧
      t3 = internalTime (unpackResp m.buf).timestamp
  | _ => True

/-- A request that went out at a known time. -/
def Effect.isTimedRequest : Effect → Bool
  | .requested _ (some _) => true
  | _ => false

/-- A two-step response to the latest request finds the time of the request in
    place, and its own time can be represented. -/
def OrderlyResponse (v : View) (m : Message) : Prop :=
  m.type = some .pDelayResp → v.echoes m → v.isAddressee m → isTwoStep m = true →
    (v.history.find? Effect.setsT1).any Effect.isTimedRequest = true ∧
      Representable (unpackResp m.buf).timestamp

/-- A follow-up to the latest request, when one is awaited, is for this port and
    comes from the responder that is waited for, before the next request, and its
    time can be represented. -/
def OrderlyFollowUp (v : View) (m : Message) : Prop :=
  m.type = some .pDelayRespFollowUp → v.waitingForPDelayRespFollowUp = true → v.echoes m →
    v.isAddressee m ∧ Representable (unpackResp m.buf).timestamp ∧
      (v.history.find? Effect.exchange).any
        (Effect.awaitsFrom m.header.sourcePortIdentity) = true

/-- The condition on the messages of an exchange. -/
def OrderlyExchange (v : View) (m : Message) : Prop :=
  OrderlyResponse v m ∧ OrderlyFollowUp v m

instance decidableEchoes (v : View) (m : Message) : Decidable (v.echoes m) :=
  inferInstanceAs (Decidable (v.sentPDelayReqSequenceId.toInt - 1 = m.header.sequenceId.toInt))

instance decidableIsAddressee (v : View) (m : Message) : Decidable (v.isAddressee m) :=
  inferInstanceAs (Decidable
    (isSamePortIdentity v.portIdentity (unpackResp m.buf).requestingPortIdentity = true))

instance decidableOrderlyResponse (v : View) (m : Message) : Decidable (OrderlyResponse v m) :=
  inferInstanceAs (Decidable (m.type = some .pDelayResp → v.echoes m → v.isAddressee m →
    isTwoStep m = true → (v.history.find? Effect.setsT1).any Effect.isTimedRequest = true ∧
      Representable (unpackResp m.buf).timestamp))

instance decidableOrderlyFollowUp (v : View) (m : Message) : Decidable (OrderlyFollowUp v m) :=
  inferInstanceAs (Decidable (m.type = some .pDelayRespFollowUp →
    v.waitingForPDelayRespFollowUp = true → v.echoes m →
    v.isAddressee m ∧ Representable (unpackResp m.buf).timestamp ∧
      (v.history.find? Effect.exchange).any
        (Effect.awaitsFrom m.header.sourcePortIdentity) = true))

instance decidableOrderlyExchange (v : View) (m : Message) : Decidable (OrderlyExchange v m) :=
  inferInstanceAs (Decidable (_ ∧ _))

theorem eq_requested_of_any {o : Option Effect} (h : o.any Effect.isTimedRequest = true) :
    ∃ q t1, o = some (.requested q (some t1)) := by
  cases o with
  | none => exact absurd h Bool.false_ne_true
  | some e =>
      cases e with
      | requested q egress =>
          cases egress with
          | none => exact absurd h Bool.false_ne_true
          | some t1 => exact ⟨q, t1, rfl⟩
      | _ => exact absurd h Bool.false_ne_true

theorem eq_awaiting_of_any {p : PortIdentity} {o : Option Effect}
    (h : o.any (Effect.awaitsFrom p) = true) :
    ∃ r, o = some (.awaiting r) ∧ p = r.header.sourcePortIdentity := by
  cases o with
  | none => exact absurd h Bool.false_ne_true
  | some e =>
      cases e with
      | awaiting r => exact ⟨r, rfl, (of_decide_eq_true h).symm⟩
      | _ => exact absurd h Bool.false_ne_true

/-- The peer delays are paired. The first time is that of the latest request,
    and what a port waits with, unless it has sent another request since, is the
    response to it. -/
def PeerInv (v : View) : Prop :=
  EachPast (PeerPaired v.portIdentity) v.history ∧
  (∀ q t1, v.history.find? Effect.setsT1 = some (.requested q (some t1)) →
    v.pdelayT1 = t1 ∧ v.sentPDelayReqSequenceId = q + 1) ∧
  (v.waitingForPDelayRespFollowUp = true →
    ∀ r, v.history.find? Effect.exchange = some (.awaiting r) →
      Effect.received r ∈ v.history ∧
      ∃ q t1, v.history.find? Effect.setsT1 = some (.requested q (some t1)) ∧
        IsResponse v.portIdentity q v.pdelayT2 v.pdelayT4 r)

/-- An effect that is no part of an exchange. -/
theorem PeerInv.log {v : View} (h : PeerInv v) {e : Effect} (h1 : e.setsT1 = false)
    (h2 : e.exchange = false) (hp : PeerPaired v.portIdentity e v.history) :
    PeerInv (v.log e) := by
  have hfind1 : (v.log e).history.find? Effect.setsT1 = v.history.find? Effect.setsT1 :=
    List.find?_cons_of_neg (by rw [h1]; exact Bool.false_ne_true)
  have hfind2 : (v.log e).history.find? Effect.exchange = v.history.find? Effect.exchange :=
    List.find?_cons_of_neg (by rw [h2]; exact Bool.false_ne_true)
  rw [PeerInv, hfind1, hfind2]
  refine ⟨⟨hp, h.1⟩, h.2.1, fun hwait r hr => ?_⟩
  rcases h.2.2 hwait r hr with ⟨hmem, hresp⟩
  exact ⟨List.mem_cons_of_mem _ hmem, hresp⟩

theorem peerInv_clear {v : View} (h : PeerInv v) : PeerInv v.clear := by
  refine ⟨⟨trivial, h.1⟩, fun q t1 hfind => ?_, fun hwait => absurd hwait Bool.false_ne_true⟩
  exact absurd (Option.some.inj hfind) (by simp only [reduceCtorEq, not_false_eq_true])

/-- A request takes the place of the one before. -/
theorem peerInv_request {v : View} (h : PeerInv v) (bytes : List UInt8)
    (egress : Option TimeInternal) (t1 : TimeInternal) (ht1 : ∀ t, egress = some t → t1 = t) :
    PeerInv (v.request bytes egress t1) := by
  refine ⟨⟨trivial, trivial, h.1⟩, fun q t hfind => ?_, fun _ r hfind => ?_⟩
  · have heq := Option.some.inj hfind
    rw [Effect.requested.injEq] at heq
    exact ⟨ht1 t heq.2, congrArg (· + 1) heq.1⟩
  · exact absurd (Option.some.inj hfind) (by simp only [reduceCtorEq, not_false_eq_true])

theorem stable_peerInv : Stable PeerInv where
  sent := fun _ _ _ _ h => h.log rfl rfl trivial
  request := fun _ bytes egress t1 ht1 h => peerInv_request h bytes egress t1 ht1
  clear := fun _ h => peerInv_clear h
  state := fun _ _ _ _ h => h

theorem peerInv_stateDecision {v : View} (h : PeerInv v) : PeerInv v.stateDecision := by
  simp only [View.stateDecision]
  split
  · simp only [View.bmc, View.decideOn]
    split
    · exact h
    · split
      · exact h
      · split
        · exact h
        · exact PeerInv.log h rfl rfl trivial
  · exact h

/-- The number that is echoed is that of the latest request. The comparison in
    the source is one of integers, so nothing echoes the last number before the
    counter wraps. -/
theorem sequenceId_of_echoes {v : View} {m : Message} {q : Int16} (hecho : v.echoes m)
    (hsent : v.sentPDelayReqSequenceId = q + 1) : m.header.sequenceId = q := by
  rw [View.echoes, hsent, Int16.toInt_add] at hecho
  have hone : (1 : Int16).toInt = 1 := by decide
  have hlow := Int16.le_toInt m.header.sequenceId
  have hq := Int16.le_toInt q
  have hq' := Int16.toInt_lt q
  rw [hone, Int.bmod_def] at hecho
  refine Int16.toInt_inj.mp ?_
  split at hecho
  · omega
  · omega

theorem peerInv_accepts {v w : View} {m : Message} (hmem : Effect.received m ∈ v.history)
    (hP : OrderlyExchange v m) (h : PeerInv v) (ha : Accepts m v w) : PeerInv w := by
  cases ha with
  | pDelayRespTwoStep htype hecho haddr htwo t2 ht2 =>
      rcases hP.1 htype hecho haddr htwo with ⟨htimed, hrep⟩
      rcases eq_requested_of_any htimed with ⟨q, t1, hfind⟩
      refine ⟨⟨trivial, h.1⟩, h.2.1, fun _ r hr => ?_⟩
      have hlatest : (Effect.awaiting m :: v.history).find? Effect.exchange
          = some (.awaiting m) :=
        List.find?_cons_of_pos (by rw [Effect.exchange, htype]; rfl)
      have heq : m = r := Effect.awaiting.inj (Option.some.inj (hlatest.symm.trans hr))
      rw [← heq]
      exact ⟨List.mem_cons_of_mem _ hmem, q, t1, hfind, {
        type := htype
        sequenceId := sequenceId_of_echoes hecho (h.2.1 q t1 hfind).2
        addressee := ((isSamePortIdentity_iff _ _).mp haddr).symm
        t2 := ht2 hrep
        t4 := rfl }⟩
  | pDelayRespOneStep t3 =>
      exact ⟨⟨trivial, h.1⟩, h.2.1, fun hwait => absurd hwait Bool.false_ne_true⟩
  | pDelayFollowUp htype hwait hecho t3 ht3 =>
      refine ⟨⟨?_, h.1⟩, h.2.1, fun hw => absurd hw Bool.false_ne_true⟩
      rcases hP.2 htype hwait hecho with ⟨haddr, hrep, hfrom⟩
      rcases eq_awaiting_of_any hfrom with ⟨r, hr, hsource⟩
      rcases h.2.2 hwait r hr with ⟨hreceived, q, t1, hfind, hresp⟩
      rcases h.2.1 q t1 hfind with ⟨hT1, hsent⟩
      refine ⟨r, q, hr, hreceived, ?_, hresp, htype, sequenceId_of_echoes hecho hsent,
        ((isSamePortIdentity_iff _ _).mp haddr).symm, hsource, ht3 hrep⟩
      rw [hT1]
      exact hfind
  | announceForeign _ _ _ _ =>
      have hann := h.log (e := .announced m.header (msgUnpackAnnounce m.buf)) rfl rfl trivial
      exact PeerInv.log hann rfl rfl trivial
  | announceParent _ _ _ _ => exact PeerInv.log h rfl rfl trivial
  | syncTwoStep htype _ _ _ =>
      exact PeerInv.log h rfl (by rw [Effect.exchange, htype]; rfl) trivial
  | syncOneStep _ _ _ => exact PeerInv.log h rfl rfl trivial
  | followUp _ _ _ _ _ _ _ => exact PeerInv.log h rfl rfl trivial

theorem preserved_peer (rtOpts : RunTimeOpts) :
    Preserved rtOpts OrderlyExchange (fun _ => True) PeerInv PeerInv where
  mid := stable_peerInv.toQuiet
  inv := stable_peerInv.toQuiet
  weaken := fun _ h => h
  apply := fun _ _ _ _ h happ _ => stable_peerInv.applies happ (peerInv_stateDecision h)
  timeout := fun v _ h => stable_peerInv.timeout (PeerInv.log (v := v) h rfl rfl trivial)
    fun _ => PeerInv.log (v := v) h rfl rfl trivial
  faulty := fun _ h => stable_peerInv.toState .faulty (by decide) h
  received := fun _ _ h => h.log rfl rfl trivial
  accept := fun v m _ _ hP h ha => peerInv_accepts (v := v.log (.received m))
    List.mem_cons_self hP (h.log rfl rfl trivial) ha

theorem peerInv_upView (rtOpts : RunTimeOpts) (hwaddr : PortUuid) :
    PeerInv (upView rtOpts hwaddr) := by
  refine ⟨⟨trivial, trivial, trivial⟩, fun q t1 hfind => ?_,
    fun hwait => absurd hwait Bool.false_ne_true⟩
  exact absurd (Option.some.inj hfind) (by simp only [reduceCtorEq, not_false_eq_true])

/-- Every peer delay made from a PDelay_Resp_Follow_Up was made from the times of
    one exchange. -/
def PeerDelaysPaired (s : Port) : Prop :=
  ∀ newer e past, s.history = newer ++ e :: past →
    PeerPaired s.clock.portDS.portIdentity e past

/-- In every run whose exchanges are orderly, the times of a peer delay belong to
    one exchange. -/
theorem peerDelays_paired (rtOpts : RunTimeOpts) (evs : List Event)
    (h : Meets engineStep (Allows OrderlyExchange fun _ => True) (powerUp rtOpts) evs) :
    PeerDelaysPaired (run engineStep (powerUp rtOpts) evs) := by
  refine (eachPast_iff _ _).mp ?_
  rcases engine_invariant (preserved_peer rtOpts) (peerInv_upView rtOpts) evs h with
    hboot | ⟨-, hinv⟩
  · have hnil : (run engineStep (powerUp rtOpts) evs).history = [] := hboot.history_eq_nil
    rw [hnil]
    trivial
  · exact hinv.1

/-- A clock that measures the peer delay and may become master. -/
def peerRtOpts : RunTimeOpts := { defaultRtOpts with slaveOnly := false, delayMechanism := .p2p }

/-- The port becomes master and sends a PDelay_Req at the time 1. -/
def requestSteps : List Event :=
  [quietStep [], .expire .announceReceipt, quietStep [], .expire .pDelayReqInterval,
    .step { quietEnv [] with transmit := fun _ => some ⟨1, 0⟩ }]

/-- A response of the clock `id` to the port's request `seq`. -/
def peerResp (type : MsgType) (id flags seq : UInt8) : Channel × Packet :=
  (.event, ⟨peerMessage type id flags seq
    [0, 0, 0, 0, 0, 1, 0, 0, 0, 0, 0, 0, 0, 0xff, 0xfe, 0, 0, 0, 0, 1], ⟨1, 0⟩⟩)

/-- The responder of a peer delay. -/
def Effect.peerDelayFrom : Effect → Option PortIdentity
  | .peerDelay true m _ _ _ _ => some m.header.sourcePortIdentity
  | _ => none

/-- One exchange, with both messages of the same responder. -/
theorem peerDelays_paired_once :
    let s := run engineStep (powerUp peerRtOpts) (requestSteps ++
      [quietStep [peerResp .pDelayResp 2 flag0TwoStep 0],
        quietStep [peerResp .pDelayRespFollowUp 2 0 0]])
    PeerDelaysPaired s ∧
      s.history.filterMap Effect.peerDelayFrom = [⟨#v[0, 0, 0, 0, 0, 0, 0, 2], 1⟩] :=
  ⟨peerDelays_paired _ _ (by decide +kernel), by decide +kernel⟩

/-- Whoever a peer delay is made from has sent a response. -/
theorem PeerDelaysPaired.awaits {s : Port} (h : PeerDelaysPaired s) {p : PortIdentity}
    (hp : p ∈ s.history.filterMap Effect.peerDelayFrom) :
    s.history.any (Effect.awaitsFrom p) = true := by
  rcases List.mem_filterMap.mp hp with ⟨e, he, hfrom⟩
  rcases List.append_of_mem he with ⟨newer, past, heq⟩
  have hpaired := h newer e past heq
  cases e with
  | peerDelay twoStep m t1 t2 t3 t4 =>
      cases twoStep with
      | false => exact absurd hfrom (by simp only [Effect.peerDelayFrom, reduceCtorEq,
          not_false_eq_true])
      | true =>
          rcases hpaired with ⟨r, q, hfind, -, -, -, -, -, -, hsource, -⟩
          refine List.any_eq_true.mpr ⟨.awaiting r, ?_, ?_⟩
          · rw [heq]
            exact List.mem_append_right _ (List.mem_cons_of_mem _ (List.mem_of_find?_eq_some hfind))
          · exact decide_eq_true (hsource.symm.trans (Option.some.inj hfrom))
  | _ => exact absurd hfrom (by simp only [Effect.peerDelayFrom, reduceCtorEq, not_false_eq_true])

/-- The response of one peer and the follow-up of another. -/
theorem followUp_of_another_responder :
    ¬ PeerDelaysPaired (run engineStep (powerUp peerRtOpts) (requestSteps ++
      [quietStep [peerResp .pDelayResp 2 flag0TwoStep 0],
        quietStep [peerResp .pDelayRespFollowUp 3 0 0]])) := by
  intro h
  have hany := h.awaits (p := ⟨#v[0, 0, 0, 0, 0, 0, 0, 3], 1⟩) (by decide +kernel)
  exact absurd hany (by decide +kernel)

end Ptp

end RtosLwip
