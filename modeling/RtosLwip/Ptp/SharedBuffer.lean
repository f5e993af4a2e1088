import RtosLwip.Ptp.RoundTrip

/-!
# The Shared Output Buffer

All messages are packed into one buffer, and no packer writes all of its
message: what belongs to the clock is written once, by `msgPackHeader`. Two more
places are left as the message before left them. An Announce and a FollowUp do
not write the correction field, and an Announce does not write the reserved byte
behind its UTC offset, where a response has a byte of an identity.

A FollowUp is only sent behind its Sync, which clears the correction field. So
what was sent before shows in a message exactly if it is an Announce and the
places have been used since.

## Main definitions

* `Issue`: What the port sends in one go.
* `transmit`: The bytes sent for messages, and the buffer behind them.
* `Left`: What earlier messages have left in the buffer.

## Theorems

* `holds_pack`: What a packer does to the buffer.
* `take_pack_eq`: A message in two buffers that differ in what was left.
* `sends_issueSync` and its like: What the functions of the port send.
* `sent_independent_iff`: When two runs send the same bytes.
-/

namespace RtosLwip

namespace Ptp

/-- What the port sends in one go, with the timestamps it has taken: a Sync may
    have a FollowUp behind it, and so may the answer to a peer. -/
inductive Issue where
  | announce
  | sync (originTimestamp : Timestamp) (followUp : Option Timestamp)
  | delayReq (originTimestamp : Timestamp)
  | delayResp (header : MsgHeader) (receiveTimestamp : Timestamp)
  | pDelayReq (originTimestamp : Timestamp)
  | pDelayResp (header : MsgHeader) (requestReceiptTimestamp : Timestamp)
      (followUp : Option Timestamp)
  deriving DecidableEq, Repr

/-- The messages of an issue, each with the clock its packer is given. The Sync
    counter has been advanced when the FollowUp is packed. -/
def Issue.messages (c : PtpClock) : Issue → List (PtpClock × Outgoing)
  | announce => [(c, .announce)]
  | sync t none => [(c, .sync t)]
  | sync t (some t') => [(c, .sync t),
      ({ c with sentSyncSequenceId := c.sentSyncSequenceId + 1 }, .followUp t')]
  | delayReq t => [(c, .delayReq t)]
  | delayResp header t => [(c, .delayResp header t)]
  | pDelayReq t => [(c, .pDelayReq t)]
  | pDelayResp header t none => [(c, .pDelayResp header t)]
  | pDelayResp header t (some t') => [(c, .pDelayResp header t), (c, .pDelayRespFollowUp header t')]

/-- The bytes sent for messages that are packed one after the other, and the
    buffer behind them. -/
def transmit (buf : List UInt8) : List (PtpClock × Outgoing) → List (List UInt8) × List UInt8
  | [] => ([], buf)
  | (c, m) :: rest =>
    let r := transmit (m.pack c buf) rest
    ((m.pack c buf).take m.type.length :: r.1, r.2)

/-- The buffer behind a sequence of issues, each with the clock of its time. -/
def bufferAfter (buf : List UInt8) (before : List (PtpClock × Issue)) : List UInt8 :=
  (transmit buf (before.flatMap fun p => p.2.messages p.1)).2

/-- What earlier messages have left in the buffer. -/
structure Left where
  correctionfield : Int64
  reserved : UInt8
  deriving DecidableEq, Repr

namespace Outgoing

/-- What a message leaves in the buffer. -/
def leaves (l : Left) (m : Outgoing) : Left :=
  ⟨m.correction.getD l.correctionfield, m.reserved.getD l.reserved⟩

end Outgoing

/-- What messages leave in the buffer. -/
def left (l : Left) (ops : List (PtpClock × Outgoing)) : Left :=
  ops.foldl (fun l op => op.2.leaves l) l

/-- What a sequence of issues leaves in the buffer, when there is nothing in the
    correction field at first. -/
def leftAfter (buf : List UInt8) (before : List (PtpClock × Issue)) : Left :=
  left ⟨0, load8 buf 46⟩ (before.flatMap fun p => p.2.messages p.1)

/-! ### The buffer -/

/-- The places of the header that `msgPackHeader` writes for all messages. -/
def Common (k : Nat) : Prop := k = 1 ∨ (4 ≤ k ∧ k < 8) ∨ (16 ≤ k ∧ k < 30)

/-- The buffer `buf` is the initial one with messages packed into it that have
    left `l`. -/
structure Holds (init : List UInt8) (l : Left) (buf : List UInt8) : Prop where
  length : buf.length = init.length
  room : ptpPacketSize ≤ buf.length
  highHalf : load8 buf 0 &&& 0xF0 = load8 init 0 &&& 0xF0
  common : ∀ k, Common k → load8 buf k = load8 init k
  correction : Agree (fun k => 8 ≤ k ∧ k < 16) buf (packCorrection l.correctionfield init)
  reserved : load8 buf 46 = l.reserved

section Pack

variable {buf : List UInt8}

theorem load8_packType_zero (type : MsgType) (h : 0 < buf.length) :
    load8 (packType type buf) 0 = load8 buf 0 &&& 0xF0 ||| type.code := by
  rw [packType_eq type h, load8_store8_self _ _ _ h]

/-- The first byte of a message has its high half from the buffer. -/
theorem load8_pack_zero (c : PtpClock) (m : Outgoing) (h : 0 < buf.length) :
    load8 (m.pack c buf) 0 = load8 buf 0 &&& 0xF0 ||| m.type.code := by
  rw [← load8_packType_zero m.type h]
  cases m with
  | announce =>
      simp (disch := omega) only [Outgoing.pack, Outgoing.type, msgPackAnnounce, load8_store8_ne,
        load8_store16_ne, load8_storeIdentity_ne, load8_memset0_ne]
  | sync t =>
      simp (disch := omega) only [Outgoing.pack, Outgoing.type, msgPackSync,
        load8_packTimestamp_ne, load8_memset0_ne, load8_store8_ne, load8_store16_ne]
  | delayReq t =>
      simp (disch := omega) only [Outgoing.pack, Outgoing.type, msgPackDelayReq,
        load8_packTimestamp_ne, load8_memset0_ne, load8_store8_ne, load8_store16_ne]
  | followUp t =>
      simp (disch := omega) only [Outgoing.pack, Outgoing.type, msgPackFollowUp,
        load8_packTimestamp_ne, load8_store8_ne, load8_store16_ne]
  | delayResp header t =>
      simp (disch := omega) only [Outgoing.pack, Outgoing.type, msgPackDelayResp,
        load8_packIdentity_ne, load8_packTimestamp_ne, load8_packCorrection_ne, load8_memset0_ne,
        load8_store8_ne, load8_store16_ne]
  | pDelayReq t =>
      simp (disch := omega) only [Outgoing.pack, Outgoing.type, msgPackPDelayReq,
        load8_packTimestamp_ne, load8_memset0_ne, load8_store8_ne, load8_store16_ne]
  | pDelayResp header t =>
      simp (disch := omega) only [Outgoing.pack, Outgoing.type, msgPackPDelayResp,
        load8_packIdentity_ne, load8_packTimestamp_ne, load8_memset0_ne, load8_store8_ne,
        load8_store16_ne]
  | pDelayRespFollowUp header t =>
      simp (disch := omega) only [Outgoing.pack, Outgoing.type, msgPackPDelayRespFollowUp,
        load8_packIdentity_ne, load8_packTimestamp_ne, load8_packCorrection_ne, load8_store8_ne,
        load8_store16_ne]

/-- A byte of an identity. -/
theorem load8_packIdentity_46 (p : PortIdentity) (h : 54 ≤ buf.length) :
    load8 (packIdentity 44 p buf) 46 = p.clockIdentity[2] := by
  have hlen : 2 < p.clockIdentity.toList.length := by
    rw [Vector.length_toList]
    omega
  rw [packIdentity, load8_store16_ne _ _ _ _ (by omega), show (46 : Nat) = 44 + 2 from rfl,
    load8_storeBytes_add _ _ _ _ hlen (by omega), List.getD_eq_getElem?_getD,
    List.getElem?_eq_getElem hlen, Option.getD_some, Vector.getElem_toList]

/-- The byte of a message where an Announce has a reserved one. -/
theorem load8_pack_46 (c : PtpClock) (m : Outgoing) (h : 64 ≤ buf.length) :
    load8 (m.pack c buf) 46 = m.reserved.getD (load8 buf 46) := by
  have hresp : ∀ (b : List UInt8) (p : PortIdentity), 54 ≤ b.length →
      load8 (packIdentity 44 p b) 46 = p.clockIdentity[2] :=
    fun b p hb => load8_packIdentity_46 p hb
  have hkeeps : ∀ m : Outgoing, m.type = .announce ∨ m.type.length ≤ 46 →
      load8 (m.pack c buf) 46 = load8 buf 46 := by
    intro m hm
    refine load8_pack c buf m (Or.inr (Or.inr (Or.inr (Or.inr ?_))))
    exact hm.imp_left fun htype => ⟨htype, rfl⟩
  cases m with
  | announce => exact hkeeps _ (Or.inl rfl)
  | sync t => exact hkeeps _ (Or.inr (Nat.le_of_ble_eq_true rfl))
  | delayReq t => exact hkeeps _ (Or.inr (Nat.le_of_ble_eq_true rfl))
  | followUp t => exact hkeeps _ (Or.inr (Nat.le_of_ble_eq_true rfl))
  | pDelayReq t => exact load8_memset0_self _ _ _ _ (by omega)
  | delayResp header t =>
      refine hresp _ _ ?_
      simp only [length_packTimestamp, length_packCorrection, length_memset0, length_store8,
        length_store16, length_packType]
      omega
  | pDelayResp header t =>
      refine hresp _ _ ?_
      simp only [length_packTimestamp, length_memset0, length_store8, length_store16,
        length_packType]
      omega
  | pDelayRespFollowUp header t =>
      refine hresp _ _ ?_
      simp only [length_packTimestamp, length_packCorrection, length_store8, length_store16,
        length_packType]
      omega

/-- The bytes of a correction field do not depend on the buffer. -/
theorem load8_packCorrection {buf' : List UInt8} (hlen : buf.length = buf'.length) (x : Int64)
    {k : Nat} (hk : 8 ≤ k ∧ k < 16) :
    load8 (packCorrection x buf) k = load8 (packCorrection x buf') k := by
  have h : Agree (fun _ => False) buf buf' := ⟨hlen, fun _ hf => hf.elim⟩
  exact ((h.store32 8 _).store32 12 _).2 k (by omega)

/-- An empty correction field. -/
theorem load8_packCorrection_zero {k : Nat} (hk : 8 ≤ k ∧ k < 16) :
    load8 (packCorrection 0 buf) k = 0 := by
  have hset : packCorrection 0 buf = memset0 12 4 (memset0 8 4 buf) := rfl
  rw [hset]
  by_cases h : k < 12
  · rw [load8_memset0_ne _ _ _ _ (by omega), load8_memset0_self _ _ _ _ (by omega)]
  · rw [load8_memset0_self _ _ _ _ (by omega)]

/-- The correction field of a message that writes one. -/
theorem load8_pack_correction {buf' : List UInt8} (hlen : buf.length = buf'.length)
    (c : PtpClock) (m : Outgoing) {x : Int64} (hx : m.correction = some x) {k : Nat}
    (hk : 8 ≤ k ∧ k < 16) : load8 (m.pack c buf) k = load8 (packCorrection x buf') k := by
  have hcopy : ∀ b : List UInt8, b.length = buf.length →
      load8 (packCorrection x b) k = load8 (packCorrection x buf') k :=
    fun b hb => load8_packCorrection (hb.trans hlen) x hk
  cases m with
  | announce => exact absurd hx (Option.some_ne_none x).symm
  | followUp t => exact absurd hx (Option.some_ne_none x).symm
  | sync t =>
      rw [← Option.some.inj hx, load8_packCorrection_zero hk]
      simp (disch := omega) only [Outgoing.pack, msgPackSync, load8_packTimestamp_ne,
        load8_memset0_self]
  | delayReq t =>
      rw [← Option.some.inj hx, load8_packCorrection_zero hk]
      simp (disch := omega) only [Outgoing.pack, msgPackDelayReq, load8_packTimestamp_ne,
        load8_memset0_self]
  | pDelayReq t =>
      rw [← Option.some.inj hx, load8_packCorrection_zero hk]
      simp (disch := omega) only [Outgoing.pack, msgPackPDelayReq, load8_memset0_ne,
        load8_packTimestamp_ne, load8_memset0_self]
  | pDelayResp header t =>
      rw [← Option.some.inj hx, load8_packCorrection_zero hk]
      simp (disch := omega) only [Outgoing.pack, msgPackPDelayResp, load8_packIdentity_ne,
        load8_packTimestamp_ne, load8_store8_ne, load8_store16_ne, load8_memset0_self]
  | delayResp header t =>
      have hxe : header.correctionfield = x := Option.some.inj hx
      simp (disch := omega) only [Outgoing.pack, msgPackDelayResp, load8_packIdentity_ne,
        load8_packTimestamp_ne, load8_store8_ne, load8_store16_ne, hxe]
      exact hcopy _ (by simp only [length_memset0, length_store16, length_packType])
  | pDelayRespFollowUp header t =>
      have hxe : header.correctionfield = x := Option.some.inj hx
      simp (disch := omega) only [Outgoing.pack, msgPackPDelayRespFollowUp, load8_packIdentity_ne,
        load8_packTimestamp_ne, hxe]
      exact hcopy _ (by simp only [length_store8, length_store16, length_packType])

end Pack

/-- A packer leaves in the buffer what its message says. -/
theorem holds_pack (c : PtpClock) (m : Outgoing) {init buf : List UInt8} {l : Left}
    (h : Holds init l buf) : Holds init (m.leaves l) (m.pack c buf) := by
  have hroom := h.room
  have hsize : ptpPacketSize = 300 := rfl
  have hmask : ∀ x : UInt8, (x &&& 0xF0 ||| m.type.code) &&& 0xF0 = x &&& 0xF0 := by
    intro x
    have hcode : m.type.code &&& 0xF0 = 0 := by cases m.type <;> rfl
    rw [or_and_mask, hcode, UInt8.or_zero, UInt8.and_assoc, UInt8.and_self]
  refine ⟨by rw [length_pack, h.length], by rwa [length_pack], ?_, fun k hk => ?_,
    ⟨by rw [length_pack, length_packCorrection, h.length], fun k hk => ?_⟩, ?_⟩
  · rw [load8_pack_zero c m (by omega), hmask, h.highHalf]
  · rw [load8_pack c buf m (by unfold Outgoing.Keeps; unfold Common at hk; omega), h.common k hk]
  · -- the correction field is written, or the one before is kept
    cases hx : m.correction with
    | none =>
        rw [load8_pack c buf m (Or.inr (Or.inr (Or.inl ⟨hx, hk⟩))), h.correction.2 k hk,
          Outgoing.leaves, hx, Option.getD_none]
    | some x => rw [load8_pack_correction h.length c m hx hk, Outgoing.leaves, hx, Option.getD_some]
  · rw [load8_pack_46 c m (by omega), h.reserved]
    rfl

/-- What messages leave in the buffer. -/
theorem holds_transmit {init : List UInt8} (ops : List (PtpClock × Outgoing)) {buf : List UInt8}
    {l : Left} (h : Holds init l buf) : Holds init (left l ops) (transmit buf ops).2 := by
  induction ops generalizing buf l with
  | nil => exact h
  | cons op rest ih => exact ih (holds_pack op.1 op.2 h)

/-! ### The bytes that are sent -/

/-- Packing a type into two buffers with the same high half. -/
theorem agree_packType {K : Nat → Prop} {a b : List UInt8} (h : Agree K a b)
    (hhigh : load8 a 0 &&& 0xF0 = load8 b 0 &&& 0xF0) (hpos : 0 < a.length) (type : MsgType) :
    Agree (fun k => K k ∨ k = 0) (packType type a) (packType type b) := by
  rw [packType_eq type hpos, packType_eq type (by rwa [← h.1]), hhigh]
  exact h.store8 0 _

theorem agree_packTimestamp {K : Nat → Prop} {a b : List UInt8} (h : Agree K a b) (t : Timestamp) :
    Agree (fun k => K k ∨ 34 ≤ k ∧ k < 44) (packTimestamp t a) (packTimestamp t b) :=
  (((h.store16 34 _).store32 36 _).store32 40 _).mono fun k hk => by
    rw [or_assoc, or_assoc]
    exact hk.imp_right fun _ => by omega

theorem agree_packIdentity {K : Nat → Prop} {a b : List UInt8} (h : Agree K a b)
    (p : PortIdentity) :
    Agree (fun k => K k ∨ 44 ≤ k ∧ k < 54) (packIdentity 44 p a) (packIdentity 44 p b) :=
  ((h.storeBytes 44 _).store16 52 _).mono fun k hk => by
    rw [or_assoc, Vector.length_toList]
    exact hk.imp_right fun _ => by omega

theorem agree_packCorrection {K : Nat → Prop} {a b : List UInt8} (h : Agree K a b) (x : Int64) :
    Agree (fun k => K k ∨ 8 ≤ k ∧ k < 16) (packCorrection x a) (packCorrection x b) :=
  ((h.store32 8 _).store32 12 _).mono fun k hk => by
    rw [or_assoc]
    exact hk.imp_right fun _ => by omega

/-- Packing a message into two buffers that agree where its packer writes
    nothing. -/
theorem agree_pack (c : PtpClock) (m : Outgoing) {a b : List UInt8}
    (h : Agree (fun k => Common k ∨ (m.correction = none ∧ 8 ≤ k ∧ k < 16) ∨
      (m.type = .announce ∧ k = 46)) a b)
    (hhigh : load8 a 0 &&& 0xF0 = load8 b 0 &&& 0xF0) (hpos : 0 < a.length) :
    Agree (fun k => k < m.type.length) (m.pack c a) (m.pack c b) := by
  have h0 := agree_packType h hhigh hpos m.type
  -- the stores of each packer, in their order, cover the rest of the message
  cases m with
  | announce =>
      have h1 := (((h0.store16 2 64).store16 30 c.sentAnnounceSequenceId.toUInt16).store8 32 0x05)
      have h2 := (h1.store8 33 c.portDS.logAnnounceInterval.toUInt8).memset0 34 10
      have h3 := (h2.store16 44 c.timePropertiesDS.currentUtcOffset.toUInt16).store8 47
        c.parentDS.grandmasterPriority1
      have h4 := (h3.store8 48 c.defaultDS.clockQuality.clockClass).store8 49
        c.defaultDS.clockQuality.clockAccuracy
      have h5 := (h4.store16 50 c.defaultDS.clockQuality.offsetScaledLogVariance.toUInt16).store8 52
        c.parentDS.grandmasterPriority2
      have h6 := h5.storeBytes 53 c.parentDS.grandmasterIdentity.toList
      have h7 := (h6.store16 61 c.currentDS.stepsRemoved.toUInt16).store8 63
        c.timePropertiesDS.timeSource
      refine h7.mono fun k (hk : k < 64) => ?_
      simp only [Common, Outgoing.correction, Outgoing.type, true_and, Vector.length_toList]
      omega
  | sync t =>
      have h1 := ((h0.store16 2 44).store16 30 c.sentSyncSequenceId.toUInt16).store8 32 0x00
      have h2 := (h1.store8 33 c.portDS.logSyncInterval.toUInt8).memset0 8 8
      refine (agree_packTimestamp h2 t).mono fun k (hk : k < 44) => ?_
      simp only [Common, Outgoing.correction, Outgoing.type, reduceCtorEq, false_and, or_false]
      omega
  | delayReq t =>
      have h1 := ((h0.store16 2 44).store16 30 c.sentDelayReqSequenceId.toUInt16).store8 32 0x01
      have h2 := (h1.store8 33 0x7F).memset0 8 8
      refine (agree_packTimestamp h2 t).mono fun k (hk : k < 44) => ?_
      simp only [Common, Outgoing.correction, Outgoing.type, reduceCtorEq, false_and, or_false]
      omega
  | followUp t =>
      have h1 := ((h0.store16 2 44).store16 30 (c.sentSyncSequenceId - 1).toUInt16).store8 32 0x02
      refine (agree_packTimestamp (h1.store8 33 c.portDS.logSyncInterval.toUInt8) t).mono
        fun k (hk : k < 44) => ?_
      simp only [Common, Outgoing.correction, Outgoing.type, true_and, reduceCtorEq, false_and,
        or_false]
      omega
  | delayResp header t =>
      have h1 := agree_packCorrection ((h0.store16 2 54).memset0 8 8) header.correctionfield
      have h2 := (h1.store16 30 header.sequenceId.toUInt16).store8 32 0x03
      have h3 := agree_packTimestamp (h2.store8 33 c.portDS.logMinDelayReqInterval.toUInt8) t
      refine (agree_packIdentity h3 header.sourcePortIdentity).mono fun k (hk : k < 54) => ?_
      simp only [Common, Outgoing.correction, Outgoing.type, reduceCtorEq, false_and, or_false]
      omega
  | pDelayReq t =>
      have h1 := ((((h0.store16 2 54).store16 30 c.sentPDelayReqSequenceId.toUInt16).store8 32
        0x05).store8 33 0x7F).memset0 8 8
      refine ((agree_packTimestamp h1 t).memset0 44 10).mono fun k (hk : k < 54) => ?_
      simp only [Common, Outgoing.correction, Outgoing.type, reduceCtorEq, false_and, or_false]
      omega
  | pDelayResp header t =>
      have h1 := ((h0.store16 2 54).memset0 8 8).store16 30 header.sequenceId.toUInt16
      have h2 := agree_packTimestamp ((h1.store8 32 0x05).store8 33 0x7F) t
      refine (agree_packIdentity h2 header.sourcePortIdentity).mono fun k (hk : k < 54) => ?_
      simp only [Common, Outgoing.correction, Outgoing.type, reduceCtorEq, false_and, or_false]
      omega
  | pDelayRespFollowUp header t =>
      have h1 := ((h0.store16 2 54).store16 30 header.sequenceId.toUInt16).store8 32 0x05
      have h2 := agree_packCorrection (h1.store8 33 0x7F) header.correctionfield
      refine (agree_packIdentity (agree_packTimestamp h2 t)
        header.sourcePortIdentity).mono fun k (hk : k < 54) => ?_
      simp only [Common, Outgoing.correction, Outgoing.type, reduceCtorEq, false_and, or_false]
      omega

/-- A message in two buffers: it is the same if nothing was left in the places
    that its packer does not write, or the same was. -/
theorem take_pack_eq (c : PtpClock) (m : Outgoing) {init a b : List UInt8} {l l' : Left}
    (ha : Holds init l a) (hb : Holds init l' b)
    (hcorr : m.correction = none → l.correctionfield = l'.correctionfield)
    (hres : m.type = .announce → l.reserved = l'.reserved) :
    (m.pack c a).take m.type.length = (m.pack c b).take m.type.length := by
  have hroom := ha.room
  have hsize : ptpPacketSize = 300 := rfl
  have hagree : Agree (fun k => Common k ∨ (m.correction = none ∧ 8 ≤ k ∧ k < 16) ∨
      (m.type = .announce ∧ k = 46)) a b := by
    refine ⟨ha.length.trans hb.length.symm, ?_⟩
    rintro k (hk | ⟨hnone, hk⟩ | ⟨htype, rfl⟩)
    · rw [ha.common k hk, hb.common k hk]
    · rw [ha.correction.2 k hk, hb.correction.2 k hk, hcorr hnone]
    · rw [ha.reserved, hb.reserved, hres htype]
  exact (agree_pack c m hagree (ha.highHalf.trans hb.highHalf.symm) (by omega)).take_eq
    fun k hk => hk

/-- What was left in the correction field is read back. -/
theorem correctionfield_of_holds {init buf : List UInt8} {l : Left} (h : Holds init l buf) :
    (msgUnpackHeader buf).correctionfield = l.correctionfield := by
  have hlen : headerLength = 34 := rfl
  have hsize : ptpPacketSize = 300 := rfl
  have hroom := h.room
  have hwords : ∀ k, 8 ≤ k → k + 4 ≤ 16 →
      load32 buf k = load32 (packCorrection l.correctionfield init) k := fun k hlo hhi =>
    load32_congr fun j _ _ => h.correction.2 j (by omega)
  have hinit : headerLength ≤ init.length := by
    rw [← h.length]
    omega
  have hpacked := congrArg MsgHeader.correctionfield
    (msgUnpackHeader_packCorrection hinit l.correctionfield)
  rw [← show (msgUnpackHeader (packCorrection l.correctionfield init)).correctionfield
    = l.correctionfield from hpacked]
  simp (disch := omega) only [msgUnpackHeader, hwords]

/-- What an Announce shows of the messages before. -/
theorem announce_shows (c : PtpClock) {init buf : List UInt8} {l : Left} (h : Holds init l buf) :
    (msgUnpackHeader ((msgPackAnnounce c buf).take 64)).correctionfield = l.correctionfield ∧
      load8 ((msgPackAnnounce c buf).take 64) 46 = l.reserved := by
  have hlen : headerLength = 34 := rfl
  have hsize : ptpPacketSize = 300 := rfl
  have hroom := h.room
  constructor
  · have htake : msgUnpackHeader ((msgPackAnnounce c buf).take 64)
        = msgUnpackHeader (msgPackAnnounce c buf) :=
      msgUnpackHeader_congr fun k hk => load8_take _ _ _ (by omega)
    have hpack := congrArg MsgHeader.correctionfield
      (unpackHeader_pack c buf .announce (by omega))
    rw [htake]
    exact hpack.trans (correctionfield_of_holds h)
  · rw [load8_take _ _ _ (by omega)]
    exact (load8_pack_46 c .announce (by omega)).trans h.reserved

/-- The buffer behind `_doInit`. -/
theorem holds_msgPackHeader (c : PtpClock) {buf : List UInt8} (h : ptpPacketSize ≤ buf.length) :
    Holds (msgPackHeader c buf) ⟨0, load8 buf 46⟩ (msgPackHeader c buf) := by
  refine ⟨rfl, by rwa [length_msgPackHeader], rfl, fun _ _ => rfl,
    ⟨(length_packCorrection _ _).symm, fun k hk => ?_⟩, ?_⟩
  · rw [load8_packCorrection_zero hk]
    simp (disch := omega) only [msgPackHeader, load8_store8_ne, load8_store16_ne,
      load8_storeIdentity_ne, load8_memset0_self]
  · simp (disch := omega) only [msgPackHeader, load8_store8_ne, load8_store16_ne,
      load8_storeIdentity_ne, load8_memset0_ne]
    split
    · rw [load8_store8_ne _ _ _ _ (by omega), load8_store8_ne _ _ _ _ (by omega),
        load8_store8_ne _ _ _ _ (by omega), load8_store8_ne _ _ _ _ (by omega)]
    · rw [load8_store8_ne _ _ _ _ (by omega), load8_store8_ne _ _ _ _ (by omega),
        load8_store8_ne _ _ _ _ (by omega)]

/-- The messages of an issue other than an Announce show nothing of those
    before. -/
theorem transmit_messages_eq (c : PtpClock) (i : Issue) (hi : i ≠ .announce)
    {init a b : List UInt8} {l l' : Left} (ha : Holds init l a) (hb : Holds init l' b) :
    (transmit a (i.messages c)).1 = (transmit b (i.messages c)).1 := by
  have hone : ∀ m : Outgoing, m.correction ≠ none → m.type ≠ .announce →
      (m.pack c a).take m.type.length = (m.pack c b).take m.type.length :=
    fun m hcorr hres => take_pack_eq c m ha hb (fun h => absurd h hcorr) fun h => absurd h hres
  have hsingle : ∀ m : Outgoing, m.correction ≠ none → m.type ≠ .announce →
      (transmit a [(c, m)]).1 = (transmit b [(c, m)]).1 :=
    fun m hcorr hres => congrArg (fun x => [x]) (hone m hcorr hres)
  cases i with
  | announce => exact absurd rfl hi
  | delayReq t => exact hsingle (.delayReq t) nofun nofun
  | delayResp header t => exact hsingle (.delayResp header t) nofun nofun
  | pDelayReq t => exact hsingle (.pDelayReq t) nofun nofun
  | sync t followUp =>
      cases followUp with
      | none => exact hsingle (.sync t) nofun nofun
      | some t' =>
          -- the Sync has cleared the correction field for its FollowUp
          have hsync := hone (.sync t) nofun nofun
          have hfollow := take_pack_eq
            { c with sentSyncSequenceId := c.sentSyncSequenceId + 1 } (.followUp t')
            (holds_pack c (.sync t) ha) (holds_pack c (.sync t) hb) (fun _ => rfl)
            nofun
          exact congrArg₂ (fun x y => [x, y]) hsync hfollow
  | pDelayResp header t followUp =>
      cases followUp with
      | none => exact hsingle (.pDelayResp header t) nofun nofun
      | some t' =>
          have hresp := hone (.pDelayResp header t) nofun nofun
          have hfollow := take_pack_eq c (.pDelayRespFollowUp header t')
            (holds_pack c (.pDelayResp header t) ha) (holds_pack c (.pDelayResp header t) hb)
            nofun nofun
          exact congrArg₂ (fun x y => [x, y]) hresp hfollow

/-! ### The port -/

/-- The bytes a port has sent, the latest first. -/
def bytesSent (s : Port) : List (List UInt8) :=
  s.history.filterMap fun
    | .sent _ bytes => some bytes
    | _ => none

/-- The port has packed and sent messages. -/
def Sends (ops : List (PtpClock × Outgoing)) (s s' : Port) : Prop :=
  bytesSent s' = (transmit s.clock.msgObuf ops).1.reverse ++ bytesSent s ∧
    s'.clock.msgObuf = (transmit s.clock.msgObuf ops).2

section Port

variable (env : StepEnv) (s : Port)

/-- One message. Sending takes its length for success. -/
theorem sends_sendPacked (m : Outgoing) (c : PtpClock) (time : TimeInternal)
    (r : Nat × TimeInternal × Port)
    (h : sendPacked env m.type (m.pack c s.clock.msgObuf) time s = r) :
    r.1 ≠ 0 ∧ Sends [(c, m)] s r.2.2 ∧
      r.2.2.clock = { s.clock with msgObuf := m.pack c s.clock.msgObuf } := by
  subst h
  refine ⟨?_, ⟨rfl, rfl⟩, rfl⟩
  change m.type.length ≠ 0
  cases m <;> exact Nat.noConfusion

theorem sends_cons {s u v : Port} {c : PtpClock} {m : Outgoing}
    {ops : List (PtpClock × Outgoing)} (h : Sends [(c, m)] s u) (h' : Sends ops u v) :
    Sends ((c, m) :: ops) s v := by
  have hbuf : u.clock.msgObuf = m.pack c s.clock.msgObuf := h.2
  have hsent : bytesSent u = (m.pack c s.clock.msgObuf).take m.type.length :: bytesSent s := h.1
  refine ⟨?_, ?_⟩
  · rw [h'.1, hbuf, hsent, transmit, List.reverse_cons, List.append_assoc, List.singleton_append]
  · rw [h'.2, hbuf, transmit]

theorem sends_issueAnnounce : Sends (Issue.announce.messages s.clock) s (issueAnnounce env s) := by
  unfold issueAnnounce
  dsimp only
  generalize hr : sendPacked env .announce (msgPackAnnounce s.clock s.clock.msgObuf) .zero s = r
  rcases sends_sendPacked env s .announce s.clock .zero r hr with ⟨hlen, hsends, -⟩
  rw [if_neg hlen]
  exact hsends

theorem sends_issueDelayReq :
    ∃ t, Sends ((Issue.delayReq t).messages s.clock) s (issueDelayReq env s) := by
  refine ⟨fromInternalTime (env.time .delayReq) (env.localStamp .delayReq), ?_⟩
  unfold issueDelayReq
  dsimp only
  generalize fromInternalTime (env.time .delayReq) (env.localStamp .delayReq) = t
  generalize hr : sendPacked env .delayReq (msgPackDelayReq s.clock s.clock.msgObuf t)
    (env.time .delayReq) s = r
  rcases sends_sendPacked env s (.delayReq t) s.clock _ r hr with ⟨hlen, hsends, -⟩
  rw [if_neg hlen]
  split
  · exact hsends
  · exact hsends

theorem sends_issuePDelayReq :
    ∃ t, Sends ((Issue.pDelayReq t).messages s.clock) s (issuePDelayReq env s) := by
  refine ⟨fromInternalTime (env.time .pDelayReq) (env.localStamp .pDelayReq), ?_⟩
  unfold issuePDelayReq
  dsimp only
  generalize fromInternalTime (env.time .pDelayReq) (env.localStamp .pDelayReq) = t
  generalize hr : sendPacked env .pDelayReq (msgPackPDelayReq s.clock s.clock.msgObuf t)
    (env.time .pDelayReq) s = r
  rcases sends_sendPacked env s (.pDelayReq t) s.clock _ r hr with ⟨hlen, hsends, -⟩
  rw [if_neg hlen]
  split
  · exact hsends
  · exact hsends

theorem sends_issueDelayResp (time : TimeInternal) (header : MsgHeader) :
    ∃ t, Sends ((Issue.delayResp header t).messages s.clock) s
      (issueDelayResp env time header s) := by
  refine ⟨fromInternalTime time (env.localStamp .delayResp), ?_⟩
  unfold issueDelayResp
  dsimp only
  generalize fromInternalTime time (env.localStamp .delayResp) = t
  generalize hr : sendPacked env .delayResp (msgPackDelayResp s.clock s.clock.msgObuf header t)
    .zero s = r
  rcases sends_sendPacked env s (.delayResp header t) s.clock _ r hr with ⟨hlen, hsends, -⟩
  rw [if_neg hlen]
  exact hsends

theorem sends_issueFollowup (time : TimeInternal) :
    Sends [(s.clock, .followUp (fromInternalTime time (env.localStamp .followUp)))] s
      (issueFollowup env time s) := by
  unfold issueFollowup
  dsimp only
  generalize fromInternalTime time (env.localStamp .followUp) = t
  generalize hr : sendPacked env .followUp (msgPackFollowUp s.clock s.clock.msgObuf t) .zero s = r
  rcases sends_sendPacked env s (.followUp t) s.clock _ r hr with ⟨hlen, hsends, -⟩
  rw [if_neg hlen]
  exact hsends

theorem sends_issuePDelayRespFollowUp (time : TimeInternal) (header : MsgHeader) (c : PtpClock) :
    Sends [(c, .pDelayRespFollowUp header
      (fromInternalTime time (env.localStamp .pDelayRespFollowUp)))] s
      (issuePDelayRespFollowUp env time header s) := by
  unfold issuePDelayRespFollowUp
  dsimp only
  generalize fromInternalTime time (env.localStamp .pDelayRespFollowUp) = t
  generalize hr : sendPacked env .pDelayRespFollowUp
    (msgPackPDelayRespFollowUp s.clock.msgObuf header t) .zero s = r
  rcases sends_sendPacked env s (.pDelayRespFollowUp header t) c _ r hr with ⟨hlen, hsends, -⟩
  rw [if_neg hlen]
  exact hsends

/-- The packer of a FollowUp reads the counter and the interval of the clock. -/
theorem msgPackFollowUp_advanced {c c' : PtpClock}
    (hid : c.sentSyncSequenceId = c'.sentSyncSequenceId) (hport : c.portDS = c'.portDS)
    (buf : List UInt8) (t : Timestamp) :
    msgPackFollowUp { c with sentSyncSequenceId := c.sentSyncSequenceId + 1 } buf t
      = msgPackFollowUp { c' with sentSyncSequenceId := c'.sentSyncSequenceId + 1 } buf t := by
  unfold msgPackFollowUp
  rw [hid, hport]

theorem sends_issueSync :
    ∃ t followUp, Sends ((Issue.sync t followUp).messages s.clock) s (issueSync env s) := by
  refine ⟨fromInternalTime (env.time .sync) (env.localStamp .sync), ?_⟩
  unfold issueSync
  dsimp only
  generalize fromInternalTime (env.time .sync) (env.localStamp .sync) = t
  generalize hr : sendPacked env .sync (msgPackSync s.clock s.clock.msgObuf t) (env.time .sync) s
    = r
  rcases sends_sendPacked env s (.sync t) s.clock _ r hr with ⟨hlen, hsends, hclock⟩
  have hid : r.2.2.clock.sentSyncSequenceId = s.clock.sentSyncSequenceId := by rw [hclock]
  have hport : r.2.2.clock.portDS = s.clock.portDS := by rw [hclock]
  clear hclock hr
  rw [if_neg hlen]
  by_cases h : r.2.1.seconds ≠ 0 ∧ r.2.2.clock.defaultDS.twoStepFlag = true
  · rw [if_pos h]
    generalize addTime r.2.1 r.2.2.clock.outboundLatency = time
    refine ⟨some (fromInternalTime time (env.localStamp .followUp)), sends_cons
      (u := { r.2.2 with clock.sentSyncSequenceId := r.2.2.clock.sentSyncSequenceId + 1 })
      hsends ?_⟩
    have hfollow := sends_issueFollowup env
      { r.2.2 with clock.sentSyncSequenceId := r.2.2.clock.sentSyncSequenceId + 1 } time
    generalize fromInternalTime time (env.localStamp .followUp) = t' at hfollow ⊢
    -- the clock has the new buffer as well, which the packer does not look at
    have hpack := fun buf => msgPackFollowUp_advanced hid hport buf t'
    unfold Sends at hfollow ⊢
    simp only [transmit, Outgoing.pack, hpack] at hfollow ⊢
    exact hfollow
  · rw [if_neg h]
    exact ⟨none, hsends⟩

/-- The answers to a peer. -/
theorem sends_answerPDelayReq (m : Message) :
    ∃ t followUp, Sends ((Issue.pDelayResp m.header t followUp).messages s.clock) s
      (answerPDelayReq env m false s) := by
  refine ⟨fromInternalTime m.time (env.localStamp .pDelayResp), ?_⟩
  have hone : Sends [(s.clock, .pDelayResp m.header
      (fromInternalTime m.time (env.localStamp .pDelayResp)))] s
      (issuePDelayResp env m.time m.header s).2 := by
    unfold issuePDelayResp
    dsimp only
    generalize fromInternalTime m.time (env.localStamp .pDelayResp) = t
    generalize hr : sendPacked env .pDelayResp (msgPackPDelayResp s.clock.msgObuf m.header t)
      m.time s = r
    rcases sends_sendPacked env s (.pDelayResp m.header t) s.clock _ r hr with ⟨hlen, hsends, -⟩
    rw [if_neg hlen]
    split
    · exact hsends
    · exact hsends
  unfold answerPDelayReq
  dsimp only
  rw [if_neg Bool.false_ne_true]
  generalize issuePDelayResp env m.time m.header s = r at hone ⊢
  by_cases h : r.1.seconds ≠ 0 ∧ isTwoStep m = true
  · rw [if_pos h]
    exact ⟨some _, sends_cons hone (sends_issuePDelayRespFollowUp env r.2 r.1 m.header s.clock)⟩
  · rw [if_neg h]
    exact ⟨none, hone⟩

end Port

/-- For every clock and buffer at the initialisation, every two sequences of
    issues behind it and every issue that follows both: its bytes are the same,
    and without a correction when it is an Announce, if and only if it is no
    Announce, or both sequences have left an empty correction field and the same
    byte in the reserved place. -/
theorem sent_independent_iff (c0 : PtpClock) (buf : Vector UInt8 ptpPacketSize)
    (before before' : List (PtpClock × Issue)) (c : PtpClock) (i : Issue) :
    ((transmit (bufferAfter (msgPackHeader c0 buf.toList) before) (i.messages c)).1
        = (transmit (bufferAfter (msgPackHeader c0 buf.toList) before') (i.messages c)).1 ∧
      (i = .announce → ∀ bytes ∈
        (transmit (bufferAfter (msgPackHeader c0 buf.toList) before) (i.messages c)).1,
        (msgUnpackHeader bytes).correctionfield = 0)) ↔
    (i = .announce → (leftAfter buf.toList before).correctionfield = 0 ∧
      (leftAfter buf.toList before').correctionfield = 0 ∧
      (leftAfter buf.toList before).reserved = (leftAfter buf.toList before').reserved) := by
  have hroom : ptpPacketSize ≤ buf.toList.length := Nat.le_of_eq buf.length_toList.symm
  have hinit := holds_msgPackHeader c0 hroom
  have ha := holds_transmit (before.flatMap fun p => p.2.messages p.1) hinit
  have hb := holds_transmit (before'.flatMap fun p => p.2.messages p.1) hinit
  by_cases hi : i = .announce
  · subst hi
    rcases announce_shows c ha with ⟨hcorr, hres⟩
    rcases announce_shows c hb with ⟨hcorr', hres'⟩
    constructor
    · rintro ⟨heq, hzero⟩ _
      have hbytes : (msgPackAnnounce c (bufferAfter (msgPackHeader c0 buf.toList) before)).take 64
          = (msgPackAnnounce c (bufferAfter (msgPackHeader c0 buf.toList) before')).take 64 :=
        (List.cons.inj heq).1
      have hz := hzero rfl _ (List.mem_singleton.mpr rfl)
      refine ⟨hcorr.symm.trans hz, ?_, ?_⟩
      · refine hcorr'.symm.trans (Eq.trans ?_ hz)
        exact congrArg (fun x => (msgUnpackHeader x).correctionfield) hbytes.symm
      · exact hres.symm.trans ((congrArg (fun x => load8 x 46) hbytes).trans hres')
    · intro h
      rcases h rfl with ⟨hz, hz', hsame⟩
      refine ⟨congrArg (fun x => [x]) (take_pack_eq c .announce ha hb (fun _ => ?_) fun _ => hsame),
        fun _ bytes hbytes => ?_⟩
      · exact hz.trans hz'.symm
      · rw [List.mem_singleton.mp hbytes]
        exact hcorr.trans hz
  · exact iff_of_true ⟨transmit_messages_eq c i hi ha hb, fun h => absurd h hi⟩
      fun h => absurd h hi

/-- A master that is asked for a delay, with `correction` in the last byte of the
    correction field, and announces itself thereafter. -/
def answersAndAnnounces (correction : UInt8) : List Event :=
  [quietStep [], .expire .announceReceipt, quietStep [],
    quietStep [(.event, ⟨(peerMessage .delayReq 2 0 0
      [0, 0, 0, 0, 0, 0, 0, 0, 0, 0]).set 15 correction, .zero⟩)],
    .expire .announceInterval, quietStep []]

/-- The correction of a request shows in the next Announce. -/
theorem announce_carries_correction :
    (bytesSent (run engineStep (powerUp masterOpts) (answersAndAnnounces 1))).map
      (fun bytes => (msgUnpackHeader bytes).correctionfield) = [1, 1] ∧
    (bytesSent (run engineStep (powerUp masterOpts) (answersAndAnnounces 0))).map
      (fun bytes => (msgUnpackHeader bytes).correctionfield) = [0, 0] ∧
    (bytesSent (run engineStep (powerUp masterOpts) (answersAndAnnounces 1))).head?
      ≠ (bytesSent (run engineStep (powerUp masterOpts) (answersAndAnnounces 0))).head? := by
  decide +kernel

end Ptp

end RtosLwip
