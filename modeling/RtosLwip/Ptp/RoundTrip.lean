import RtosLwip.Ptp.Engine

/-!
# What Is Packed Is Unpacked

The packers and the unpackers of `ptpMsg.c` against each other. A packer changes
some fields of the header that stands in the buffer, and writes a body; read back
by the unpackers, the header is the old one with these fields changed, and the
body is the packed one.

Every packer is a sequence of stores at constant offsets, so a field is read
back by stepping over the stores behind it and in front of it, with the rules of
the byte buffer.

## Main definitions

* `Outgoing`: A message with the arguments of its packer.
* `Outgoing.pack`: Its packer.
* `Outgoing.body`, `unpackBody`: The body that is packed, and unpacking it.

## Theorems

* `unpackHeader_pack`, `unpackBody_pack`: The header and the body of a message.
* `drop_pack`: A packer writes nothing behind its message.
* `unpack_pack`: All of it, for every type of message.
-/

namespace RtosLwip

namespace Ptp

/-- A message that can be sent, with the arguments its packer takes besides the
    clock and the buffer. -/
inductive Outgoing where
  | announce
  | sync (originTimestamp : Timestamp)
  | delayReq (originTimestamp : Timestamp)
  | followUp (preciseOriginTimestamp : Timestamp)
  | delayResp (header : MsgHeader) (receiveTimestamp : Timestamp)
  | pDelayReq (originTimestamp : Timestamp)
  | pDelayResp (header : MsgHeader) (requestReceiptTimestamp : Timestamp)
  | pDelayRespFollowUp (header : MsgHeader) (responseOriginTimestamp : Timestamp)
  deriving DecidableEq, Repr

namespace Outgoing

/-- The type of a message. -/
def type : Outgoing → MsgType
  | announce => .announce
  | sync _ => .sync
  | delayReq _ => .delayReq
  | followUp _ => .followUp
  | delayResp _ _ => .delayResp
  | pDelayReq _ => .pDelayReq
  | pDelayResp _ _ => .pDelayResp
  | pDelayRespFollowUp _ _ => .pDelayRespFollowUp

/-- The packer of a message. -/
def pack (c : PtpClock) (buf : List UInt8) : Outgoing → List UInt8
  | announce => msgPackAnnounce c buf
  | sync t => msgPackSync c buf t
  | delayReq t => msgPackDelayReq c buf t
  | followUp t => msgPackFollowUp c buf t
  | delayResp header t => msgPackDelayResp c buf header t
  | pDelayReq t => msgPackPDelayReq c buf t
  | pDelayResp header t => msgPackPDelayResp buf header t
  | pDelayRespFollowUp header t => msgPackPDelayRespFollowUp buf header t

/-- The sequence number of a message: its own counter's, the one of the Sync
    before, or the one of the request that is answered. -/
def sequenceId (c : PtpClock) : Outgoing → Int16
  | announce => c.sentAnnounceSequenceId
  | sync _ => c.sentSyncSequenceId
  | delayReq _ => c.sentDelayReqSequenceId
  | followUp _ => c.sentSyncSequenceId - 1
  | pDelayReq _ => c.sentPDelayReqSequenceId
  | delayResp header _ | pDelayResp header _ | pDelayRespFollowUp header _ => header.sequenceId

/-- The byte a message has where an Announce has a reserved one. -/
def reserved : Outgoing → Option UInt8
  | announce | sync _ | delayReq _ | followUp _ => none
  | pDelayReq _ => some 0
  | delayResp header _ | pDelayResp header _ | pDelayRespFollowUp header _ =>
      some header.sourcePortIdentity.clockIdentity[2]

/-- The control field of a message. -/
def controlField : Outgoing → UInt8
  | sync _ => 0x00
  | delayReq _ => 0x01
  | followUp _ => 0x02
  | delayResp _ _ => 0x03
  | announce | pDelayReq _ | pDelayResp _ _ | pDelayRespFollowUp _ _ => 0x05

/-- The interval of a message. -/
def logInterval (c : PtpClock) : Outgoing → Int8
  | announce => c.portDS.logAnnounceInterval
  | sync _ | followUp _ => c.portDS.logSyncInterval
  | delayResp _ _ => c.portDS.logMinDelayReqInterval
  | delayReq _ | pDelayReq _ | pDelayResp _ _ | pDelayRespFollowUp _ _ => 0x7F

/-- The correction field of a message, where its packer writes one. -/
def correction : Outgoing → Option Int64
  | announce | followUp _ => none
  | sync _ | delayReq _ | pDelayReq _ | pDelayResp _ _ => some 0
  | delayResp header _ | pDelayRespFollowUp header _ => some header.correctionfield

end Outgoing

/-- The body of a message. -/
inductive Body where
  | announce (a : MsgAnnounce)
  | timestamp (t : Timestamp)
  | resp (r : MsgResp)
  deriving DecidableEq, Repr

/-- The unpacker of the body of a message. -/
def unpackBody (type : MsgType) (buf : List UInt8) : Option Body :=
  match type with
  | .announce => some (.announce (msgUnpackAnnounce buf))
  | .sync => some (.timestamp (msgUnpackSync buf))
  | .delayReq => some (.timestamp (msgUnpackDelayReq buf))
  | .followUp => some (.timestamp (msgUnpackFollowUp buf))
  | .delayResp => some (.resp (msgUnpackDelayResp buf))
  | .pDelayReq => some (.timestamp (msgUnpackPDelayReq buf))
  | .pDelayResp => some (.resp (msgUnpackPDelayResp buf))
  | .pDelayRespFollowUp => some (.resp (msgUnpackPDelayRespFollowUp buf))
  | .signaling | .management => none

/-- The body that is packed for a message. -/
def Outgoing.body (c : PtpClock) : Outgoing → Body
  | announce => .announce {
      originTimestamp := ⟨⟨0, 0⟩, 0⟩
      currentUtcOffset := c.timePropertiesDS.currentUtcOffset
      grandmasterPriority1 := c.parentDS.grandmasterPriority1
      grandmasterClockQuality := c.defaultDS.clockQuality
      grandmasterPriority2 := c.parentDS.grandmasterPriority2
      grandmasterIdentity := c.parentDS.grandmasterIdentity
      stepsRemoved := c.currentDS.stepsRemoved
      timeSource := c.timePropertiesDS.timeSource }
  | sync t | delayReq t | followUp t | pDelayReq t => .timestamp t
  | delayResp header t | pDelayResp header t | pDelayRespFollowUp header t =>
      .resp ⟨t, header.sourcePortIdentity⟩

/-! ### The header -/

/-- A mask over the bits of two bytes. -/
theorem or_and_mask (x y m : UInt8) : (x ||| y) &&& m = x &&& m ||| y &&& m := by
  apply UInt8.toBitVec_inj.mp
  apply BitVec.eq_of_getLsbD_eq
  intro i _
  simp only [UInt8.toBitVec_and, UInt8.toBitVec_or, BitVec.getLsbD_and, BitVec.getLsbD_or,
    Bool.and_or_distrib_right]

theorem packType_eq (type : MsgType) {buf : List UInt8} (h : 0 < buf.length) :
    packType type buf = store8 0 (load8 buf 0 &&& 0xF0 ||| type.code) buf := by
  unfold packType
  dsimp only
  rw [load8_store8_self _ _ _ h, store8, store8, store8, List.set_set]

/-- The low half of the first byte is the type. -/
theorem lowHalf_type (x : UInt8) (type : MsgType) :
    (x &&& 0xF0 ||| type.code) &&& 0x0F = type.code := by
  have hcode : type.code &&& 0x0F = type.code := by cases type <;> rfl
  have hmask : (0xF0 : UInt8) &&& 0x0F = 0 := rfl
  rw [or_and_mask, hcode, UInt8.and_assoc, hmask, UInt8.and_zero, UInt8.zero_or]

/-- The type leaves the high half alone. -/
theorem highHalf_type (x : UInt8) (type : MsgType) :
    (x &&& 0xF0 ||| type.code) >>> 4 = x >>> 4 := by
  have hcode : type.code >>> 4 = 0 := by cases type <;> rfl
  have hmask : (0xF0 : UInt8) >>> 4 = 0x0F := rfl
  have hshift : UInt8.toNat 4 % 8 = 4 := rfl
  have hlow : UInt8.toNat 0x0F = 2 ^ 4 - 1 := rfl
  have hx := x.toNat_lt
  rw [UInt8.shiftRight_or, hcode, UInt8.or_zero, UInt8.shiftRight_and, hmask]
  apply UInt8.toNat_inj.mp
  rw [UInt8.toNat_and, UInt8.toNat_shiftRight, hshift, hlow, Nat.and_two_pow_sub_one_eq_mod,
    Nat.shiftRight_eq_div_pow]
  omega

section Header

variable {buf : List UInt8}

/-- The header is in the first bytes of a buffer. -/
theorem msgUnpackHeader_congr {buf' : List UInt8}
    (h : ∀ k, k < headerLength → load8 buf k = load8 buf' k) :
    msgUnpackHeader buf = msgUnpackHeader buf' := by
  have hlen : headerLength = 34 := rfl
  have h16 : ∀ k, k + 2 ≤ 34 → load16 buf k = load16 buf' k := fun k hk =>
    load16_congr fun j _ _ => h j (by omega)
  have h32 : ∀ k, k + 4 ≤ 34 → load32 buf k = load32 buf' k := fun k hk =>
    load32_congr fun j _ _ => h j (by omega)
  have hid : loadIdentity buf 20 = loadIdentity buf' 20 :=
    loadIdentity_congr fun j _ => h _ (by omega)
  simp (disch := decide) only [msgUnpackHeader, h, h16, h32, hid]

variable (h : headerLength ≤ buf.length)

include h

theorem msgUnpackHeader_packType (type : MsgType) : msgUnpackHeader (packType type buf)
    = { msgUnpackHeader buf with messageType := type.code } := by
  have hlen : headerLength = 34 := rfl
  rw [packType_eq type (by omega)]
  simp (disch := omega) only [msgUnpackHeader, load8_store8_ne, load16_store8_ne, load32_store8_ne,
    loadIdentity_store8_ne, load8_store8_self, lowHalf_type, highHalf_type]

theorem msgUnpackHeader_messageLength (v : UInt16) : msgUnpackHeader (store16 2 v buf)
    = { msgUnpackHeader buf with messageLength := v.toInt16 } := by
  have hlen : headerLength = 34 := rfl
  simp (disch := omega) only [msgUnpackHeader, load8_store16_ne, load16_store16_ne,
    load32_store16_ne, loadIdentity_store16_ne, load16_store16_self]

theorem msgUnpackHeader_sequenceId (v : Int16) : msgUnpackHeader (store16 30 v.toUInt16 buf)
    = { msgUnpackHeader buf with sequenceId := v } := by
  have hlen : headerLength = 34 := rfl
  simp (disch := omega) only [msgUnpackHeader, load8_store16_ne, load16_store16_ne,
    load32_store16_ne, loadIdentity_store16_ne, load16_store16_self]
  rfl

theorem msgUnpackHeader_controlField (v : UInt8) : msgUnpackHeader (store8 32 v buf)
    = { msgUnpackHeader buf with controlField := v } := by
  have hlen : headerLength = 34 := rfl
  simp (disch := omega) only [msgUnpackHeader, load8_store8_ne, load16_store8_ne,
    load32_store8_ne, loadIdentity_store8_ne, load8_store8_self]

theorem msgUnpackHeader_logMessageInterval (v : UInt8) : msgUnpackHeader (store8 33 v buf)
    = { msgUnpackHeader buf with logMessageInterval := v.toInt8 } := by
  have hlen : headerLength = 34 := rfl
  simp (disch := omega) only [msgUnpackHeader, load8_store8_ne, load16_store8_ne,
    load32_store8_ne, loadIdentity_store8_ne, load8_store8_self]

theorem msgUnpackHeader_packCorrection (x : Int64) : msgUnpackHeader (packCorrection x buf)
    = { msgUnpackHeader buf with correctionfield := x } := by
  have hlen : headerLength = 34 := rfl
  have hstore : 12 + 3 < (store32 8 (x >>> 32).toInt32.toUInt32 buf).length := by
    rw [length_store32]
    omega
  simp (disch := first | omega | exact hstore) only [msgUnpackHeader, packCorrection,
    load8_store32_ne, load16_store32_ne, load32_store32_ne, loadIdentity_store32_ne,
    load32_store32_self, join64]

omit h

theorem msgUnpackHeader_memset0 : msgUnpackHeader (memset0 8 8 buf)
    = { msgUnpackHeader buf with correctionfield := 0 } := by
  simp (disch := omega) only [msgUnpackHeader, load8_memset0_ne, load16_memset0_ne,
    loadIdentity_memset0_ne, load32_memset0_self]
  rfl

theorem msgUnpackHeader_packTimestamp (t : Timestamp) :
    msgUnpackHeader (packTimestamp t buf) = msgUnpackHeader buf := by
  have hlen : headerLength = 34 := rfl
  refine msgUnpackHeader_congr fun k hk => ?_
  simp (disch := omega) only [packTimestamp, load8_store32_ne, load8_store16_ne]

theorem msgUnpackHeader_packIdentity (p : PortIdentity) :
    msgUnpackHeader (packIdentity 44 p buf) = msgUnpackHeader buf := by
  have hlen : headerLength = 34 := rfl
  refine msgUnpackHeader_congr fun k hk => ?_
  simp (disch := omega) only [packIdentity, load8_store16_ne, load8_storeIdentity_ne]

theorem msgUnpackHeader_memset0_body (off n : Nat) (hoff : headerLength ≤ off) :
    msgUnpackHeader (memset0 off n buf) = msgUnpackHeader buf :=
  msgUnpackHeader_congr fun k hk => load8_memset0_ne _ _ _ _ (by omega)

theorem msgUnpackHeader_store8_body (off : Nat) (v : UInt8) (hoff : headerLength ≤ off) :
    msgUnpackHeader (store8 off v buf) = msgUnpackHeader buf :=
  msgUnpackHeader_congr fun k hk => load8_store8_ne _ _ _ _ (by omega)

theorem msgUnpackHeader_store16_body (off : Nat) (v : UInt16) (hoff : headerLength ≤ off) :
    msgUnpackHeader (store16 off v buf) = msgUnpackHeader buf :=
  msgUnpackHeader_congr fun k hk => load8_store16_ne _ _ _ _ (by omega)

theorem msgUnpackHeader_storeIdentity_body (off : Nat) (p : ClockIdentity)
    (hoff : headerLength ≤ off) :
    msgUnpackHeader (storeBytes off p.toList buf) = msgUnpackHeader buf :=
  msgUnpackHeader_congr fun k hk => load8_storeIdentity_ne _ _ _ _ (by omega)

end Header

@[simp] theorem length_pack (c : PtpClock) (buf : List UInt8) (m : Outgoing) :
    (m.pack c buf).length = buf.length := by
  cases m with
  | announce => exact length_msgPackAnnounce buf c
  | sync t => exact length_msgPackSync buf c t
  | delayReq t => exact length_msgPackDelayReq buf c t
  | followUp t => exact length_msgPackFollowUp buf c t
  | delayResp header t => exact length_msgPackDelayResp buf c header t
  | pDelayReq t => exact length_msgPackPDelayReq buf c t
  | pDelayResp header t => exact length_msgPackPDelayResp buf header t
  | pDelayRespFollowUp header t => exact length_msgPackPDelayRespFollowUp buf header t

/-- The header of a packed message is the one that stood in the buffer, with the
    fields of the message. -/
theorem unpackHeader_pack (c : PtpClock) (buf : List UInt8) (m : Outgoing)
    (h : headerLength ≤ buf.length) :
    msgUnpackHeader (m.pack c buf) = { msgUnpackHeader buf with
      messageType := m.type.code
      messageLength := Int16.ofNat m.type.length
      correctionfield := m.correction.getD (msgUnpackHeader buf).correctionfield
      sequenceId := m.sequenceId c
      controlField := m.controlField
      logMessageInterval := m.logInterval c } := by
  cases m with
  | announce =>
      simp (disch := first | decide | simpa using h) only [Outgoing.pack, msgPackAnnounce,
        msgUnpackHeader_packType, msgUnpackHeader_messageLength, msgUnpackHeader_sequenceId,
        msgUnpackHeader_controlField, msgUnpackHeader_logMessageInterval,
        msgUnpackHeader_memset0_body, msgUnpackHeader_store8_body, msgUnpackHeader_store16_body,
        msgUnpackHeader_storeIdentity_body]
      rfl
  | sync t =>
      simp (disch := simpa using h) only [Outgoing.pack, msgPackSync, msgUnpackHeader_packType,
        msgUnpackHeader_messageLength, msgUnpackHeader_sequenceId, msgUnpackHeader_controlField,
        msgUnpackHeader_logMessageInterval, msgUnpackHeader_memset0, msgUnpackHeader_packTimestamp]
      rfl
  | delayReq t =>
      simp (disch := simpa using h) only [Outgoing.pack, msgPackDelayReq,
        msgUnpackHeader_packType, msgUnpackHeader_messageLength, msgUnpackHeader_sequenceId,
        msgUnpackHeader_controlField, msgUnpackHeader_logMessageInterval, msgUnpackHeader_memset0,
        msgUnpackHeader_packTimestamp]
      rfl
  | followUp t =>
      simp (disch := simpa using h) only [Outgoing.pack, msgPackFollowUp,
        msgUnpackHeader_packType, msgUnpackHeader_messageLength, msgUnpackHeader_sequenceId,
        msgUnpackHeader_controlField, msgUnpackHeader_logMessageInterval,
        msgUnpackHeader_packTimestamp]
      rfl
  | delayResp header t =>
      simp (disch := simpa using h) only [Outgoing.pack, msgPackDelayResp,
        msgUnpackHeader_packType, msgUnpackHeader_messageLength, msgUnpackHeader_sequenceId,
        msgUnpackHeader_controlField, msgUnpackHeader_logMessageInterval, msgUnpackHeader_memset0,
        msgUnpackHeader_packCorrection, msgUnpackHeader_packTimestamp, msgUnpackHeader_packIdentity]
      rfl
  | pDelayReq t =>
      simp (disch := first | decide | simpa using h) only [Outgoing.pack, msgPackPDelayReq,
        msgUnpackHeader_packType, msgUnpackHeader_messageLength, msgUnpackHeader_sequenceId,
        msgUnpackHeader_controlField, msgUnpackHeader_logMessageInterval, msgUnpackHeader_memset0,
        msgUnpackHeader_packTimestamp, msgUnpackHeader_memset0_body]
      rfl
  | pDelayResp header t =>
      simp (disch := simpa using h) only [Outgoing.pack, msgPackPDelayResp,
        msgUnpackHeader_packType, msgUnpackHeader_messageLength, msgUnpackHeader_sequenceId,
        msgUnpackHeader_controlField, msgUnpackHeader_logMessageInterval, msgUnpackHeader_memset0,
        msgUnpackHeader_packTimestamp, msgUnpackHeader_packIdentity]
      rfl
  | pDelayRespFollowUp header t =>
      simp (disch := simpa using h) only [Outgoing.pack, msgPackPDelayRespFollowUp,
        msgUnpackHeader_packType, msgUnpackHeader_messageLength, msgUnpackHeader_sequenceId,
        msgUnpackHeader_controlField, msgUnpackHeader_logMessageInterval,
        msgUnpackHeader_packCorrection, msgUnpackHeader_packTimestamp, msgUnpackHeader_packIdentity]
      rfl

/-! ### The body -/

section Body

variable {buf : List UInt8}

theorem unpackTimestamp_packTimestamp (t : Timestamp) (h : 44 ≤ buf.length) :
    unpackTimestamp (packTimestamp t buf) = t := by
  simp (disch := first | omega | (simp only [length_store16, length_store32]; omega)) only
    [unpackTimestamp, packTimestamp, load16_store32_ne, load16_store16_self, load32_store32_ne,
    load32_store32_self]

/-- An identity behind the timestamp. -/
theorem unpackResp_packIdentity (p : PortIdentity) (h : 54 ≤ buf.length) :
    unpackResp (packIdentity 44 p buf) = ⟨unpackTimestamp buf, p⟩ := by
  have hid : loadIdentity (storeBytes 44 p.clockIdentity.toList buf) 44 = p.clockIdentity :=
    loadIdentity_storeBytes_self _ _ _ (by omega)
  simp (disch := first | omega | (simp only [length_storeBytes]; omega)) only
    [unpackResp, unpackTimestamp, packIdentity, load16_store16_ne, load16_storeIdentity_ne,
    load32_store16_ne, load32_storeIdentity_ne, loadIdentity_store16_ne, load16_store16_self, hid]
  rfl

theorem unpackTimestamp_memset0 : unpackTimestamp (memset0 44 10 buf) = unpackTimestamp buf := by
  simp (disch := omega) only [unpackTimestamp, load16_memset0_ne, load32_memset0_ne]

theorem msgUnpackAnnounce_msgPackAnnounce_eq (c : PtpClock) (h : 64 ≤ buf.length) :
    Body.announce (msgUnpackAnnounce (msgPackAnnounce c buf)) = Outgoing.announce.body c := by
  have hid : ∀ b : List UInt8, 61 ≤ b.length →
      loadIdentity (storeBytes 53 c.parentDS.grandmasterIdentity.toList b) 53
        = c.parentDS.grandmasterIdentity :=
    fun b hb => loadIdentity_storeBytes_self _ _ _ hb
  simp (disch := first | omega | (simp only [length_store8, length_store16, length_memset0,
    length_storeBytes, length_packType]; omega)) only [msgUnpackAnnounce, unpackTimestamp,
    msgPackAnnounce, load8_store8_ne, load8_store16_ne, load8_storeIdentity_ne, load16_store8_ne,
    load16_store16_ne, load16_storeIdentity_ne, load32_store8_ne, load32_store16_ne,
    load32_storeIdentity_ne, loadIdentity_store8_ne, loadIdentity_store16_ne, load8_store8_self,
    load16_store16_self, load16_memset0_self, load32_memset0_self, hid]
  rfl

end Body

/-- The body of a packed message. -/
theorem unpackBody_pack (c : PtpClock) (buf : List UInt8) (m : Outgoing)
    (h : m.type.length ≤ buf.length) : unpackBody m.type (m.pack c buf) = some (m.body c) := by
  -- every packer ends with its body
  have htime : ∀ (b : List UInt8) (t : Timestamp), 44 ≤ b.length →
      unpackTimestamp (packTimestamp t b) = t := fun b t hb => unpackTimestamp_packTimestamp t hb
  have hresp : ∀ (b : List UInt8) (t : Timestamp) (p : PortIdentity), 54 ≤ b.length →
      unpackResp (packIdentity 44 p (packTimestamp t b)) = ⟨t, p⟩ := by
    intro b t p hb
    rw [unpackResp_packIdentity p (by rwa [length_packTimestamp]), htime b t (by omega)]
  cases m with
  | announce => exact congrArg some (msgUnpackAnnounce_msgPackAnnounce_eq c h)
  | sync t =>
      refine congrArg (some ∘ Body.timestamp) (htime _ t ?_)
      simpa [Outgoing.type, MsgType.length] using h
  | delayReq t =>
      refine congrArg (some ∘ Body.timestamp) (htime _ t ?_)
      simpa [Outgoing.type, MsgType.length] using h
  | followUp t =>
      refine congrArg (some ∘ Body.timestamp) (htime _ t ?_)
      simpa [Outgoing.type, MsgType.length] using h
  | pDelayReq t =>
      refine congrArg (some ∘ Body.timestamp) (unpackTimestamp_memset0.trans (htime _ t ?_))
      have hlen : 54 ≤ buf.length := h
      simp only [length_memset0, length_store8, length_store16, length_packType]
      omega
  | delayResp header t =>
      refine congrArg (some ∘ Body.resp) (hresp _ t _ ?_)
      simpa [Outgoing.type, MsgType.length] using h
  | pDelayResp header t =>
      refine congrArg (some ∘ Body.resp) (hresp _ t _ ?_)
      simpa [Outgoing.type, MsgType.length] using h
  | pDelayRespFollowUp header t =>
      refine congrArg (some ∘ Body.resp) (hresp _ t _ ?_)
      simpa [Outgoing.type, MsgType.length] using h

/-! ### What a packer leaves alone -/

/-- The places the packer of a message leaves alone: those of the header that
    belong to the clock, the correction field where it writes none, a reserved
    byte of the Announce, and everything behind the message. -/
def Outgoing.Keeps (m : Outgoing) (k : Nat) : Prop :=
  k = 1 ∨ (4 ≤ k ∧ k < 8) ∨ (m.correction = none ∧ 8 ≤ k ∧ k < 16) ∨ (16 ≤ k ∧ k < 30) ∨
    (m.type = .announce ∧ k = 46) ∨ m.type.length ≤ k

section Keeps

variable (buf : List UInt8) {k : Nat}

theorem load8_packType_ne (type : MsgType) (h : k ≠ 0) :
    load8 (packType type buf) k = load8 buf k := by
  rw [packType, load8_store8_ne _ _ _ _ h, load8_store8_ne _ _ _ _ h]

theorem load8_packTimestamp_ne (t : Timestamp) (h : k < 34 ∨ 44 ≤ k) :
    load8 (packTimestamp t buf) k = load8 buf k := by
  simp (disch := omega) only [packTimestamp, load8_store16_ne, load8_store32_ne]

theorem load8_packIdentity_ne (p : PortIdentity) (h : k < 44 ∨ 54 ≤ k) :
    load8 (packIdentity 44 p buf) k = load8 buf k := by
  simp (disch := omega) only [packIdentity, load8_store16_ne, load8_storeIdentity_ne]

theorem load8_packCorrection_ne (x : Int64) (h : k < 8 ∨ 16 ≤ k) :
    load8 (packCorrection x buf) k = load8 buf k := by
  simp (disch := omega) only [packCorrection, load8_store32_ne]

end Keeps

theorem load8_pack (c : PtpClock) (buf : List UInt8) (m : Outgoing) {k : Nat} (h : m.Keeps k) :
    load8 (m.pack c buf) k = load8 buf k := by
  unfold Outgoing.Keeps at h
  cases m with
  | announce =>
      simp only [Outgoing.correction, Outgoing.type, MsgType.length, true_and] at h
      simp (disch := omega) only [Outgoing.pack, msgPackAnnounce, load8_store8_ne,
        load8_store16_ne, load8_storeIdentity_ne, load8_memset0_ne, load8_packType_ne]
  | sync t =>
      simp only [Outgoing.correction, Outgoing.type, MsgType.length, reduceCtorEq, false_and,
        false_or] at h
      simp (disch := omega) only [Outgoing.pack, msgPackSync, load8_packTimestamp_ne,
        load8_memset0_ne, load8_store8_ne, load8_store16_ne, load8_packType_ne]
  | delayReq t =>
      simp only [Outgoing.correction, Outgoing.type, MsgType.length, reduceCtorEq, false_and,
        false_or] at h
      simp (disch := omega) only [Outgoing.pack, msgPackDelayReq, load8_packTimestamp_ne,
        load8_memset0_ne, load8_store8_ne, load8_store16_ne, load8_packType_ne]
  | followUp t =>
      simp only [Outgoing.correction, Outgoing.type, MsgType.length, reduceCtorEq, false_and,
        false_or, true_and] at h
      simp (disch := omega) only [Outgoing.pack, msgPackFollowUp, load8_packTimestamp_ne,
        load8_store8_ne, load8_store16_ne, load8_packType_ne]
  | delayResp header t =>
      simp only [Outgoing.correction, Outgoing.type, MsgType.length, reduceCtorEq, false_and,
        false_or] at h
      simp (disch := omega) only [Outgoing.pack, msgPackDelayResp, load8_packIdentity_ne,
        load8_packTimestamp_ne, load8_packCorrection_ne, load8_memset0_ne, load8_store8_ne,
        load8_store16_ne, load8_packType_ne]
  | pDelayReq t =>
      simp only [Outgoing.correction, Outgoing.type, MsgType.length, reduceCtorEq, false_and,
        false_or] at h
      simp (disch := omega) only [Outgoing.pack, msgPackPDelayReq, load8_packTimestamp_ne,
        load8_memset0_ne, load8_store8_ne, load8_store16_ne, load8_packType_ne]
  | pDelayResp header t =>
      simp only [Outgoing.correction, Outgoing.type, MsgType.length, reduceCtorEq, false_and,
        false_or] at h
      simp (disch := omega) only [Outgoing.pack, msgPackPDelayResp, load8_packIdentity_ne,
        load8_packTimestamp_ne, load8_memset0_ne, load8_store8_ne, load8_store16_ne,
        load8_packType_ne]
  | pDelayRespFollowUp header t =>
      simp only [Outgoing.correction, Outgoing.type, MsgType.length, reduceCtorEq, false_and,
        false_or] at h
      simp (disch := omega) only [Outgoing.pack, msgPackPDelayRespFollowUp, load8_packIdentity_ne,
        load8_packTimestamp_ne, load8_packCorrection_ne, load8_store8_ne, load8_store16_ne,
        load8_packType_ne]

/-- A packer writes nothing behind its message. -/
theorem drop_pack (c : PtpClock) (buf : List UInt8) (m : Outgoing) :
    (m.pack c buf).drop m.type.length = buf.drop m.type.length := by
  have hagree : Agree (fun k => m.type.length ≤ k) (m.pack c buf) buf :=
    ⟨length_pack c buf m, fun k hk => load8_pack c buf m (by unfold Outgoing.Keeps; omega)⟩
  exact hagree.drop_eq fun k hk => hk

/-- For every clock, every message and every buffer with room for it: the header
    in the packed buffer is the one that stood there with the type, the length,
    the sequence number, the control field, the interval and the correction field
    of the message, the body is the packed one, and behind the message nothing is
    changed. -/
theorem unpack_pack (c : PtpClock) (m : Outgoing) (buf : List UInt8)
    (h : m.type.length ≤ buf.length) :
    msgUnpackHeader (m.pack c buf) = { msgUnpackHeader buf with
      messageType := m.type.code
      messageLength := Int16.ofNat m.type.length
      correctionfield := m.correction.getD (msgUnpackHeader buf).correctionfield
      sequenceId := m.sequenceId c
      controlField := m.controlField
      logMessageInterval := m.logInterval c } ∧
    unpackBody m.type (m.pack c buf) = some (m.body c) ∧
    (m.pack c buf).length = buf.length ∧
    (m.pack c buf).drop m.type.length = buf.drop m.type.length := by
  have hheader : headerLength ≤ m.type.length := by
    cases m <;> exact Nat.le_of_ble_eq_true rfl
  exact ⟨unpackHeader_pack c buf m (by omega), unpackBody_pack c buf m h, length_pack c buf m,
    drop_pack c buf m⟩

/-- The answer to a request with a negative correction, in a buffer of zeros. -/
theorem unpack_pack_delayResp :
    (msgUnpackHeader (msgPackDelayResp (zeroClock defaultRtOpts) (List.replicate ptpPacketSize 0)
      { (default : MsgHeader) with correctionfield := -3 } ⟨⟨7, 1⟩, 9⟩)).correctionfield = -3 := by
  have h := (unpack_pack (zeroClock defaultRtOpts)
    (.delayResp { (default : MsgHeader) with correctionfield := -3 } ⟨⟨7, 1⟩, 9⟩)
    (List.replicate ptpPacketSize 0)
    (by rw [List.length_replicate]; exact Nat.le_of_ble_eq_true rfl)).1
  exact congrArg MsgHeader.correctionfield h

end Ptp

end RtosLwip
