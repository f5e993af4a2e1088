import RtosLwip.Base.Bytes
import RtosLwip.Ptp.Arith

/-!
# Packing and Unpacking Messages

`ptpMsg.c`. Multi-byte fields are in network order: `flip16` and `flip32` of a
load or a store are the big-endian load and store `load16`, `store16` and so on.

The packers write into the shared output buffer, each only the places it names;
what stands in the others is what an earlier message left there.

## Main definitions

* `msgUnpackHeader`, `msgUnpackAnnounce` and the others: Unpacking.
* `msgPackHeader`, `msgPackAnnounce` and the others: Packing.

## Theorems

* `loadIdentity_storeBytes_self`: An identity that was written is read back.
* `msgUnpackAnnounce_msgPackAnnounce`: The grandmaster of a packed Announce.
-/

namespace RtosLwip

namespace Ptp

/-- `HEADER_LENGTH`. -/
def headerLength : Nat := 34

/-- The length of a message of each type. -/
def MsgType.length : MsgType → Nat
  | .announce => 64
  | .sync => 44
  | .followUp => 44
  | .delayReq => 44
  | .pDelayReq => 54
  | .delayResp => 54
  | .pDelayResp => 54
  | .pDelayRespFollowUp => 54
  | .signaling => 0
  | .management => 48

/-- `PTP_PACKET_SIZE`. -/
def ptpPacketSize : Nat := 300

/-- `FLAG0_TWO_STEP`. -/
def flag0TwoStep : UInt8 := 0x02

/-- `FLAG1_LEAP61`. -/
def flag1Leap61 : UInt8 := 0x01

/-- `FLAG1_LEAP59`. -/
def flag1Leap59 : UInt8 := 0x02

/-- `FLAG1_UTC_OFFSET_VALID`. -/
def flag1UtcOffsetValid : UInt8 := 0x04

/-- `FLAG1_PTP_TIMESCALE`. -/
def flag1PtpTimescale : UInt8 := 0x08

/-- `FLAG1_TIME_TRACEABLE`. -/
def flag1TimeTraceable : UInt8 := 0x10

/-- `FLAG1_FREQUENCY_TRACEABLE`. -/
def flag1FrequencyTraceable : UInt8 := 0x20

/-- `getFlag`. -/
def getFlag (flagField mask : UInt8) : Bool := flagField &&& mask = mask

/-- The clock identity at an offset. -/
def loadIdentity (buf : List UInt8) (off : Nat) : ClockIdentity :=
  Vector.ofFn fun k => load8 buf (off + k)

/-- `msgUnpackHeader`. -/
def msgUnpackHeader (buf : List UInt8) : MsgHeader where
  transportSpecific := load8 buf 0 >>> 4
  messageType := load8 buf 0 &&& 0x0F
  versionPTP := load8 buf 1 &&& 0x0F
  messageLength := (load16 buf 2).toInt16
  domainNumber := load8 buf 4
  flagField0 := load8 buf 6
  flagField1 := load8 buf 7
  correctionfield :=
    ((load32 buf 8).toUInt64 <<< 32 + (load32 buf 12).toUInt64).toInt64
  sourcePortIdentity := ⟨loadIdentity buf 20, (load16 buf 28).toInt16⟩
  sequenceId := (load16 buf 30).toInt16
  controlField := load8 buf 32
  logMessageInterval := (load8 buf 33).toInt8

/-- The timestamp behind the header: the body of `MsgSync`, `MsgFollowUp`,
    `MsgDelayReq` and `MsgPDelayReq`, and the beginning of the other bodies. -/
def unpackTimestamp (buf : List UInt8) : Timestamp where
  secondsField := ⟨load32 buf 36, load16 buf 34⟩
  nanosecondsField := load32 buf 40

/-- `msgUnpackAnnounce`. -/
def msgUnpackAnnounce (buf : List UInt8) : MsgAnnounce where
  originTimestamp := unpackTimestamp buf
  currentUtcOffset := (load16 buf 44).toInt16
  grandmasterPriority1 := load8 buf 47
  grandmasterClockQuality := ⟨load8 buf 48, load8 buf 49, (load16 buf 50).toInt16⟩
  grandmasterPriority2 := load8 buf 52
  grandmasterIdentity := loadIdentity buf 53
  stepsRemoved := (load16 buf 61).toInt16
  timeSource := load8 buf 63

/-- `msgUnpackSync`. -/
def msgUnpackSync (buf : List UInt8) : Timestamp := unpackTimestamp buf

/-- `msgUnpackDelayReq`. -/
def msgUnpackDelayReq (buf : List UInt8) : Timestamp := unpackTimestamp buf

/-- `msgUnpackPDelayReq`. -/
def msgUnpackPDelayReq (buf : List UInt8) : Timestamp := unpackTimestamp buf

/-- `msgUnpackFollowUp`. -/
def msgUnpackFollowUp (buf : List UInt8) : Timestamp := unpackTimestamp buf

/-- The body of a response. -/
def unpackResp (buf : List UInt8) : MsgResp where
  timestamp := unpackTimestamp buf
  requestingPortIdentity := ⟨loadIdentity buf 44, (load16 buf 52).toInt16⟩

/-- `msgUnpackDelayResp`. -/
def msgUnpackDelayResp (buf : List UInt8) : MsgResp := unpackResp buf

/-- `msgUnpackPDelayResp`. -/
def msgUnpackPDelayResp (buf : List UInt8) : MsgResp := unpackResp buf

/-- `msgUnpackPDelayRespFollowUp`. -/
def msgUnpackPDelayRespFollowUp (buf : List UInt8) : MsgResp := unpackResp buf

/-- `msgPackHeader`. -/
def msgPackHeader (c : PtpClock) (buf : List UInt8) : List UInt8 :=
  let buf := store8 0 0x80 buf
  let buf := store8 1 c.portDS.versionNumber buf
  let buf := store8 4 c.defaultDS.domainNumber buf
  let buf := if c.defaultDS.twoStepFlag then store8 6 flag0TwoStep buf else buf
  let buf := memset0 8 8 buf
  let buf := storeBytes 20 c.portDS.portIdentity.clockIdentity.toList buf
  let buf := store16 28 c.portDS.portIdentity.portNumber.toUInt16 buf
  store8 33 0x7F buf

/-- The message type in the low half of the first byte. -/
def packType (type : MsgType) (buf : List UInt8) : List UInt8 :=
  let buf := store8 0 (load8 buf 0 &&& 0xF0) buf
  store8 0 (load8 buf 0 ||| type.code) buf

/-- The timestamp behind the header. -/
def packTimestamp (t : Timestamp) (buf : List UInt8) : List UInt8 :=
  let buf := store16 34 t.secondsField.msb buf
  let buf := store32 36 t.secondsField.lsb buf
  store32 40 t.nanosecondsField buf

/-- A port identity at an offset. -/
def packIdentity (off : Nat) (p : PortIdentity) (buf : List UInt8) : List UInt8 :=
  store16 (off + 8) p.portNumber.toUInt16 (storeBytes off p.clockIdentity.toList buf)

/-- The correction field of another message. -/
def packCorrection (correctionfield : Int64) (buf : List UInt8) : List UInt8 :=
  let buf := store32 8 (correctionfield >>> 32).toInt32.toUInt32 buf
  store32 12 correctionfield.toInt32.toUInt32 buf

/-- `msgPackAnnounce`. The clock quality is the local clock's, the priorities
    and the identity are the grandmaster's. -/
def msgPackAnnounce (c : PtpClock) (buf : List UInt8) : List UInt8 :=
  let buf := packType .announce buf
  let buf := store16 2 64 buf
  let buf := store16 30 c.sentAnnounceSequenceId.toUInt16 buf
  let buf := store8 32 0x05 buf
  let buf := store8 33 c.portDS.logAnnounceInterval.toUInt8 buf
  let buf := memset0 34 10 buf
  let buf := store16 44 c.timePropertiesDS.currentUtcOffset.toUInt16 buf
  let buf := store8 47 c.parentDS.grandmasterPriority1 buf
  let buf := store8 48 c.defaultDS.clockQuality.clockClass buf
  let buf := store8 49 c.defaultDS.clockQuality.clockAccuracy buf
  let buf := store16 50 c.defaultDS.clockQuality.offsetScaledLogVariance.toUInt16 buf
  let buf := store8 52 c.parentDS.grandmasterPriority2 buf
  let buf := storeBytes 53 c.parentDS.grandmasterIdentity.toList buf
  let buf := store16 61 c.currentDS.stepsRemoved.toUInt16 buf
  store8 63 c.timePropertiesDS.timeSource buf

/-- `msgPackSync`. -/
def msgPackSync (c : PtpClock) (buf : List UInt8) (originTimestamp : Timestamp) : List UInt8 :=
  let buf := packType .sync buf
  let buf := store16 2 44 buf
  let buf := store16 30 c.sentSyncSequenceId.toUInt16 buf
  let buf := store8 32 0x00 buf
  let buf := store8 33 c.portDS.logSyncInterval.toUInt8 buf
  let buf := memset0 8 8 buf
  packTimestamp originTimestamp buf

/-- `msgPackDelayReq`. -/
def msgPackDelayReq (c : PtpClock) (buf : List UInt8) (originTimestamp : Timestamp) :
    List UInt8 :=
  let buf := packType .delayReq buf
  let buf := store16 2 44 buf
  let buf := store16 30 c.sentDelayReqSequenceId.toUInt16 buf
  let buf := store8 32 0x01 buf
  let buf := store8 33 0x7F buf
  let buf := memset0 8 8 buf
  packTimestamp originTimestamp buf

/-- `msgPackFollowUp`. The sequence number has already been incremented by the
    Sync, and the correction field is left as it is. -/
def msgPackFollowUp (c : PtpClock) (buf : List UInt8) (preciseOriginTimestamp : Timestamp) :
    List UInt8 :=
  let buf := packType .followUp buf
  let buf := store16 2 44 buf
  let buf := store16 30 (c.sentSyncSequenceId - 1).toUInt16 buf
  let buf := store8 32 0x02 buf
  let buf := store8 33 c.portDS.logSyncInterval.toUInt8 buf
  packTimestamp preciseOriginTimestamp buf

/-- `msgPackDelayResp`. -/
def msgPackDelayResp (c : PtpClock) (buf : List UInt8) (header : MsgHeader)
    (receiveTimestamp : Timestamp) : List UInt8 :=
  let buf := packType .delayResp buf
  let buf := store16 2 54 buf
  let buf := memset0 8 8 buf
  let buf := packCorrection header.correctionfield buf
  let buf := store16 30 header.sequenceId.toUInt16 buf
  let buf := store8 32 0x03 buf
  let buf := store8 33 c.portDS.logMinDelayReqInterval.toUInt8 buf
  let buf := packTimestamp receiveTimestamp buf
  packIdentity 44 header.sourcePortIdentity buf

/-- `msgPackPDelayReq`. -/
def msgPackPDelayReq (c : PtpClock) (buf : List UInt8) (originTimestamp : Timestamp) :
    List UInt8 :=
  let buf := packType .pDelayReq buf
  let buf := store16 2 54 buf
  let buf := store16 30 c.sentPDelayReqSequenceId.toUInt16 buf
  let buf := store8 32 0x05 buf
  let buf := store8 33 0x7F buf
  let buf := memset0 8 8 buf
  let buf := packTimestamp originTimestamp buf
  memset0 44 10 buf

/-- `msgPackPDelayResp`. -/
def msgPackPDelayResp (buf : List UInt8) (header : MsgHeader)
    (requestReceiptTimestamp : Timestamp) : List UInt8 :=
  let buf := packType .pDelayResp buf
  let buf := store16 2 54 buf
  let buf := memset0 8 8 buf
  let buf := store16 30 header.sequenceId.toUInt16 buf
  let buf := store8 32 0x05 buf
  let buf := store8 33 0x7F buf
  let buf := packTimestamp requestReceiptTimestamp buf
  packIdentity 44 header.sourcePortIdentity buf

/-- `msgPackPDelayRespFollowUp`. -/
def msgPackPDelayRespFollowUp (buf : List UInt8) (header : MsgHeader)
    (responseOriginTimestamp : Timestamp) : List UInt8 :=
  let buf := packType .pDelayRespFollowUp buf
  let buf := store16 2 54 buf
  let buf := store16 30 header.sequenceId.toUInt16 buf
  let buf := store8 32 0x05 buf
  let buf := store8 33 0x7F buf
  let buf := packCorrection header.correctionfield buf
  let buf := packTimestamp responseOriginTimestamp buf
  packIdentity 44 header.sourcePortIdentity buf

section Lengths

variable (buf : List UInt8)

@[simp] theorem length_packType (type : MsgType) : (packType type buf).length = buf.length := by
  simp only [packType, length_store8]

@[simp] theorem length_packTimestamp (t : Timestamp) :
    (packTimestamp t buf).length = buf.length := by
  simp only [packTimestamp, length_store16, length_store32]

@[simp] theorem length_packIdentity (off : Nat) (p : PortIdentity) :
    (packIdentity off p buf).length = buf.length := by
  simp only [packIdentity, length_store16, length_storeBytes]

@[simp] theorem length_packCorrection (x : Int64) : (packCorrection x buf).length = buf.length := by
  simp only [packCorrection, length_store32]

variable (c : PtpClock) (h : MsgHeader) (t : Timestamp)

@[simp] theorem length_msgPackHeader : (msgPackHeader c buf).length = buf.length := by
  simp only [msgPackHeader, length_store8, length_store16, length_storeBytes, length_memset0]
  split
  · rw [length_store8, length_store8, length_store8, length_store8]
  · rw [length_store8, length_store8, length_store8]

@[simp] theorem length_msgPackAnnounce : (msgPackAnnounce c buf).length = buf.length := by
  simp only [msgPackAnnounce, length_store8, length_store16, length_storeBytes, length_memset0,
    length_packType]

@[simp] theorem length_msgPackSync : (msgPackSync c buf t).length = buf.length := by
  simp only [msgPackSync, length_packTimestamp, length_memset0, length_store8, length_store16,
    length_packType]

@[simp] theorem length_msgPackDelayReq : (msgPackDelayReq c buf t).length = buf.length := by
  simp only [msgPackDelayReq, length_packTimestamp, length_memset0, length_store8, length_store16,
    length_packType]

@[simp] theorem length_msgPackFollowUp : (msgPackFollowUp c buf t).length = buf.length := by
  simp only [msgPackFollowUp, length_packTimestamp, length_store8, length_store16, length_packType]

@[simp] theorem length_msgPackDelayResp : (msgPackDelayResp c buf h t).length = buf.length := by
  simp only [msgPackDelayResp, length_packIdentity, length_packTimestamp, length_packCorrection,
    length_memset0, length_store8, length_store16, length_packType]

@[simp] theorem length_msgPackPDelayReq : (msgPackPDelayReq c buf t).length = buf.length := by
  simp only [msgPackPDelayReq, length_packTimestamp, length_memset0, length_store8, length_store16,
    length_packType]

@[simp] theorem length_msgPackPDelayResp : (msgPackPDelayResp buf h t).length = buf.length := by
  simp only [msgPackPDelayResp, length_packIdentity, length_packTimestamp, length_memset0,
    length_store8, length_store16, length_packType]

@[simp] theorem length_msgPackPDelayRespFollowUp :
    (msgPackPDelayRespFollowUp buf h t).length = buf.length := by
  simp only [msgPackPDelayRespFollowUp, length_packIdentity, length_packTimestamp,
    length_packCorrection, length_store8, length_store16, length_packType]

end Lengths

theorem loadIdentity_storeBytes_self (buf : List UInt8) (off : Nat) (p : ClockIdentity)
    (h : off + 8 ≤ buf.length) : loadIdentity (storeBytes off p.toList buf) off = p := by
  apply Vector.ext
  intro k hk
  have hlen : k < p.toList.length := by rwa [Vector.length_toList]
  rw [loadIdentity, Vector.getElem_ofFn, load8_storeBytes_add _ _ _ _ hlen (by omega),
    List.getD_eq_getElem?_getD, List.getElem?_eq_getElem hlen, Option.getD_some,
    Vector.getElem_toList]

theorem loadIdentity_congr {buf buf' : List UInt8} {off : Nat}
    (h : ∀ k, k < 8 → load8 buf (off + k) = load8 buf' (off + k)) :
    loadIdentity buf off = loadIdentity buf' off := by
  apply Vector.ext
  intro k hk
  rw [loadIdentity, loadIdentity, Vector.getElem_ofFn, Vector.getElem_ofFn, h k hk]

theorem loadIdentity_take (buf : List UInt8) (n off : Nat) (h : off + 8 ≤ n) :
    loadIdentity (buf.take n) off = loadIdentity buf off :=
  loadIdentity_congr fun k hk => load8_take _ _ _ (by omega)

theorem loadIdentity_store8_ne (buf : List UInt8) (off k : Nat) (v : UInt8)
    (h : off < k ∨ k + 8 ≤ off) : loadIdentity (store8 off v buf) k = loadIdentity buf k :=
  loadIdentity_congr fun j hj => load8_store8_ne _ _ _ _ (by omega)

theorem loadIdentity_store16_ne (buf : List UInt8) (off k : Nat) (v : UInt16)
    (h : off + 2 ≤ k ∨ k + 8 ≤ off) : loadIdentity (store16 off v buf) k = loadIdentity buf k :=
  loadIdentity_congr fun j hj => load8_store16_ne _ _ _ _ (by omega)

theorem loadIdentity_store32_ne (buf : List UInt8) (off k : Nat) (v : UInt32)
    (h : off + 4 ≤ k ∨ k + 8 ≤ off) : loadIdentity (store32 off v buf) k = loadIdentity buf k :=
  loadIdentity_congr fun j hj => load8_store32_ne _ _ _ _ (by omega)

theorem loadIdentity_memset0_ne (buf : List UInt8) (off n k : Nat)
    (h : off + n ≤ k ∨ k + 8 ≤ off) : loadIdentity (memset0 off n buf) k = loadIdentity buf k :=
  loadIdentity_congr fun j hj => load8_memset0_ne _ _ _ _ (by omega)

theorem load8_storeIdentity_ne (buf : List UInt8) (off k : Nat) (p : ClockIdentity)
    (h : k < off ∨ off + 8 ≤ k) : load8 (storeBytes off p.toList buf) k = load8 buf k :=
  load8_storeBytes_ne _ _ _ _ (by rwa [Vector.length_toList])

theorem load16_storeIdentity_ne (buf : List UInt8) (off k : Nat) (p : ClockIdentity)
    (h : off + 8 ≤ k ∨ k + 2 ≤ off) : load16 (storeBytes off p.toList buf) k = load16 buf k :=
  load16_storeBytes_ne _ _ _ (by rwa [Vector.length_toList])

theorem load32_storeIdentity_ne (buf : List UInt8) (off k : Nat) (p : ClockIdentity)
    (h : off + 8 ≤ k ∨ k + 4 ≤ off) : load32 (storeBytes off p.toList buf) k = load32 buf k :=
  load32_storeBytes_ne _ _ _ (by rwa [Vector.length_toList])

/-- What a packed Announce says of the grandmaster, read back from the bytes. -/
theorem msgUnpackAnnounce_msgPackAnnounce (c : PtpClock) (buf : List UInt8)
    (h : MsgType.announce.length ≤ buf.length) :
    (msgUnpackAnnounce ((msgPackAnnounce c buf).take MsgType.announce.length)).grandmasterIdentity
        = c.parentDS.grandmasterIdentity ∧
      (msgUnpackAnnounce ((msgPackAnnounce c buf).take
        MsgType.announce.length)).grandmasterPriority1 = c.parentDS.grandmasterPriority1 ∧
      (msgUnpackAnnounce ((msgPackAnnounce c buf).take
        MsgType.announce.length)).grandmasterPriority2 = c.parentDS.grandmasterPriority2 ∧
      (msgUnpackAnnounce ((msgPackAnnounce c buf).take MsgType.announce.length)).stepsRemoved
        = c.currentDS.stepsRemoved := by
  have hlen : MsgType.announce.length = 64 := rfl
  rw [hlen] at h ⊢
  simp only [msgUnpackAnnounce, msgPackAnnounce]
  refine ⟨?_, ?_, ?_, ?_⟩
  · rw [loadIdentity_take _ _ _ (by omega), loadIdentity_store8_ne _ _ _ _ (by omega),
      loadIdentity_store16_ne _ _ _ _ (by omega), loadIdentity_storeBytes_self]
    simp only [length_store8, length_store16, length_memset0, length_packType]
    omega
  · rw [load8_take _ _ _ (by omega)]
    simp (disch := omega) only [load8_store8_ne, load8_store16_ne]
    rw [load8_storeBytes_ne _ _ _ _ (by omega)]
    simp (disch := omega) only [load8_store8_ne, load8_store16_ne]
    rw [load8_store8_self]
    simp only [length_store8, length_store16, length_memset0, length_packType]
    omega
  · rw [load8_take _ _ _ (by omega)]
    simp (disch := omega) only [load8_store8_ne, load8_store16_ne]
    rw [load8_storeBytes_ne _ _ _ _ (by omega), load8_store8_self]
    simp only [length_store8, length_store16, length_memset0, length_packType]
    omega
  · rw [load16, load8_take _ _ _ (by omega), load8_take _ _ _ (by omega),
      load8_store8_ne _ _ _ _ (by omega), load8_store8_ne _ _ _ _ (by omega), ← load16,
      load16_store16_self]
    · exact Int16.ofBitVec_toBitVec _
    · simp only [length_store8, length_store16, length_memset0, length_packType, length_storeBytes]
      omega

end Ptp

end RtosLwip
