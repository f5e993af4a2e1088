import Mathlib.Data.List.GetD
import RtosLwip.Base.Memcpy
import RtosLwip.Flash.Transfer
import RtosLwip.Http.Post

/-!
# WebSocket Frames

`httpWebSocket.c`: a frame that arrives on a connection is unmasked in the first
buffer of its chain, copied into `mhc->data`, terminated with a NUL, and the
frame that answers it is put together in `mhc->data` as well.

A byte may only be read or written in a buffer of the chain or in `mhc->data`. An
access outside of them is an answer `none`, and nothing else is one, so
`parseFrame_isSome_iff` tells the frames that are handled within their buffers:
the length that the frame gives is compared with the length of the whole chain,
but the first buffer has to hold the frame, and `mhc->data` has to hold its
payload and the NUL.

## Main definitions

* `WsConn`: What of a connection the frames use.
* `loadAt`, `storeAt`, `ReqBuf.store`, `ReqBuf.fill`, `ReqBuf.move`: The accesses.
* `unmask`: The loop that unmasks the payload.
* `extHttpWebSocketWrite`, `extHttpWebSocketParseFrame`: The functions of the
  source.
* `Answers`: The frame is one that is unmasked and answered.
* `Holds`: The buffers hold what the frame says.

## Theorems

* `unmask_isSome_iff`: What the loop needs.
* `extHttpWebSocketWrite_eq`: The answer stays within its buffer.
* `parseFrame_isSome_iff`: The frames that are handled within their buffers.
-/

namespace RtosLwip

namespace Http

open Flash

/-- `MuxHttpConn`, as far as the frames of a WebSocket use it. -/
structure WsConn where
  data : ReqBuf
  dataSendIndex : Nat
  httpStatusCode : Nat
  retries : Nat

/-- What `extHttpWebSocketParseFrame` answers: the frame was parsed, the client closes
    the connection, or it is not a frame. -/
inductive WsErr where
  | ok
  | clsd
  | val
  deriving DecidableEq

section Accesses

/-- Read a byte of a buffer. -/
def loadAt (mem : List UInt8) (i : Nat) : Option UInt8 := mem[i]?

/-- Write a byte of a buffer. -/
def storeAt (mem : List UInt8) (i : Nat) (b : UInt8) : Option (List UInt8) :=
  if i < mem.length then some (mem.set i b) else none

/-- Write a byte of `mhc->data`. -/
def ReqBuf.store (b : ReqBuf) (i : Nat) (v : UInt8) : Option ReqBuf :=
  if i < maxReqLength then some ⟨b.bytes.set i v, by rw [List.length_set, b.length_bytes]⟩
  else none

/-- Copy bytes to the beginning of `mhc->data`. -/
def ReqBuf.fill (b : ReqBuf) (src : List UInt8) : Option ReqBuf :=
  if src.length ≤ maxReqLength then some (b.copy 0 src) else none

/-- `memcpy` from the beginning of `mhc->data` to a place in it. -/
def ReqBuf.move (m : Memcpy) (b : ReqBuf) (dst n : Nat) : Option ReqBuf :=
  if dst + n ≤ maxReqLength then
    some ⟨m.copy b.bytes dst 0 n, by rw [m.length_copy, b.length_bytes]⟩
  else none

end Accesses

/-- `EXT_WS_FRAME_FLAG_FIN` -/
def wsFrameFlagFin : UInt8 := 0x80

/-- `EXT_WS_CODE_TEXT` -/
def wsCodeText : UInt8 := 1

/-- `EXT_WS_CODE_BINARY` -/
def wsCodeBinary : UInt8 := 2

/-- `EXT_WS_CODE_CLOSE` -/
def wsCodeClose : UInt8 := 8

/-- `TCP_WRITE_FLAG_COPY`, which is passed as the code of the answer. -/
def tcpWriteFlagCopy : UInt8 := 1

/-- `extHttpWebSocketWrite`, where `data` is the beginning of `mhc->data`, as its only
    caller has it. -/
def extHttpWebSocketWrite (m : Memcpy) (mhc : WsConn) (len : Nat) (opCode : UInt8) :
    Option WsConn := do
  let buf ← mhc.data.store 0 (wsFrameFlagFin ||| opCode)
  let offset := if 125 < len then 4 else 2
  let buf ←
    if 125 < len then do
      let buf ← buf.store 1 126
      let buf ← buf.store 2 (len / 256).toUInt8
      buf.store 3 len.toUInt8
    else buf.store 1 len.toUInt8
  let size := if maxReqLength < offset + len then maxReqLength - offset else len
  let buf ← buf.move m offset size
  some { mhc with data := buf, dataSendIndex := offset + size, httpStatusCode := 200 }

/-- The loop that unmasks `n` bytes from `dptr` on, the next of them with the byte of the
    mask that `i` stands for. -/
def unmask (kptr : Nat) : Nat → Nat → Nat → List UInt8 → Option (List UInt8)
  | 0, _, _, data => some data
  | n + 1, dptr, i, data => do
    let k ← loadAt data (kptr + i % 4)
    let d ← loadAt data dptr
    let data ← storeAt data dptr (d ^^^ k)
    unmask kptr n (dptr + 1) (i + 1) data

/-- The payload is unmasked, copied, terminated and answered. -/
def answerPayload (m : Memcpy) (mhc : WsConn) (data : List UInt8) (next : List (List UInt8))
    (dataOffset payloadLen : Nat) : Option (WsErr × WsConn × List UInt8) := do
  let data ← unmask (dataOffset - 4) payloadLen dataOffset 0 data
  let copied := pbufCopyPartial (data :: next) payloadLen dataOffset
  let buf ← mhc.data.fill copied
  let buf ← buf.store copied.length 0
  let mhc ← extHttpWebSocketWrite m { mhc with data := buf } payloadLen tcpWriteFlagCopy
  return (.ok, mhc, data)

/-- What is done with a text or with binary data: `data` is the first buffer, `next` the
    others. A buffer of at most six bytes is not looked at. -/
def answerFrame (m : Memcpy) (mhc : WsConn) (data : List UInt8) (next : List (List UInt8)) :
    Option (WsErr × WsConn × List UInt8) := do
  if data.length ≤ 6 then
    return (.ok, mhc, data)
  let b ← loadAt data 1
  let code := b &&& 0x7F
  if code = 127 then
    return (.ok, mhc, data)
  -- the length in 16 bits stands before the mask
  let dataOffset := if code = 126 then 8 else 6
  let payloadLen ←
    if code = 126 then do
      let high ← loadAt data 2
      let low ← loadAt data 3
      some (high.toNat * 256 + low.toNat)
    else some code.toNat
  if data.length + next.flatten.length < payloadLen then
    return (.val, mhc, data)
  answerPayload m mhc data next dataOffset payloadLen

/-- `extHttpWebSocketParseFrame` for a chain with its first buffer and the others: the
    answer, the connection and the first buffer. -/
def extHttpWebSocketParseFrame (m : Memcpy) (mhc : WsConn) (data : List UInt8)
    (next : List (List UInt8)) : Option (WsErr × WsConn × List UInt8) := do
  if data.length + next.flatten.length ≤ 1 then
    return (.val, mhc, data)
  let b ← loadAt data 0
  -- continuation frames are not supported
  if b &&& wsFrameFlagFin = 0 then
    return (.ok, mhc, data)
  let opcode := b &&& 0x0F
  if opcode = wsCodeText ∨ opcode = wsCodeBinary then
    answerFrame m mhc data next
  else if opcode = wsCodeClose then
    return (.clsd, mhc, data)
  else
    return (.ok, mhc, data)

section Conditions

variable (data : List UInt8) (next : List (List UInt8))

/-- The lower seven bits of the second byte. -/
def lengthCode : UInt8 := data.getD 1 0 &&& 0x7F

/-- Where the payload begins. -/
def payloadOffset : Nat := if lengthCode data = 126 then 8 else 6

/-- The length that the frame gives. -/
def payloadLength : Nat :=
  if lengthCode data = 126 then (data.getD 2 0).toNat * 256 + (data.getD 3 0).toNat
  else (lengthCode data).toNat

/-- The frame is one that is unmasked and answered. -/
def Answers : Prop :=
  6 < data.length ∧ data.getD 0 0 &&& wsFrameFlagFin ≠ 0 ∧
    (data.getD 0 0 &&& 0x0F = wsCodeText ∨ data.getD 0 0 &&& 0x0F = wsCodeBinary) ∧
    lengthCode data ≠ 127 ∧ payloadLength data ≤ data.length + next.flatten.length

/-- The first buffer holds the frame, and `mhc->data` the payload and a NUL. -/
def Holds : Prop :=
  payloadLength data = 0 ∨
    payloadOffset data + payloadLength data ≤ data.length ∧ payloadLength data < maxReqLength

instance : Decidable (Answers data next) := inferInstanceAs (Decidable (_ ∧ _))

instance : Decidable (Holds data) := inferInstanceAs (Decidable (_ ∨ _))

end Conditions

theorem loadAt_of_lt {mem : List UInt8} {i : Nat} (h : i < mem.length) :
    loadAt mem i = some (mem.getD i 0) := by
  rw [loadAt, List.getElem?_eq_getElem h, List.getD_eq_getElem _ _ h]

theorem loadAt_of_le {mem : List UInt8} {i : Nat} (h : mem.length ≤ i) : loadAt mem i = none :=
  List.getElem?_eq_none h

/-- One round of the loop. -/
theorem unmask_succ_of_lt {kptr n dptr i : Nat} {data : List UInt8} (hkey : kptr + 4 ≤ dptr)
    (h : dptr < data.length) :
    unmask kptr (n + 1) dptr i data = unmask kptr n (dptr + 1) (i + 1)
      (data.set dptr (data.getD dptr 0 ^^^ data.getD (kptr + i % 4) 0)) := by
  have hmod : i % 4 < 4 := Nat.mod_lt i (by decide)
  rw [unmask, loadAt_of_lt (by omega : kptr + i % 4 < data.length), loadAt_of_lt h]
  simp only [Option.bind_eq_bind, Option.bind_some, storeAt, if_pos h]

/-- The loop ends when the first buffer does. -/
theorem unmask_succ_of_le {kptr n dptr i : Nat} {data : List UInt8} (h : data.length ≤ dptr) :
    unmask kptr (n + 1) dptr i data = none := by
  rw [unmask, loadAt_of_le h]
  cases loadAt data (kptr + i % 4) <;> rfl

/-- The loop needs the whole payload in the first buffer. -/
theorem unmask_isSome_iff {kptr n dptr i : Nat} {data : List UInt8} (hkey : kptr + 4 ≤ dptr) :
    (unmask kptr n dptr i data).isSome ↔ n = 0 ∨ dptr + n ≤ data.length := by
  induction n generalizing dptr i data with
  | zero => exact iff_of_true rfl (.inl rfl)
  | succ n ih =>
      by_cases h : dptr < data.length
      · rw [unmask_succ_of_lt hkey h, ih (by omega), List.length_set]
        omega
      · rw [unmask_succ_of_le (Nat.le_of_not_lt h)]
        simp only [Option.isSome_none, Bool.false_eq_true, false_iff]
        omega

/-- The loop leaves the length of the buffer. -/
theorem length_unmask {kptr n dptr i : Nat} {data data' : List UInt8} (hkey : kptr + 4 ≤ dptr)
    (h : unmask kptr n dptr i data = some data') : data'.length = data.length := by
  induction n generalizing dptr i data with
  | zero => rw [Option.some.inj h]
  | succ n ih =>
      by_cases hlt : dptr < data.length
      · rw [unmask_succ_of_lt hkey hlt] at h
        rw [ih (by omega) h, List.length_set]
      · rw [unmask_succ_of_le (Nat.le_of_not_lt hlt)] at h
        exact nomatch h

theorem ReqBuf.store_of_lt (b : ReqBuf) {i : Nat} (h : i < maxReqLength) (v : UInt8) :
    b.store i v = some ⟨b.bytes.set i v, by rw [List.length_set, b.length_bytes]⟩ :=
  if_pos h

/-- The header of the answer. -/
def replyHeader (len : Nat) (opCode : UInt8) : List UInt8 :=
  if 125 < len then [wsFrameFlagFin ||| opCode, 126, (len / 256).toUInt8, len.toUInt8]
  else [wsFrameFlagFin ||| opCode, len.toUInt8]

/-- How much of the payload the answer holds. -/
def replySize (len : Nat) (opCode : UInt8) : Nat :=
  if maxReqLength < (replyHeader len opCode).length + len then
    maxReqLength - (replyHeader len opCode).length
  else len

theorem length_replyHeader (len : Nat) (opCode : UInt8) :
    (replyHeader len opCode).length = if 125 < len then 4 else 2 := by
  unfold replyHeader
  split <;> rfl

theorem replySize_fits (len : Nat) (opCode : UInt8) :
    (replyHeader len opCode).length + replySize len opCode ≤ maxReqLength := by
  have hmax : maxReqLength = 3072 := rfl
  unfold replySize
  rw [length_replyHeader]
  split <;> split <;> omega

theorem set_two {l : List UInt8} (h : 2 ≤ l.length) (a b : UInt8) :
    (l.set 0 a).set 1 b = [a, b] ++ l.drop 2 := by
  rcases l with _ | ⟨x, _ | ⟨y, rest⟩⟩
  · exact absurd h (by simp)
  · exact absurd h (by simp)
  · rfl

theorem set_four {l : List UInt8} (h : 4 ≤ l.length) (a b c d : UInt8) :
    (((l.set 0 a).set 1 b).set 2 c).set 3 d = [a, b, c, d] ++ l.drop 4 := by
  have htail : 2 ≤ (l.drop 2).length := by
    rw [List.length_drop]
    omega
  rw [set_two (by omega)]
  simp only [List.cons_append, List.nil_append, List.set_cons_succ]
  rw [set_two htail, List.drop_drop]
  rfl

/-- The answer is put together within `mhc->data`, however long the payload is: its header
    is written over the beginning of the payload, and then the payload is copied. -/
theorem extHttpWebSocketWrite_eq (m : Memcpy) (mhc : WsConn) (len : Nat) (opCode : UInt8) :
    ∃ buf : ReqBuf, extHttpWebSocketWrite m mhc len opCode = some { mhc with
        data := buf
        dataSendIndex := (replyHeader len opCode).length + replySize len opCode
        httpStatusCode := 200 } ∧
      buf.bytes = m.copy
        (replyHeader len opCode ++ mhc.data.bytes.drop (replyHeader len opCode).length)
        (replyHeader len opCode).length 0 (replySize len opCode) := by
  have hlen : mhc.data.bytes.length = 3072 := mhc.data.length_bytes
  have hmax : maxReqLength = 3072 := rfl
  have hfit := replySize_fits len opCode
  have hsize : (if maxReqLength < (replyHeader len opCode).length + len then
      maxReqLength - (replyHeader len opCode).length else len) = replySize len opCode := rfl
  by_cases h : 125 < len
  · have hheader : replyHeader len opCode = [wsFrameFlagFin ||| opCode, 126,
      (len / 256).toUInt8, len.toUInt8] := if_pos h
    have hbytes := set_four (by omega : 4 ≤ mhc.data.bytes.length) (wsFrameFlagFin ||| opCode) 126
      (len / 256).toUInt8 len.toUInt8
    have hfour : (replyHeader len opCode).length = 4 := by rw [hheader]; rfl
    rw [hfour] at hfit hsize
    rw [hfour, hheader]
    refine ⟨⟨_, ?_⟩, ?_, rfl⟩
    · rw [m.length_copy, ← hbytes]
      simp only [List.length_set, hlen, hmax]
    · simp only [extHttpWebSocketWrite, if_pos h,
        ReqBuf.store_of_lt _ (by decide : 0 < maxReqLength),
        ReqBuf.store_of_lt _ (by decide : 1 < maxReqLength),
        ReqBuf.store_of_lt _ (by decide : 2 < maxReqLength),
        ReqBuf.store_of_lt _ (by decide : 3 < maxReqLength), Option.bind_eq_bind,
        Option.bind_some, hsize, ReqBuf.move, if_pos hfit, hbytes]
  · have hheader : replyHeader len opCode = [wsFrameFlagFin ||| opCode, len.toUInt8] := if_neg h
    have hbytes := set_two (by omega : 2 ≤ mhc.data.bytes.length) (wsFrameFlagFin ||| opCode)
      len.toUInt8
    have htwo : (replyHeader len opCode).length = 2 := by rw [hheader]; rfl
    rw [htwo] at hfit hsize
    rw [htwo, hheader]
    refine ⟨⟨_, ?_⟩, ?_, rfl⟩
    · rw [m.length_copy, ← hbytes]
      simp only [List.length_set, hlen, hmax]
    · simp only [extHttpWebSocketWrite, if_neg h,
        ReqBuf.store_of_lt _ (by decide : 0 < maxReqLength),
        ReqBuf.store_of_lt _ (by decide : 1 < maxReqLength), Option.bind_eq_bind,
        Option.bind_some, hsize, ReqBuf.move, if_pos hfit, hbytes]

/-- A payload that the first buffer holds is copied as a whole. -/
theorem length_copied {data : List UInt8} (next : List (List UInt8)) {offset n : Nat}
    (h : n = 0 ∨ offset + n ≤ data.length) :
    (pbufCopyPartial (data :: next) n offset).length = n := by
  rw [pbufCopyPartial_eq, List.flatten_cons, List.length_take, List.length_drop,
    List.length_append]
  omega

theorem answerPayload_isSome_iff (m : Memcpy) (mhc : WsConn) (data : List UInt8)
    (next : List (List UInt8)) {dataOffset payloadLen : Nat} (h : 4 ≤ dataOffset) :
    (answerPayload m mhc data next dataOffset payloadLen).isSome ↔
      payloadLen = 0 ∨ dataOffset + payloadLen ≤ data.length ∧ payloadLen < maxReqLength := by
  have hkey : dataOffset - 4 + 4 ≤ dataOffset := by omega
  have hunmask : (unmask (dataOffset - 4) payloadLen dataOffset 0 data).isSome ↔
    payloadLen = 0 ∨ dataOffset + payloadLen ≤ data.length := unmask_isSome_iff hkey
  unfold answerPayload
  rcases hdata : unmask (dataOffset - 4) payloadLen dataOffset 0 data with _ | data'
  · rw [hdata] at hunmask
    simp only [Option.isSome_none, Bool.false_eq_true, false_iff] at hunmask
    simp only [Option.bind_eq_bind, Option.bind_none, Option.isSome_none, Bool.false_eq_true,
      false_iff]
    omega
  · rw [hdata] at hunmask
    have hfirst := hunmask.mp rfl
    have hcopied := length_copied next (length_unmask hkey hdata ▸ hfirst)
    simp only [Option.bind_eq_bind, Option.bind_some, ReqBuf.fill, hcopied]
    -- The buffer of the connection holds the payload, and then the NUL.
    by_cases hnul : payloadLen < maxReqLength
    · rw [if_pos (Nat.le_of_lt hnul), Option.bind_some, ReqBuf.store_of_lt _ hnul,
        Option.bind_some]
      rcases extHttpWebSocketWrite_eq m _ payloadLen tcpWriteFlagCopy with ⟨buf, heq, -⟩
      rw [heq]
      exact iff_of_true rfl (hfirst.imp_right fun hin => ⟨hin, hnul⟩)
    · have hpos : 0 < maxReqLength := by decide
      refine iff_of_false ?_ (by omega)
      split
      · rw [Option.bind_some, ReqBuf.store, if_neg hnul]
        exact Bool.false_ne_true
      · exact Bool.false_ne_true

/-- What is done with a frame, by what its second byte says. -/
theorem answerFrame_eq (m : Memcpy) (mhc : WsConn) {data : List UInt8}
    (next : List (List UInt8)) (hlen : 6 < data.length) :
    answerFrame m mhc data next =
      if lengthCode data = 127 then some (.ok, mhc, data)
      else if data.length + next.flatten.length < payloadLength data then some (.val, mhc, data)
      else answerPayload m mhc data next (payloadOffset data) (payloadLength data) := by
  unfold answerFrame payloadLength payloadOffset lengthCode
  rw [if_neg (by omega), loadAt_of_lt (by omega : 1 < data.length),
    loadAt_of_lt (by omega : 2 < data.length), loadAt_of_lt (by omega : 3 < data.length)]
  simp only [Option.bind_eq_bind, Option.bind_some, Option.pure_def]
  by_cases hcode : data.getD 1 0 &&& 0x7F = 126
  · simp only [hcode, if_true]
  · simp only [hcode, if_false]

/-- What is done with a frame, by what its first byte says. -/
theorem parseFrame_eq (m : Memcpy) (mhc : WsConn) {data : List UInt8} (next : List (List UInt8))
    (hlen : 1 < data.length + next.flatten.length) (hne : data ≠ []) :
    extHttpWebSocketParseFrame m mhc data next =
      if data.getD 0 0 &&& wsFrameFlagFin = 0 then some (.ok, mhc, data)
      else if data.getD 0 0 &&& 0x0F = wsCodeText ∨ data.getD 0 0 &&& 0x0F = wsCodeBinary then
        answerFrame m mhc data next
      else if data.getD 0 0 &&& 0x0F = wsCodeClose then some (.clsd, mhc, data)
      else some (.ok, mhc, data) := by
  unfold extHttpWebSocketParseFrame
  rw [if_neg (by omega), loadAt_of_lt (List.length_pos_of_ne_nil hne)]
  rfl

/-- What is done with a frame that is answered. -/
theorem parseFrame_of_answers (m : Memcpy) (mhc : WsConn) {data : List UInt8}
    {next : List (List UInt8)} (h : Answers data next) :
    extHttpWebSocketParseFrame m mhc data next =
      answerPayload m mhc data next (payloadOffset data) (payloadLength data) := by
  rcases h with ⟨hlen, hfin, hopcode, hcode, htotal⟩
  have hne : data ≠ [] := by
    rintro rfl
    exact absurd hlen (by decide)
  rw [parseFrame_eq m mhc next (by omega) hne, if_neg hfin, if_pos hopcode,
    answerFrame_eq m mhc next hlen, if_neg hcode, if_neg (by omega)]

/-- A frame that is not answered is left alone. -/
theorem parseFrame_of_not_answers (m : Memcpy) (mhc : WsConn) {data : List UInt8}
    {next : List (List UInt8)} (hne : data ≠ []) (h : ¬ Answers data next) :
    ∃ err, extHttpWebSocketParseFrame m mhc data next = some (err, mhc, data) := by
  by_cases hlen : data.length + next.flatten.length ≤ 1
  · exact ⟨.val, if_pos hlen⟩
  rw [parseFrame_eq m mhc next (by omega) hne]
  by_cases hfin : data.getD 0 0 &&& wsFrameFlagFin = 0
  · exact ⟨.ok, if_pos hfin⟩
  rw [if_neg hfin]
  by_cases hopcode : data.getD 0 0 &&& 0x0F = wsCodeText ∨ data.getD 0 0 &&& 0x0F = wsCodeBinary
  · rw [if_pos hopcode]
    by_cases hshort : data.length ≤ 6
    · exact ⟨.ok, if_pos hshort⟩
    rw [answerFrame_eq m mhc next (by omega)]
    by_cases hcode : lengthCode data = 127
    · exact ⟨.ok, if_pos hcode⟩
    · have hlong : data.length + next.flatten.length < payloadLength data :=
        Nat.lt_of_not_le fun hle => h ⟨by omega, hfin, hopcode, hcode, hle⟩
      exact ⟨.val, by rw [if_neg hcode, if_pos hlong]⟩
  · rw [if_neg hopcode]
    split
    · exact ⟨.clsd, rfl⟩
    · exact ⟨.ok, rfl⟩

/-- A frame is handled within its buffers exactly if the first buffer has a byte to look
    at, and, if the frame is answered, the buffers hold what it says. -/
theorem parseFrame_isSome_iff (m : Memcpy) (mhc : WsConn) (data : List UInt8)
    (next : List (List UInt8)) :
    (extHttpWebSocketParseFrame m mhc data next).isSome ↔
      (1 < data.length + next.flatten.length → data ≠ []) ∧ (Answers data next → Holds data) := by
  by_cases hne : data = []
  · subst hne
    have hanswers : ¬ Answers [] next := fun h => absurd h.1 (by decide)
    simp only [hanswers, false_implies, and_true, ne_eq, not_true_eq_false, imp_false]
    by_cases hlen : ([] : List UInt8).length + next.flatten.length ≤ 1
    · exact iff_of_true (by rw [extHttpWebSocketParseFrame, if_pos hlen]; rfl) (by omega)
    · refine iff_of_false ?_ (by omega)
      rw [extHttpWebSocketParseFrame, if_neg hlen]
      exact Bool.false_ne_true
  · by_cases hanswers : Answers data next
    · have hoffset : 4 ≤ payloadOffset data := by
        unfold payloadOffset
        split <;> decide
      rw [parseFrame_of_answers m mhc hanswers, answerPayload_isSome_iff m mhc data next hoffset]
      exact ⟨fun h => ⟨fun _ => hne, fun _ => h⟩, fun h => h.2 hanswers⟩
    · rcases parseFrame_of_not_answers m mhc hne hanswers with ⟨err, heq⟩
      rw [heq]
      exact iff_of_true rfl ⟨fun _ => hne, fun h => absurd h hanswers⟩

/-- A frame of one byte, whose length says seven: the loop unmasks six bytes behind it. -/
theorem not_isSome_shortFrame :
    ¬ (extHttpWebSocketParseFrame .moving ⟨.zero, 0, 100, 0⟩ [0x81, 0x87, 1, 2, 3, 4, 5]
      []).isSome := by
  decide

end Http

end RtosLwip
