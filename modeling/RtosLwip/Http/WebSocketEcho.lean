import RtosLwip.Base.Run
import RtosLwip.Base.WsFrame
import RtosLwip.Http.FileSend
import RtosLwip.Http.Receive
import RtosLwip.Http.WebSocket

/-!
# Echoed Frames

What a client that sends frames to the server gets back: the WebSocket branches of
`__mhttpRecv` and of `extHttpSend`, with the callbacks that call them. A frame is
answered in `mhc->data`, and the callback for sent data and the poll put what stands
there into the queue of the connection, each time they come.

The answer should be the frame itself. Its header is written over the beginning of
the payload before the payload is copied, its code is that of a text for binary
data too, and the copy is a `memcpy` of overlapping places for a payload of more
than two bytes. What remains are the frames `Echoable`, in which the payload is
what the header of the answer writes over it.

No callback records that the answer was queued, and an answer that was not queued
yet is overwritten by the next. So of the runs with these frames the ones are left
in which exactly one callback takes each answer (`CanEcho`).

## Main definitions

* `ClientFrame`: A frame that a client sends.
* `WsState`, `WsEvent`, `wsStep`: The connection, and what happens to it.
* `WsState.dueAfter`: The frames that are to be answered behind a callback.
* `WsState.Echoed`: What is queued are the frames that are to be answered by now.
* `ClientFrame.Echoable`: The frames whose answer is the frame.
* `CanEcho`: The steps that keep the answers right.

## Theorems

* `parseFrame_bytes`: What a frame of a client leaves on the connection.
* `echoed_frame_iff`: The frames that are echoed.
* `echoed_run`: The runs in which the frames are echoed.
* `echoed_iff_and_run`: Both of them.
-/

namespace RtosLwip

namespace Http

open WsFrame

/-- The frames of a client that are answered. -/
inductive WsOpcode where
  | text
  | binary
  deriving DecidableEq

/-- `EXT_WS_CODE_TEXT` and `EXT_WS_CODE_BINARY`. -/
def WsOpcode.code : WsOpcode → UInt8
  | text => wsCodeText
  | binary => wsCodeBinary

/-- How a client writes the length of its payload. -/
inductive LengthForm where
  | bits7
  | bits16
  | bits64
  deriving DecidableEq

/-- A masked and final frame that a client sends, whose payload fits in `mhc->data`
    together with the header of its answer. -/
structure ClientFrame where
  opcode : WsOpcode
  form : LengthForm
  key : List UInt8
  payload : List UInt8
  length_key : key.length = 4
  short : form = .bits7 → payload.length ≤ 125
  fits : (replyHeader payload.length 0).length + payload.length ≤ maxReqLength

namespace ClientFrame

variable (f : ClientFrame)

/-- The header of a frame, up to its mask. -/
def header : List UInt8 :=
  match f.form with
  | .bits7 => [0x80 ||| f.opcode.code, 0x80 ||| f.payload.length.toUInt8]
  | .bits16 => [0x80 ||| f.opcode.code, 0x80 ||| 126, (f.payload.length / 256).toUInt8,
      f.payload.length.toUInt8]
  | .bits64 => [0x80 ||| f.opcode.code, 0x80 ||| 127, 0, 0, 0, 0, 0, 0,
      (f.payload.length / 256).toUInt8, f.payload.length.toUInt8]

/-- The bytes of a frame. -/
def bytes : List UInt8 := f.header ++ f.key ++ mask (f.key.getD · 0) 0 f.payload

/-- What a frame says. -/
def frame : Frame := ⟨f.opcode.code, f.payload⟩

/-- The frame is looked at. -/
def Supported : Prop := 6 < f.bytes.length ∧ f.form ≠ .bits64

/-- The frame is answered with the frame. -/
def Echoable : Prop :=
  f.opcode = .text ∧ f.form ≠ .bits64 ∧
    (f.payload = [] ∧ f.form = .bits16 ∨ f.payload = [0x81] ∨ f.payload = [0x81, 2])

instance : Decidable f.Supported := inferInstanceAs (Decidable (_ ∧ _))

instance : Decidable f.Echoable := inferInstanceAs (Decidable (_ ∧ _))

end ClientFrame

/-- The connection until it is closed, the bytes in its queue, the frames that have come, and
    those of them that are to be answered by now. -/
structure WsState where
  conn : Option WsConn
  queued : List UInt8
  received : List Frame
  due : List Frame

/-- How long the answer to a frame is. -/
def answerLength (f : Frame) : Nat := (replyHeader f.payload.length 0).length + f.payload.length

/-- The frames that are to be answered behind a callback: all that have come, unless the stack
    has no room for any of the last answer. -/
def WsState.dueAfter (s : WsState) (pcb : Pcb) : List Frame :=
  match s.received.getLast? with
  | none => s.received
  | some f => if (extHttpWrite pcb 0 (answerLength f)).2 = 0 then s.due else s.received

/-- What happens to the connection. -/
inductive WsEvent where
  /-- `__mhttpRecv`, with the frame in one buffer -/
  | frame (f : ClientFrame)
  /-- `__mhttpSent` -/
  | sent (pcb : Pcb)
  /-- `mhttpPoll` -/
  | poll (pcb : Pcb)

/-- `extHttpSend` for a WebSocket. -/
def sendWebSocket (pcb : Pcb) (c : WsConn) (s : WsState) : WsState :=
  if c.httpStatusCode = 200 then
    let r := extHttpWrite pcb 0 c.dataSendIndex
    { s with
      conn := some c
      queued := s.queued ++ c.data.bytes.take r.2
      due := s.dueAfter pcb }
  else { s with conn := some c, due := s.dueAfter pcb }

/-- The callbacks of the source. Those of a closed connection are not called any more. -/
def wsStep (m : Memcpy) (s : WsState) (e : WsEvent) : WsState :=
  match s.conn with
  | none => s
  | some c =>
    match e with
    | .frame f =>
      let s := { s with received := s.received ++ [f.frame] }
      match extHttpWebSocketParseFrame m c f.bytes [] with
      -- an access outside of the buffers
      | none => { s with conn := none }
      | some (.clsd, _) => { s with conn := none }
      | some (_, c, _) => { s with conn := some { c with retries := 0 } }
    | .sent pcb => sendWebSocket pcb { c with retries := 0 } s
    | .poll pcb =>
      let retries := (c.retries + 1) % 256
      if retries = maxRetries then { s with conn := none }
      else sendWebSocket pcb { c with retries := retries } s

/-- The connection behind the handshake. -/
def WsState.start (data : ReqBuf) : WsState := ⟨some ⟨data, 0, 100, 0⟩, [], [], []⟩

/-- What a client reads are the frames that are to be answered by now, each of them once. -/
def WsState.Echoed (s : WsState) : Prop := frames s.queued = some s.due

/-- The callback queues the answer that waits, or nothing. -/
def TakesAnswer (pcb : Pcb) (c : WsConn) (s : WsState) : Prop :=
  s.received = [] ∨ pcb.Refuses 0 c.dataSendIndex ∨
    s.due ≠ s.received ∧ pcb.Whole 0 c.dataSendIndex

/-- A frame comes that is answered with the frame, when no answer waits; or a callback comes
    that queues the one that waits, or nothing. -/
def CanEcho (s : WsState) (e : WsEvent) : Prop :=
  match s.conn, e with
  | none, _ => True
  | some _, .frame f => f.Echoable ∧ s.due = s.received
  | some c, .sent pcb => TakesAnswer pcb c s
  | some c, .poll pcb => (c.retries + 1) % 256 = maxRetries ∨ TakesAnswer pcb c s

/-- The loop undoes the mask that a client puts on its payload. -/
theorem unmask_append {kptr i : Nat} {before payload : List UInt8}
    (hkey : kptr + 4 ≤ before.length) :
    unmask kptr payload.length before.length i (before ++ payload) =
      some (before ++ mask (fun j => before.getD (kptr + j) 0) i payload) := by
  induction payload generalizing before i with
  | nil => rfl
  | cons b payload ih =>
      have hmod : i % 4 < 4 := Nat.mod_lt i (by decide)
      have hset : (before ++ b :: payload).set before.length
          (b ^^^ before.getD (kptr + i % 4) 0) =
          (before ++ [b ^^^ before.getD (kptr + i % 4) 0]) ++ payload := by
        rw [List.set_append_right _ _ (Nat.le_refl _), Nat.sub_self, List.set_cons_zero,
          List.append_assoc, List.singleton_append]
      have hb : (before ++ b :: payload).getD before.length 0 = b := by
        rw [List.getD_append_right _ _ _ _ (Nat.le_refl _), Nat.sub_self, List.getD_cons_zero]
      have hinside : before.length < (before ++ b :: payload).length := by
        rw [List.length_append, List.length_cons]
        omega
      rw [List.length_cons, unmask_succ_of_lt hkey hinside, hb,
        List.getD_append _ _ _ _ (by omega : kptr + i % 4 < before.length), hset]
      have hlen : (before ++ [b ^^^ before.getD (kptr + i % 4) 0]).length = before.length + 1 := by
        rw [List.length_append, List.length_singleton]
      -- The mask stands before what is unmasked, so the loop leaves it.
      have hsame : ∀ j < 4, (before ++ [b ^^^ before.getD (kptr + i % 4) 0]).getD (kptr + j) 0 =
          before.getD (kptr + j) 0 := fun j hj => List.getD_append _ _ _ _ (by omega)
      rw [← hlen, ih (by omega), mask_congr hsame, List.append_assoc, List.singleton_append, mask]

namespace ClientFrame

variable (f : ClientFrame)

theorem length_header : f.header.length =
    match f.form with
    | .bits7 => 2
    | .bits16 => 4
    | .bits64 => 10 := by
  unfold header
  cases f.form <;> rfl

theorem length_bytes : f.bytes.length = f.header.length + 4 + f.payload.length := by
  rw [bytes, List.length_append, List.length_append, length_mask, f.length_key]

theorem length_payload_lt : f.payload.length < maxReqLength := by
  have hfits := f.fits
  rw [length_replyHeader] at hfits
  split at hfits <;> omega

/-- The first byte of a frame. -/
theorem bytes_zero : f.bytes.getD 0 0 = 0x80 ||| f.opcode.code := by
  unfold bytes header
  cases f.form <;> rfl

theorem toNat_toUInt8 {n : Nat} (h : n < 256) : n.toUInt8.toNat = n := by
  rw [Nat.toUInt8, UInt8.toNat_ofNat', Nat.mod_eq_of_lt h]

/-- A length of at most 125 is none of the codes for longer ones. -/
theorem toUInt8_ne {n : Nat} (h : n ≤ 125) {c : UInt8} (hc : 125 < c.toNat) :
    n.toUInt8 ≠ c := by
  rintro rfl
  rw [toNat_toUInt8 (by omega)] at hc
  omega

/-- The length that a frame gives, without the bit for the mask. -/
theorem lengthCode_bytes :
    lengthCode f.bytes =
      match f.form with
      | .bits7 => f.payload.length.toUInt8
      | .bits16 => 126
      | .bits64 => 127 := by
  have hcode : ∀ n < 126, (0x80 ||| n.toUInt8) &&& 0x7F = n.toUInt8 := by decide
  have h126 : (0x80 ||| 126 : UInt8) &&& 0x7F = 126 := by decide
  have h127 : (0x80 ||| 127 : UInt8) &&& 0x7F = 127 := by decide
  have hshort := f.short
  unfold lengthCode bytes header
  cases hform : f.form with
  | bits7 =>
      have hle := hshort hform
      exact hcode _ (by omega)
  | bits16 => exact h126
  | bits64 => exact h127

theorem payloadOffset_bytes (h : f.form ≠ .bits64) :
    payloadOffset f.bytes = f.header.length + 4 := by
  rw [payloadOffset, lengthCode_bytes, length_header]
  cases hform : f.form with
  | bits7 => exact if_neg (toUInt8_ne (f.short hform) (by decide))
  | bits16 => rfl
  | bits64 => exact absurd hform h

theorem payloadLength_bytes (h : f.form ≠ .bits64) :
    payloadLength f.bytes = f.payload.length := by
  have hlt := f.length_payload_lt
  have hmax : maxReqLength = 3072 := rfl
  rw [payloadLength, lengthCode_bytes]
  cases hform : f.form with
  | bits7 =>
      have hshort := f.short hform
      exact (if_neg (toUInt8_ne hshort (by decide))).trans (toNat_toUInt8 (by omega))
  | bits16 =>
      have hhigh : f.bytes.getD 2 0 = (f.payload.length / 256).toUInt8 := by
        rw [bytes, header, hform]
        rfl
      have hlow : f.bytes.getD 3 0 = f.payload.length.toUInt8 := by
        rw [bytes, header, hform]
        rfl
      rw [hhigh, hlow, toNat_toUInt8 (by omega)]
      simp only [if_true, Nat.toUInt8, UInt8.toNat_ofNat']
      omega
  | bits64 => exact absurd hform h

theorem fin_bytes : f.bytes.getD 0 0 &&& wsFrameFlagFin ≠ 0 := by
  rw [bytes_zero]
  cases f.opcode <;> decide

theorem opcode_bytes : f.bytes.getD 0 0 &&& 0x0F = wsCodeText ∨
    f.bytes.getD 0 0 &&& 0x0F = wsCodeBinary := by
  rw [bytes_zero]
  cases f.opcode <;> decide

/-- A frame of a client is answered, if it is looked at. -/
theorem answers_bytes (h : f.Supported) : Answers f.bytes [] := by
  refine ⟨h.1, f.fin_bytes, f.opcode_bytes, ?_, ?_⟩
  · rw [lengthCode_bytes]
    cases hform : f.form with
    | bits7 => exact toUInt8_ne (f.short hform) (by decide)
    | bits16 => exact (by decide : (126 : UInt8) ≠ 127)
    | bits64 => exact absurd hform h.2
  · rw [f.payloadLength_bytes h.2, length_bytes]
    omega

/-- The loop finds the payload. -/
theorem unmask_bytes :
    unmask f.header.length f.payload.length (f.header.length + 4) 0 f.bytes =
      some (f.header ++ f.key ++ f.payload) := by
  have hbefore : (f.header ++ f.key).length = f.header.length + 4 := by
    rw [List.length_append, f.length_key]
  have hkey : ∀ j < 4, (f.header ++ f.key).getD (f.header.length + j) 0 = f.key.getD j 0 :=
    fun j _ => by
      rw [List.getD_append_right _ _ _ _ (Nat.le_add_right _ _), Nat.add_sub_cancel_left]
  have hloop := @unmask_append f.header.length 0 _ (mask (f.key.getD · 0) 0 f.payload)
    (by omega : f.header.length + 4 ≤ (f.header ++ f.key).length)
  rw [length_mask, hbefore, mask_congr hkey, mask_mask] at hloop
  exact hloop

/-- The payload is copied as the client has it. -/
theorem copied_bytes : Flash.pbufCopyPartial [f.header ++ f.key ++ f.payload] f.payload.length
    (f.header.length + 4) = f.payload := by
  have hbefore : (f.header ++ f.key).length = f.header.length + 4 := by
    rw [List.length_append, f.length_key]
  rw [Flash.pbufCopyPartial_eq, List.flatten_singleton, List.drop_left' hbefore, List.take_length]

end ClientFrame

/-- What a frame of a client leaves on the connection. The payload is in `mhc->data` when the
    answer is written, and its header is written over the beginning of it. -/
theorem parseFrame_bytes (m : Memcpy) (mhc : WsConn) (f : ClientFrame)
    (h : f.Supported) : ∃ c : WsConn, ∃ buf : ReqBuf,
      extHttpWebSocketParseFrame m mhc f.bytes [] =
        some (.ok, c, f.header ++ f.key ++ f.payload) ∧
      c.httpStatusCode = 200 ∧
      c.dataSendIndex =
        (replyHeader f.payload.length tcpWriteFlagCopy).length + f.payload.length ∧
      buf.bytes.take f.payload.length = f.payload ∧
      c.data.bytes = m.copy
        (replyHeader f.payload.length tcpWriteFlagCopy ++
          buf.bytes.drop (replyHeader f.payload.length tcpWriteFlagCopy).length)
        (replyHeader f.payload.length tcpWriteFlagCopy).length 0 f.payload.length := by
  have hlt := f.length_payload_lt
  have hsize : replySize f.payload.length tcpWriteFlagCopy = f.payload.length := by
    have hfits := f.fits
    rw [length_replyHeader] at hfits
    rw [replySize, length_replyHeader]
    exact if_neg (by omega)
  rw [parseFrame_of_answers m mhc (f.answers_bytes h), f.payloadOffset_bytes h.2,
    f.payloadLength_bytes h.2, answerPayload, Nat.add_sub_cancel, f.unmask_bytes]
  simp only [Option.bind_eq_bind, Option.bind_some, f.copied_bytes, ReqBuf.fill,
    if_pos (Nat.le_of_lt hlt), ReqBuf.store_of_lt _ hlt]
  rcases extHttpWebSocketWrite_eq m { mhc with
      data := ⟨(mhc.data.copy 0 f.payload).bytes.set f.payload.length 0, by
        rw [List.length_set, (mhc.data.copy 0 f.payload).length_bytes]⟩ } f.payload.length
    tcpWriteFlagCopy with ⟨buf, heq, hbuf⟩
  rw [hsize] at heq hbuf
  rw [heq]
  refine ⟨_, _, rfl, rfl, rfl, ?_, hbuf⟩
  rw [List.take_set_of_le (Nat.le_refl _), ReqBuf.take_copy _ (Nat.le_of_lt hlt)]

/-- The header of the answer to a frame. -/
def ClientFrame.answerHeader (f : ClientFrame) : List UInt8 :=
  replyHeader f.payload.length tcpWriteFlagCopy

/-- The connection has the answer to a frame. -/
structure Answered (m : Memcpy) (f : ClientFrame) (c : WsConn) : Prop where
  status : c.httpStatusCode = 200
  index : c.dataSendIndex = f.answerHeader.length + f.payload.length
  copied : ∃ mem, mem.length = maxReqLength ∧ mem.take f.answerHeader.length = f.answerHeader ∧
    c.data.bytes = m.copy mem f.answerHeader.length 0 f.payload.length

/-- What stands in the answer where the payload should be. -/
def WsConn.answerText (c : WsConn) (f : ClientFrame) : List UInt8 :=
  (c.data.bytes.drop f.answerHeader.length).take f.payload.length

/-- The header of an answer says that it is a text, and how long it is. -/
theorem decode_replyHeader {body : List UInt8} (h : body.length < 65536) :
    decode (replyHeader body.length tcpWriteFlagCopy ++ body) = some (⟨wsCodeText, body⟩, []) := by
  have hheader : WsFrame.header (replyHeader body.length tcpWriteFlagCopy ++ body) =
      some (wsCodeText, body.length, body) := by
    by_cases hlong : 125 < body.length
    · have hlen : (body.length / 256).toUInt8.toNat * 256 + body.length.toUInt8.toNat =
          body.length := by
        simp only [Nat.toUInt8, UInt8.toNat_ofNat']
        omega
      rw [replyHeader, if_pos hlong]
      simp only [List.cons_append, List.nil_append, WsFrame.header, longLength, hlen]
      rfl
    · have hmask : ∀ n < 126, n.toUInt8 &&& 0x80 = 0 ∧ n.toUInt8 < 126 := by decide
      rcases hmask body.length (by omega) with ⟨hbit, hlt⟩
      rw [replyHeader, if_neg hlong]
      simp only [List.cons_append, List.nil_append, WsFrame.header, hbit, hlt,
        ClientFrame.toNat_toUInt8 (by omega : body.length < 256)]
      rfl
  rw [decode, hheader]
  simp only [Nat.lt_irrefl, if_false, List.take_length, List.drop_length]

namespace Answered

variable {m : Memcpy} {f : ClientFrame} {c : WsConn}

theorem answer_fits (f : ClientFrame) :
    f.answerHeader.length + f.payload.length ≤ maxReqLength := by
  have hfits := f.fits
  rw [length_replyHeader] at hfits
  rw [ClientFrame.answerHeader, length_replyHeader]
  exact hfits

theorem length_answerText (f : ClientFrame) (c : WsConn) :
    (c.answerText f).length = f.payload.length := by
  have hfits := answer_fits f
  have hlen := c.data.length_bytes
  rw [WsConn.answerText, List.length_take, List.length_drop]
  omega

/-- The answer is its header and the text behind it. -/
theorem take_index (h : Answered m f c) :
    c.data.bytes.take c.dataSendIndex = f.answerHeader ++ c.answerText f := by
  rcases h.copied with ⟨mem, -, hheader, hcopied⟩
  rw [h.index, List.take_add, WsConn.answerText, hcopied, m.take_copy, hheader]

/-- How a client reads the answer. -/
theorem decode_eq (h : Answered m f c) :
    decode (c.data.bytes.take c.dataSendIndex) = some (⟨wsCodeText, c.answerText f⟩, []) := by
  have hlt := f.length_payload_lt
  have hmax : maxReqLength = 3072 := rfl
  have hlen := length_answerText f c
  rw [h.take_index, ClientFrame.answerHeader, ← hlen]
  exact decode_replyHeader (by omega)

theorem getElem?_answerText (f : ClientFrame) (c : WsConn) {i : Nat} (hi : i < f.payload.length) :
    (c.answerText f)[i]? = c.data.bytes[f.answerHeader.length + i]? := by
  rw [WsConn.answerText, List.getElem?_take_of_lt hi, List.getElem?_drop]

/-- A text of at most two bytes is what the header wrote over the payload. -/
theorem answerText_of_le (h : Answered m f c) (hn : f.payload.length ≤ 2) :
    c.answerText f = f.answerHeader.take f.payload.length := by
  have htwo : f.answerHeader.length = 2 := by
    rw [ClientFrame.answerHeader, length_replyHeader, if_neg (by omega)]
  have hmax : maxReqLength = 3072 := rfl
  rcases h.copied with ⟨mem, hmem, hheader, hcopied⟩
  refine List.ext_getElem? fun i => ?_
  by_cases hi : i < f.payload.length
  · -- The places of the copy are apart.
    rw [getElem?_answerText f c hi, hcopied,
      m.copied mem _ 0 _ i (by omega) (by omega) (.inl (by omega)) hi, Nat.zero_add,
      List.getElem?_take_of_lt hi, ← hheader, List.getElem?_take_of_lt (by omega)]
  · rw [List.getElem?_eq_none (by rw [length_answerText]; omega),
      List.getElem?_eq_none (by rw [List.length_take]; omega)]

/-- The text of a longer answer begins with the header, if the copy can do with places that
    overlap. -/
theorem head_moving (h : Answered .moving f c) (hn : 2 < f.payload.length) :
    (c.answerText f)[0]? = some 0x81 := by
  have hfits := answer_fits f
  rcases h.copied with ⟨mem, hmem, hheader, hcopied⟩
  have hfirst : mem.getD (0 + 0) 0 = 0x81 := by
    have hpos : 0 < f.answerHeader.length := by
      rw [ClientFrame.answerHeader, length_replyHeader]
      split <;> decide
    have hget : mem[0]? = f.answerHeader[0]? := by
      rw [← hheader, List.getElem?_take_of_lt hpos]
    rw [List.getD_eq_getElem?_getD, hget, ClientFrame.answerHeader, replyHeader]
    split <;> rfl
  have hplace := Memcpy.getElem?_place_inside mem (fun i => mem.getD (0 + i) 0)
    (by omega : f.answerHeader.length + f.payload.length ≤ mem.length)
    (by omega : 0 < f.payload.length)
  rw [getElem?_answerText f c (by omega), hcopied]
  exact hplace.trans (congrArg some hfirst)

/-- It begins with a zero, if the copy clears the places that overlap. -/
theorem head_clearing (h : Answered .clearing f c) (hn : 2 < f.payload.length) :
    (c.answerText f)[0]? = some 0 := by
  have hfits := answer_fits f
  have hoverlap : ¬ (0 + f.payload.length ≤ f.answerHeader.length ∨
      f.answerHeader.length + f.payload.length ≤ 0) := by
    rw [ClientFrame.answerHeader, length_replyHeader]
    split <;> omega
  rcases h.copied with ⟨mem, hmem, hheader, hcopied⟩
  have hcopy : Memcpy.clearing.copy mem f.answerHeader.length 0 f.payload.length =
      Memcpy.place mem f.answerHeader.length f.payload.length fun _ => 0 := if_neg hoverlap
  rw [getElem?_answerText f c (by omega), hcopied, hcopy]
  exact Memcpy.getElem?_place_inside mem _ (by omega : _ ≤ mem.length)
    (by omega : 0 < f.payload.length)

end Answered

/-- What a frame that is looked at does to the connection. -/
theorem wsStep_frame (m : Memcpy) {s : WsState} {c : WsConn} (hconn : s.conn = some c)
    (f : ClientFrame) (h : f.Supported) : ∃ c', Answered m f c' ∧
      wsStep m s (.frame f) =
        { s with conn := some { c' with retries := 0 }, received := s.received ++ [f.frame] } := by
  rcases parseFrame_bytes m c f h with ⟨c', buf, hparse, hstatus, hindex, -, hcopied⟩
  have hlen : (f.answerHeader ++ buf.bytes.drop f.answerHeader.length).length = maxReqLength := by
    have hfits := Answered.answer_fits f
    have hbuf := buf.length_bytes
    rw [List.length_append, List.length_drop]
    omega
  refine ⟨c', ⟨hstatus, hindex, _, hlen, List.take_left, hcopied⟩, ?_⟩
  unfold wsStep
  rw [hconn]
  simp only [hparse]

/-- The other frames are not answered. -/
theorem wsStep_of_not_supported (m : Memcpy) {s : WsState} {c : WsConn}
    (hconn : s.conn = some c) (f : ClientFrame) (h : ¬ f.Supported) :
    wsStep m s (.frame f) =
      { s with conn := some { c with retries := 0 }, received := s.received ++ [f.frame] } := by
  have hne : f.bytes ≠ [] := by
    intro hnil
    have hlen := f.length_bytes
    rw [hnil, List.length_nil] at hlen
    omega
  have hparse : extHttpWebSocketParseFrame m c f.bytes [] = some (.ok, c, f.bytes) := by
    have hlen := f.length_bytes
    rw [parseFrame_eq m c [] (by omega) hne, if_neg f.fin_bytes, if_pos f.opcode_bytes]
    by_cases hshort : f.bytes.length ≤ 6
    · rw [answerFrame, if_pos hshort]
      rfl
    · have hform : f.form = .bits64 :=
        Decidable.not_not.mp fun hne => h ⟨Nat.lt_of_not_le hshort, hne⟩
      have hcode : lengthCode f.bytes = 127 := by rw [f.lengthCode_bytes, hform]
      rw [answerFrame_eq m c [] (by omega), if_pos hcode]
  unfold wsStep
  rw [hconn]
  simp only [hparse]

/-- A callback that takes the whole answer. -/
theorem sendWebSocket_of_whole {pcb : Pcb} {c : WsConn} (s : WsState)
    (hstatus : c.httpStatusCode = 200) (hwhole : pcb.Whole 0 c.dataSendIndex) :
    sendWebSocket pcb c s =
      { s with
        conn := some c
        queued := s.queued ++ c.data.bytes.take c.dataSendIndex
        due := s.dueAfter pcb } := by
  rw [sendWebSocket, if_pos hstatus]
  simp only [(extHttpWrite_eq_iff pcb 0 c.dataSendIndex).mpr hwhole]

/-- A callback that takes nothing. -/
theorem sendWebSocket_of_nothing {pcb : Pcb} {c : WsConn} (s : WsState)
    (h : c.httpStatusCode ≠ 200 ∨ pcb.Refuses 0 c.dataSendIndex) :
    sendWebSocket pcb c s = { s with conn := some c, due := s.dueAfter pcb } := by
  unfold sendWebSocket
  by_cases hstatus : c.httpStatusCode = 200
  · have hzero := (extHttpWrite_eq_zero_iff pcb 0 c.dataSendIndex).mpr
      (h.resolve_left fun hne => hne hstatus)
    rw [if_pos hstatus]
    simp only [hzero, List.take_zero, List.append_nil]
  · rw [if_neg hstatus]

/-- The frames that are to be answered behind a callback, by what the stack takes. -/
theorem dueAfter_append {s : WsState} {f : Frame} {before : List Frame}
    (h : s.received = before ++ [f]) (pcb : Pcb) :
    (pcb.Whole 0 (answerLength f) → s.dueAfter pcb = s.received) ∧
      (pcb.Refuses 0 (answerLength f) → s.dueAfter pcb = s.due) := by
  have hlast : s.received.getLast? = some f := by rw [h, List.getLast?_concat]
  have hpos : answerLength f ≠ 0 := by
    rw [answerLength, length_replyHeader]
    split <;> omega
  unfold WsState.dueAfter
  rw [hlast]
  constructor
  · intro hwhole
    have hall := (extHttpWrite_eq_iff pcb 0 (answerLength f)).mpr hwhole
    exact if_neg (by rw [hall]; exact hpos)
  · intro hrefuses
    exact if_pos ((extHttpWrite_eq_zero_iff pcb 0 (answerLength f)).mpr hrefuses)

theorem dueAfter_of_due {s : WsState} (h : s.due = s.received) (pcb : Pcb) :
    s.dueAfter pcb = s.received := by
  unfold WsState.dueAfter
  split
  · rfl
  · rw [h, ite_self]

theorem answerLength_frame (f : ClientFrame) :
    answerLength f.frame = f.answerHeader.length + f.payload.length := by
  rw [answerLength, ClientFrame.answerHeader, ClientFrame.frame, length_replyHeader,
    length_replyHeader]

/-- The answer is the frame. -/
theorem Answered.frames_iff {m : Memcpy} {f : ClientFrame} {c : WsConn} (h : Answered m f c) :
    frames (c.data.bytes.take c.dataSendIndex) = some [f.frame] ↔
      f.opcode = .text ∧ c.answerText f = f.payload := by
  have hframes : frames (c.data.bytes.take c.dataSendIndex) =
      some [⟨wsCodeText, c.answerText f⟩] := frames_append (rfl : frames [] = some []) h.decode_eq
  rw [hframes, Option.some.injEq, List.cons.injEq, ClientFrame.frame, Frame.mk.injEq]
  have hcode : wsCodeText = f.opcode.code ↔ f.opcode = .text := by
    cases f.opcode <;> decide
  rw [hcode, and_iff_left rfl]

/-- The frames whose payload is what the header of the answer writes over it. -/
theorem ClientFrame.echoable_iff (f : ClientFrame) (h : f.Supported) :
    f.Echoable ↔ f.opcode = .text ∧ f.payload.length ≤ 2 ∧
      f.answerHeader.take f.payload.length = f.payload := by
  have hheader (hn : f.payload.length ≤ 2) :
      f.answerHeader = [0x81, f.payload.length.toUInt8] := if_neg (by omega)
  constructor
  · rintro ⟨htext, -, hpayload⟩
    have hn : f.payload.length ≤ 2 := by
      rcases hpayload with ⟨hp, -⟩ | hp | hp <;> rw [hp] <;> decide
    refine ⟨htext, hn, ?_⟩
    rw [hheader hn]
    rcases hpayload with ⟨hp, -⟩ | hp | hp <;> rw [hp] <;> rfl
  · rintro ⟨htext, hn, htake⟩
    refine ⟨htext, h.2, ?_⟩
    rw [hheader hn] at htake
    rcases hp : f.payload with _ | ⟨x, _ | ⟨y, _ | ⟨z, rest⟩⟩⟩
    · -- With a length of seven bits the frame would have six bytes.
      refine .inl ⟨rfl, ?_⟩
      have hlen := h.1
      rw [f.length_bytes, f.length_header, hp] at hlen
      cases hform : f.form with
      | bits7 =>
          rw [hform] at hlen
          exact absurd hlen (by decide)
      | bits16 => rfl
      | bits64 => exact absurd hform h.2
    · rw [hp] at htake
      exact .inr (.inl htake.symm)
    · rw [hp] at htake
      exact .inr (.inr htake.symm)
    · rw [hp, List.length_cons, List.length_cons, List.length_cons] at hn
      omega

theorem ClientFrame.Echoable.supported {f : ClientFrame} (h : f.Echoable) : f.Supported := by
  refine ⟨?_, h.2.1⟩
  rw [f.length_bytes, f.length_header]
  rcases h.2.2 with ⟨-, hform⟩ | hp | hp
  · rw [hform]
    exact Nat.lt_of_lt_of_le (by decide : 6 < 4 + 4) (Nat.le_add_right _ _)
  all_goals
    rw [hp]
    cases f.form <;> decide

/-- A stack that takes everything. -/
def takesAll : Pcb := ⟨65535, 1460 * 10, fun _ => false, fun _ _ => .ok⟩

theorem whole_takesAll {n : Nat} (h : n ≤ maxReqLength) : takesAll.Whole 0 n :=
  .inr ⟨h.trans (by decide), h.trans (by decide), rfl⟩

/-- A frame and a callback that takes the answer. -/
theorem run_frame_sent (m : Memcpy) (data : ReqBuf) (f : ClientFrame) (pcb : Pcb)
    (h : f.Supported)
    (hwhole : pcb.Whole 0 (f.answerHeader.length + f.payload.length)) :
    ∃ c, Answered m f c ∧
      ((run (wsStep m) (.start data) [.frame f, .sent pcb]).Echoed ↔
        f.opcode = .text ∧ c.answerText f = f.payload) := by
  rcases wsStep_frame m (s := .start data) rfl f h with ⟨c, hanswered, hstep⟩
  refine ⟨c, hanswered, ?_⟩
  rw [run_cons, hstep, run_cons, run_nil, ← hanswered.frames_iff]
  have hwhole' : pcb.Whole 0 (answerLength f.frame) := answerLength_frame f ▸ hwhole
  have hsend := sendWebSocket_of_whole (c := { c with retries := 0 })
    { WsState.start data with
      conn := some { c with retries := 0 }
      received := [] ++ [f.frame] }
    hanswered.status (hanswered.index ▸ hwhole)
  rw [(dueAfter_append rfl pcb).1 hwhole'] at hsend
  exact (iff_of_eq (congrArg WsState.Echoed (hsend : _ = _))).trans Iff.rfl

/-- A frame that is not looked at, and a callback that would take its answer. -/
theorem not_echoed_of_not_supported (m : Memcpy) (data : ReqBuf) (f : ClientFrame) (pcb : Pcb)
    (h : ¬ f.Supported)
    (hwhole : pcb.Whole 0 (f.answerHeader.length + f.payload.length)) :
    ¬ (run (wsStep m) (.start data) [.frame f, .sent pcb]).Echoed := by
  have hwhole' : pcb.Whole 0 (answerLength f.frame) := answerLength_frame f ▸ hwhole
  have hsend : sendWebSocket pcb ⟨data, 0, 100, 0⟩ ⟨some ⟨data, 0, 100, 0⟩, [], [f.frame], []⟩ =
      ⟨some ⟨data, 0, 100, 0⟩, [], [f.frame], [f.frame]⟩ := by
    have hlast : [f.frame] = [] ++ [f.frame] := rfl
    rw [sendWebSocket_of_nothing _ (.inl (by decide : (100 : Nat) ≠ 200)),
      (dueAfter_append hlast pcb).1 hwhole']
  rw [run_cons, wsStep_of_not_supported m rfl f h, run_cons, run_nil]
  intro hechoed
  have hframes : frames [] = some [f.frame] := (congrArg WsState.Echoed hsend).mp hechoed
  exact nomatch hframes

/-- The frames that are echoed, by every `memcpy`. -/
theorem echoed_frame_iff (f : ClientFrame) :
    (∀ m data pcb, pcb.Whole 0 (f.answerHeader.length + f.payload.length) →
      (run (wsStep m) (.start data) [.frame f, .sent pcb]).Echoed) ↔ f.Echoable := by
  have hall := whole_takesAll (Answered.answer_fits f)
  by_cases h : f.Supported
  · rw [f.echoable_iff h]
    constructor
    · intro hechoed
      rcases run_frame_sent .moving .zero f takesAll h hall with ⟨c, hc, hiff⟩
      rcases hiff.mp (hechoed _ _ _ hall) with ⟨htext, hpayload⟩
      by_cases hn : f.payload.length ≤ 2
      · exact ⟨htext, hn, (hc.answerText_of_le hn).symm.trans hpayload⟩
      · -- Two ways of copying places that overlap cannot both give the payload.
        rcases run_frame_sent .clearing .zero f takesAll h hall with ⟨c', hc', hiff'⟩
        rcases hiff'.mp (hechoed _ _ _ hall) with ⟨-, hpayload'⟩
        have hmoving := hc.head_moving (by omega)
        have hclearing := hc'.head_clearing (by omega)
        rw [hpayload] at hmoving
        rw [hpayload', hmoving] at hclearing
        exact absurd hclearing (by decide)
    · rintro ⟨htext, hn, htake⟩ m data pcb hwhole
      rcases run_frame_sent m data f pcb h hwhole with ⟨c, hc, hiff⟩
      exact hiff.mpr ⟨htext, (hc.answerText_of_le hn).trans htake⟩
  · -- A frame that is not looked at gets no answer.
    refine iff_of_false ?_ fun hechoable => h hechoable.supported
    intro hechoed
    exact not_echoed_of_not_supported .moving .zero f takesAll h hall (hechoed _ _ _ hall)

/-- What holds of an open connection as long as the steps keep the answers right: the
    answer that waits, if one does, stands in `mhc->data`. -/
structure Kept (c : WsConn) (s : WsState) : Prop where
  echoed : s.Echoed
  fresh : s.received = [] → c.httpStatusCode ≠ 200
  waits : s.due ≠ s.received → ∃ f, s.received = s.due ++ [f] ∧ c.httpStatusCode = 200 ∧
    c.dataSendIndex = answerLength f ∧
    decode (c.data.bytes.take c.dataSendIndex) = some (f, [])

/-- What holds in every state. -/
def Sound (s : WsState) : Prop := s.Echoed ∧ ∀ c, s.conn = some c → Kept c s

theorem Kept.sound {c : WsConn} {s : WsState} (hconn : s.conn = some c) (h : Kept c s) :
    Sound s :=
  ⟨h.echoed, fun _ hc' => Option.some.inj (hconn.symm.trans hc') ▸ h⟩

theorem sound_start (data : ReqBuf) : Sound (.start data) :=
  Kept.sound rfl ⟨rfl, fun _ => (by decide : (100 : Nat) ≠ 200), fun h => absurd rfl h⟩

/-- A callback that takes the answer that waits, or nothing. -/
theorem sound_send {pcb : Pcb} {c : WsConn} {s : WsState} (h : Kept c s)
    (htakes : TakesAnswer pcb c s) : Sound (sendWebSocket pcb c s) := by
  by_cases hdue : s.due = s.received
  · have hnothing : c.httpStatusCode ≠ 200 ∨ pcb.Refuses 0 c.dataSendIndex := by
      rcases htakes with hnil | hrefuses | ⟨hne, -⟩
      · exact .inl (h.fresh hnil)
      · exact .inr hrefuses
      · exact absurd hdue hne
    have hechoed : frames s.queued = some s.received := hdue ▸ h.echoed
    rw [sendWebSocket_of_nothing s hnothing, dueAfter_of_due hdue]
    exact Kept.sound rfl ⟨hechoed, h.fresh, fun hne => absurd rfl hne⟩
  rcases h.waits hdue with ⟨f, hreceived, hstatus, hindex, hdecode⟩
  rcases htakes with hnil | hrefuses | ⟨-, hwhole⟩
  · exact absurd (hreceived.symm.trans hnil)
      (List.append_ne_nil_of_right_ne_nil _ (List.cons_ne_nil _ _))
  · -- The answer goes on waiting.
    rw [sendWebSocket_of_nothing s (.inr hrefuses),
      (dueAfter_append hreceived pcb).2 (hindex ▸ hrefuses)]
    exact Kept.sound rfl ⟨h.echoed, h.fresh, h.waits⟩
  · rw [sendWebSocket_of_whole s hstatus hwhole,
      (dueAfter_append hreceived pcb).1 (hindex ▸ hwhole)]
    have hechoed : frames (s.queued ++ c.data.bytes.take c.dataSendIndex) = some s.received := by
      rw [hreceived]
      exact frames_append h.echoed hdecode
    exact Kept.sound rfl ⟨hechoed, h.fresh, fun hne => absurd rfl hne⟩

/-- A frame that is echoed, when no answer waits. -/
theorem sound_frame (m : Memcpy) {c : WsConn} {s : WsState} (hconn : s.conn = some c)
    (h : Kept c s) {f : ClientFrame} (hf : f.Echoable) (hdue : s.due = s.received) :
    Sound (wsStep m s (.frame f)) := by
  have hlong := hf.supported
  rcases wsStep_frame m hconn f hlong with ⟨c', hanswered, hstep⟩
  rcases (f.echoable_iff hlong).mp hf with ⟨htext, hn, htake⟩
  have hframe : (⟨wsCodeText, c'.answerText f⟩ : Frame) = f.frame := by
    rw [hanswered.answerText_of_le hn, htake, ClientFrame.frame, htext]
    rfl
  rw [hstep]
  refine Kept.sound rfl ⟨h.echoed, fun hnil => ?_,
    fun _ => ⟨f.frame, ?_, hanswered.status, ?_, ?_⟩⟩
  · exact absurd hnil (List.append_ne_nil_of_right_ne_nil _ (List.cons_ne_nil _ _))
  · rw [hdue]
  · rw [answerLength_frame, ← hanswered.index]
  · rw [← hframe]
    exact hanswered.decode_eq

/-- Every step under the condition keeps the answers right. -/
theorem sound_step (m : Memcpy) (s : WsState) (e : WsEvent) (h : Sound s) (hcan : CanEcho s e) :
    Sound (wsStep m s e) := by
  rcases hconn : s.conn with _ | c
  · have hsame : wsStep m s e = s := by
      unfold wsStep
      rw [hconn]
    rw [hsame]
    exact h
  have hkept := h.2 c hconn
  unfold CanEcho at hcan
  rw [hconn] at hcan
  cases e with
  | frame f => exact sound_frame m hconn hkept hcan.1 hcan.2
  | sent pcb =>
      have hstep : wsStep m s (.sent pcb) = sendWebSocket pcb { c with retries := 0 } s := by
        unfold wsStep
        rw [hconn]
      rw [hstep]
      exact sound_send ⟨hkept.echoed, hkept.fresh, hkept.waits⟩ hcan
  | poll pcb =>
      unfold wsStep
      rw [hconn]
      simp only [] at hcan ⊢
      by_cases hclose : (c.retries + 1) % 256 = maxRetries
      · rw [if_pos hclose]
        exact ⟨h.1, fun _ hc' => nomatch hc'⟩
      · rw [if_neg hclose]
        exact sound_send ⟨hkept.echoed, hkept.fresh, hkept.waits⟩ (hcan.resolve_left hclose)

/-- In the runs whose steps keep the answers right, a client reads in every state the frames
    that are to be answered by then, each of them once. -/
theorem echoed_run (m : Memcpy) (data : ReqBuf) (es : List WsEvent)
    (h : Meets (wsStep m) CanEcho (.start data) es) (past : List WsEvent) (hpast : past <+: es) :
    (run (wsStep m) (.start data) past).Echoed := by
  rcases hpast with ⟨rest, rfl⟩
  exact (meets_invariant (sound_step m) _ (sound_start data) past
    ((meets_append _ past rest).mp h).1).1

/-- A frame that is echoed and a callback that takes its answer are a run of `CanEcho`. -/
theorem meets_frame_sent (m : Memcpy) (data : ReqBuf) {f : ClientFrame} (hf : f.Echoable)
    {pcb : Pcb} (hwhole : pcb.Whole 0 (f.answerHeader.length + f.payload.length)) :
    Meets (wsStep m) CanEcho (.start data) [.frame f, .sent pcb] := by
  refine ⟨⟨hf, rfl⟩, ?_, trivial⟩
  rcases wsStep_frame m (s := .start data) rfl f hf.supported with ⟨c, hanswered, hstep⟩
  rw [hstep]
  exact .inr (.inr ⟨nofun, hanswered.index ▸ hwhole⟩)

/-- A frame is answered with itself, however `memcpy` copies places that overlap, exactly
    if it is `Echoable`. In the runs whose steps are the ones of `CanEcho`, a client reads
    in every state the frames that are to be answered by then. -/
theorem echoed_iff_and_run (f : ClientFrame) (m : Memcpy) (data : ReqBuf) (es : List WsEvent) :
    ((∀ m data pcb, pcb.Whole 0 (f.answerHeader.length + f.payload.length) →
        (run (wsStep m) (.start data) [.frame f, .sent pcb]).Echoed) ↔ f.Echoable) ∧
      (Meets (wsStep m) CanEcho (.start data) es → ∀ past, past <+: es →
        (run (wsStep m) (.start data) past).Echoed) :=
  ⟨echoed_frame_iff f, echoed_run m data es⟩

/-- A text of one byte that is echoed. -/
def markFrame : ClientFrame where
  opcode := .text
  form := .bits7
  key := [1, 2, 3, 4]
  payload := [0x81]
  length_key := rfl
  short := fun _ => by decide
  fits := by decide

/-- The answer to it is what the client reads. -/
theorem echoed_markFrame :
    markFrame.Echoable ∧
      (run (wsStep .moving) (.start .zero) [.frame markFrame, .sent takesAll]).Echoed := by
  have hechoable : markFrame.Echoable := by decide
  have hmeets := meets_frame_sent .moving .zero hechoable
    (whole_takesAll (Answered.answer_fits markFrame))
  have hrun := (echoed_iff_and_run markFrame .moving .zero _).2 hmeets
  exact ⟨hechoable, hrun _ (List.prefix_refl _)⟩

/-- A text of one letter. -/
def letterFrame : ClientFrame where
  opcode := .text
  form := .bits7
  key := [1, 2, 3, 4]
  payload := [65]
  length_key := rfl
  short := fun _ => by decide
  fits := by decide

/-- The letter is answered with the first byte of the header. -/
theorem not_echoed_letter :
    ¬ ∃ m, (run (wsStep m) (.start .zero) [.frame letterFrame, .sent takesAll]).Echoed := by
  rintro ⟨m, hechoed⟩
  have hsupported : letterFrame.Supported := by decide
  rcases run_frame_sent m .zero letterFrame takesAll hsupported
    (whole_takesAll (Answered.answer_fits letterFrame)) with ⟨c, hanswered, hiff⟩
  have htext : c.answerText letterFrame = [0x81] := hanswered.answerText_of_le (by decide)
  have hletter : c.answerText letterFrame = [65] := (hiff.mp hechoed).2
  rw [htext] at hletter
  exact absurd hletter (by decide)

end Http

end RtosLwip
