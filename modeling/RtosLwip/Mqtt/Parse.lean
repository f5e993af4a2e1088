import Mathlib.Logic.Function.Basic

/-!
# The Parser of Incoming Messages

`mqtt_parse_incoming` in `exts/mqtt/mqtt.c`. A message comes with a fixed header of
a type byte and a length in groups of seven bits, and is passed on in parts of at
most what the receive buffer holds behind the header. The data arrives in pieces that
TCP has cut anywhere. Between two pieces the client keeps `msg_idx` and the buffer,
and nothing else: the parser begins each piece by reading the header again, out of
the buffer.

What is done with a message, `mqtt_message_received`, is a parameter here: it sees the
buffer and where the message is in it, and answers with a status. Only the status of
a message with a body is looked at.

The parser does not look at the end of the buffer while it reads a header, and it
shifts by seven more bits for each byte of the length. Both are faults of the model:
a byte written behind the buffer, and a shift by more than there are bits.

## Main definitions

* `Rx`, `Locals`: What the client keeps, and what the parser knows in one call.
* `Fault`: What C leaves undefined, and a loop that does not end.
* `iterate`: One turn of the loop.
* `parseIncoming`: A piece of data is taken in.
-/

namespace RtosLwip

namespace Mqtt

/-- `MQTT_VAR_HEADER_BUFFER_LEN`. -/
def varHeaderBufferLen : Nat := 128

/-- `mqtt_connection_status_t`: the code of a CONNACK, or one of the values below. -/
abbrev Status := UInt16

/-- `MQTT_CONNECT_ACCEPTED`. -/
def connectAccepted : Status := 0

/-- What the client keeps from one piece of data to the next. -/
structure Rx (σ : Type) where
  msgIdx : UInt32
  rxBuffer : Nat → UInt8
  app : σ

/-- The variables of the parser. -/
structure Locals where
  msgRemLen : UInt32
  fixedHdrIdx : Nat
  b : UInt8

/-- What may go wrong. -/
inductive Fault where
  /-- A byte of the header is written behind the buffer. -/
  | overflow
  /-- A shift by 32 bits or more. -/
  | shift
  /-- The loop goes on forever. -/
  | hang
  deriving DecidableEq

/-- `mqtt_message_received`: the fixed header's length, how much of the message is in the buffer,
    and how much is still to come. -/
abbrev Handler (σ : Type) := Rx σ → Nat → Nat → UInt32 → σ × Status

/-- The next byte of the fixed header, from the buffer if it was received before. -/
def headerByte {σ : Type} (c : Rx σ) (l : Locals) (rest : List UInt8) :
    Except Fault (Rx σ × Locals × List UInt8) :=
  if l.fixedHdrIdx < c.msgIdx.toNat then
    .ok (c, { l with b := c.rxBuffer l.fixedHdrIdx, fixedHdrIdx := l.fixedHdrIdx + 1 }, rest)
  else if c.msgIdx.toNat < varHeaderBufferLen then
    .ok ({ c with
            rxBuffer := Function.update c.rxBuffer c.msgIdx.toNat (rest.headD 0)
            msgIdx := c.msgIdx + 1 },
      { l with b := rest.headD 0, fixedHdrIdx := l.fixedHdrIdx + 1 }, rest.tail)
  else
    .error .overflow

/-- A byte of the length. Behind the last one, a message with no body is complete. -/
def headerLength {σ : Type} (h : Handler σ) (c : Rx σ) (l : Locals) :
    Except Fault (Rx σ × Locals) :=
  if 2 ≤ l.fixedHdrIdx then
    if 32 ≤ (l.fixedHdrIdx - 2) * 7 then
      .error .shift
    else
      let msgRemLen := l.msgRemLen |||
        (l.b &&& 0x7f).toUInt32 <<< UInt32.ofNat ((l.fixedHdrIdx - 2) * 7)
      if l.b &&& 0x80 = 0 then
        if msgRemLen = 0 then
          .ok ({ c with msgIdx := 0, app := (h c l.fixedHdrIdx 0 0).1 },
            { l with msgRemLen := msgRemLen, fixedHdrIdx := 0 })
        else
          .ok (c, { l with msgRemLen := msgRemLen + UInt32.ofNat l.fixedHdrIdx - c.msgIdx })
      else
        .ok (c, { l with msgRemLen := msgRemLen })
  else
    .ok (c, l)

/-- `pbuf_copy_partial` into the buffer. -/
def copyPartial (buf : Nat → UInt8) (start : Nat) (xs : List UInt8) : Nat → UInt8 := fun i =>
  if start ≤ i then (xs[i - start]?).getD (buf i) else buf i

/-- A part of the body goes into the buffer, and is passed on when the buffer is full or the
    message complete. -/
def copyBody {σ : Type} (h : Handler σ) (c : Rx σ) (l : Locals) (rest : List UInt8) :
    Rx σ × Locals × List UInt8 × Status :=
  let cpyStart := (c.msgIdx - UInt32.ofNat l.fixedHdrIdx).toNat %
    (varHeaderBufferLen - l.fixedHdrIdx) + l.fixedHdrIdx
  let bufferSpace := varHeaderBufferLen - cpyStart
  let cpyLen := min (min rest.length l.msgRemLen.toNat) bufferSpace
  let c := { c with
    rxBuffer := copyPartial c.rxBuffer cpyStart (rest.take cpyLen)
    msgIdx := c.msgIdx + UInt32.ofNat cpyLen }
  let l := { l with msgRemLen := l.msgRemLen - UInt32.ofNat cpyLen }
  if l.msgRemLen = 0 ∨ cpyLen = bufferSpace then
    let res := h c l.fixedHdrIdx (cpyStart + cpyLen - l.fixedHdrIdx) l.msgRemLen
    let c := { c with app := res.1 }
    if res.2 ≠ connectAccepted then
      (c, l, rest.drop cpyLen, res.2)
    else if l.msgRemLen = 0 then
      ({ c with msgIdx := 0 }, { l with fixedHdrIdx := 0 }, rest.drop cpyLen, connectAccepted)
    else
      (c, l, rest.drop cpyLen, connectAccepted)
  else
    (c, l, rest.drop cpyLen, connectAccepted)

/-- One turn of the loop, on what is left of the piece. -/
def iterate {σ : Type} (h : Handler σ) (c : Rx σ) (l : Locals) (rest : List UInt8) :
    Except Fault (Rx σ × Locals × List UInt8 × Status) :=
  if l.fixedHdrIdx < 2 ∨ l.b &&& 0x80 ≠ 0 then do
    let r ← headerByte c l rest
    let s ← headerLength h r.1 r.2.1
    return (s.1, s.2, r.2.2, connectAccepted)
  else
    .ok (copyBody h c l rest)

/-- The loop: while there is something left of the piece. -/
def parseLoop {σ : Type} (h : Handler σ) :
    Nat → Rx σ → Locals → List UInt8 → Except Fault (Rx σ × Status)
  | 0, _, _, _ => .error .hang
  | fuel + 1, c, l, rest =>
    if rest.isEmpty then
      .ok (c, connectAccepted)
    else do
      let r ← iterate h c l rest
      if r.2.2.2 ≠ connectAccepted then
        return (r.1, r.2.2.2)
      else
        parseLoop h fuel r.1 r.2.1 r.2.2.1

/-- `mqtt_parse_incoming`. -/
def parseIncoming {σ : Type} (h : Handler σ) (c : Rx σ) (p : List UInt8) :
    Except Fault (Rx σ × Status) :=
  parseLoop h (p.length + varHeaderBufferLen) c ⟨0, 0, 0⟩ p

/-- The pieces of data one after the other, as long as the parser does not close the
    connection. -/
def receive {σ : Type} (h : Handler σ) (c : Rx σ) :
    List (List UInt8) → Except Fault (Rx σ × Status)
  | [] => .ok (c, connectAccepted)
  | p :: ps => do
    let r ← parseIncoming h c p
    if r.2 ≠ connectAccepted then return r else receive h r.1 ps

end Mqtt

end RtosLwip
