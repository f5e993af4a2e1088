import RtosLwip.Base.Bytes
import RtosLwip.Flash.Transfer

/-!
# The TFTP Server

`tftpServer.c`. There is one session at a time, kept in one static state. A
request opens it and enters its sender, and from then on every packet of
another sender is refused. A transfer ends in `_tftpCloseHandle`, which is
also where it ends when something went wrong.

The file callbacks are those of `cmnUploadFile.c`. Opening a file prepares the
staging region of the flash whichever way the transfer goes, and reading one is
not implemented.

What the server does to its surroundings is written down in a history, newest
effect first: the files it opens, the blocks it passes on, the operations it
issues to the SPI flash and how they went, the records it saves, and the
packets it sends. The records saved are read off the operations issued to the
internal flash.

A step takes a packet or a tick of the timer. Which flash operations succeed
and whether there is memory for the packets to be sent is part of the step.

## Main definitions

* `Server`: `_tftpState`, the upload context and the history.
* `closeHandle`, `sendData`, `tftpTmr`, `tftpRecv`: The functions of the source.
* `Event`, `Server.step`: The server's runs.
-/

namespace RtosLwip

namespace Tftp

open Flash

/-- `TFTP_MAX_PAYLOAD_SIZE`. -/
def maxPayloadSize : Nat := 512

/-- `TFTP_HEADER_LENGTH`. -/
def headerLength : Nat := 4

/-- `TFTP_MAX_FILENAME_LEN`. -/
def maxFilenameLen : Nat := 20

/-- `TFTP_MAX_MODE_LEN`. -/
def maxModeLen : Nat := 10

/-- `TFTP_MAX_RETRIES`. -/
def maxRetries : Nat := 5

/-- `TFTP_TIMEOUT_MSECS / TFTP_TIMER_MSECS`. -/
def timeoutTicks : Int := 10000 / 50

/-- `enum tftp_error`. -/
inductive ErrorCode where
  | fileNotFound
  | accessViolation
  | diskFull
  | illegalOperation
  | unknownTrfrId
  | fileExists
  | noSuchUser
  deriving DecidableEq, Repr

/-- Where a packet comes from or goes to. -/
structure Peer where
  addr : UInt32
  port : UInt16
  deriving DecidableEq, Repr

/-- `last_data`: the number of the block it carries, and its length. -/
structure LastData where
  blknum : UInt16
  totLen : Nat
  deriving DecidableEq, Repr

/-- A packet of the server. -/
inductive Reply where
  | ack (blknum : UInt16)
  | data (packet : LastData)
  | error (code : ErrorCode) (text : String)
  deriving DecidableEq, Repr

/-- What the server does to its surroundings. -/
inductive Effect where
  | opened (isWrite : Bool) (fname : List UInt8)
  | wrote (blknum : UInt16) (bytes : List UInt8)
  | spi (op : FlashOp) (ok : Bool)
  | saved (info : FmUpdate)
  | sent (peer : Peer) (reply : Reply)
  deriving DecidableEq, Repr

variable {ρ : Type}

/-- What was issued to the SPI flash between two states of the device. -/
def spiEffects (hw : UploadHw) (d d' : Device ρ) : List Effect :=
  (((d'.flash.ops.zipIdx).drop d.flash.ops.length).map fun x => .spi x.1 (hw.spi x.2)).reverse

/-- The records saved between two states of the device. -/
def savedEffects (d d' : Device ρ) : List Effect :=
  ((d'.efcOps.drop d.efcOps.length).filterMap fun op =>
    match op with
    | .writeCfg _ cfg => some (.saved cfg.firmUpdateInfo)
    | _ => none).reverse

/-- What was issued to both flashes; the callbacks save last. -/
def issued (hw : UploadHw) (d d' : Device ρ) : List Effect :=
  savedEffects d d' ++ spiEffects hw d d'

/-- `struct tftp_state`. `handle` says whether there is one; it points to the
    upload context, which stays where it is. No peer is the port and the
    address 0. `armed` counts the timeouts of `_tftpTmr` that are pending. -/
structure Server (ρ : Type) where
  ctx : TftpContext ρ
  handle : Bool
  lastData : Option LastData
  addr : UInt32
  port : UInt16
  timer : Int
  lastPkt : Int
  blknum : UInt16
  retries : Nat
  modeWrite : Bool
  armed : Nat
  history : List Effect

/-- The state behind `tftp_init`, on a device whose record the bootloader has
    cleared. -/
def Server.start (dev : Device ρ) : Server ρ where
  ctx := ⟨dev.cancel, 0, Nat.zero_le _⟩
  handle := false
  lastData := none
  addr := 0
  port := 0
  timer := 0
  lastPkt := 0
  blknum := 0
  retries := 0
  modeWrite := false
  armed := 0
  history := []

/-- What a step finds: the flashes, and whether `pbuf_alloc` has memory for a
    reply and for the data of a file. -/
structure Env where
  hw : UploadHw
  reply : Bool
  data : Bool

/-- The sender of the current session. -/
def Server.peer (s : Server ρ) : Peer := ⟨s.addr, s.port⟩

/-- Write down an effect. -/
def Server.emit (e : Effect) (s : Server ρ) : Server ρ :=
  { s with history := e :: s.history }

/-- The device after a callback, with what the callback issued. -/
def Server.device (hw : UploadHw) (c : TftpContext ρ) (s : Server ρ) : Server ρ :=
  { s with ctx := c, history := issued hw s.ctx.dev c.dev ++ s.history }

/-- `_tftpCloseHandle`. `sys_untimeout` takes one timeout off. -/
def closeHandle (env : Env) (s : Server ρ) : Server ρ :=
  let s := { s with port := 0, addr := 0, lastData := none, armed := s.armed - 1 }
  if s.handle then
    { s.device env.hw { s.ctx with dev := extTftpClose env.hw s.ctx } with handle := false }
  else
    s

/-- `pbuf_alloc` and `udp_sendto` of a packet. -/
def sendTo (env : Env) (peer : Peer) (reply : Reply) (s : Server ρ) : Server ρ :=
  if env.reply then s.emit (.sent peer reply) else s

/-- `_tftpSendError`. -/
def sendError (env : Env) (peer : Peer) (code : ErrorCode) (text : String) (s : Server ρ) :
    Server ρ :=
  sendTo env peer (.error code text) s

/-- `_tftpSendAck`. -/
def sendAck (env : Env) (blknum : UInt16) (s : Server ρ) : Server ρ :=
  sendTo env s.peer (.ack blknum) s

/-- `_tftpResendData`, with `last_data`. -/
def resendData (env : Env) (packet : LastData) (s : Server ρ) : Server ρ :=
  sendTo env s.peer (.data packet) s

/-- `_extTftpRead`: not implemented on the board. -/
def extTftpRead (_c : TftpContext ρ) (_bytes : Nat) : Int := -1

/-- `_tftpSendData`. -/
def sendData (env : Env) (s : Server ρ) : Server ρ :=
  if env.data then
    let ret := extTftpRead s.ctx maxPayloadSize
    if ret < 0 then
      closeHandle env (sendError env s.peer .accessViolation
        "Error occured while reading the file."
        { s with lastData := some ⟨s.blknum, headerLength + maxPayloadSize⟩ })
    else
      let packet := ⟨s.blknum, headerLength + ret.toNat⟩
      resendData env packet { s with lastData := some packet }
  else
    { s with lastData := none }

/-- `CANCEL_UPDATE` of the running configuration. -/
def Server.cancel (s : Server ρ) : Server ρ :=
  { s with ctx := { s.ctx with dev := s.ctx.dev.cancel, room := s.ctx.room } }

/-- `_tftpTmr`. A tick comes only where a timeout is pending. -/
def tftpTmr (env : Env) (s : Server ρ) : Server ρ :=
  let s := { s with armed := s.armed - 1, timer := s.timer + 1 }
  if s.handle = false then
    s
  else
    let s := { s with armed := s.armed + 1 }
    if timeoutTicks < s.timer - s.lastPkt then
      match s.lastData with
      | some packet =>
        if s.retries < maxRetries then
          { resendData env packet s with retries := s.retries + 1 }
        else
          closeHandle env s.cancel
      | none => closeHandle env s.cancel
    else
      s

/-- A datagram: its bytes, and what the memory behind them holds, which the
    header of a short one is read from. -/
structure Datagram where
  peer : Peer
  bytes : List UInt8
  behind : List UInt8

/-- `opcode`. -/
def Datagram.opcode (p : Datagram) : UInt16 := load16 (p.bytes ++ p.behind) 0

/-- The block number of a DATA or an ACK. -/
def Datagram.blknum (p : Datagram) : UInt16 := load16 (p.bytes ++ p.behind) 2

/-- The payload behind `pbuf_header`, which does nothing to a packet that is
    shorter than the header. -/
def Datagram.payload (p : Datagram) : List UInt8 :=
  if headerLength ≤ p.bytes.length then p.bytes.drop headerLength else p.bytes

/-- `pbuf_memfind` of a NUL. -/
def memfindNul (bytes : List UInt8) (start : Nat) : Nat :=
  match (bytes.drop start).findIdx? (· = 0) with
  | some i => start + i
  | none => 0xFFFF

/-- Whether `_tftpRecv` refuses a packet of this sender at once. -/
def Server.refuses (s : Server ρ) (peer : Peer) : Bool :=
  (s.port ≠ 0 && peer.port ≠ s.port) || (s.addr ≠ 0 && s.addr ≠ peer.addr)

/-- What a request names, or the text it is answered with. -/
def Datagram.request (p : Datagram) : Except String (List UInt8) :=
  let filenameEnd := memfindNul p.bytes 2
  if maxFilenameLen < filenameEnd - 2 then
    .error "Filename too long/not NULL terminated"
  else
    let modeEnd := memfindNul p.bytes (filenameEnd + 1)
    if maxModeLen < modeEnd - filenameEnd then
      .error "Mode too long/not NULL terminated"
    else
      .ok ((p.bytes.drop 2).take (filenameEnd - 2))

/-- `TFTP_RRQ` and `TFTP_WRQ`. The file is opened whichever it is. -/
def recvRequest (env : Env) (isWrite : Bool) (p : Datagram) (s : Server ρ) : Server ρ :=
  if s.handle then
    sendError env p.peer .accessViolation "Only one connection at a time is supported" s
  else
    let s := { s with armed := s.armed + 1 }
    match p.request with
    | .error text => sendError env p.peer .accessViolation text s
    | .ok fname =>
      let s := (s.emit (.opened isWrite fname)).device env.hw
        (extTftpOpen env.hw fname s.ctx.dev)
      let s := { s with handle := true, blknum := 1, addr := p.peer.addr, port := p.peer.port }
      if isWrite then
        sendAck env 0 { s with modeWrite := true, blknum := 0 }
      else
        sendData env { s with modeWrite := false }

/-- A block of a write transfer that is the next one. -/
def storeBlock (env : Env) (blknum : UInt16) (payload : List UInt8) (peer : Peer)
    (s : Server ρ) : Server ρ :=
  let s := { s with blknum := blknum }
  let w := extTftpWrite env.hw payload s.ctx
  -- the callback reports a failure as EXIT_FAILURE, which is not below zero
  let ret := if w.1 then 0 else exitFailure
  let s := (s.emit (.wrote blknum payload)).device env.hw w.2
  let s :=
    if ret < 0 then
      closeHandle env (sendError env peer .accessViolation "error writing file" s)
    else
      sendAck env blknum s
  if payload.length < maxPayloadSize then closeHandle env s else s

/-- `TFTP_DATA`. -/
def recvData (env : Env) (p : Datagram) (s : Server ρ) : Server ρ :=
  if s.handle = false then
    sendError env p.peer .accessViolation "No connection" s
  else if s.modeWrite = false then
    sendError env p.peer .accessViolation "Not a write connection" s
  else if p.blknum = s.blknum then
    sendAck env p.blknum s
  -- the successor is an int: there is none behind 65535
  else if p.blknum.toNat ≠ s.blknum.toNat + 1 then
    closeHandle env (sendError env p.peer .accessViolation "error writing file" s)
  else
    storeBlock env p.blknum p.payload p.peer s

/-- `TFTP_ACK`. -/
def recvAck (env : Env) (p : Datagram) (s : Server ρ) : Server ρ :=
  if s.handle = false then
    sendError env p.peer .accessViolation "No connection" s
  else if s.modeWrite then
    sendError env p.peer .accessViolation "Not a read connection" s
  else if p.blknum ≠ s.blknum then
    sendError env p.peer .unknownTrfrId "Wrong block number" s
  else
    let lastpkt : Bool := match s.lastData with
      | some packet => packet.totLen ≠ maxPayloadSize + headerLength
      | none => false
    if lastpkt then
      closeHandle env s
    else
      sendData env { s with blknum := s.blknum + 1 }

/-- `_tftpRecv`. -/
def tftpRecv (env : Env) (p : Datagram) (s : Server ρ) : Server ρ :=
  if s.refuses p.peer then
    sendError env p.peer .accessViolation "Only one connection at a time is supported" s
  else
    let s := { s with lastPkt := s.timer, retries := 0 }
    if p.opcode = 1 then recvRequest env false p s
    else if p.opcode = 2 then recvRequest env true p s
    else if p.opcode = 3 then recvData env p s
    else if p.opcode = 4 then recvAck env p s
    else sendError env p.peer .illegalOperation "Unknown operation" s

/-- What can happen to the server. -/
inductive Event where
  | packet (p : Datagram)
  | tick

/-- One step: a packet is received, or a pending timeout expires. -/
def Server.step (s : Server ρ) (e : Env × Event) : Server ρ :=
  match e.2 with
  | .packet p => tftpRecv e.1 p s
  | .tick => if s.armed = 0 then s else tftpTmr e.1 s

end Tftp

end RtosLwip
