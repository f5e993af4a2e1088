import RtosLwip.Cmd.Setup

/-!
# Handling a Command

A datagram from its arrival to the reply: the check of the frame, the tokens,
the command and its handler. The parser, its tokens and the read buffer are
kept from one datagram to the next.

What the check of the frame fetches from the buffer and what it subtracts is
written down along with its result, so that it can be compared with the size of
the datagram.

## Main definitions

* `Outcome`: What a handler leaves.
* `extJsonUserValidate`, `extIpCmdIsLocal`: Who may send a command.
* `extCmdGetParams`, `extIpCmdSetupParams`, `extIpCmdSendRsData`,
  `extIpCmdSecurityCheck`: The handlers.
* `extJsonHandle`: The command table.
* `swapLength`, `checkFrame`: The check of the frame.
* `extCmdPaserHandler`: All of it.
* `receive`, `extUdpCmdThread`: A datagram, with its reply.
-/

namespace RtosLwip

namespace Cmd

/-- What a handler leaves. `ret` is set for `EXIT_SUCCESS`. -/
structure Outcome where
  ret : Bool
  cfg : RuntimeCfg
  parser : Parser
  effects : List Effect
  deriving DecidableEq

/-- `extJsonUserValidate`. The comparisons end with the texts that are
    configured. -/
def extJsonUserValidate (cfg : RuntimeCfg) (p : Parser) : Bool × Parser :=
  match extJsonParseString .loginAck 16 p with
  | (none, p) => (false, p)
  | (some name, p) =>
      if ¬ strncmpEq name cfg.user.val cfg.user.val.length then (false, p)
      else
        match extJsonParseString .pwdMsg 16 p with
        | (none, p) => (false, p)
        | (some name, p) =>
            if ¬ strncmpEq name cfg.password.val cfg.password.val.length then
              (false, p.print (ascii "'" ++ name ++ ascii "' authentication failed"))
            else (true, p)

/-- `extIpCmdIsLocal` -/
def extIpCmdIsLocal (cfg : RuntimeCfg) (p : Parser) : Bool × Parser :=
  match extJsonUserValidate cfg p with
  | (false, p) => (false, p)
  | (true, p) =>
      if p.target ≠ cfg.local.mac then (false, p.print (ascii "'targ' is not my address"))
      else (true, p)

/-- The targets that `get_param` answers to. -/
def isAddressed (cfg : RuntimeCfg) (p : Parser) : Bool :=
  p.target = cfg.local.mac || p.target.isBoardcast || p.target = cfg.dest.mac

/-- `_extCmdGetParams`. The address of the server is written whether it was
    given or not. -/
def extCmdGetParams (cfg : RuntimeCfg) (p : Parser) : Outcome :=
  match extJsonUserValidate cfg p with
  | (false, p) => ⟨false, cfg, p, []⟩
  | (true, p) =>
      if ¬ isAddressed cfg p then
        ⟨false, cfg, p.print (ascii "'targ' is not boardcast or local address"), []⟩
      else
        let (ip, p) := extJsonParseIpAddress .svr811Ip p
        let (port, p) := extJsonParseUnsignedShort .svr811Port p
        let cfg := { cfg with ipSvr811 := ip.1, portSvr811 := port.getD cfg.portSvr811 }
        ⟨true, cfg, extJsonResponsePrintConfig cfg p, []⟩

/-- `_extJsonIsResponse` without its event. -/
def extJsonIsResponse (p : Parser) : Bool × Parser :=
  match extJsonParseString .loginAck 16 p with
  | (none, p) => (false, p)
  | (some name, p) =>
      if ¬ strncmpEq name (ascii "OK") 2 ∧ ¬ strncmpEq name (ascii "NOK") 3 then (false, p)
      else (true, { p with out := [] })

/-- `extIpCmdSetupParams` -/
def extIpCmdSetupParams (cfg : RuntimeCfg) (p : Parser) : Outcome :=
  match extJsonIsResponse p with
  | (true, p) => ⟨true, cfg, p, [.mediaAck]⟩
  | (false, p) =>
      match extIpCmdIsLocal cfg p with
      | (false, p) => ⟨false, cfg, p, []⟩
      | (true, p) =>
          match extJsonRequestParse cfg p with
          | .error p => ⟨false, cfg, { p with status := .parseParamError }, []⟩
          | .ok (rx, p) =>
              let s := compareAll rx cfg
              ⟨true, s.cfg, extJsonResponsePrintConfig s.cfg p, s.effects ++ setupEffects rx s⟩

/-- `_rs232SendHexStr`: The bytes that are sent before the end of the text or
    the first pair of characters that is no byte. -/
def rs232SendHexStr : List UInt8 → List UInt8 × Bool
  | a :: b :: rest =>
      let r := extSysAtoInt8 [a, b]
      if ¬ r.2 then ([], false)
      else (r.1 :: (rs232SendHexStr rest).1, (rs232SendHexStr rest).2)
  | _ => ([], true)

/-- A failure of a handler, with its message. -/
def parseFailed (cfg : RuntimeCfg) (p : Parser) (text : List UInt8) (effects : List Effect) :
    Outcome :=
  ⟨false, cfg, p.paramError text, effects⟩

/-- The message for a value of `send_data_rs232` that cannot be read. -/
def noValue (key : Key) : List UInt8 :=
  ascii "No '" ++ key.text ++ ascii "' is found or it is invalidate value"

/-- `extIpCmdSendRsData` -/
def extIpCmdSendRsData (cfg : RuntimeCfg) (p : Parser) : Outcome :=
  match extIpCmdIsLocal cfg p with
  | (false, p) => ⟨false, cfg, p, []⟩
  | (true, p) =>
      match extJsonParseDataArray p with
      | (false, p) => parseFailed cfg p (ascii "No 'Data' array is found") []
      | (true, p) =>
          match extJsonParseString .rs232DataHex 128 p with
          | (none, p) => parseFailed cfg p (noValue .rs232DataHex) []
          | (some hexData, p) =>
              match extJsonParseUnsignedShort .rs232WaitTime p with
              | (none, p) => parseFailed cfg p (noValue .rs232WaitTime) []
              | (some _, p) =>
                  match extJsonParseUnsignedChar .rs232Feedback p with
                  | (none, p) => parseFailed cfg p (noValue .rs232Feedback) []
                  | (some _, p) =>
                      let r := rs232SendHexStr hexData
                      let effects := r.1.map .rs232Write
                      if ¬ r.2 then
                        parseFailed cfg p (ascii "'" ++ hexData ++
                          ascii "' is not validate when sent to RS232") effects
                      else
                        ⟨true, cfg, extIpCmdResponseReply cfg { p with status := .ok }, effects⟩

/-- The reply of `_securityCheckId`. The identifier is the text 1234567 with its
    NUL. -/
def securityCheckId (cfg : RuntimeCfg) (p : Parser) : Parser :=
  let p := { p with status := .ok }
  { p with
    out := extIpCmdResponseTailCalculate (extIpCmdResponseHeaderPrint cfg p ++ 44 ::
      keyPrint .dataArray ++ [91, 123] ++ stringField .scGetId (ascii "3132333435363700") ++
      [125, 93]) false }

/-- `extIpCmdSecurityCheck`. The media parameters are sent to the server before
    anything is checked. -/
def extIpCmdSecurityCheck (cfg : RuntimeCfg) (p : Parser) : Outcome :=
  let frame := mediaFrame cfg false
  let effects := [.sendto frame cfg.ipSvr811 cfg.portSvr811]
  let p := { p with status := .ok, out := frame }
  match extIpCmdIsLocal cfg p with
  | (false, p) => ⟨false, cfg, p, effects⟩
  | (true, p) =>
      match extJsonParseDataArray p with
      | (false, p) => parseFailed cfg p (ascii "No 'Data' array is found") effects
      | (true, p) =>
          match extJsonParseString .scSetKey 32 p with
          | (some _, p) => ⟨true, cfg, extIpCmdResponseReply cfg { p with status := .ok }, effects⟩
          | (none, p) =>
              match extJsonParseString .scGetStatus 32 p with
              | (some _, p) =>
                  ⟨true, cfg, extIpCmdResponseReply cfg { p with status := .ok }, effects⟩
              | (none, p) =>
                  match extJsonParseString .scGetId 32 p with
                  | (none, p) =>
                      parseFailed cfg p (ascii "No validate sub-command is found for '" ++
                        ascii "security_check'") effects
                  | (some _, p) => ⟨true, cfg, securityCheckId cfg p, effects⟩

/-- The commands. -/
inductive Command where
  | getParams
  | setParams
  | sendRs232
  | securityCheck
  deriving DecidableEq

def Command.text : Command → List UInt8
  | getParams => ascii "get_param"
  | setParams => ascii "set_param"
  | sendRs232 => ascii "send_data_rs232"
  | securityCheck => ascii "security_check"

/-- The handlers of `_extCmdTable`. -/
def Command.handler : Command → RuntimeCfg → Parser → Outcome
  | getParams => extCmdGetParams
  | setParams => extIpCmdSetupParams
  | sendRs232 => extIpCmdSendRsData
  | securityCheck => extIpCmdSecurityCheck

/-- The entry of `_extCmdTable` for a text that begins with the name of a
    command. -/
def commandOf (cmd : List UInt8) : Option Command :=
  [Command.getParams, .setParams, .sendRs232, .securityCheck].find? fun c =>
    strncasecmpEq c.text cmd c.text.length

/-- The status that `extJsonHandle` leaves behind a handler. -/
def Outcome.settle (o : Outcome) : Outcome :=
  if o.ret then o else { o with parser := { o.parser with status := .parseParamError } }

/-- `extJsonHandle` -/
def extJsonHandle (cfg : RuntimeCfg) (p : Parser) : Outcome :=
  match commandOf p.cmd.val with
  | none => parseFailed cfg p (ascii "No command '" ++ p.cmd.val ++ ascii "' is found!") []
  | some c => (c.handler cfg p).settle

/-- The bytes at an offset. Behind the end of the buffer they are taken to be
    zero. -/
def bytesAt (buf : List UInt8) (off n : Nat) : List UInt8 :=
  (buf.drop off).take n ++ List.replicate (n - (buf.length - off)) 0

/-- A 16-bit value as the processor reads it. -/
def le16 (bytes : List UInt8) : UInt16 :=
  (load8 bytes 0).toUInt16 ||| (load8 bytes 1).toUInt16 <<< 8

/-- A 32-bit value as the processor reads it. -/
def le32 (bytes : List UInt8) : UInt32 :=
  (le16 bytes).toUInt32 ||| (le16 (bytes.drop 2)).toUInt32 <<< 16

theorem le16_bytes16 (v : UInt16) (rest : List UInt8) : le16 (bytes16 v ++ rest) = v := by
  have hlow : load8 (bytes16 v ++ rest) 0 = v.toUInt8 := rfl
  have hhigh : load8 (bytes16 v ++ rest) 1 = (v >>> 8).toUInt8 := rfl
  rw [le16, hlow, hhigh, UInt16.or_comm, join16]

/-- The four bytes of a value are those of its halves. -/
theorem bytes32_eq (v : UInt32) :
    bytes32 v = bytes16 v.toUInt16 ++ bytes16 (v >>> 16).toUInt16 := by
  have hsecond : (v >>> 8).toUInt8 = (v.toUInt16 >>> 8).toUInt8 := by
    apply UInt8.eq_of_toBitVec_eq
    ext i hi
    simp
    omega
  have hlast : (v >>> 24).toUInt8 = ((v >>> 16).toUInt16 >>> 8).toUInt8 := by
    apply UInt8.eq_of_toBitVec_eq
    ext i hi
    have hindex : 16 + (8 + i) = 24 + i := by omega
    have hlt : 8 + i < 16 := by omega
    simp [hindex, hlt]
  rw [bytes32, hsecond, hlast, bytes16, bytes16, UInt32.toUInt8_toUInt16, UInt32.toUInt8_toUInt16]
  rfl

theorem le32_bytes32 (v : UInt32) : le32 (bytes32 v) = v := by
  have hhigh : (bytes16 v.toUInt16 ++ bytes16 (v >>> 16).toUInt16).drop 2 =
      bytes16 (v >>> 16).toUInt16 ++ [] := rfl
  rw [bytes32_eq, le32, hhigh, le16_bytes16, le16_bytes16, UInt32.or_comm, join32]

/-- What the check of a frame does with the buffer and with the lengths. -/
inductive Access where
  /-- `len` bytes are read. -/
  | read (off len : Nat)
  /-- `b` is subtracted from `a`. -/
  | sub (a b : Nat)
  deriving DecidableEq

abbrev AccessM := StateM (List Access)

/-- Read from the buffer. -/
def fetch (buf : List UInt8) (off n : Nat) : AccessM (List UInt8) :=
  fun log => (bytesAt buf off n, log ++ [.read off n])

/-- Subtract one length from another. -/
def minus (a b : Nat) : AccessM Int :=
  fun log => ((a : Int) - b, log ++ [.sub a b])

/-- The result of the check of a frame. -/
inductive FrameResult where
  | tagError (tag : UInt16)
  | crcError (received decoded : UInt32)
  /-- The text behind the header is handed on, with its length. -/
  | json (len : UInt16)
  deriving DecidableEq

/-- `ipCmd->length = ntohs(ipCmd->length)`: The length is swapped within the buffer. -/
def swapLength (buf : List UInt8) : List UInt8 := store16 2 (htons (load16 buf 2)) buf

/-- The first part of `extCmdPaserHandler`: The check of the frame in a buffer
    that has received `size` bytes. -/
def checkFrame (buf : List UInt8) (size : Nat) : AccessM FrameResult := do
  let length := htons (le16 (← fetch buf 2 2))
  let tag := le16 (← fetch buf 0 2)
  if tag ≠ cmdTagRequest then
    return .tagError tag
  else
    -- the position of the checksum counts from the data, behind the header
    let dataLen ← minus length.toNat ipcmdHeaderLength
    -- the checksum of a length below 4 overlaps the length, which is swapped by now
    let crcReceived := le32 (← fetch (swapLength buf) (ipcmdHeaderLength + dataLen).toNat 4)
    let crcDecoded := htonl (cmnMuxCRC32b (← fetch buf ipcmdHeaderLength dataLen.toNat))
    if crcReceived ≠ crcDecoded then
      return .crcError crcReceived crcDecoded
    else
      let jsonLen ← minus size (ipcmdHeaderLength * 2)
      return .json (UInt16.ofInt jsonLen)

/-- The device, as far as the commands are concerned. -/
structure Device where
  cfg : RuntimeCfg
  parser : Parser
  bufRead : List UInt8
  deriving DecidableEq

/-- A transmitter or a receiver with its factory settings, before the first
    datagram. -/
def Device.factory (isTx : UInt8) : Device where
  cfg := extCfgFromFactory { RuntimeCfg.zero with isTx }
  parser := {
    doc := ⟨⟨List.replicate 100 .zero, 0⟩, []⟩
    status := .ok
    msg := []
    target := .zero
    cmd := .empty 31
    out := [] }
  bufRead := List.replicate 1024 0

/-- The parser after the check of a frame, if its text holds a command for a
    handler. -/
def parseFrame (dev : Device) (size : Nat) : Bool × Parser :=
  match (checkFrame dev.bufRead size []).1 with
  | .tagError tag =>
      (false, { dev.parser.print (ascii "Tag of command is wrong:0x" ++ hex tag.toNat) with
        status := .tagError })
  | .crcError received decoded =>
      (false, { dev.parser.print (ascii "CRC of command is wrong:received CRC: 0x" ++
        hex received.toNat ++ ascii ", Decoded CRC:0x" ++ hex decoded.toNat) with
        status := .crcError })
  | .json len =>
      extJsonRequestParseCommand (dev.bufRead.drop ipcmdHeaderLength) len.toNat
        { dev.parser with msg := [] }

/-- `extCmdPaserHandler` -/
def extCmdPaserHandler (dev : Device) (size : Nat) : Device × List Effect :=
  let bufRead := swapLength dev.bufRead
  match parseFrame dev size with
  | (false, p) => (⟨dev.cfg, extIpCmdResponseReply dev.cfg p, bufRead⟩, [])
  | (true, p) =>
      let o := extJsonHandle dev.cfg p
      if o.ret then (⟨o.cfg, o.parser, bufRead⟩, o.effects)
      else (⟨o.cfg, extIpCmdResponseReply o.cfg o.parser, bufRead⟩, o.effects)

/-- The length of the read buffer. -/
def bufLength : Nat := 1024

/-- The device with a datagram in its read buffer. What does not fit is left
    out, and behind a short one the buffer keeps what was there. -/
def receive (dev : Device) (datagram : List UInt8) : Device :=
  let copied := datagram.take bufLength
  { dev with bufRead := copied ++ dev.bufRead.drop copied.length }

/-- One round of `_extUdpCmdThread`, with `extIpCmdSendout`: A datagram and where
    it comes from. -/
def extUdpCmdThread (dev : Device) (datagram : List UInt8) (ip : UInt32) (port : UInt16) :
    Device × List Effect :=
  let r := extCmdPaserHandler (receive dev datagram) (datagram.take bufLength).length
  (r.1, r.2 ++ if r.1.parser.out = [] then [] else [.sendto r.1.parser.out ip port])

end Cmd

end RtosLwip
