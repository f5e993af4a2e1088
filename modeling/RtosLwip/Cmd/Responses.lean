import RtosLwip.Base.Bytes
import RtosLwip.Cmd.Request

/-!
# Frames, Replies and Requests

The frame of an IP command: a tag in the byte order of the processor, the length
of what follows in network order, the JSON text and its CRC-32 in network order.
The length counts the header and the text, so it is also the offset of the
checksum.

The output buffer holds every text that is printed here, so that the limits that
the source hands to `snprintf` do not cut anything off.

## Main definitions

* `cmnMuxCRC32b`: The checksum.
* `extIpCmdResponseTailCalculate`: The frame around a text.
* `extIpCmdResponseHeaderPrint`, `extIpCmdRequestHeaderPrint`: The beginning of
  the text.
* `extIpCmdPrintMediaCfg`: The media parameters.
* `extJsonResponsePrintConfig`: The reply with the configuration.
* `mediaFrame`: What `extIpCmdSendMediaData` sends.
-/

namespace RtosLwip

namespace Cmd

/-- One bit of the checksum. -/
def crcBit (crc : UInt32) : UInt32 := (crc >>> 1) ^^^ (0xEDB88320 &&& (0 - (crc &&& 1)))

/-- One byte of the checksum. -/
def crcByte (crc : UInt32) (b : UInt8) : UInt32 := crcBit^[8] (crc ^^^ b.toUInt32)

/-- `cmnMuxCRC32b` -/
def cmnMuxCRC32b (message : List UInt8) : UInt32 := ~~~ message.foldl crcByte 0xFFFFFFFF

/-- `IPCMD_HEADER_LENGTH` -/
def ipcmdHeaderLength : Nat := 4

/-- `CMD_TAG_REQUEST` -/
def cmdTagRequest : UInt16 := 0xA0FA

/-- `CMD_TAG_RESPONSE` -/
def cmdTagResponse : UInt16 := 0xA0FB

/-- `htons`, and `ntohs`. -/
def htons (v : UInt16) : UInt16 := (v <<< 8) ||| (v >>> 8)

/-- `htonl` -/
def htonl (v : UInt32) : UInt32 :=
  v <<< 24 ||| v <<< 8 &&& (0xFF0000 : UInt32) ||| v >>> 8 &&& (0xFF00 : UInt32) ||| v >>> 24

/-- The bytes of a value as the processor stores it. -/
def bytes16 (v : UInt16) : List UInt8 := [v.toUInt8, (v >>> 8).toUInt8]

/-- The bytes of a value as the processor stores it. -/
def bytes32 (v : UInt32) : List UInt8 :=
  [v.toUInt8, (v >>> 8).toUInt8, (v >>> 16).toUInt8, (v >>> 24).toUInt8]

/-- `extIpCmdResponseTailCalculate`: The frame of a text that still needs its
    closing brace. -/
def extIpCmdResponseTailCalculate (json : List UInt8) (isRequest : Bool) : List UInt8 :=
  let data := json ++ [125]
  bytes16 (if isRequest then cmdTagRequest else cmdTagResponse) ++
    bytes16 (htons (data.length + ipcmdHeaderLength).toUInt16) ++ data ++
    bytes32 (htonl (cmnMuxCRC32b data))

/-- A text within quotes. -/
def quoted (text : List UInt8) : List UInt8 := 34 :: text ++ [34]

/-- A key and a colon. -/
def keyPrint (key : Key) : List UInt8 := quoted key.text ++ [58]

/-- A key with a number. -/
def numberField (key : Key) (n : Nat) : List UInt8 := keyPrint key ++ dec n

/-- A key with a string. -/
def stringField (key : Key) (text : List UInt8) : List UInt8 := keyPrint key ++ quoted text

/-- `extIpCmdResponseHeaderPrint` -/
def extIpCmdResponseHeaderPrint (cfg : RuntimeCfg) (p : Parser) : List UInt8 :=
  123 :: stringField .target (macPrint cfg.local.mac) ++ [44] ++
    stringField .command p.cmd.val ++ [44] ++
    stringField .loginAck (if p.status = .ok then ascii "OK" else ascii "NOK") ++ [44] ++
    stringField .pwdMsg (if p.status = .ok then ascii "OK" else cstr p.msg)

/-- `extIpCmdRequestHeaderPrint` -/
def extIpCmdRequestHeaderPrint (cfg : RuntimeCfg) (cmd : List UInt8) : List UInt8 :=
  123 :: stringField .target (macPrint cfg.dest.mac) ++ [44] ++
    stringField .command cmd ++ [44] ++
    stringField .loginAck cfg.user.val ++ [44] ++
    stringField .pwdMsg cfg.password.val

/-- `extIpCmdPrintMediaCfg` -/
def extIpCmdPrintMediaCfg (cfg : RuntimeCfg) : List UInt8 :=
  numberField .isMcast (if cfg.isMCast ≠ 0 then 1 else 0) ++ [44] ++
    stringField .mcastIp (ip4addrNtoa cfg.dest.ip) ++ [44] ++
    numberField .videoPort cfg.dest.vport.toNat ++ [44] ++
    numberField .audioPort cfg.dest.aport.toNat ++ [44] ++
    numberField .adPort cfg.dest.dport.toNat ++ [44] ++
    numberField .stPort cfg.dest.sport.toNat ++ [44] ++
    numberField .videoWidth cfg.runtime.vWidth.toNat ++ [44] ++
    numberField .videoHeight cfg.runtime.vHeight.toNat ++ [44] ++
    numberField .videoFramerate cfg.runtime.vFrameRate.toNat ++ [44] ++
    numberField .videoDepth cfg.runtime.vDepth.toNat ++ [44] ++
    numberField .videoSegmented cfg.runtime.vIsSegmented.toNat ++ [44] ++
    stringField .videoColorspace
      (extCmnStringFind .vColorSpace cfg.runtime.vColorSpace.toUInt16) ++ [44] ++
    numberField .audioSampeRate cfg.runtime.aSampleRate.toNat ++ [44] ++
    numberField .audioDepth cfg.runtime.aDepth.toNat ++ [44] ++
    numberField .audioChannels cfg.runtime.aChannels.toNat ++ [44] ++
    numberField .isConnect cfg.runtime.isConnect.toNat

/-- `%02d` of a byte. -/
def dec2 (b : UInt8) : List UInt8 := if b < 10 then 48 :: dec b.toNat else dec b.toNat

/-- The text of `extJsonResponsePrintConfig`. -/
def responseConfig (cfg : RuntimeCfg) (p : Parser) : List UInt8 :=
  extIpCmdResponseHeaderPrint cfg p ++ [44] ++
    keyPrint .dataArray ++ [91, 123] ++
    stringField .pName (ascii "SdiOverIP-767") ++ [44] ++
    stringField .model (ascii "500767-" ++ if cfg.isTransmitter then ascii "TX" else ascii "RX") ++
    [44] ++
    stringField .fwVer (dec2 cfg.version.major ++ [46] ++ dec2 cfg.version.minor ++ [46] ++
      dec2 cfg.version.revision) ++ [44] ++
    stringField .cName cfg.name.val ++ [44] ++
    stringField .mac (macPrint cfg.local.mac) ++ [44] ++
    stringField .ip (ip4addrNtoa cfg.netifIp) ++ [44] ++
    stringField .mask (ip4addrNtoa cfg.ipMask) ++ [44] ++
    stringField .gateway (ip4addrNtoa cfg.ipGateway) ++ [44] ++
    numberField .dhcp (if cfg.dhcpIsEnable then 1 else 0) ++ [44] ++
    numberField .isDip (if cfg.dipOn then 1 else 0) ++ [44] ++
    stringField .backupMcIp (ip4addrNtoa cfg.ipMulticast) ++ [44] ++
    keyPrint .rsBaudrate ++ decInt cfg.rs232Cfg.baudRate.toInt32.toInt ++ [44] ++
    numberField .rsDatabits cfg.rs232Cfg.charLength.toNat ++ [44] ++
    stringField .rsParity (extCmnStringFind .rsParity cfg.rs232Cfg.parityType.toUInt16) ++ [44] ++
    numberField .rsStopbits cfg.rs232Cfg.stopbits.toNat ++ [44] ++
    extIpCmdPrintMediaCfg cfg ++ [125, 93]

/-- `extIpCmdResponseReply` -/
def extIpCmdResponseReply (cfg : RuntimeCfg) (p : Parser) : Parser :=
  { p with out := extIpCmdResponseTailCalculate (extIpCmdResponseHeaderPrint cfg p) false }

/-- `extJsonResponsePrintConfig` -/
def extJsonResponsePrintConfig (cfg : RuntimeCfg) (p : Parser) : Parser :=
  { p with out := extIpCmdResponseTailCalculate (responseConfig cfg p) false }

@[simp] theorem extIpCmdResponseReply_out (cfg : RuntimeCfg) (p : Parser) :
    (extIpCmdResponseReply cfg p).out =
      extIpCmdResponseTailCalculate (extIpCmdResponseHeaderPrint cfg p) false := rfl

@[simp] theorem extJsonResponsePrintConfig_out (cfg : RuntimeCfg) (p : Parser) :
    (extJsonResponsePrintConfig cfg p).out =
      extIpCmdResponseTailCalculate (responseConfig cfg p) false := rfl

/-- The text of `extIpCmdSendMediaData` up to its closing brace. -/
def mediaText (cfg : RuntimeCfg) : List UInt8 :=
  extIpCmdRequestHeaderPrint cfg (ascii "set_param") ++ [44] ++
    keyPrint .dataArray ++ [91, 123] ++ extIpCmdPrintMediaCfg cfg ++ [125, 93]

/-- The frame that `extIpCmdSendMediaData` builds. -/
def mediaFrame (cfg : RuntimeCfg) (isRequest : Bool) : List UInt8 :=
  extIpCmdResponseTailCalculate (mediaText cfg) isRequest

end Cmd

end RtosLwip
