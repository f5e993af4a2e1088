import RtosLwip.Cmd.Config
import RtosLwip.Cmd.Jsmn

/-!
# Reading a Request

The functions of `udpCmdRequest.c`. Each value is looked up by its key and read
by a function for its type; a value that is missing or of another type leaves a
message and an error status in the parser, which later steps may overwrite.

`extJsonRequestParse` reads the parameters of a `set_param` command into a
scratch configuration that was zeroed before. A parameter that is not given is
marked within the values of its own field: by 0, by `IPADDR_NONE` for an
address, and by storing the value plus one for the flags and the enumerations.

## Main definitions

* `Key`, `Key.text`: The keys.
* `Parser`: The parser, with its reply.
* `extJsonParseString`, `extJsonParseUnsignedInteger`, `extJsonParseIpAddress`,
  `extJsonParseMacAddress`: Reading one value.
* `extJsonRequestParse`: The parameters of `set_param`.
* `extJsonRequestParseCommand`: The tokens, the target and the command.
-/

namespace RtosLwip

namespace Cmd

/-- The keys of a request and of a reply. -/
inductive Key where
  | target | command | loginAck | pwdMsg | dataArray
  | pName | cName | model | fwVer | mac | ip | mask | gateway | dhcp
  | isMcast | mcastIp | isDip | backupMcIp
  | rsBaudrate | rsDatabits | rsParity | rsStopbits
  | videoPort | audioPort | adPort | stPort
  | videoWidth | videoHeight | videoFramerate | videoColorspace | videoDepth
  | videoInterlaced | videoSegmented
  | audioSampeRate | audioDepth | audioChannels | isConnect
  | svr811Ip | svr811Port
  | rs232DataHex | rs232Feedback | rs232WaitTime
  | scGetId | scSetKey | scGetStatus
  deriving DecidableEq

def Key.text : Key → List UInt8
  | target => ascii "targ"
  | command => ascii "cmd"
  | loginAck => ascii "login-ack"
  | pwdMsg => ascii "pwd-msg"
  | dataArray => ascii "data"
  | pName => ascii "pName"
  | cName => ascii "cName"
  | model => ascii "model"
  | fwVer => ascii "fwVer"
  | mac => ascii "mac"
  | ip => ascii "ip"
  | mask => ascii "mask"
  | gateway => ascii "gateway"
  | dhcp => ascii "isDhcp"
  | isMcast => ascii "isMCAST"
  | mcastIp => ascii "MCASTip"
  | isDip => ascii "isDipOn"
  | backupMcIp => ascii "bMcIp"
  | rsBaudrate => ascii "RS232Baudrate"
  | rsDatabits => ascii "RS232Databits"
  | rsParity => ascii "RS232Parity"
  | rsStopbits => ascii "RS232Stopbits"
  | videoPort => ascii "vidPort"
  | audioPort => ascii "audPort"
  | adPort => ascii "datPort"
  | stPort => ascii "strPort"
  | videoWidth => ascii "vidW"
  | videoHeight => ascii "vidH"
  | videoFramerate => ascii "vidFps"
  | videoColorspace => ascii "vidClrSpace"
  | videoDepth => ascii "vidDepth"
  | videoInterlaced => ascii "vidIsIntlc"
  | videoSegmented => ascii "vidIsSgmt"
  | audioSampeRate => ascii "audFrq"
  | audioDepth => ascii "audBit"
  | audioChannels => ascii "audChan"
  | isConnect => ascii "IsConnect"
  | svr811Ip => ascii "811Ip"
  | svr811Port => ascii "811Port"
  | rs232DataHex => ascii "hexdata"
  | rs232Feedback => ascii "isFeedback"
  | rs232WaitTime => ascii "waitTime"
  | scGetId => ascii "get_id"
  | scSetKey => ascii "set_key"
  | scGetStatus => ascii "get_status"

/-- `JSON_STATUS_T` -/
inductive JsonStatus where
  | ok
  | parseError
  | parseParamError
  | tagError
  | crcError
  deriving DecidableEq

/-- `EXT_JSON_PARSER`. `out` is the filled part of the output buffer, with its
    header and its checksum. -/
structure Parser where
  doc : Doc
  status : JsonStatus
  msg : List UInt8
  target : MacAddress
  cmd : CString 31
  out : List UInt8
  deriving DecidableEq

namespace Parser

/-- `snprintf` into the message, which has room for 63 characters. -/
def print (text : List UInt8) (p : Parser) : Parser := { p with msg := text.take 63 }

/-- A message with the status of a wrong parameter. -/
def paramError (text : List UInt8) (p : Parser) : Parser :=
  { p.print text with status := .parseParamError }

end Parser

/-- `extJsonParseString` into an array of `size` bytes. -/
def extJsonParseString (key : Key) (size : Nat) (p : Parser) : Option (List UInt8) × Parser :=
  match p.doc.extJsonFindKeyToken key.text with
  | none => (none, p.paramError (ascii "ERROR can't find string '" ++ key.text ++ ascii "' object"))
  | some tok =>
      if tok.type = .string then (some ((p.doc.stringOf tok).take (size - 1)), p)
      else (none, p.paramError (ascii "'" ++ key.text ++ ascii "' was not an string"))

/-- `_extJsonGetPrimitiveValueObject` and `sscanf`. -/
def primitiveValue (key : Key) (p : Parser) : Option Int × Parser :=
  match p.doc.extJsonFindKeyToken key.text with
  | none =>
      (none, p.paramError (ascii "ERROR can't find primitive '" ++ key.text ++ ascii "' object"))
  | some tok =>
      if tok.type = .primitive then (scanInt (p.doc.text.drop tok.start), p)
      else (none, p.paramError (ascii "'" ++ key.text ++ ascii "' was not an primitive"))

/-- `extJsonParseUnsignedInteger` -/
def extJsonParseUnsignedInteger (key : Key) (p : Parser) : Option UInt32 × Parser :=
  ((primitiveValue key p).1.map fitU32, (primitiveValue key p).2)

/-- `extJsonParseUnsignedShort` -/
def extJsonParseUnsignedShort (key : Key) (p : Parser) : Option UInt16 × Parser :=
  ((primitiveValue key p).1.map fun z => (fitU32 z).toUInt16, (primitiveValue key p).2)

/-- `extJsonParseUnsignedChar` -/
def extJsonParseUnsignedChar (key : Key) (p : Parser) : Option UInt8 × Parser :=
  ((primitiveValue key p).1.map fun z => (fitU32 z).toUInt8, (primitiveValue key p).2)

/-- `extJsonParseIpAddress`: The address that is written, and whether the text
    was found. A text that is no address counts as found. -/
def extJsonParseIpAddress (key : Key) (p : Parser) : (UInt32 × Bool) × Parser :=
  match extJsonParseString key 64 p with
  | (none, p) => ((ipaddrNone, false), p)
  | (some s, p) => ((ipaddrAddr s, true), { p with msg := s })

/-- `extJsonParseMacAddress` -/
def extJsonParseMacAddress (key : Key) (mac : MacAddress) (p : Parser) :
    (MacAddress × Bool) × Parser :=
  match extJsonParseString key 64 p with
  | (none, p) => ((mac, false), p)
  | (some s, p) => (extMacAddressParse mac s, { p with msg := s })

/-- `extJsonParseDataArray` -/
def extJsonParseDataArray (p : Parser) : Bool × Parser :=
  match p.doc.extJsonFindKeyToken Key.dataArray.text with
  | none =>
      (false, p.paramError (ascii "ERROR can't find array '" ++ Key.dataArray.text ++
        ascii "' object"))
  | some tok =>
      if tok.type = .array then (true, p)
      else (false, p.paramError (ascii "'" ++ Key.dataArray.text ++ ascii "' was not an array"))

/-- A function that may return early with a failure. -/
abbrev ParseM := StateT Parser (Except Parser)

/-- A step that goes on in any case. -/
def read {α : Type} (f : Parser → α × Parser) : ParseM α := fun p => .ok (f p)

/-- Return early, with a message. -/
def reject {α : Type} (text : List UInt8) : ParseM α := fun p => .error (p.paramError text)

/-- The check of a value that was just read, if there was one. -/
def validate {α : Type} (key : Key) (print : α → List UInt8) (valid : α → Bool)
    (v : Option α) : ParseM Unit :=
  match v with
  | none => pure ()
  | some v =>
      if valid v then pure ()
      else
        reject (ascii "ERROR invalidate value '" ++ print v ++ ascii "' for '" ++ key.text ++
          ascii "' object")

/-- The enumeration of a name that was just read, plus one. -/
def enumeration (strType : StrType) (key : Key) (v : Option (List UInt8)) : ParseM UInt8 :=
  match v with
  | none => pure 0
  | some [] => pure 0
  | some s =>
      match extCmnTypeFind strType s with
      | some type => pure (type + 1).toUInt8
      | none =>
          reject (ascii "ERROR invalidate value '" ++ s ++ ascii "' for '" ++ key.text ++
            ascii "' object")

/-- A flag plus one, as it is stored in a byte. -/
def flagField (v : Option UInt32) : UInt8 :=
  match v with
  | none => 0
  | some v => (v + 1).toUInt8

def validBaudRate (v : UInt32) : Bool :=
  v = 9600 || v = 19200 || v = 38400 || v = 57600 || v = 115200 || v = 0

def validCharLength (v : UInt8) : Bool := v = 5 || v = 6 || v = 7 || v = 8 || v = 0

def validStopbits (v : UInt8) : Bool := v = 1 || v = 2 || v = 0

def validSampleRate (v : UInt16) : Bool := v = 44100 || v = 48000 || v = 0

def validAudioDepth (v : UInt8) : Bool := v = 16 || v = 24 || v = 0

def validAudioChannels (v : UInt8) : Bool := v = 1 || v = 2 || v = 0

/-- The check of a multicast address. It is made when the device itself works
    with multicast addresses. -/
def validateMcastIp (run : RuntimeCfg) (r : UInt32 × Bool) : ParseM Unit :=
  if r.2 && run.multicast && !isMulticast r.1 && r.1 ≠ 0 then
    reject (ascii "ERROR: ''" ++ ip4addrNtoa r.1 ++ ascii "' of '" ++ Key.mcastIp.text ++
      ascii "' object is not multicast address")
  else pure ()

/-- The end of `extJsonRequestParse`: `count`, of which only matters whether it
    is 0. -/
def checkCount (found : Bool) : ParseM Unit := fun p =>
  if found then .ok ((), { p with status := .ok })
  else .error (p.print (ascii "No validate parameter or param type wrong in this command"))

/-- `extJsonRequestParse`, with the configuration of the device and a scratch
    configuration of zeros. -/
def extJsonRequestParse (run : RuntimeCfg) : ParseM RuntimeCfg := do
  let name ← read (extJsonParseString .cName 32)
  let mac ← read (extJsonParseMacAddress .mac .zero)
  let ip ← read (extJsonParseIpAddress .ip)
  let mask ← read (extJsonParseIpAddress .mask)
  let gateway ← read (extJsonParseIpAddress .gateway)
  let dhcp ← read (extJsonParseUnsignedInteger .dhcp)
  let isDip ← read (extJsonParseUnsignedInteger .isDip)
  -- RS232
  let baudRate ← read (extJsonParseUnsignedInteger .rsBaudrate)
  validate .rsBaudrate (fun v => decInt v.toInt32.toInt) validBaudRate baudRate
  let charLength ← read (extJsonParseUnsignedChar .rsDatabits)
  validate .rsDatabits (fun v => dec v.toNat) validCharLength charLength
  let stopbits ← read (extJsonParseUnsignedChar .rsStopbits)
  validate .rsStopbits (fun v => dec v.toNat) validStopbits stopbits
  let parity ← read (extJsonParseString .rsParity 32)
  let parityType ← enumeration .rsParity .rsParity parity
  -- media ip and ports
  let isMCast ← read (extJsonParseUnsignedInteger .isMcast)
  let mcastIp ← read (extJsonParseIpAddress .mcastIp)
  validateMcastIp run mcastIp
  let vport ← read (extJsonParseUnsignedShort .videoPort)
  let aport ← read (extJsonParseUnsignedShort .audioPort)
  let dport ← read (extJsonParseUnsignedShort .adPort)
  let sport ← read (extJsonParseUnsignedShort .stPort)
  -- params for AV
  let vWidth ← read (extJsonParseUnsignedShort .videoWidth)
  let vHeight ← read (extJsonParseUnsignedShort .videoHeight)
  let vFrameRate ← read (extJsonParseUnsignedChar .videoFramerate)
  let vDepth ← read (extJsonParseUnsignedChar .videoDepth)
  let vIsInterlaced ← read (extJsonParseUnsignedInteger .videoInterlaced)
  let vIsSegmented ← read (extJsonParseUnsignedInteger .videoSegmented)
  let colorSpace ← read (extJsonParseString .videoColorspace 32)
  let vColorSpace ← enumeration .vColorSpace .videoColorspace colorSpace
  let aSampleRate ← read (extJsonParseUnsignedShort .audioSampeRate)
  validate .audioSampeRate (fun v => dec v.toNat) validSampleRate aSampleRate
  let aDepth ← read (extJsonParseUnsignedChar .audioDepth)
  validate .audioDepth (fun v => dec v.toNat) validAudioDepth aDepth
  let aChannels ← read (extJsonParseUnsignedChar .audioChannels)
  validate .audioChannels (fun v => dec v.toNat) validAudioChannels aChannels
  let isConnect ← read (extJsonParseUnsignedInteger .isConnect)
  checkCount (name.isSome || mac.2 || ip.2 || mask.2 || gateway.2 || dhcp.isSome ||
    isDip.isSome || baudRate.isSome || charLength.isSome || stopbits.isSome || parity.isSome ||
    isMCast.isSome || mcastIp.2 || vport.isSome || aport.isSome || dport.isSome ||
    sport.isSome || vWidth.isSome || vHeight.isSome || vFrameRate.isSome || vDepth.isSome ||
    vIsInterlaced.isSome || vIsSegmented.isSome || colorSpace.isSome || aSampleRate.isSome ||
    aDepth.isSome || aChannels.isSome || isConnect.isSome)
  return {
    RuntimeCfg.zero with
    name := .copy 31 (name.getD [])
    «local» := ⟨mac.1, ip.1, 0, 0, 0, 0⟩
    ipMask := mask.1
    ipGateway := gateway.1
    netMode := flagField dhcp
    isDipOn := flagField isDip
    rs232Cfg := ⟨baudRate.getD 0, charLength.getD 0, parityType, stopbits.getD 0⟩
    isMCast := flagField isMCast
    dest := ⟨.zero, mcastIp.1, vport.getD 0, aport.getD 0, dport.getD 0, sport.getD 0⟩
    runtime := {
      vWidth := vWidth.getD 0
      vHeight := vHeight.getD 0
      vFrameRate := vFrameRate.getD 0
      vColorSpace
      vDepth := vDepth.getD 0
      vIsInterlaced := flagField vIsInterlaced
      vIsSegmented := flagField vIsSegmented
      aSampleRate := aSampleRate.getD 0
      aChannels := aChannels.getD 0
      aDepth := aDepth.getD 0
      isConnect := flagField isConnect } }

/-- `extJsonInit`, `extJsonParse` and `extJsonRequestParseCommand`: The text in
    memory, of which the first `size` bytes are the message. Behind the memory
    the tokenizer meets a NUL. -/
def extJsonRequestParseCommand (text : List UInt8) (size : Nat) (p : Parser) : Bool × Parser :=
  let r := jsmnParse ((text ++ [0]).take size) p.doc.tokens
  let p := { p with doc := ⟨r.1, text⟩, out := [], status := .ok }
  match r.2 with
  | some _ =>
      (false, { p.print (ascii "ERROR: JSON library parsing failed") with status := .parseError })
  | none =>
      let (mac, p) := extJsonParseMacAddress .target p.target p
      let p := { p with target := mac.1 }
      if ¬ mac.2 then
        (false, { p.print (ascii "ERROR: can't find or invalidate '" ++ Key.target.text ++
          ascii "' object") with status := .parseError })
      else
        match extJsonParseString .command 32 p with
        | (none, p) =>
            (false, { p.print (ascii "ERROR can't find '" ++ Key.command.text ++
              ascii "' object") with status := .parseError })
        | (some s, p) => (true, { p with cmd := .copy 31 s })

end Cmd

end RtosLwip
