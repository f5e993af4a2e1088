import RtosLwip.Base.Text

/-!
# The Configuration

The part of `EXT_RUNTIME_CFG` that the UDP commands read and write, and the
texts its values are given as: addresses, the parity of the serial line and the
colour space of the video.

An IPv4 address is the number with its first part in the highest byte. The
source keeps the bytes in network order; comparing addresses and testing for a
multicast address do not depend on that.

## Main definitions

* `RuntimeCfg`: The configuration.
* `RuntimeCfg.zero`: The scratch configuration after `memset`.
* `extCfgFromFactory`: The configuration a device is delivered with.
* `ip4addrAton`, `ip4addrNtoa`: Addresses as text.
* `extSysAtoInt8`, `extMacAddressParse`: Hexadecimal bytes and MAC addresses. They
  write what they have read before they fail.
* `extCmnStringFind`, `extCmnTypeFind`: Looking up a name.
-/

namespace RtosLwip

namespace Cmd

abbrev MacAddress := Vector UInt8 6

namespace MacAddress

def zero : MacAddress := #v[0, 0, 0, 0, 0, 0]

/-- `MAC_ADDR_IS_BOARDCAST`, which leaves out two bytes. -/
def isBoardcast (m : MacAddress) : Bool := m[0] = 255 && m[1] = 255 && m[4] = 255 && m[5] = 255

/-- `MAC_ADDR_IS_NULL`, which leaves out the same two bytes. -/
def isNull (m : MacAddress) : Bool := m[0] = 0 && m[1] = 0 && m[4] = 0 && m[5] = 0

end MacAddress

/-- `MAC_ADDRESS_PRINT` without the quotes and the comma. -/
def macPrint (m : MacAddress) : List UInt8 :=
  hex2 m[0] ++ 58 :: hex2 m[1] ++ 58 :: hex2 m[2] ++ 58 :: hex2 m[3] ++ 58 :: hex2 m[4] ++
    58 :: hex2 m[5]

theorem length_macPrint (m : MacAddress) : (macPrint m).length = 17 := by
  simp [macPrint, hex2]

/-- `EXT_MCTRL_MBOX_SIZE`, the length of a control mailbox. -/
def mboxSize : Nat := 8

/-- `IPADDR_NONE` -/
def ipaddrNone : UInt32 := 0xFFFFFFFF

/-- `IP_ADDR_IS_MULTICAST` -/
def isMulticast (ip : UInt32) : Bool := ip &&& 0xF0000000 = 0xE0000000

/-- `ip4_addr1` to `ip4_addr4`: The parts of an address, counted from 0. -/
def ipPart (ip : UInt32) (i : Nat) : UInt8 := (ip >>> (24 - 8 * i).toUInt32).toUInt8

/-- `EXT_VIDEO_CONFIG` -/
structure VideoConfig where
  mac : MacAddress
  ip : UInt32
  vport : UInt16
  aport : UInt16
  dport : UInt16
  sport : UInt16
  deriving DecidableEq

/-- `MuxRs232Cfg` -/
structure Rs232Cfg where
  baudRate : UInt32
  charLength : UInt8
  parityType : UInt8
  stopbits : UInt8
  deriving DecidableEq

/-- `MuxRunTimeParam` -/
structure RunTimeParam where
  vWidth : UInt16
  vHeight : UInt16
  vFrameRate : UInt8
  vColorSpace : UInt8
  vDepth : UInt8
  vIsInterlaced : UInt8
  vIsSegmented : UInt8
  aSampleRate : UInt16
  aChannels : UInt8
  aDepth : UInt8
  isConnect : UInt8
  deriving DecidableEq

/-- `EXT_FM_VERSION` -/
structure FmVersion where
  major : UInt8
  minor : UInt8
  revision : UInt8
  deriving DecidableEq

/-- `EXT_RUNTIME_CFG`. `netifIp` is the address of the network interface that
    `netif` points to. -/
structure RuntimeCfg where
  isTx : UInt8
  rs232Cfg : Rs232Cfg
  user : CString 15
  password : CString 15
  isMCast : UInt8
  isDipOn : UInt8
  netMode : UInt8
  «local» : VideoConfig
  ipMask : UInt32
  ipGateway : UInt32
  ipMulticast : UInt32
  isMacConfiged : UInt8
  dest : VideoConfig
  name : CString 31
  version : FmVersion
  ipSvr811 : UInt32
  portSvr811 : UInt16
  runtime : RunTimeParam
  netifIp : UInt32
  deriving DecidableEq

namespace RuntimeCfg

/-- A configuration of zeros. -/
def zero : RuntimeCfg where
  isTx := 0
  rs232Cfg := ⟨0, 0, 0, 0⟩
  user := .empty 15
  password := .empty 15
  isMCast := 0
  isDipOn := 0
  netMode := 0
  «local» := ⟨.zero, 0, 0, 0, 0, 0⟩
  ipMask := 0
  ipGateway := 0
  ipMulticast := 0
  isMacConfiged := 0
  dest := ⟨.zero, 0, 0, 0, 0, 0⟩
  name := .empty 31
  version := ⟨0, 0, 0⟩
  ipSvr811 := 0
  portSvr811 := 0
  runtime := ⟨0, 0, 0, 0, 0, 0, 0, 0, 0, 0, 0⟩
  netifIp := 0

variable (cfg : RuntimeCfg)

/-- `EXT_IS_TX` -/
def isTransmitter : Bool := cfg.isTx ≠ 0

/-- `EXT_IS_DIP_ON` -/
def dipOn : Bool := cfg.isDipOn ≠ 0

/-- `EXT_IS_MULTICAST` -/
def multicast : Bool := cfg.isMCast ≠ 0

/-- `EXT_DHCP_IS_ENABLE`: The lowest bit of `netMode`. -/
def dhcpIsEnable : Bool := cfg.netMode &&& 1 ≠ 0

end RuntimeCfg

/-- `extTxMulticastIP2Mac` -/
def extTxMulticastIP2Mac (cfg : RuntimeCfg) : RuntimeCfg :=
  let ip := cfg.dest.ip
  if isMulticast ip then
    { cfg with dest.mac := #v[0x01, 0x00, 0x5E, ipPart ip 1 &&& 0x7F, ipPart ip 2, ipPart ip 3] }
  else cfg

/-- `extCfgFromFactory`, with the addresses of the transmitter and of the
    receiver that the board is built with. -/
def extCfgFromFactory (cfg : RuntimeCfg) : RuntimeCfg :=
  let tx := cfg.isTransmitter
  extTxMulticastIP2Mac {
    cfg with
    name := .copy 31 (ascii "SdiOverIP-767")
    version := ⟨0, 1, 1⟩
    user := .copy 15 (ascii "admin")
    password := .copy 15 (ascii "admin")
    isMCast := 1
    ipMulticast := 0xEF640101
    isDipOn := 1
    isMacConfiged := 0
    «local» := {
      mac := #v[0x00, 0x04, 0x25, 0x1C, if tx then 0x10 else 0xA0, 0x02]
      ip := if tx then 0xC0A8A979 else 0xC0A8A941
      vport := if tx then 40000 else 48000
      aport := if tx then 40010 else 48010
      dport := if tx then 40020 else 48020
      sport := if tx then 40030 else 48030 }
    dest := {
      mac := #v[0x00, 0x04, 0x25, 0x1C, 0xA0, 0x02]
      ip := 0xEF640101
      vport := 48000
      aport := 48010
      dport := 48020
      sport := 48030 }
    ipGateway := 0xC0A8A901
    ipSvr811 := 0xC0A8A832
    portSvr811 := 3840
    ipMask := 0xFFFFFF00
    rs232Cfg := ⟨57600, 8, 0, 1⟩
    netMode := 1 }

/-- The digits of one part of an address, in a base that may be 8, 10 or 16. -/
def atonDigits (base : UInt32) : List UInt8 → UInt32 → UInt32 × List UInt8
  | [], val => (val, [])
  | c :: rest, val =>
      if isDigit c then atonDigits base rest (val * base + (c - 48).toUInt32)
      else if base = 16 then
        match hexDigit c with
        | some x => atonDigits base rest (val <<< 4 ||| x.toUInt32)
        | none => (val, c :: rest)
      else (val, c :: rest)

/-- One part of an address, with the base that its first characters ask for. -/
def atonPart (text : List UInt8) : Option (UInt32 × List UInt8) :=
  match text with
  | [] => none
  | c :: rest =>
      if ¬ isDigit c then none
      else if c = 48 then
        match rest with
        | x :: rest' =>
            if x = 120 ∨ x = 88 then some (atonDigits 16 rest' 0)
            else some (atonDigits 8 rest 0)
        | [] => some (0, [])
      else some (atonDigits 10 text 0)

/-- The parts of an address, at most `dots + 1` of them. -/
def atonParts : Nat → List UInt8 → Option (List UInt32 × List UInt8)
  | dots, text =>
      match atonPart text with
      | none => none
      | some (val, rest) =>
          match rest, dots with
          | 46 :: _, 0 => none
          | 46 :: rest, dots + 1 => (atonParts dots rest).map fun (parts, t) => (val :: parts, t)
          | rest, _ => some ([val], rest)

/-- `ip4addr_aton` -/
def ip4addrAton (text : List UInt8) : Option UInt32 :=
  match atonParts 3 text with
  | none => none
  | some (parts, rest) =>
      if ¬ (rest.head?.all isSpace) then none
      else
        match parts with
        | [a] => some a
        | [a, val] =>
            if val > 0xFFFFFF ∨ a > 0xFF then none else some (val ||| a <<< 24)
        | [a, b, val] =>
            if val > 0xFFFF ∨ a > 0xFF ∨ b > 0xFF then none
            else some (val ||| (a <<< 24 ||| b <<< 16))
        | [a, b, c, val] =>
            if val > 0xFF ∨ a > 0xFF ∨ b > 0xFF ∨ c > 0xFF then none
            else some (val ||| (a <<< 24 ||| b <<< 16 ||| c <<< 8))
        | _ => none

/-- `ipaddr_addr` -/
def ipaddrAddr (text : List UInt8) : UInt32 := (ip4addrAton text).getD ipaddrNone

/-- `ip4addr_ntoa` -/
def ip4addrNtoa (ip : UInt32) : List UInt8 :=
  dec (ipPart ip 0).toNat ++ [46] ++ dec (ipPart ip 1).toNat ++ [46] ++
    dec (ipPart ip 2).toNat ++ [46] ++ dec (ipPart ip 3).toNat

/-- `extSysAtoInt8`: The value that is written, and whether both characters are
    hexadecimal digits. -/
def extSysAtoInt8 (text : List UInt8) : UInt8 × Bool :=
  match text.head?.bind hexDigit with
  | none => (0, false)
  | some x =>
      match (text.drop 1).head?.bind hexDigit with
      | none => (x, false)
      | some y => (x * 16 + y, true)

/-- The loop of `extMacAddressParse`, with the number of bytes that are missing.
    What is written into the address stays there when a byte cannot be read. -/
def macAddressLoop : Nat → List UInt8 → MacAddress → MacAddress × Bool
  | 0, _, mac => (mac, true)
  | n + 1, text, mac =>
      let r := extSysAtoInt8 text
      let mac := mac.setIfInBounds (5 - n) r.1
      if ¬ r.2 then (mac, false)
      else if n = 0 then (mac, true)
      else
        match text.dropWhile (· ≠ 58) with
        | [] => (mac, false)
        | _ :: rest => macAddressLoop n rest mac

/-- `extMacAddressParse` -/
def extMacAddressParse (mac : MacAddress) (text : List UInt8) : MacAddress × Bool :=
  macAddressLoop 6 text mac

/-- The names that `extCmnStringFind` and `extCmnTypeFind` know, by their table. -/
inductive StrType where
  | rsParity
  | vColorSpace

/-- `_ipcmdStringRsParities` and `_videoColorSpaces` -/
def StrType.table : StrType → List (UInt16 × List UInt8)
  | .rsParity => [(0, ascii "none"), (1, ascii "odd"), (2, ascii "even")]
  | .vColorSpace =>
      [(0, ascii "YCbCr-422"), (1, ascii "YCbCr-444"), (2, ascii "RGB"), (3, ascii "YCbCr-420"),
        (4, ascii "XYZ"), (5, ascii "KEY"), (8, ascii "CLYCbCr-422"), (9, ascii "CLYCbCr-444"),
        (11, ascii "CLYCbCr-420")]

/-- `extCmnStringFind` -/
def extCmnStringFind (strType : StrType) (type : UInt16) : List UInt8 :=
  match strType.table.find? (·.1 = type) with
  | some e => e.2
  | none => ascii "Unknown String"

/-- `extCmnTypeFind`, where -1 stands for a name that is not in the table. -/
def extCmnTypeFind (strType : StrType) (str : List UInt8) : Option UInt16 :=
  (strType.table.find? fun e => strcasecmpEq e.2 str).map (·.1)

end Cmd

end RtosLwip
