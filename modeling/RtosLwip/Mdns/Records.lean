import RtosLwip.Mdns.Client

/-!
# The Records of an Answer

The rest of `mdnsClient.c`: what the client makes of the records of a response. A PTR
record names an instance of a service, an SRV record says where it runs, a TXT record what
it can do, and an A record gives the address of a host.

The owner of a record is compared with `domainName`, and it is copied there only where
`_MDNS_CLIENT_DEBUG` is on. Each of the handlers also uses `domainName` for itself. The
two functions that copy labels are a parameter, so that it can be said whether they are
called.

## Main definitions

* `Copiers`: The two functions that copy labels.
* `mdnsClientDnsParseRRA`, `mdnsClientDnsParseTXT`, `mdnsClientDnsParseSRV`: The handlers.
* `mdnsFindApiIfFromAnswer`: The interface that a PTR record is about.
* `mdnsClientParseAnswer`: Read the records of a packet.
* `mdnsClientInit`: Ask for both services.
* `receive`: A packet arrives.
-/

namespace RtosLwip

namespace Mdns

/-- The functions that copy labels into an array. -/
structure Copiers where
  getOneLabel : (n : Nat) → Buf n → List UInt8 → Option (Buf n × Nat)
  getFullDomain : (n : Nat) → Buf n → List UInt8 → Option (Buf n)

/-- `_mdnsClientGetOneLabel` and `_mdnsClientGetFullDomain`. -/
def copiers : Copiers where
  getOneLabel _ := mdnsClientGetOneLabel
  getFullDomain _ := mdnsClientGetFullDomain

/-- `LWIP_MAKEU32` of four bytes, the first of them the lowest. -/
def makeU32 (a b c d : UInt8) : UInt32 :=
  d.toUInt32 <<< 24 ||| c.toUInt32 <<< 16 ||| b.toUInt32 <<< 8 ||| a.toUInt32

/-- `strtol` of a text, as much of it as an `unsigned char` holds. -/
def strtolByte (text : List UInt8) : UInt8 :=
  let z := (scanInt text).getD 0
  UInt8.ofInt (if 2 ^ 31 - 1 < z then 2 ^ 31 - 1 else if z < -2 ^ 31 then -2 ^ 31 else z)

/-- The interface whose host the record is about. -/
def findHost (c : MdnsClient) : Option (Option ApiIf) := do
  if ← isStringEqual c.domainName c.registrationApi.hostname then
    return some .registrationApi
  if ← isStringEqual c.domainName c.queryApi.hostname then
    return some .queryApi
  return none

/-- `_mdnsClientDnsParseRRA`. -/
def mdnsClientDnsParseRRA (c : MdnsClient) (answer : MdnsAnswer) :
    Option (Int8 × MdnsClient) := do
  match ← findHost c with
  | none => return (exitFailure, c)
  | some i =>
      let apiIf := c.get i
      let hostname ← apiIf.hostname.text
      let domainName ← c.domainName.text
      if strncmpEq hostname domainName hostname.length ∧ answer.rdLength = 4 then
        let byte := fun k => c.rdata.toList.getD k 0
        let ip := makeU32 (byte 0) (byte 1) (byte 2) (byte 3)
        return (exitSuccess, c.set i { apiIf with ip := ip })
      else
        return (exitSuccess, c)

/-- One text of a TXT record: whether it is understood, and the interface with it. -/
def parseTxtLabel (apiIf : NmosApiInterface) (domainName : Buf domainMaxLen) :
    Option (Bool × NmosApiInterface) := do
  let behind := fun k => cstr (domainName.toList.drop k)
  if ← contains domainName (ascii "api_proto") then
    if strncmpEq (behind 10) (ascii "http") 4 ∧ (← domainName.text).length ≠ 15 then
      return (true, { apiIf with protoFlags := apiIf.protoFlags ||| 1 })
    else
      return (false, apiIf)
  if ← contains domainName (ascii "api_ver") then
    let v10 ← contains domainName (ascii "v1.0")
    let v11 ← contains domainName (ascii "v1.1")
    let v12 ← contains domainName (ascii "v1.2")
    let flags := apiIf.versionFlags
    let flags := if v10 then flags ||| 1 else flags
    let flags := if v11 then flags ||| 2 else flags
    let flags := if v12 then flags ||| 4 else flags
    return (v10 || v11 || v12, { apiIf with versionFlags := flags })
  if ← contains domainName (ascii "pri") then
    -- the comparison of the `unsigned char` with zero never holds
    return (true, { apiIf with priority := strtolByte (behind 4) })
  return (false, apiIf)

/-- `_mdnsFindApiIfFromAnswer`. -/
def mdnsFindApiIfFromAnswer (c : MdnsClient) : Option (Option ApiIf) := do
  if ← contains c.domainName typeRegistration then
    return some .registrationApi
  if ← contains c.domainName typeQuery then
    return some .queryApi
  return none

section Handlers

variable (k : Copiers)

/-- The loop of `_mdnsClientDnsParseTXT`. Each label takes a byte at least, so there are no
    more rounds than bytes and one. -/
def parseTxtLabels (i : ApiIf) (rdLength : Nat) :
    Nat → MdnsClient → Nat → Int8 → Option (Int8 × MdnsClient)
  | 0, _, _, _ => none
  | fuel + 1, c, offset, ret =>
      if offset ≤ rdLength then do
        let (ok, apiIf) ← parseTxtLabel (c.get i) c.domainName
        let (domainName, size) ←
          k.getOneLabel _ c.domainName (c.rdata.toList.drop offset)
        let c := { c with domainName := domainName }.set i apiIf
        parseTxtLabels i rdLength fuel c (offset + size) (if ok then exitSuccess else ret)
      else
        some (ret, c)

/-- `_mdnsClientDnsParseTXT`. -/
def mdnsClientDnsParseTXT (c : MdnsClient) (apiIf : Option ApiIf) (answer : MdnsAnswer) :
    Option (Int8 × MdnsClient) :=
  match apiIf with
  | none => some (exitFailure, c)
  | some i => do
      if ← isStringEqual c.domainName (c.get i).name then
        return (exitFailure, c)
      let (domainName, offset) ← k.getOneLabel _ c.domainName c.rdata.toList
      parseTxtLabels k i answer.rdLength.toNat (answer.rdLength.toNat + 2)
        { c with domainName := domainName } offset exitFailure

/-- The target of an SRV record: the memory that it is read from, and the client, into
    which a compressed target is copied first. -/
def srvTarget (c : MdnsClient) (pkt : MdnsPacket) : Option (MdnsClient × List UInt8) := do
  let rdata := c.rdata.toList
  let firstLabelLength := rdata.getD 6 0
  if firstLabelLength &&& 0xC0 = 0xC0 then
    let jumpaddr := (firstLabelLength &&& 0x3F).toNat * 256 + (rdata.getD 7 0).toNat
    let copied ← c.rdata.write 0 ((pkt.pbuf.drop jumpaddr).take domainMaxLen)
    return ({ c with rdata := copied }, copied.toList)
  else
    return (c, rdata.drop 6)

/-- `_mdnsClientDnsParseSRV`. -/
def mdnsClientDnsParseSRV (net : Sending) (c : MdnsClient) (pkt : MdnsPacket)
    (apiIf : Option ApiIf) : Option (Int8 × MdnsClient) :=
  match apiIf with
  | none => some (exitFailure, c)
  | some i => do
      if ← isStringEqual c.domainName (c.get i).name then
        return (exitFailure, c)
      let rdata := c.rdata.toList
      let port := (rdata.getD 4 0).toUInt16 <<< 8 ||| (rdata.getD 5 0).toUInt16
      let c := { c with state := .requestApi }.set i { c.get i with port := port }
      let (c, target) ← srvTarget c pkt
      let domainName ← k.getFullDomain _ c.domainName target
      -- save the name with `.local` behind it, and ask for its address
      let hostname ← (c.get i).hostname.write 0 ((← domainName.text) ++ ascii ".local" ++ [0])
      let domainName ← domainName.write 0 ((← hostname.text) ++ [0])
      let c := { c with domainName := domainName }.set i { c.get i with hostname := hostname }
      let (res, c, _) ← mdnsClientSendQuery net c (c.get i).type
      return (if res = 1 then exitFailure else exitSuccess, c)

/-- What a round of the loop of `mdnsClientParseAnswer` comes to: it returns, or goes on with
    the interface of the last PTR record. -/
inductive Round where
  | done (ret : Int8) (c : MdnsClient)
  | next (c : MdnsClient) (apiIf : Option ApiIf) (ret : Int8)

/-- A PTR record, whose first label is the name of the instance. -/
def parsePtr (c : MdnsClient) (ret : Int8) : Option Round := do
  match ← mdnsFindApiIfFromAnswer c with
  | none => return .done exitFailure c
  | some i =>
      let (name, _) ← k.getOneLabel _ (c.get i).name c.rdata.toList
      let c := { c with state := .parsePtr }.set i { c.get i with name := name }
      return .next c (some i) ret

/-- The handler for the type of a record. -/
def parseRecord (net : Sending) (pkt : MdnsPacket) (c : MdnsClient) (apiIf : Option ApiIf)
    (ret : Int8) (ans : MdnsAnswer) : Option Round :=
  if ans.type = rrTypeA then
    (mdnsClientDnsParseRRA c ans).map fun r => .next r.2 apiIf r.1
  else if ans.type = rrTypePtr then
    parsePtr k c ret
  else if ans.type = rrTypeSrv then
    (mdnsClientDnsParseSRV k net c pkt apiIf).map fun r => .next r.2 apiIf r.1
  else if ans.type = rrTypeTxt then
    (mdnsClientDnsParseTXT k c apiIf ans).map fun r => .next r.2 apiIf r.1
  else
    some (.next c apiIf ret)

/-- The record is read into `rdata`, and its type is looked at. -/
def readRecord (net : Sending) (pkt : MdnsPacket) (c : MdnsClient) (apiIf : Option ApiIf)
    (ret : Int8) (ans : MdnsAnswer) : Option Round :=
  if domainMaxLen < ans.rdLength.toNat then
    some (.done ret c)
  else
    let copied := (pkt.pbuf.drop ans.rdOffset.toNat).take ans.rdLength.toNat
    (c.rdata.write 0 copied).bind fun rdata =>
      let c := { c with rdata := rdata }
      if copied.length ≠ ans.rdLength.toNat then some (.done errVal c)
      else if ans.klass ≠ rrClassIn then some (.done ret c)
      else parseRecord k net pkt c apiIf ret ans

/-- The name of the owner of a record, where `_MDNS_CLIENT_DEBUG` is on. -/
def ownerName (debug : Bool) (c : MdnsClient) (ans : MdnsAnswer) : Option MdnsClient :=
  if debug then
    (k.getFullDomain _ c.domainName ans.domain.toList).map fun name => { c with domainName := name }
  else
    some c

/-- The loop of `mdnsClientParseAnswer`. -/
def parseAnswers (debug : Bool) (net : Sending) (pkt : MdnsPacket) :
    MdnsClient → Option ApiIf → Int8 → List (Option MdnsAnswer) → Option (Int8 × MdnsClient)
  | c, _, ret, [] => some (ret, c)
  | c, _, ret, none :: _ => some (ret, c)
  | c, apiIf, ret, some ans :: rest =>
      (ownerName k debug c ans).bind fun c =>
        match readRecord k net pkt c apiIf ret ans with
        | none => none
        | some (.done ret c) => some (ret, c)
        | some (.next c apiIf ret) => parseAnswers debug net pkt c apiIf ret rest

/-- `mdnsClientParseAnswer` with these copiers. -/
def parseAnswer (debug : Bool) (net : Sending) (c : MdnsClient) (pkt : MdnsPacket) :
    Option (Int8 × MdnsClient) :=
  parseAnswers k debug net pkt { c with domainName := Vector.replicate _ 0 } none exitFailure
    pkt.answers

/-- A packet arrives. -/
def receive (debug : Bool) (c : MdnsClient) (e : Sending × MdnsPacket) : Option MdnsClient :=
  (parseAnswer k debug e.1 c e.2).map (·.2)

end Handlers

/-- `mdnsClientParseAnswer`. -/
def mdnsClientParseAnswer (debug : Bool) (net : Sending) (c : MdnsClient) (pkt : MdnsPacket) :
    Option (Int8 × MdnsClient) :=
  parseAnswer copiers debug net c pkt

/-- The service that an interface of the type is for. -/
def serviceOf : NmosApiType → Option (List UInt8)
  | .registration => some typeRegistration
  | .query => some typeQuery
  | _ => none

/-- An interface for which a service is about to be asked, its address `IPADDR_NONE`. -/
def askedInterface (type : NmosApiType) (service : List UInt8) : NmosApiInterface :=
  { clearedInterface with type := type, service := service, ip := 0xFFFFFFFF }

/-- `_mdnsClientInitQueryForInterface`. -/
def mdnsClientInitQueryForInterface (net : Sending) (c : MdnsClient) (i : ApiIf) :
    Option (Int8 × MdnsClient) :=
  let type := (c.get i).type
  match serviceOf type with
  | none => some (exitFailure, c.set i clearedInterface)
  | some service => do
      let domainName ← c.domainName.write 0 (service ++ [0])
      let c := { c with domainName := domainName }.set i (askedInterface type service)
      let (res, c, _) ← mdnsClientSendQuery net c type
      return (if res = 1 then exitFailure else exitSuccess, c)

/-- The client with a first identifier, and with the types of its interfaces. -/
def MdnsClient.started (c : MdnsClient) (rand : UInt16) : MdnsClient :=
  { c with
    txId := rand
    state := .init
    registrationApi := { c.registrationApi with type := .registration }
    queryApi := { c.queryApi with type := .query } }

/-- `mdnsClientInit`. `rand` gives the first identifier. -/
def mdnsClientInit (net : Sending) (rand : UInt16) (c : MdnsClient) :
    Option (Int8 × MdnsClient) := do
  let (_, c) ← mdnsClientInitQueryForInterface net (c.started rand) .registrationApi
  let (_, c) ← mdnsClientInitQueryForInterface net c .queryApi
  return (exitSuccess, c)

end Mdns

end RtosLwip
