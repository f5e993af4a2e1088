import RtosLwip.Base.Arrays

/-!
# The mDNS Client

`mdnsClient.c`: the client asks for the registration and the query service of NMOS and
reads the answers that come in. Its texts are arrays in the memory of the client, and the
functions here read and write them as the source does, a function that would reach past
the end of an array, or of a record, having no result.

What is known of a packet is its bytes and the records that `mdns_read_answer` reads off
it, one after the other, up to one that it cannot read. The switch `_MDNS_CLIENT_DEBUG`,
which is 0 in the source, is a parameter of the functions that look at it.

## Main definitions

* `MdnsClient`, `NmosApiInterface`: The client, and what it knows of a service.
* `mdnsClientSendQuery`: Build a query, and send it.
* `mdnsClientGetOneLabel`, `mdnsClientGetFullDomain`: The two copiers.
* `mdnsClientParseAnswer`: Read the answers of a packet.
* `mdnsClientInit`: Ask for both services.
-/

namespace RtosLwip

namespace Mdns

/-- `MDNS_DOMAIN_MAXLEN`. -/
def domainMaxLen : Nat := 256

/-- The size of the arrays of `NMOS_API_INTERFACE`. -/
def nameSize : Nat := 128

/-- `NMOS_API_TYPE`. -/
inductive NmosApiType where
  | registration
  | query
  | node
  | connection
  | webService
  | unknown
  deriving DecidableEq, Repr

/-- `MDNS_CLIENT_STATE`. -/
inductive MdnsClientState where
  | init
  | parsePtr
  | parseSrv
  | parseTxt
  | requestApi
  | unknown
  deriving DecidableEq, Repr

/-- `NMOS_API_INTERFACE`. -/
structure NmosApiInterface where
  type : NmosApiType
  protoFlags : UInt8
  versionFlags : UInt8
  priority : UInt8
  port : UInt16
  ip : UInt32
  hostname : Buf nameSize
  name : Buf nameSize
  service : List UInt8
  deriving DecidableEq, Repr

/-- An interface that has been cleared. -/
def clearedInterface : NmosApiInterface :=
  ⟨.registration, 0, 0, 0, 0, 0, Vector.replicate _ 0, Vector.replicate _ 0, []⟩

/-- `mdns_client_t`. -/
structure MdnsClient where
  txId : UInt16
  domainName : Buf domainMaxLen
  rdata : Buf domainMaxLen
  state : MdnsClientState
  registrationApi : NmosApiInterface
  queryApi : NmosApiInterface
  deriving DecidableEq, Repr

/-- A pointer to one of the two interfaces of the client. -/
inductive ApiIf where
  | registrationApi
  | queryApi
  deriving DecidableEq, Repr

/-- The interface that the pointer is to. -/
def MdnsClient.get (c : MdnsClient) : ApiIf → NmosApiInterface
  | .registrationApi => c.registrationApi
  | .queryApi => c.queryApi

/-- The client with another interface behind the pointer. -/
def MdnsClient.set (c : MdnsClient) (i : ApiIf) (apiIf : NmosApiInterface) : MdnsClient :=
  match i with
  | .registrationApi => { c with registrationApi := apiIf }
  | .queryApi => { c with queryApi := apiIf }

/-- `struct mdns_answer`, with the encoded name of its owner. -/
structure MdnsAnswer where
  domain : Buf domainMaxLen
  type : UInt16
  klass : UInt16
  rdLength : UInt16
  rdOffset : UInt16
  deriving DecidableEq, Repr

/-- `struct mdns_packet`: the bytes of the `pbuf`, and for each of `answers_left` what
    `mdns_read_answer` makes of it. -/
structure MdnsPacket where
  pbuf : List UInt8
  answers : List (Option MdnsAnswer)
  deriving DecidableEq, Repr

/-- What the network does with a query: whether there is a `pbuf` for it, and what
    `udp_sendto` returns. -/
structure Sending where
  alloc : Bool
  sendto : Int8
  deriving DecidableEq, Repr

/-- `EXIT_SUCCESS`. -/
def exitSuccess : Int8 := 0

/-- `EXIT_FAILURE`. -/
def exitFailure : Int8 := 1

/-- `ERR_MEM`. -/
def errMem : Int8 := -1

/-- `ERR_VAL`. -/
def errVal : Int8 := -6

/-- `DNS_RRTYPE_A`. -/
def rrTypeA : UInt16 := 1

/-- `DNS_RRTYPE_PTR`. -/
def rrTypePtr : UInt16 := 12

/-- `DNS_RRTYPE_TXT`. -/
def rrTypeTxt : UInt16 := 16

/-- `DNS_RRTYPE_SRV`. -/
def rrTypeSrv : UInt16 := 33

/-- `DNS_RRCLASS_IN`. -/
def rrClassIn : UInt16 := 1

/-- `NMOS_MDNS_TYPE_REGISTRATION`. -/
def typeRegistration : List UInt8 := ascii "_nmos-registration._tcp.local"

/-- `NMOS_MDNS_TYPE_QUERY`. -/
def typeQuery : List UInt8 := ascii "_nmos-query._tcp.local"

/-- `IS_STRING_EQUAL` of two arrays. -/
def isStringEqual {n m : Nat} (a : Buf n) (b : Buf m) : Option Bool := do
  return strcasecmpEq (← a.text) (← b.text)

/-- `strstr` finds the text in an array. -/
def contains {n : Nat} (a : Buf n) (part : List UInt8) : Option Bool := do
  return (memmem part (← a.text)).isSome

/-- `lwip_htons`, and its bytes. -/
def netBytes (v : UInt16) : List UInt8 := [(v >>> 8).toUInt8, v.toUInt8]

/-- The header of a query, of `SIZEOF_DNS_HDR` bytes, with `DNS_FLAG1_RD` and one question. -/
def queryHeader (id : UInt16) : List UInt8 := netBytes id ++ [1, 0, 0, 1, 0, 0, 0, 0, 0, 0]

/-- The loop that converts the domain name. `part` is what is between `hostname_part` and
    `hostOrServiceName`, and its length is counted in the `u8_t` `n`. -/
def encodeLabels (p : Fresh) (queryIdx : Nat) (part : List UInt8) :
    List UInt8 → Option (Fresh × Nat)
  | [] => none
  | c :: rest =>
      if c ≠ 46 ∧ c ≠ 0 then
        encodeLabels p queryIdx (part ++ [c]) rest
      else do
        let n := part.length.toUInt8
        let p ← p.write queryIdx [n]
        let p ← p.write (queryIdx + 1) part
        let queryIdx := queryIdx + n.toNat + 1
        if c = 0 then return (p, queryIdx)
        encodeLabels p queryIdx [] rest

/-- The `pbuf` that `mdnsClientSendQuery` fills for a name of which `domainName` is the
    memory. It is as long as the header, the name, the two bytes around the name and the
    type and the class. -/
def buildQuery (id qType : UInt16) (name domainName : List UInt8) : Option Fresh := do
  let p := Fresh.alloc (12 + name.length + 2 + 4)
  let p ← p.write 0 (queryHeader id)
  let (p, queryIdx) ← encodeLabels p 12 [] domainName
  let p ← p.write queryIdx [0]
  p.write (queryIdx + 1) (netBytes qType ++ netBytes rrClassIn)

/-- `mdnsClientSendQuery` from where the interface has been found. It asks for the service,
    or for the address of a host that is known. -/
def sendQueryOf (net : Sending) (c : MdnsClient) (apiIf : NmosApiInterface) :
    Option (Int8 × MdnsClient × Option Fresh) := do
  let qType := if (← apiIf.hostname.text) = [] then rrTypePtr else rrTypeA
  let name ← c.domainName.text
  if net.alloc then
    let p ← buildQuery c.txId qType name c.domainName.toList
    return (net.sendto, { c with txId := c.txId + 1 }, some p)
  else
    return (errMem, c, none)

/-- `mdnsClientSendQuery`: what it returns, and the `pbuf` that was sent. -/
def mdnsClientSendQuery (net : Sending) (c : MdnsClient) :
    NmosApiType → Option (Int8 × MdnsClient × Option Fresh)
  | .registration => sendQueryOf net c c.registrationApi
  | .query => sendQueryOf net c c.queryApi
  | _ => some (errVal, c, none)

/-- `_mdnsClientGetOneLabel`: the array, and the bytes that the label takes. -/
def mdnsClientGetOneLabel {n : Nat} (dest : Buf n) : List UInt8 → Option (Buf n × Nat)
  | [] => none
  | labelLen :: src =>
      if src.length < labelLen.toNat then
        none
      else do
        let dest ← dest.write 0 (src.take labelLen.toNat)
        let dest ← dest.write labelLen.toNat [0]
        return (dest, labelLen.toNat + 1)

/-- The loop of `_mdnsClientGetFullDomain`. So many bytes of a label are left, and behind
    the last of them a dot is written. -/
def copyLabels {n : Nat} (dest : Buf n) (i left : Nat) : List UInt8 → Option (Buf n × Nat)
  | [] => none
  | b :: rest =>
      match left with
      | 0 => if b = 0 then some (dest, i) else copyLabels dest i b.toNat rest
      | 1 => do
          let dest ← dest.write i [b]
          let dest ← dest.write (i + 1) [46]
          copyLabels dest (i + 2) 0 rest
      | left + 2 => do
          let dest ← dest.write i [b]
          copyLabels dest (i + 1) (left + 1) rest

/-- `_mdnsClientGetFullDomain`. A NUL takes the place of the last dot, which without a
    label is the place in front of the array. -/
def mdnsClientGetFullDomain {n : Nat} (dest : Buf n) (srcLabel : List UInt8) :
    Option (Buf n) := do
  let (dest, i) ← copyLabels dest 0 0 srcLabel
  if i = 0 then none else dest.write (i - 1) [0]

end Mdns

end RtosLwip
