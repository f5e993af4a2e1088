import RtosLwip.Base.Run
import RtosLwip.Http.ResponseSend
import RtosLwip.Http.WebSocket

/-!
# Parsing a Request

The way of a segment through `__mhttpRecv` and `httpRequest.c`: the request is
parsed, its body handed to the upload code, and what there is to be sent is put
into the queue of the connection.

The segments of a request are chained until it can be parsed, and every segment
starts the parse anew. A request in one pbuf is parsed where it lies, a longer
chain is copied to the request buffer first. In both cases a search may run on
behind the bytes received, into whatever the memory holds there, so a parse is
given the memory from its data on and the number of bytes received, and the
connection records a search that looked further.

The stack takes what it is given here, so that a response is queued at once and
its connection closed, unless it is a long file. What becomes of a response that
the stack takes in parts is told in the modules about sending. The pages are
parameters. As in the functions of the upload code and of the web socket frames,
which are used here, an answer `none` says that the C text has no defined
behaviour.

## Main definitions

* `View`: What a parse can see.
* `strcasestr`, `View.strnstrInside`, `View.strstrInside`, `View.strcasestrInside`:
  The searches, and whether they end within the bytes received.
* `Conn`, `Segment`, `Site`: A connection, what arrives on it, and what the rest of
  the server does.
* `extHttpWebSocketParseHeader`, `mHttpParseMethod`, `mHttpParseUrl`,
  `extHttpParseContentLength`, `extHttpRestError`, `extHttpPostRequest`,
  `extHttpHandleRequest`, `mHttpParseRequest`, `extHttpRequestParse`: Parsing.
* `Conn.close`, `mHttpSendFile`, `mHttpSendRest`, `extHttpSend`: Sending.
* `recvFrame`, `recvBody`, `settle`, `mhttpRecv`: `__mhttpRecv`, by what it takes a segment for.
-/

namespace RtosLwip

namespace Request

open Http
open Flash (Device UploadHw memcpy)

/-- `HTTP_METHOD_T`. -/
inductive Method where
  | unknown
  | get
  | post
  | put
  | delete
  | patch
  deriving DecidableEq, Repr

/-- `EXT_HTTP_REQ_T`. -/
inductive ReqType where
  | rest
  | file
  | websocket
  | cgi
  | upload
  deriving DecidableEq, Repr

/-- The size of `mhc->uri`. -/
def uriSize : Nat := uriBufLen + 1

/-- `MuxHttpConn`, as far as a request uses it, with what came of it: the bytes queued on the
    connection, the bytes handed to the upload code, and whether a search left the bytes received.
    `update` is what the page in `updateProgress` says, until it is sent. The fields the upload
    code uses, which are the request buffer and its index among them, stand in `post`. -/
structure Conn (ρ : Type) where
  req : Pbuf
  method : Method
  isV09 : Bool
  uri : List UInt8
  reqType : ReqType
  httpStatusCode : Nat
  contentLength : Nat
  handle : Bool
  file : List UInt8
  update : Option (List UInt8)
  post : Post ρ
  closed : Bool
  queued : List UInt8
  handed : List UInt8
  overrun : Bool

variable {ρ : Type}

/-- `_mhttpStateInit`. -/
def Conn.start (dev : Device ρ) : Conn ρ where
  req := []
  method := .unknown
  isV09 := false
  uri := List.replicate uriSize 0
  reqType := .rest
  httpStatusCode := 100
  contentLength := 0
  handle := false
  file := []
  update := none
  post := ⟨newConn 0 .updateMcu [] ReqBuf.zero, dev, []⟩
  closed := false
  queued := []
  handed := []
  overrun := false

/-- The request buffer `mhc->data`, and how far it is filled or sent. -/
def Conn.data (c : Conn ρ) : ReqBuf := c.post.conn.data

def Conn.dataSendIndex (c : Conn ρ) : Nat := c.post.conn.dataSendIndex

def Conn.setData (c : Conn ρ) (data : ReqBuf) (dataSendIndex : Nat) : Conn ρ :=
  { c with post := { c.post with
    conn := { c.post.conn with data := data, dataSendIndex := dataSendIndex } } }

/-- A segment: its chain of pbufs, and what the memory holds behind the bytes that are parsed
    when it arrives. -/
structure Segment where
  chain : Pbuf
  behind : List UInt8

/-- The rest of the server: the files, the generated pages by their uri, the pages with the
    message of an upload, `extHttpWebPageResult` and `_updatePageResult`, the key of a web socket
    handshake, the flash an upload is written to, and `memcpy`. -/
structure Site where
  root : List MfsdataFile
  webPage : List UInt8 → List UInt8
  resultPage : List UInt8 → List UInt8
  updatePage : List UInt8 → List UInt8
  acceptKey : List UInt8 → List UInt8
  hw : UploadHw
  mem : Memcpy

/-- The memory from some address on, and how many bytes of it were received. -/
structure View where
  mem : List UInt8
  len : Nat

def View.received (v : View) : List UInt8 := v.mem.take v.len

/-- The view from `n` bytes further on. -/
def View.drop (v : View) (n : Nat) : View := ⟨v.mem.drop n, v.len - n⟩

/-- `strcasestr`. -/
def strcasestr (mem needle : List UInt8) : Option Nat :=
  memmem (needle.map toLower) ((cstr mem).map toLower)

/-- `lwip_strnstr` looks at the positions up to the one behind the last that `n` allows, unless
    an occurrence or a NUL byte stops it before. -/
def View.strnstrInside (v : View) (token : List UInt8) (n : Nat) : Bool :=
  (strnstr v.received token n).isSome || v.received.contains 0 ||
    n + 1 - token.length < v.received.length

/-- `strstr` goes on until an occurrence or a NUL byte stops it. -/
def View.strstrInside (v : View) (token : List UInt8) : Bool :=
  (memmem token (cstr v.received)).isSome || v.received.contains 0

/-- And so does `strcasestr`. -/
def View.strcasestrInside (v : View) (needle : List UInt8) : Bool :=
  (strcasestr v.received needle).isSome || v.received.contains 0

/-- Record whether a search ended within the bytes received. -/
def Conn.look (c : Conn ρ) (inside : Bool) : Conn ρ := { c with overrun := c.overrun || !inside }

/-- `tcp_write`. -/
def Conn.queue (c : Conn ρ) (bytes : List UInt8) : Conn ρ := { c with queued := c.queued ++ bytes }

def websocketHeader : List UInt8 := ascii "Upgrade: websocket" ++ crlf

def websocketKey : List UInt8 := ascii "Sec-WebSocket-Key: "

def websocketGuid : List UInt8 := ascii "258EAFA5-E914-47DA-95CA-C5AB0DC85B11"

def websocketResponseHeader : List UInt8 :=
  ascii "HTTP/1.1 101 Switching Protocols" ++ crlf ++ ascii "Upgrade: websocket" ++ crlf ++
    ascii "Connection: Upgrade" ++ crlf ++ ascii "Sec-WebSocket-Accept: "

/-- The frame `extHttpWebSocketSendClose` sends. -/
def closeFrame : List UInt8 := [wsFrameFlagFin ||| wsCodeClose, 0x02, 0x03, 0xe8]

/-- `extHttpWebSocketParseHeader`. False stands for `EXIT_FAILURE`. -/
def extHttpWebSocketParseHeader (site : Site) (v : View) (c : Conn ρ) : Bool × Conn ρ :=
  let c := c.look (v.strcasestrInside websocketHeader)
  match strcasestr v.mem websocketHeader with
  | none => (false, c)
  | some _ =>
    let c := { c with reqType := .websocket }
    let c := c.look (v.strcasestrInside websocketKey)
    match strcasestr v.mem websocketKey with
    | none => (true, c.queue closeFrame)
    | some p =>
      let w := v.drop (p + websocketKey.length)
      let c := c.look (w.strstrInside crlf)
      match memmem crlf (cstr w.mem) with
      | none => (true, c.queue closeFrame)
      | some keyLen =>
        if keyLen + (websocketGuid.length + 1) < uriSize ∧ 0 < keyLen then
          let key := w.mem.take keyLen ++ websocketGuid
          let accept := site.acceptKey key
          -- the digest is encoded over the key
          let uri := memcpy (memcpy c.uri 0 (key ++ [0])) 0 (accept ++ [0])
          let response := websocketResponseHeader ++ accept ++ crlf ++ crlf
          let c := c.setData (c.data.copy 0 (response ++ [0])) c.dataSendIndex
          (true, { c with uri := uri }.queue response)
        else (true, c.queue closeFrame)

/-- `_mHttpParseMethod`: the method and the length of its name with the blank. -/
def mHttpParseMethod (mem : List UInt8) : Option (Method × Nat) :=
  if strncmpEq mem (ascii "GET ") 4 then some (.get, 4)
  else if strncmpEq mem (ascii "PUT ") 4 then some (.put, 4)
  else if strncmpEq mem (ascii "POST ") 5 then some (.post, 5)
  else if strncmpEq mem (ascii "DELETE ") 7 then some (.delete, 7)
  else if strncmpEq mem (ascii "PATCH ") 6 then some (.patch, 6)
  else none

/-- `_mHttpParseMethod` writes a NUL byte behind an unsupported method, where the request is
    being parsed. -/
def Conn.cutMethod (c : Conn ρ) : Conn ρ :=
  match c.req with
  | [p] => { c with req := [p.set 4 0] }
  | _ => c.setData (c.data.copy 4 [0]) c.dataSendIndex

/-- The end of the uri, as `_mHttpParseUrl` finds it: at a blank, or at the end of the line of
    an HTTP/0.9 request, which is looked for from the second byte on. -/
def uriEnd (v : View) : Option Nat :=
  match strnstr v.mem [32] v.len with
  | some p => some p
  | none => (strnstr (v.mem.drop 1) crlf v.len).map (· + 1)

/-- `_mHttpParseUrl`. False stands for `EXIT_FAILURE`. -/
def mHttpParseUrl (v : View) (c : Conn ρ) : Bool × Conn ρ :=
  let c := c.look (v.strnstrInside [32] v.len)
  let c := if (strnstr v.mem [32] v.len).isSome then c else
    { c.look ((v.drop 1).strnstrInside crlf v.len) with isV09 := true }
  if (strnstr v.mem [32] v.len).isNone ∧ c.method = .post then (false, c)
  else
    match uriEnd v with
    | none => (true, c)
    | some 0 => (true, c)
    | some (p + 1) =>
      if (strnstr v.mem (crlf ++ crlf) v.len).isSome then
        let uri := v.mem.take (min uriSize (p + 1))
        (true, { c with uri := uri ++ List.replicate (uriSize - uri.length) 0 })
      else (false, c)

/-- `extHttpParseContentLength`, with the header ending at `headerEnd`. -/
def extHttpParseContentLength (mem : List UInt8) (headerEnd : Nat) : Option Nat :=
  (strnstr mem (ascii "Content-Length: ") headerEnd).bind fun p =>
    let text := mem.drop (p + 16)
    (strnstr text crlf 10).bind fun _ =>
      match scanInt text with
      | some (.ofNat 0) => if [48, 13] <+: text then some 0 else none
      | some (.ofNat n) => some n
      | some (.negSucc _) => none
      | none => none

/-- The boundary, from behind "boundary=" on up to the end of the line. A line that is empty up
    to its line feed has a negative length for `snprintf`, which then takes all there is. -/
def boundaryText (text : List UInt8) : List UInt8 :=
  let line := text.takeWhile (· ≠ 10)
  (cstr (if line = [] then text else line.dropLast)).take uriBufLen

/-- The page of an upload, `EXT_WEBPAGE_UPDATE_MCU` or `EXT_WEBPAGE_UPDATE_FPGA`. -/
def uploadPage (uri : List UInt8) : Option Page :=
  if strcasecmpEq uri (ascii "/mcuUpdate") then some .updateMcu
  else if strcasecmpEq uri (ascii "/fpgaUpdate") then some .updateFpga
  else none

/-- The message the upload code prints over the uri. -/
def message : Uri → Option (List UInt8)
  | .page _ => none
  | .uploaded size filename =>
    some (dec size ++ ascii " bytes uploaded for '" ++ filename ++ ascii "'")
  | .noBoundary size filename =>
    some (ascii "Error " ++ dec size ++ ascii " bytes uploaded for " ++ filename ++
      ascii ", no boundary found")
  | .noFile => some (ascii "Error: no file is transmitted")

/-- The message takes the place of the uri. -/
def Conn.tell (c : Conn ρ) (text : List UInt8) : Conn ρ :=
  { c with uri := memcpy c.uri 0 (text.take uriBufLen ++ [0]) }

/-- A page is put together in the request buffer. -/
def Conn.respond (c : Conn ρ) (page : List UInt8) : Conn ρ :=
  { c.setData (c.data.copy 0 page) 0 with contentLength := page.length, httpStatusCode := 200 }

/-- Take over what the upload code has left, and its message if there is one. -/
def Conn.told (t : Post ρ) (c : Conn ρ) : Conn ρ :=
  match message t.conn.uri with
  | some text => { c with post := t }.tell text
  | none => { c with post := t }

/-- The page with a message is printed to the request buffer if there was no file, and to
    `updateProgress` when the context is given up. -/
def Conn.takeOver (site : Site) (t : Post ρ) (c : Conn ρ) : Conn ρ :=
  if t.conn.uri = .noFile ∧ c.post.conn.uri ≠ .noFile then
    (c.told t).respond (site.resultPage (cstr (c.told t).uri))
  else if c.post.conn.uploadCtx = true ∧ t.conn.uploadCtx = false then
    { c.told t with update := some (cstr (c.told t).uri), httpStatusCode := 200 }
  else c.told t

/-- The bytes begin an upload, whose context is called then. -/
def opensContext (site : Site) (p : Pbuf) (t : Post ρ) : Bool :=
  t.conn.uploadStatus = .init &&
    match recvPartHeader site.hw p (countReceived p t) with
    | some (.inr _, _) => true
    | _ => false

/-- Hand bytes to the upload code, `extHttpPostRxDataPbuf`. -/
def Conn.hand (site : Site) (p : Pbuf) (c : Conn ρ) : Option (Bool × Conn ρ) :=
  -- there is no context before `extHttpPostRequest` has set it
  if c.post.conn.uploadCtx = false ∧ opensContext site p c.post then none
  else
    (extHttpPostRxDataPbuf site.hw p c.post).map fun r =>
      (r.1, { c.takeOver site r.2 with handed := c.handed ++ p.flatten })

/-- `extHttpRestError`. -/
def extHttpRestError (httpErrorCode : Nat) (debug : List UInt8) (c : Conn ρ) : Conn ρ :=
  let statusHdr := (extHttpFindStatusHeader httpErrorCode).drop 13
  let error := statusHdr.take ((memmem crlf statusHdr).getD 0)
  let content := ascii "\x7b\"code\":" ++ dec httpErrorCode ++ ascii ",\"error\":\"" ++ error ++
    ascii "\",\"debug\":\"" ++ debug ++ ascii "\"\x7d"
  { c.setData (c.data.copy 0 (content ++ [0])) 0 with
    httpStatusCode := httpErrorCode
    reqType := .rest
    contentLength := content.length }

/-- `badPostRequest`. -/
def Conn.badPost (c : Conn ρ) : Conn ρ :=
  { c with post := { c.post with conn := { c.post.conn with uploadStatus := .error } } }

/-- The connection is one for an upload. -/
def Conn.beginUpload (c : Conn ρ) (page : Page) (boundary : List UInt8) (contentLen : Nat) :
    Conn ρ :=
  { c with post := announceContent contentLen { c.post with
    conn := { c.post.conn with uri := .page page, boundary := boundary } } }

/-- `extHttpPostRequest`. False stands for every error. The end of the header was found among
    the bytes received, so the searches within it end there. -/
def extHttpPostRequest (site : Site) (v : View) (c : Conn ρ) : Option (Bool × Conn ρ) :=
  match strnstr v.mem (crlf ++ crlf) v.len with
  | none => some (false, c)
  | some headerEnd =>
    match extHttpParseContentLength v.mem headerEnd with
    | none => some (false, (extHttpRestError 400 (ascii "Content-Length is wrong") c).badPost)
    | some contentLen =>
      match strnstr v.mem (ascii "boundary=") headerEnd with
      | none => some (false, { c with reqType := .rest })
      | some b =>
        let c := { c with reqType := .upload }
        match uploadPage (cstr c.uri) with
        | none => some (false, c.badPost)
        | some page =>
          let c := c.beginUpload page (boundaryText (v.mem.drop (b + 9))) contentLen
          match hideHeader (min v.len (headerEnd + 4)) c.req with
          | some q => c.hand site q
          -- the first pbufs hold nothing but the header
          | none => if contentLen = 0 then c.hand site [] else some (true, c)

/-- The pages of `extHttpWebService`. -/
def isWebPage (uri : List UInt8) : Bool :=
  strcasecmpEq (ascii "/") uri || strcasecmpEq (ascii "/info") uri ||
    strcasecmpEq (ascii "/media") uri || strcasecmpEq (ascii "/reboot") uri

/-- The 404 page that takes the place of a file, `_mhttpFileGet404`. -/
def page404 (root : List MfsdataFile) : Option (List UInt8) :=
  [ascii "/404.html", ascii "/404.htm", ascii "/404.shtml"].find? fun name =>
    (mfsOpen root name).isSome

/-- What `extHttpFileFind` leaves in `mhc->uri`: the parameters are cut off, and the 404 page
    takes the place of a file that does not exist. -/
def fileUri (root : List MfsdataFile) (uri : List UInt8) : List UInt8 :=
  let base := (cstr uri).takeWhile (· ≠ 63)
  let uri := if 63 ∈ cstr uri then memcpy uri 0 (base ++ [0]) else uri
  if (mfsOpen root base).isSome then uri
  else
    match page404 root with
    | some name => memcpy uri 0 (name ++ [0])
    | none => uri

/-- `extHttpHandleRequest`. -/
def extHttpHandleRequest (site : Site) (c : Conn ρ) : Conn ρ :=
  if 400 ≤ c.httpStatusCode then c
  else if isWebPage (cstr c.uri) then { c with reqType := .cgi }.respond (site.webPage (cstr c.uri))
  else
    { c with
      reqType := .file
      uri := fileUri site.root c.uri
      handle := (requestedFile site.root (cstr c.uri)).isSome
      file := response site.root (cstr c.uri) c.isV09 }

/-- `_mHttpParseRequest`. False stands for every error. -/
def mHttpParseRequest (site : Site) (v : View) (c : Conn ρ) : Option (Bool × Conn ρ) :=
  match mHttpParseMethod v.mem with
  | none => some (false, c.cutMethod)
  | some (method, n) =>
    let u := mHttpParseUrl (v.drop n) { c with method := method }
    if u.1 = false then some (false, u.2)
    else if u.2.method = .post then extHttpPostRequest site v u.2
    else some (true, extHttpHandleRequest site u.2)

/-- What `extHttpRequestParse` answers. -/
inductive Parsed where
  | ok
  | inProgress
  | arg
  deriving DecidableEq

/-- `MHTTP_MIN_REQ_LEN` and `MHTTPD_REQ_QUEUELEN`. -/
def minReqLen : Nat := 7

def reqQueueLen : Nat := 5

/-- The chain that is parsed: in its pbuf, or copied to the request buffer. -/
def Conn.view (c : Conn ρ) (behind : List UInt8) : View × Conn ρ :=
  match c.req with
  | [p] => (⟨p ++ behind, p.length⟩, c)
  | req =>
    let len := min req.flatten.length maxReqLength
    let data := c.data.copy 0 (req.flatten.take len)
    (⟨data.bytes ++ behind, len⟩, { c.setData data c.dataSendIndex with contentLength := len })

/-- "request not fully received", unless there is too much of it. -/
def Conn.progress (c : Conn ρ) : Parsed :=
  if c.req.flatten.length ≤ maxReqLength ∧ c.req.length ≤ reqQueueLen then .inProgress else .arg

/-- What `extHttpRequestParse` does with the bytes received so far. -/
def parseReceived (site : Site) (v : View) (c : Conn ρ) : Option (Parsed × Conn ρ) :=
  if v.len < minReqLen then some (c.progress, c)
  else
    match strnstr v.mem crlf v.len with
    -- `badrequest`
    | none => some (.arg, c)
    | some _ =>
      let w := extHttpWebSocketParseHeader site v c
      if w.1 then some (.ok, w.2)
      else (mHttpParseRequest site v w.2).map fun r =>
        if r.1 then (.ok, r.2) else (r.2.progress, r.2)

/-- `extHttpRequestParse`, when no file is being sent. -/
def extHttpRequestParse (site : Site) (s : Segment) (c : Conn ρ) : Option (Parsed × Conn ρ) :=
  let v := { c with req := c.req ++ s.chain }.view s.behind
  parseReceived site v.1 v.2

/-- `mhttpConnClose`. The upload code is told, and a web socket closed with a frame. -/
def Conn.close (site : Site) (c : Conn ρ) : Option (Conn ρ) :=
  (mhttpConnClose site.hw c.post).map fun t =>
    let c := { c.takeOver site t with closed := true }
    if c.reqType = .websocket then c.queue closeFrame else c

/-- `_mHttpSendFile`. -/
def mHttpSendFile (site : Site) (c : Conn ρ) : Option (Conn ρ) :=
  let len := min c.file.length 65535
  let c : Conn ρ := { c.queue (c.file.take len) with file := c.file.drop len }
  if c.file = [] then c.close site else some c

/-- `_mHttpSendRest`. Beyond the content the length is almost 65536, which leaves the buffer. -/
def mHttpSendRest (site : Site) (c : Conn ρ) : Option (Conn ρ) :=
  if c.contentLength = c.dataSendIndex ∨ c.contentLength = 0 then some c
  else if c.contentLength < c.dataSendIndex ∨ maxReqLength < c.contentLength then none
  else
    let header :=
      if c.dataSendIndex = 0 then
        extHttpFindStatusHeader c.httpStatusCode ++ httpCommonHeader ++
          contentLengthHeader c.contentLength
      else []
    let content := (c.data.bytes.take c.contentLength).drop c.dataSendIndex
    ((c.queue (header ++ content)).setData c.data c.contentLength).close site

/-- `extHttpSend`. -/
def extHttpSend (site : Site) (c : Conn ρ) : Option (Conn ρ) :=
  match c.reqType with
  | .rest => if 200 ≤ c.httpStatusCode then mHttpSendRest site c else some c
  | .file => mHttpSendFile site c
  | .websocket =>
    if c.httpStatusCode = 200 then some (c.queue (c.data.bytes.take c.dataSendIndex)) else some c
  | .cgi => (c.queue (c.data.bytes.take (c.contentLength - c.dataSendIndex))).close site
  | .upload =>
    match c.update with
    | some text => ({ c with update := none }.queue (site.updatePage text)).close site
    | none => some c

/-- A segment behind a web socket handshake. -/
def recvFrame (site : Site) (c : Conn ρ) : Pbuf → Option (Conn ρ)
  | [] => some c
  | data :: next =>
    (extHttpWebSocketParseFrame site.mem ⟨c.data, c.dataSendIndex, c.httpStatusCode, 0⟩ data
      next).bind fun r =>
        let c := { c.setData r.2.1.data r.2.1.dataSendIndex with
          httpStatusCode := r.2.1.httpStatusCode }
        if r.1 = .clsd then c.close site else some c

/-- A segment with a part of a body. "all data received, send response or close connection". -/
def recvBody (site : Site) (c : Conn ρ) (p : Pbuf) : Option (Conn ρ) :=
  (c.hand site p).bind fun r => extHttpSend site r.2

/-- What `__mhttpRecv` does with the result: "request fully parsed or error". -/
def settle (site : Site) (r : Parsed × Conn ρ) : Option (Conn ρ) :=
  match r.1 with
  | .inProgress => some r.2
  | .ok => extHttpSend site { r.2 with req := [] }
  | .arg => { r.2 with req := [] }.close site

/-- `__mhttpRecv`. -/
def mhttpRecv (site : Site) (c : Conn ρ) (s : Segment) : Option (Conn ρ) :=
  if c.closed then some c
  else if c.reqType = .websocket then recvFrame site c s.chain
  else if 0 < c.post.conn.postDataLeft ∨ c.method = .post then recvBody site c s.chain
  else if c.handle then some c
  else (extHttpRequestParse site s c).bind (settle site)

end Request

end RtosLwip
