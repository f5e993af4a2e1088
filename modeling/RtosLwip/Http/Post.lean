import RtosLwip.Base.Search
import RtosLwip.Flash.Upload

/-!
# Receiving an Upload

The POST side of the web server, `httpPost.c`: the body of an upload arrives in
segments, each a chain of pbufs. The first segment must hold the header of the
file part. What stands behind it is collected in the request buffer of 3072
bytes and written to the upload context whenever the buffer is full, and the
last, partial buffer is written when the announced length has arrived. In every
buffer the boundary is looked for, and what stands from four bytes before it on
is not written.

The bytes of a segment are those of its chain, so most functions take the bytes
and only the function that hides the part header walks the chain.

Where the C text has no defined behaviour the functions answer `none`: a search
that runs off the request buffer, a header end that was not found, a chain that
ends with the header, a write through the context after it was given up, and a
boundary in the first four bytes of a buffer, which leaves a length of almost
65536 for the write.

The effects are what can be told of an upload from outside: what was requested
and received, the calls of the upload context, the boundary being found, and
the configuration being saved. They are listed newest first.

## Main definitions

* `Conn`: The connection, as far as an upload uses it.
* `Effect`: What an upload does.
* `Post`: A connection, the device and the effects so far.
* `findEndingBoundary`, `extHttpPostData`, `extHttpPostDataRecv`,
  `extHttpPostDataFinished`, `extHttpPostRxDataPbuf`, `extHttpPostRequest`,
  `mhttpConnClose`: The functions of the source.
-/

namespace RtosLwip

namespace Http

open Flash

/-- `MHTTPD_MAX_REQ_LENGTH`, the size of the request buffer. -/
def maxReqLength : Nat := 3072

/-- `MHTTPD_URI_BUF_LEN`, the characters a file name can have. -/
def uriBufLen : Nat := 127

/-- `MHTTP_CRLF`. -/
def crlf : List UInt8 := [13, 10]

/-- `UPLOAD_FORM_FILENAME`, the text "filename". -/
def uploadFormFilename : List UInt8 := [102, 105, 108, 101, 110, 97, 109, 101]

/-- The character that ends a file name. -/
def quote : UInt8 := 34

/-- The request buffer `mhc->data`. -/
structure ReqBuf where
  bytes : List UInt8
  length_bytes : bytes.length = maxReqLength

/-- Copy `src` to offset `off` of the request buffer. -/
def ReqBuf.copy (b : ReqBuf) (off : Nat) (src : List UInt8) : ReqBuf :=
  ⟨(memcpy b.bytes off src).take maxReqLength, by
    have hlen := b.length_bytes
    unfold memcpy
    simp only [List.length_take, List.length_append, List.length_drop]
    omega⟩

/-- The request buffer after `memset` with zero. -/
def ReqBuf.zero : ReqBuf := ⟨List.replicate maxReqLength 0, List.length_replicate⟩

/-- The pages that take an upload, `EXT_WEBPAGE_UPDATE_MCU` and
    `EXT_WEBPAGE_UPDATE_FPGA`. -/
inductive Page where
  | updateMcu
  | updateFpga
  deriving DecidableEq, Repr

/-- `mhc->uri`: the page of the request, and later the message for the result
    page: "%d bytes uploaded for '%s'", "Error %d bytes uploaded for %s, no
    boundary found" and "Error: no file is transmitted". -/
inductive Uri where
  | page (page : Page)
  | uploaded (size : Nat) (filename : List UInt8)
  | noBoundary (size : Nat) (filename : List UInt8)
  | noFile
  deriving DecidableEq, Repr

/-- `_UPLOAD_STATUS`. -/
inductive UploadStatus where
  | init
  | copy
  | ended
  | error
  deriving DecidableEq, Repr

/-- `MuxHttpConn`, as far as an upload uses it. A null `uploadCtx` is false. -/
structure Conn where
  pcb : Nat
  uri : Uri
  boundary : List UInt8
  filename : List UInt8
  uploadStatus : UploadStatus
  uploadCtx : Bool
  data : ReqBuf
  dataSendIndex : Nat
  postDataLeft : Nat

/-- The connection when the request header of an upload has been parsed. The
    request buffer may hold anything. -/
def newConn (pcb : Nat) (page : Page) (boundary : List UInt8) (data : ReqBuf) : Conn :=
  ⟨pcb, .page page, boundary, [], .init, false, data, 0, 0⟩

/-- What an upload does, with the connection it does it on. -/
inductive Effect where
  | requested (pcb contentLength : Nat)
  | received (pcb length : Nat)
  | opened (pcb : Nat)
  | wrote (pcb : Nat) (bytes : List UInt8)
  | found (pcb : Nat)
  | closed (pcb : Nat)
  | saved (info : FmUpdate)
  deriving DecidableEq, Repr

/-- A connection, the device and the effects so far. -/
structure Post (ρ : Type) where
  conn : Conn
  dev : Device ρ
  history : List Effect

/-- A chain of pbufs, by their payloads. -/
abbrev Pbuf := List (List UInt8)

/-- `lwip_strnstr`: the search ends at a NUL byte and after `n` bytes. -/
def strnstr (buffer token : List UInt8) (n : Nat) : Option Nat :=
  memmem token ((buffer.take n).takeWhile (· ≠ 0))

variable {ρ : Type}

/-- `__findEndingBoundary`. The length that is left is an unsigned short. -/
def findEndingBoundary (s : Post ρ) : Bool × Post ρ :=
  match memmem s.conn.boundary (s.conn.data.bytes.take s.conn.dataSendIndex) with
  | some p => (true, { s with
      conn := { s.conn with
        dataSendIndex := (p + 65536 - 4) % 65536
        uploadStatus := .ended
        uri := .uploaded s.dev.runCfg.firmUpdateInfo.size s.conn.filename }
      history := .found s.conn.pcb :: s.history })
  | none => (false, s)

/-- `uploadCtx->open`, with the type of firmware `_extUploadOpen` reads from the
    uri. -/
def ctxOpen (hw : UploadHw) (s : Post ρ) : Post ρ :=
  let fmT : FmType := match s.conn.uri with
    | .page .updateMcu => .rtos
    | .page .updateFpga => .fpga
    | _ => .none
  { s with
    dev := firmwareUpdateInit hw fmT s.dev
    history := .opened s.conn.pcb :: s.history }

/-- `uploadCtx->write` of the first `dataSendIndex` bytes of the request buffer,
    which are cleared when they were taken. -/
def ctxWrite (hw : UploadHw) (s : Post ρ) : Option (Nat × Post ρ) :=
  if s.conn.uploadCtx = true ∧ s.conn.dataSendIndex ≤ maxReqLength then
    let bytes := s.conn.data.bytes.take s.conn.dataSendIndex
    let w := extUploadWrite hw bytes s.dev
    let data := if w.1 = s.conn.dataSendIndex then
      s.conn.data.copy 0 (List.replicate s.conn.dataSendIndex 0) else s.conn.data
    some (w.1, { s with
      conn := { s.conn with data := data }
      dev := w.2
      history := .wrote s.conn.pcb bytes :: s.history })
  else
    none

/-- `uploadCtx->close`. -/
def ctxClose (hw : UploadHw) (s : Post ρ) : Post ρ :=
  let e := firmwareUpdateEnd hw s.dev
  let history := .closed s.conn.pcb :: s.history
  { s with
    dev := e.2
    history := if e.1 then .saved s.dev.runCfg.firmUpdateInfo :: history else history }

/-- What `__extHttpPostData` does with a full request buffer. False stands for
    `EXIT_FAILURE`. -/
def writeBlock (hw : UploadHw) (s : Post ρ) : Option (Bool × Post ρ) :=
  (ctxWrite hw (findEndingBoundary s).2).map fun w =>
    if w.1 ≠ w.2.conn.dataSendIndex then
      (false, w.2)
    else
      (true, { w.2 with conn := { w.2.conn with dataSendIndex := 0 } })

/-- The loop of `__extHttpPostData`. Every pass but the first takes a byte, so
    two passes more than there are bytes are enough. -/
def postDataLoop (hw : UploadHw) (bytes : List UInt8) :
    Nat → Nat → Post ρ → Option (Bool × Post ρ)
  | 0, _, _ => none
  | fuel + 1, copied, s =>
    if copied = bytes.length then
      some (true, s)
    else if maxReqLength < s.conn.dataSendIndex then
      none
    else
      let len := min (bytes.length - copied) (maxReqLength - s.conn.dataSendIndex)
      let s := { s with conn := { s.conn with
        data := s.conn.data.copy s.conn.dataSendIndex ((bytes.drop copied).take len)
        dataSendIndex := s.conn.dataSendIndex + len } }
      if s.conn.dataSendIndex = maxReqLength then
        (writeBlock hw s).bind fun w =>
          if w.1 then postDataLoop hw bytes fuel (copied + len) w.2 else some (false, w.2)
      else
        postDataLoop hw bytes fuel (copied + len) s

/-- `__extHttpPostData`. -/
def extHttpPostData (hw : UploadHw) (bytes : List UInt8) (s : Post ρ) :
    Option (Bool × Post ρ) :=
  postDataLoop hw bytes (bytes.length + 2) 0 s

/-- Hide the first `dataOffset` bytes of a chain. The chain must not end with
    them. -/
def hideHeader : Nat → Pbuf → Option Pbuf
  | _, [] => none
  | dataOffset, p :: next =>
    if p.length ≤ dataOffset then hideHeader (dataOffset - p.length) next
    else some (p.drop dataOffset :: next)

/-- What `extHttpPostDataRecv` does with the first segment: the file name, the
    opening of the upload, and the end of the part header. Answers the bytes
    that are left, or the result the function returns with. -/
def recvPartHeader (hw : UploadHw) (p : Pbuf) (s : Post ρ) :
    Option ((Bool ⊕ List UInt8) × Post ρ) :=
  let len := min p.flatten.length maxReqLength
  let data := s.conn.data.copy 0 (p.flatten.take len)
  match strnstr data.bytes uploadFormFilename len with
  | none =>
    some (.inl false, { s with conn := { s.conn with data := data, uploadStatus := .error } })
  | some pos =>
    let text := data.bytes.drop (pos + 10)
    -- strchr and snprintf stop at the quote or at a NUL byte
    if quote ∉ text ∧ 0 ∉ text then
      none
    else
      let filename := (text.takeWhile fun c => c ≠ quote ∧ c ≠ 0).take uriBufLen
      if filename = [] then
        -- extHttpWebPageResult builds the page in the request buffer
        some (.inl true, { s with conn := { s.conn with
          data := ReqBuf.zero, filename := filename, uploadStatus := .error, uri := .noFile,
          dataSendIndex := 0 } })
      else
        let s := ctxOpen hw { s with conn := { s.conn with
          data := data, filename := filename, uploadStatus := .copy } }
        match strnstr data.bytes (crlf ++ crlf) len with
        | none => none
        | some e => (hideHeader (e + 4) p).map fun q =>
            (.inr q.flatten, { s with conn := { s.conn with dataSendIndex := 0 } })

/-- `extHttpPostDataRecv`. -/
def extHttpPostDataRecv (hw : UploadHw) (p : Pbuf) (s : Post ρ) : Option (Bool × Post ρ) :=
  if s.conn.uploadStatus = .init then
    (recvPartHeader hw p s).bind fun r =>
      match r.1 with
      | .inl ret => some (ret, r.2)
      | .inr bytes => extHttpPostData hw bytes r.2
  else
    extHttpPostData hw p.flatten s

/-- The message and the status `extHttpPostDataFinished` leaves. -/
def finishStatus (s : Post ρ) : Post ρ :=
  let f := findEndingBoundary s
  let size := f.2.dev.runCfg.firmUpdateInfo.size + f.2.conn.dataSendIndex
  if f.1 then
    { f.2 with conn := { f.2.conn with uri := .uploaded size f.2.conn.filename } }
  else
    { f.2 with conn := { f.2.conn with
      uploadStatus := .error, uri := .noBoundary size f.2.conn.filename } }

/-- How `extHttpPostDataFinished` ends: an update whose body is not complete is
    cancelled, and the context is closed and given up. -/
def closeUpload (hw : UploadHw) (s : Post ρ) : Post ρ :=
  let s := if s.conn.postDataLeft ≠ 0 then { s with dev := s.dev.cancel } else s
  let s := ctxClose hw s
  { s with conn := { s.conn with uploadCtx := false } }

/-- `extHttpPostDataFinished`. What the last write answers is not looked at. -/
def extHttpPostDataFinished (hw : UploadHw) (s : Post ρ) : Option (Post ρ) :=
  if s.conn.uploadStatus = .error ∨ s.conn.uploadStatus = .ended then
    -- "POST request has been handled"
    some s
  else
    (ctxWrite hw (finishStatus s)).map fun w => closeUpload hw w.2

/-- What `extHttpPostRxDataPbuf` does with the result of `extHttpPostDataRecv`. -/
def postRxResult (hw : UploadHw) (r : Bool × Post ρ) : Option (Bool × Post ρ) :=
  if r.1 = false then
    -- "Ignore remaining content in case of application error"
    some (false, { r.2 with conn := { r.2.conn with postDataLeft := 0 } })
  else if r.2.conn.postDataLeft = 0 then
    (extHttpPostDataFinished hw r.2).map fun s => (true, s)
  else
    some (true, r.2)

/-- `extHttpPostRxDataPbuf` counts what arrived: "adjust remaining
    Content-Length". -/
def countReceived (p : Pbuf) (s : Post ρ) : Post ρ :=
  { s with
    conn := { s.conn with postDataLeft := s.conn.postDataLeft - p.flatten.length }
    history := .received s.conn.pcb p.flatten.length :: s.history }

/-- `extHttpPostRxDataPbuf`. True stands for `ERR_OK`. -/
def extHttpPostRxDataPbuf (hw : UploadHw) (p : Pbuf) (s : Post ρ) : Option (Bool × Post ρ) :=
  (extHttpPostDataRecv hw p (countReceived p s)).bind (postRxResult hw)

/-- `extHttpPostRequest` sets the context and the length of the content to be
    received. -/
def announceContent (contentLen : Nat) (s : Post ρ) : Post ρ :=
  { s with
    conn := { s.conn with postDataLeft := contentLen, uploadCtx := true }
    history := .requested s.conn.pcb contentLen :: s.history }

/-- `extHttpPostRequest` once the request header of an upload is parsed. `body`
    is what the segments of the request hold behind the header. -/
def extHttpPostRequest (hw : UploadHw) (contentLen : Nat) (body : Pbuf) (s : Post ρ) :
    Option (Bool × Post ρ) :=
  if body.flatten ≠ [] then
    extHttpPostRxDataPbuf hw body (announceContent contentLen s)
  else if contentLen = 0 then
    -- only the header was received, and there is no body
    extHttpPostRxDataPbuf hw [] (announceContent contentLen s)
  else
    some (true, announceContent contentLen s)

/-- `_mhttpConnCloseOrAbort`, up to the connection being freed. -/
def mhttpConnClose (hw : UploadHw) (s : Post ρ) : Option (Post ρ) :=
  if s.conn.postDataLeft ≠ 0 then extHttpPostDataFinished hw s else some s

end Http

end RtosLwip
