import RtosLwip.Base.Run
import RtosLwip.Base.Text
import RtosLwip.Http.FileSend

/-!
# Sending a Generated Response

The responses the web server makes up itself: the answers of the REST interface,
the CGI pages and the page that tells the result of an upload. `extHttpSend`
keeps a progress index of its own for each of them, and is called again from
every sent callback and every poll.

A REST answer is sent as three header pieces and the content, each with a write
of its own; a page holds its header already. What is queued is recorded byte by
byte, each together with its place in the response, as the same byte may stand
there twice.

Both pages are finished by `mhttpConnEof`, which frees the connection, and only
then is their progress noted in it.

## Main definitions

* `extHttpFindStatusHeader`, `httpCommonHeader`, `contentLengthHeader`: The
  header of a REST answer.
* `Response`, `RespConn`, `Answer`: A response, the connection it is sent on, and
  what has become of both.
* `mhttpSendOneHeader`, `mHttpSendRest`, `sendCgi`, `sendUpload`, `extHttpSend`:
  Sending.
* `SendEvent`, `answerStep`: The callbacks.
* `Intact`: What is queued is the beginning of the response, and all of it when
  the connection is closed, and the freed connection is left alone.
* `Undisturbed`: The steps that keep it so.

## Theorems

* `sendRest_ok`, `sendCgi_ok`, `sendUpload_ok`: One call under the condition.
* `intact_run`: A run under the condition keeps the response intact.
-/

namespace RtosLwip

namespace Http

/-- `extHttpFindStatusHeader`. -/
def extHttpFindStatusHeader (httpStatusCode : Nat) : List UInt8 :=
  ascii "HTTP/1.1 " ++ match httpStatusCode with
    | 200 => ascii "200 OK" ++ crlf
    | 101 => ascii "101 Switching Protocols" ++ crlf ++ ascii "Upgrade: websocket" ++ crlf ++
        ascii "Connection: Upgrade" ++ crlf
    | 307 => ascii "307 Temporary Redirect" ++ crlf
    | 400 => ascii "400 Bad Request" ++ crlf
    | 405 => ascii "405 Method Not Allowed" ++ crlf
    | 423 => ascii "423 Locked" ++ crlf
    | 500 => ascii "500 Internal Server Error" ++ crlf
    | 501 => ascii "501 Not Implemented" ++ crlf
    | _ => ascii "404 Not Found" ++ crlf

def httpCommonHeader : List UInt8 :=
  ascii "Server: MuxLab/500767" ++ crlf ++ ascii "Content-Type: application/json" ++ crlf

/-- `_contentLength`. -/
def contentLengthHeader (contentLength : Nat) : List UInt8 :=
  ascii "Content-Length: " ++ dec contentLength ++ crlf ++ crlf

/-- A response as it was generated: the status and the content, or a page with its header. -/
inductive Response where
  | rest (httpStatusCode : Nat) (content : List UInt8)
  | cgi (page : List UInt8)
  | upload (uploadStatus : UploadStatus) (page : List UInt8)

/-- `EXT_HTTP_REQ_T`, as far as a response is generated. -/
inductive RespType where
  | rest
  | cgi
  | upload

/-- The fields of `MuxHttpConn` a generated response is sent from. The buffers are given up
    to the end of what was generated. -/
structure RespConn where
  reqType : RespType
  httpStatusCode : Nat
  uploadStatus : UploadStatus
  data : List UInt8
  dataSendIndex : Nat
  contentLength : Nat
  updateProgress : List UInt8
  updateIndex : Nat
  updateLength : Nat
  retries : Nat

/-- The connection when the response has been generated. -/
def Response.conn : Response → RespConn
  | .rest status content => ⟨.rest, status, .init, content, 0, content.length, [], 0, 0, 0⟩
  | .cgi page => ⟨.cgi, 200, .init, page, 0, page.length, [], 0, 0, 0⟩
  | .upload status page => ⟨.upload, 200, status, [], 0, 0, page, 0, page.length, 0⟩

/-- The header of the response, if it is not part of the page. -/
def Response.header : Response → List UInt8
  | .rest status content =>
    extHttpFindStatusHeader status ++ httpCommonHeader ++ contentLengthHeader content.length
  | _ => []

def Response.body : Response → List UInt8
  | .rest _ content => content
  | .cgi page => page
  | .upload _ page => page

/-- The header followed by the body. -/
def Response.whole (r : Response) : List UInt8 := r.header ++ r.body

/-- The connection until it is freed, the bytes queued on it, each with its place in the
    response, and whether it was used after it was freed. -/
structure Answer where
  conn : Option RespConn
  queued : List (UInt8 × Nat)
  touched : Bool

/-- The control block, the room counted by `_mHttpSendRest`, and the bytes queued. -/
structure Out where
  pcb : Pcb
  sndBufSize : Nat
  queued : List (UInt8 × Nat)

/-- `_mhttpSendOneHeader`. The piece stands at `place` in the response. -/
def mhttpSendOneHeader (call : Nat) (hdr : List UInt8) (place : Nat) (o : Out) : Out :=
  if o.sndBufSize < hdr.length then o
  else
    let r := extHttpWrite o.pcb call hdr.length
    let n := if r.1 = .ok then r.2 else 0
    ⟨o.pcb.after r.2, o.sndBufSize - n, o.queued ++ (hdr.zipIdx place).take r.2⟩

/-- The three header pieces of a REST answer. -/
def sendHeaders (c : RespConn) (o : Out) : Out :=
  let status := extHttpFindStatusHeader c.httpStatusCode
  let o := mhttpSendOneHeader 0 status 0 o
  let o := mhttpSendOneHeader 1 httpCommonHeader status.length o
  mhttpSendOneHeader 2 (contentLengthHeader c.contentLength)
    (status.length + httpCommonHeader.length) o

/-- The length of the three pieces. -/
def headersLength (c : RespConn) : Nat :=
  (extHttpFindStatusHeader c.httpStatusCode).length + httpCommonHeader.length +
    (contentLengthHeader c.contentLength).length

/-- `_mHttpSendRest`. -/
def mHttpSendRest (pcb : Pcb) (c : RespConn) (s : Answer) : Answer :=
  if c.contentLength = c.dataSendIndex ∨ c.contentLength = 0 then { s with conn := some c }
  else
    let start : Out := ⟨pcb, pcb.sndBuf, s.queued⟩
    -- first packet for this response, so header first
    let o := if c.dataSendIndex = 0 then sendHeaders c start else start
    let r := extHttpWrite o.pcb 3 (c.contentLength - c.dataSendIndex)
    let place := headersLength c + c.dataSendIndex
    let s' := { s with
      queued := o.queued ++ ((c.data.drop c.dataSendIndex).zipIdx place).take r.2 }
    if r.1 ≠ .ok then { s' with conn := some c }
    else if c.contentLength = c.dataSendIndex + r.2 then { s' with conn := none }
    else { s' with conn := some { c with dataSendIndex := c.dataSendIndex + r.2 } }

/-- `extHttpSend` for a CGI page. Every write begins at the start of the page. -/
def sendCgi (pcb : Pcb) (c : RespConn) (s : Answer) : Answer :=
  let len := c.contentLength - c.dataSendIndex
  let r := extHttpWrite pcb 0 len
  let s' := { s with queued := s.queued ++ (c.data.zipIdx 0).take r.2 }
  if r.2 < len then { s' with conn := some { c with dataSendIndex := c.dataSendIndex + r.2 } }
  -- the index is added to behind `mhttpConnEof`
  else { s' with conn := none, touched := true }

/-- `extHttpSend` for the result of an upload. -/
def sendUpload (pcb : Pcb) (c : RespConn) (s : Answer) : Answer :=
  let len := c.updateLength - c.updateIndex
  if 0 < len then
    let r := extHttpWrite pcb 0 len
    let s' := { s with queued := s.queued ++ (c.updateProgress.zipIdx 0).take r.2 }
    if r.2 < len then { s' with conn := some { c with updateLength := 0 } }
    -- the length is cleared behind `mhttpConnEof`
    else { s' with conn := none, touched := true }
  else { s with conn := some { c with updateLength := 0 } }

/-- `extHttpSend`. -/
def extHttpSend (pcb : Pcb) (c : RespConn) (s : Answer) : Answer :=
  match c.reqType with
  | .rest => if 200 ≤ c.httpStatusCode then mHttpSendRest pcb c s else { s with conn := some c }
  | .cgi => sendCgi pcb c s
  | .upload =>
    if c.uploadStatus ≠ .init then sendUpload pcb c s else { s with conn := some c }

/-- What happens to a connection with a generated response. -/
inductive SendEvent where
  /-- `__mhttpRecv`, when the request has been handled -/
  | handled (pcb : Pcb)
  /-- `__mhttpSent` -/
  | sent (pcb : Pcb)
  /-- `mhttpPoll` -/
  | poll (pcb : Pcb)

/-- The callbacks of the source. Those of a freed connection are not called any more. -/
def answerStep (s : Answer) (e : SendEvent) : Answer :=
  match s.conn with
  | none => s
  | some c =>
    match e with
    | .handled pcb => extHttpSend pcb c s
    | .sent pcb => extHttpSend pcb { c with retries := 0 } s
    | .poll pcb =>
      let retries := (c.retries + 1) % 256
      if retries = maxRetries then { s with conn := none }
      else extHttpSend pcb { c with retries := retries } s

/-- The response has been generated and nothing of it is sent. -/
def Answer.start (r : Response) : Answer := ⟨some r.conn, [], false⟩

/-- What is queued is the beginning of the response, it is all of it when the connection is
    closed, and the connection is not used after that. -/
structure Intact (r : Response) (s : Answer) : Prop where
  queued : s.queued <+: r.whole.zipIdx
  closed : s.conn = none → s.queued = r.whole.zipIdx
  untouched : s.touched = false

/-- The stack takes the three header pieces whole, and something of the content. -/
def HeaderWhole (pcb : Pcb) (c : RespConn) : Prop :=
  let status := (extHttpFindStatusHeader c.httpStatusCode).length
  let common := httpCommonHeader.length
  let length := (contentLengthHeader c.contentLength).length
  pcb.Whole 0 status ∧ (pcb.after status).Whole 1 common ∧
    ((pcb.after status).after common).Whole 2 length ∧
    ¬ (((pcb.after status).after common).after length).Refuses 3 c.contentLength

/-- The stack takes nothing of the header pieces and nothing of the content. -/
def NothingTaken (pcb : Pcb) (c : RespConn) : Prop :=
  let status := (extHttpFindStatusHeader c.httpStatusCode).length
  let length := (contentLengthHeader c.contentLength).length
  (pcb.sndBuf < status ∨ pcb.Refuses 0 status) ∧
    (pcb.sndBuf < httpCommonHeader.length ∨ pcb.Refuses 1 httpCommonHeader.length) ∧
    (pcb.sndBuf < length ∨ pcb.Refuses 2 length) ∧ pcb.Refuses 3 c.contentLength

/-- What the stack may do when `extHttpSend` is called. -/
def TakenWell (pcb : Pcb) (c : RespConn) : Prop :=
  match c.reqType with
  | .rest => c.httpStatusCode < 200 ∨ c.contentLength = 0 ∨ c.dataSendIndex ≠ 0 ∨
      HeaderWhole pcb c ∨ NothingTaken pcb c
  | .cgi =>
    -- a page may be begun but not finished in the first write, and later nothing may be taken
    c.contentLength ≠ 0 ∧
      if c.dataSendIndex = 0 then ¬ pcb.Whole 0 c.contentLength
      else pcb.Refuses 0 (c.contentLength - c.dataSendIndex)
  | .upload => c.uploadStatus = .init ∨ c.updateLength = 0 ∨ ¬ pcb.Whole 0 c.updateLength

/-- The step does not reach the retry limit, and the stack takes what it is given as it has to. -/
def Undisturbed (s : Answer) (e : SendEvent) : Prop :=
  match s.conn with
  | none => True
  | some c =>
    match e with
    | .handled pcb => TakenWell pcb c
    | .sent pcb => TakenWell pcb c
    | .poll pcb => (c.retries + 1) % 256 ≠ maxRetries ∧ TakenWell pcb c

/-- The first `n` bytes of the response. -/
def Response.upTo (r : Response) (n : Nat) : List (UInt8 × Nat) := (r.whole.take n).zipIdx

/-- How much of the response is queued while it is being sent, by the connection. -/
def Queued (r : Response) (c : RespConn) (n : Nat) : Prop :=
  match r with
  | .rest _ content => c.updateLength = 0 ∧
      (content.length ≠ 0 → c.dataSendIndex < content.length) ∧
      n = if c.dataSendIndex = 0 then 0 else r.header.length + c.dataSendIndex
  | .cgi page => c.updateLength = 0 ∧ (page.length ≠ 0 → c.dataSendIndex < page.length) ∧
      n = c.dataSendIndex
  | .upload _ page => c.dataSendIndex = 0 ∧
      (c.updateLength = 0 ∨ c.updateLength = page.length ∧ n = 0)

/-- A connection in the middle of its response. -/
structure Pending (r : Response) (c : RespConn) (s : Answer) : Prop where
  same : c = { r.conn with
    dataSendIndex := c.dataSendIndex, updateLength := c.updateLength, retries := c.retries }
  queued : ∃ n, s.queued = r.upTo n ∧ Queued r c n
  untouched : s.touched = false

/-- What every step keeps. -/
structure AnswerOk (r : Response) (s : Answer) : Prop where
  intact : Intact r s
  pending : ∀ c, s.conn = some c → Pending r c s

theorem Response.upTo_prefix (r : Response) (n : Nat) : r.upTo n <+: r.whole.zipIdx := by
  have hsplit : r.whole.zipIdx = r.upTo n ++ (r.whole.drop n).zipIdx (r.whole.take n).length := by
    conv_lhs => rw [← List.take_append_drop n r.whole, List.zipIdx_append, Nat.zero_add]
    rfl
  rw [hsplit]
  exact List.prefix_append _ _

theorem Response.upTo_all (r : Response) {n : Nat} (h : r.whole.length ≤ n) :
    r.upTo n = r.whole.zipIdx := by
  rw [upTo, List.take_of_length_le h]

/-- Bytes that stand behind what is queued are queued in their place. -/
theorem Response.upTo_append (r : Response) {k n : Nat} {bytes : List UInt8}
    (hk : k ≤ r.whole.length) (hbytes : bytes <+: r.whole.drop k) (hn : n ≤ bytes.length) :
    r.upTo k ++ (bytes.zipIdx k).take n = r.upTo (k + n) := by
  rcases hbytes with ⟨rest, hrest⟩
  have htake : (bytes.zipIdx k).take n = (bytes.take n).zipIdx k := by
    conv_lhs => rw [← List.take_append_drop n bytes, List.zipIdx_append]
    rw [List.take_append_of_le_length (by rw [List.length_zipIdx, List.length_take]; omega),
      List.take_of_length_le (by rw [List.length_zipIdx, List.length_take]; omega)]
  have hmore : r.whole.take (k + n) = r.whole.take k ++ bytes.take n := by
    rw [List.take_add, ← hrest, List.take_append_of_le_length hn]
  rw [upTo, upTo, hmore, htake, List.zipIdx_append, List.length_take_of_le hk]
  simp only [Nat.zero_add]

/-- Nothing was queued that does not belong there, and the connection stays. -/
theorem Pending.ok {r : Response} {c : RespConn} {s : Answer} (h : Pending r c s)
    (hconn : s.conn = some c) : AnswerOk r s := by
  rcases h.queued with ⟨n, hn, -⟩
  refine ⟨⟨?_, ?_, h.untouched⟩, fun c' hc' => ?_⟩
  · rw [hn]
    exact r.upTo_prefix n
  · rw [hconn]
    nofun
  · rw [hconn, Option.some.injEq] at hc'
    rwa [← hc']

/-- Everything was queued, and the connection is closed. -/
theorem answerOk_closed {r : Response} {s : Answer} {n : Nat} (hn : r.whole.length ≤ n)
    (hqueued : s.queued = r.upTo n) (hconn : s.conn = none) (huntouched : s.touched = false) :
    AnswerOk r s := by
  have hall : s.queued = r.whole.zipIdx := hqueued.trans (r.upTo_all hn)
  refine ⟨⟨?_, fun _ => hall, huntouched⟩, fun c hc => ?_⟩
  · rw [hall]
  · rw [hconn] at hc
    exact absurd hc nofun

/-- A header piece that is taken whole. -/
theorem mhttpSendOneHeader_whole (call place : Nat) {hdr : List UInt8} {o : Out}
    (hroom : o.sndBufSize = o.pcb.sndBuf) (h : o.pcb.Whole call hdr.length) :
    mhttpSendOneHeader call hdr place o = ⟨o.pcb.after hdr.length, o.sndBufSize - hdr.length,
      o.queued ++ hdr.zipIdx place⟩ := by
  have hall := (extHttpWrite_eq_iff o.pcb call hdr.length).mpr h
  have hfits : ¬ o.sndBufSize < hdr.length := by
    rcases h with hzero | ⟨hsnd, -⟩ <;> omega
  have htaken : (if (extHttpWrite o.pcb call hdr.length).1 = .ok then hdr.length else 0) =
      hdr.length := by
    by_cases hok : (extHttpWrite o.pcb call hdr.length).1 = .ok
    · rw [if_pos hok]
    · rw [if_neg hok, ← hall, extHttpWrite_failed o.pcb call _ hok]
  unfold mhttpSendOneHeader
  rw [if_neg hfits]
  simp only [hall, htaken]
  rw [List.take_of_length_le (by rw [List.length_zipIdx])]

/-- A header piece of which nothing is taken. -/
theorem mhttpSendOneHeader_nothing (call place : Nat) {hdr : List UInt8} {o : Out}
    (h : o.sndBufSize < hdr.length ∨ o.pcb.Refuses call hdr.length) :
    mhttpSendOneHeader call hdr place o = o := by
  unfold mhttpSendOneHeader
  rcases h with hsmall | hrefuses
  · rw [if_pos hsmall]
  · split
    · rfl
    · have hzero := (extHttpWrite_eq_zero_iff o.pcb call hdr.length).mpr hrefuses
      simp only [hzero, ite_self, Nat.sub_zero, List.take_zero, List.append_nil]
      rfl

section Rest

variable {status : Nat} {content : List UInt8} {c : RespConn} {s : Answer}

theorem Pending.reqType_rest (h : Pending (.rest status content) c s) : c.reqType = .rest :=
  congrArg RespConn.reqType h.same

theorem Pending.status_rest (h : Pending (.rest status content) c s) :
    c.httpStatusCode = status :=
  congrArg RespConn.httpStatusCode h.same

theorem Pending.data_rest (h : Pending (.rest status content) c s) : c.data = content :=
  congrArg RespConn.data h.same

theorem Pending.contentLength_rest (h : Pending (.rest status content) c s) :
    c.contentLength = content.length :=
  congrArg RespConn.contentLength h.same

theorem Pending.headersLength_rest (h : Pending (.rest status content) c s) :
    headersLength c = (Response.rest status content).header.length := by
  simp only [headersLength, h.status_rest, h.contentLength_rest, Response.header,
    List.length_append]

/-- The content goes on where the queued bytes end, unless none of it is taken. -/
theorem sendRest_content {n : Nat} {o : Out} {r : TcpErr × Nat}
    (h : Pending (.rest status content) c s) (hindex : c.dataSendIndex < content.length)
    (hr : r.2 ≤ content.length - c.dataSendIndex)
    (hn : o.queued = (Response.rest status content).upTo n)
    (hplace : r.2 = 0 ∨ n = headersLength c + c.dataSendIndex) :
    o.queued ++ ((c.data.drop c.dataSendIndex).zipIdx (headersLength c + c.dataSendIndex)).take
      r.2 = (Response.rest status content).upTo (n + r.2) := by
  rcases hplace with hzero | hplace
  · rw [hzero, List.take_zero, List.append_nil, hn, Nat.add_zero]
  · rw [hn, h.data_rest, ← hplace]
    refine Response.upTo_append _ ?_ ?_ (by rw [List.length_drop]; omega)
    · rw [hplace, h.headersLength_rest, Response.whole, List.length_append]
      change _ ≤ _ + content.length
      omega
    · rw [hplace, h.headersLength_rest, Response.whole, ← List.drop_drop, List.drop_left]
      exact List.prefix_rfl

/-- The rest of `_mHttpSendRest`, behind the header. -/
theorem sendRest_end {n : Nat} {o : Out} (h : Pending (.rest status content) c s)
    (hindex : c.dataSendIndex < content.length)
    (hn : o.queued = (Response.rest status content).upTo n)
    (hdone : n = headersLength c + c.dataSendIndex ∧
        (c.dataSendIndex ≠ 0 ∨ ¬ o.pcb.Refuses 3 (c.contentLength - c.dataSendIndex)) ∨
      n = 0 ∧ c.dataSendIndex = 0 ∧ o.pcb.Refuses 3 (c.contentLength - c.dataSendIndex)) :
    let r := extHttpWrite o.pcb 3 (c.contentLength - c.dataSendIndex)
    let s' := { s with queued := o.queued ++ ((c.data.drop c.dataSendIndex).zipIdx
      (headersLength c + c.dataSendIndex)).take r.2 }
    AnswerOk (.rest status content)
      (if r.1 ≠ .ok then { s' with conn := some c }
      else if c.contentLength = c.dataSendIndex + r.2 then { s' with conn := none }
      else { s' with conn := some { c with dataSendIndex := c.dataSendIndex + r.2 } }) := by
  intro r s'
  have hle : r.2 ≤ content.length - c.dataSendIndex := by
    rw [← h.contentLength_rest]
    exact extHttpWrite_le _ _ _
  have hrefused : r.2 = 0 ↔ o.pcb.Refuses 3 (c.contentLength - c.dataSendIndex) :=
    extHttpWrite_eq_zero_iff _ _ _
  have hqueued : s'.queued = (Response.rest status content).upTo (n + r.2) := by
    refine sendRest_content h hindex hle hn ?_
    rcases hdone with ⟨hplace, -⟩ | ⟨-, -, href⟩
    · exact .inr hplace
    · exact .inl (hrefused.mpr href)
  have hlen := h.contentLength_rest
  have hclear : c.updateLength = 0 := by
    rcases h.queued with ⟨-, -, hclear, -⟩
    exact hclear
  -- the bytes queued are those the index stands for
  have hcount : n + r.2 = if c.dataSendIndex + r.2 = 0 then 0 else
      (Response.rest status content).header.length + (c.dataSendIndex + r.2) := by
    rcases hdone with ⟨hplace, hsome⟩ | ⟨hzero, hindex0, href⟩
    · have hpos : c.dataSendIndex + r.2 ≠ 0 := by
        rcases hsome with hne | hnot
        · omega
        · have := mt hrefused.mp hnot
          omega
      rw [if_neg hpos, hplace, h.headersLength_rest]
      omega
    · have := hrefused.mpr href
      rw [if_pos (by omega)]
      omega
  by_cases herr : r.1 ≠ .ok
  · rw [if_pos herr]
    have hzero : r.2 = 0 := extHttpWrite_failed _ _ _ herr
    rw [hzero, Nat.add_zero, Nat.add_zero] at hcount
    rw [hzero, Nat.add_zero] at hqueued
    exact Pending.ok (c := c) ⟨h.same, ⟨n, hqueued, hclear, fun _ => hindex, hcount⟩,
      h.untouched⟩ rfl
  · rw [if_neg herr]
    by_cases hend : c.contentLength = c.dataSendIndex + r.2
    · rw [if_pos hend]
      refine answerOk_closed ?_ hqueued rfl h.untouched
      rw [hcount, if_neg (by omega), Response.whole, List.length_append]
      change _ + content.length ≤ _
      omega
    · rw [if_neg hend]
      refine Pending.ok (c := { c with dataSendIndex := c.dataSendIndex + r.2 })
        ⟨?_, ⟨n + r.2, hqueued, hclear, fun _ => ?_, hcount⟩, h.untouched⟩ rfl
      · conv_lhs => rw [h.same]
      · change c.dataSendIndex + r.2 < content.length
        omega

/-- The header when it is taken whole. -/
theorem sendHeaders_whole {pcb : Pcb} {n : Nat} (h : Pending (.rest status content) c s)
    (hw : HeaderWhole pcb c) (hn : s.queued = (Response.rest status content).upTo n)
    (hzero : n = 0) :
    (sendHeaders c ⟨pcb, pcb.sndBuf, s.queued⟩).queued =
        (Response.rest status content).upTo (headersLength c) ∧
      ¬ (sendHeaders c ⟨pcb, pcb.sndBuf, s.queued⟩).pcb.Refuses 3 c.contentLength := by
  rcases hw with ⟨hstatus, hcommon, hlength, hsome⟩
  unfold sendHeaders
  simp only []
  rw [mhttpSendOneHeader_whole 0 _ rfl hstatus, mhttpSendOneHeader_whole 1 _ rfl hcommon,
    mhttpSendOneHeader_whole 2 _ rfl hlength]
  refine ⟨?_, hsome⟩
  have hheader : (Response.rest status content).header =
      extHttpFindStatusHeader c.httpStatusCode ++ httpCommonHeader ++
        contentLengthHeader c.contentLength := by
    rw [h.status_rest, h.contentLength_rest]
    rfl
  have hupTo : (Response.rest status content).upTo (headersLength c) =
      (Response.rest status content).header.zipIdx := by
    rw [h.headersLength_rest, Response.upTo, Response.whole, List.take_left]
  rw [hupTo, hheader, hn, hzero, List.zipIdx_append, List.zipIdx_append, List.length_append,
    Nat.zero_add, Nat.zero_add]
  rfl

/-- The header when nothing of it is taken. -/
theorem sendHeaders_nothing {pcb : Pcb} {queued : List (UInt8 × Nat)} (hw : NothingTaken pcb c) :
    sendHeaders c ⟨pcb, pcb.sndBuf, queued⟩ = ⟨pcb, pcb.sndBuf, queued⟩ := by
  rcases hw with ⟨hstatus, hcommon, hlength, -⟩
  unfold sendHeaders
  simp only []
  rw [mhttpSendOneHeader_nothing 0 _ hstatus, mhttpSendOneHeader_nothing 1 _ hcommon,
    mhttpSendOneHeader_nothing 2 _ hlength]

theorem sendRest_ok (pcb : Pcb) (h : Pending (.rest status content) c s)
    (hw : TakenWell pcb c) : AnswerOk (.rest status content) (extHttpSend pcb c s) := by
  have hkept : AnswerOk (.rest status content) { s with conn := some c } :=
    Pending.ok (c := c) ⟨h.same, h.queued, h.untouched⟩ rfl
  simp only [TakenWell, h.reqType_rest] at hw
  simp only [extHttpSend, h.reqType_rest]
  by_cases hcode : 200 ≤ c.httpStatusCode
  · rw [if_pos hcode]
    unfold mHttpSendRest
    by_cases hdone : c.contentLength = c.dataSendIndex ∨ c.contentLength = 0
    · rw [if_pos hdone]
      exact hkept
    · rw [if_neg hdone]
      rcases h.queued with ⟨n, hn, -, hless, hcount⟩
      have hlen := h.contentLength_rest
      have hindex : c.dataSendIndex < content.length := hless (by omega)
      by_cases hzero : c.dataSendIndex = 0
      · rw [if_pos hzero] at hcount
        simp only [if_pos hzero]
        have hwell : HeaderWhole pcb c ∨ NothingTaken pcb c := by
          rcases hw with hlow | hempty | hmoved | hor
          · omega
          · omega
          · exact absurd hzero hmoved
          · exact hor
        rcases hwell with hwhole | hnothing
        · rcases sendHeaders_whole h hwhole hn hcount with ⟨hheader, hsome⟩
          refine sendRest_end h hindex hheader (.inl ⟨by omega, .inr ?_⟩)
          rwa [hzero, Nat.sub_zero]
        · rw [sendHeaders_nothing hnothing]
          refine sendRest_end h hindex (o := ⟨pcb, pcb.sndBuf, s.queued⟩) hn
            (.inr ⟨hcount, hzero, ?_⟩)
          rw [hzero, Nat.sub_zero]
          exact hnothing.2.2.2
      · rw [if_neg hzero] at hcount
        simp only [if_neg hzero]
        exact sendRest_end h hindex (o := ⟨pcb, pcb.sndBuf, s.queued⟩) hn
          (.inl ⟨by rw [hcount, h.headersLength_rest], .inl hzero⟩)
  · rw [if_neg hcode]
    exact hkept

end Rest

theorem sendCgi_ok (pcb : Pcb) {page : List UInt8} {c : RespConn} {s : Answer}
    (h : Pending (.cgi page) c s) (hw : TakenWell pcb c) :
    AnswerOk (.cgi page) (extHttpSend pcb c s) := by
  have htype : c.reqType = .cgi := congrArg RespConn.reqType h.same
  have hdata : c.data = page := congrArg RespConn.data h.same
  have hlen : c.contentLength = page.length := congrArg RespConn.contentLength h.same
  rcases h.queued with ⟨n, hn, hclear, hless, hcount⟩
  simp only [TakenWell, htype] at hw
  rcases hw with ⟨hne, hpart⟩
  have hindex : c.dataSendIndex < page.length := hless (by omega)
  have hle := extHttpWrite_le pcb 0 (c.contentLength - c.dataSendIndex)
  -- the first write takes less than all of it, a later one nothing
  have hplace : c.dataSendIndex = 0 ∧
        (extHttpWrite pcb 0 (c.contentLength - c.dataSendIndex)).2 < c.contentLength ∨
      (extHttpWrite pcb 0 (c.contentLength - c.dataSendIndex)).2 = 0 := by
    by_cases hzero : c.dataSendIndex = 0
    · rw [if_pos hzero] at hpart
      have := mt (extHttpWrite_eq_iff pcb 0 c.contentLength).mp hpart
      rw [hzero, Nat.sub_zero] at hle ⊢
      exact .inl ⟨rfl, by omega⟩
    · rw [if_neg hzero] at hpart
      exact .inr ((extHttpWrite_eq_zero_iff _ _ _).mpr hpart)
  have hsend : extHttpSend pcb c s = sendCgi pcb c s := by simp only [extHttpSend, htype]
  rw [hsend]
  simp only [sendCgi]
  generalize extHttpWrite pcb 0 (c.contentLength - c.dataSendIndex) = r at hle hplace ⊢
  rw [if_pos (by omega)]
  have hqueued : s.queued ++ (c.data.zipIdx 0).take r.2 =
      (Response.cgi page).upTo (c.dataSendIndex + r.2) := by
    rcases hplace with ⟨hzero, -⟩ | hzero
    · rw [hn, hcount, hzero, hdata]
      exact Response.upTo_append _ (Nat.zero_le _) List.prefix_rfl (by omega)
    · rw [hzero, List.take_zero, List.append_nil, hn, hcount, Nat.add_zero]
  refine Pending.ok (c := { c with dataSendIndex := c.dataSendIndex + r.2 })
    ⟨?_, ⟨_, hqueued, hclear, fun _ => ?_, rfl⟩, h.untouched⟩ rfl
  · conv_lhs => rw [h.same]
  · change c.dataSendIndex + r.2 < page.length
    omega

theorem sendUpload_ok (pcb : Pcb) {status : UploadStatus} {page : List UInt8} {c : RespConn}
    {s : Answer} (h : Pending (.upload status page) c s) (hw : TakenWell pcb c) :
    AnswerOk (.upload status page) (extHttpSend pcb c s) := by
  have htype : c.reqType = .upload := congrArg RespConn.reqType h.same
  have hdata : c.updateProgress = page := congrArg RespConn.updateProgress h.same
  have hstart : c.updateIndex = 0 := congrArg RespConn.updateIndex h.same
  rcases h.queued with ⟨n, hn, hindex, hcount⟩
  simp only [TakenWell, htype] at hw
  have hcleared : ∀ n queued, queued = (Response.upload status page).upTo n →
      AnswerOk (.upload status page)
        { s with conn := some { c with updateLength := 0 }, queued := queued } :=
    fun n queued hqueued => Pending.ok (c := { c with updateLength := 0 })
      ⟨by conv_lhs => rw [h.same], ⟨n, hqueued, hindex, .inl rfl⟩, h.untouched⟩ rfl
  have hsend : extHttpSend pcb c s =
      if c.uploadStatus ≠ .init then sendUpload pcb c s else { s with conn := some c } := by
    simp only [extHttpSend, htype]
  have hlen : c.updateLength - c.updateIndex = c.updateLength := by rw [hstart, Nat.sub_zero]
  rw [hsend]
  by_cases hinit : c.uploadStatus = .init
  · rw [if_neg (not_not.mpr hinit)]
    exact Pending.ok (c := c) ⟨h.same, h.queued, h.untouched⟩ rfl
  · rw [if_pos hinit]
    simp only [sendUpload, hlen]
    by_cases hpos : 0 < c.updateLength
    · rw [if_pos hpos]
      have hle := extHttpWrite_le pcb 0 c.updateLength
      have hpart : (extHttpWrite pcb 0 c.updateLength).2 ≠ c.updateLength := by
        rw [ne_eq, extHttpWrite_eq_iff]
        rcases hw with hi | hz | hnot
        · exact absurd hi hinit
        · omega
        · exact hnot
      rw [if_pos (by omega)]
      rcases hcount with hz | ⟨hall, hzero⟩
      · omega
      · refine hcleared (extHttpWrite pcb 0 c.updateLength).2 _ ?_
        have hbegin : page <+: (Response.upload status page).whole.drop 0 := List.prefix_rfl
        rw [hn, hzero, hdata]
        exact (Response.upTo_append _ (Nat.zero_le _) hbegin (by omega)).trans
          (by rw [Nat.zero_add])
    · rw [if_neg hpos]
      exact hcleared n s.queued hn

theorem extHttpSend_ok (pcb : Pcb) {r : Response} {c : RespConn} {s : Answer}
    (h : Pending r c s) (hw : TakenWell pcb c) : AnswerOk r (extHttpSend pcb c s) := by
  cases r with
  | rest status content => exact sendRest_ok pcb h hw
  | cgi page => exact sendCgi_ok pcb h hw
  | upload status page => exact sendUpload_ok pcb h hw

/-- The retries are of no account for what is sent. -/
theorem Pending.retries {r : Response} {c : RespConn} {s : Answer} (h : Pending r c s)
    (retries : Nat) : Pending r { c with retries := retries } s := by
  refine ⟨by conv_lhs => rw [h.same], ?_, h.untouched⟩
  rcases h.queued with ⟨n, hn, hcount⟩
  refine ⟨n, hn, ?_⟩
  cases r <;> exact hcount

theorem answerStep_ok {r : Response} (s : Answer) (e : SendEvent) (h : AnswerOk r s)
    (hu : Undisturbed s e) : AnswerOk r (answerStep s e) := by
  cases hconn : s.conn with
  | none =>
      simp only [answerStep, hconn]
      exact h
  | some c =>
      have hc := h.pending c hconn
      simp only [Undisturbed, hconn] at hu
      simp only [answerStep, hconn]
      cases e with
      | handled pcb => exact extHttpSend_ok pcb hc hu
      | sent pcb => exact extHttpSend_ok pcb (hc.retries 0) hu
      | poll pcb =>
          simp only [if_neg hu.1]
          exact extHttpSend_ok pcb (hc.retries _) hu.2

theorem answerOk_start (r : Response) : AnswerOk r (Answer.start r) := by
  refine Pending.ok (c := r.conn) ⟨rfl, ⟨0, rfl, ?_⟩, rfl⟩ rfl
  cases r with
  | rest status content => exact ⟨rfl, Nat.pos_of_ne_zero, rfl⟩
  | cgi page => exact ⟨rfl, Nat.pos_of_ne_zero, rfl⟩
  | upload status page => exact ⟨rfl, .inr ⟨rfl, rfl⟩⟩

/-- As long as the stack takes what it is given as it has to and the retry limit is not reached,
    the response is queued byte by byte, and the connection is closed behind it and left alone. -/
theorem intact_run (r : Response) (evs : List SendEvent)
    (hm : Meets answerStep Undisturbed (Answer.start r) evs) :
    Intact r (run answerStep (Answer.start r) evs) :=
  (meets_invariant answerStep_ok _ (answerOk_start r) evs hm).intact

/-- A stack that takes whatever there is room for. -/
def roomFor (n : Nat) : Pcb := ⟨n, 1460, fun _ => false, fun _ _ => .ok⟩

/-- The header and one byte of the content, and then the rest. -/
theorem intact_run_twoWrites :
    Intact (.rest 200 [49, 50, 51])
      (run answerStep (Answer.start (.rest 200 [49, 50, 51]))
        [.handled (roomFor 94), .sent (roomFor 1000)]) := by
  refine intact_run _ _ ⟨.inr (.inr (.inr (.inl ?_))), .inr (.inr (.inl ?_)), trivial⟩
  · refine ⟨.inr ?_, .inr ?_, .inr ?_, fun h => h.elim ?_ fun hnone => hnone 0 nofun nofun rfl⟩
    all_goals decide +kernel
  · decide +kernel

/-- A page of three bytes, of which two are taken first: the second write begins at the start
    again, and the connection is used after it was freed. -/
theorem not_intact_cgi :
    ¬ Intact (.cgi [49, 50, 51])
      (run answerStep (Answer.start (.cgi [49, 50, 51]))
        [.handled (roomFor 2), .sent (roomFor 1000)]) := by
  intro h
  exact absurd h.queued (by decide +kernel)

/-- A REST answer of which the header has been taken and nothing else: it is sent again. -/
theorem not_intact_rest :
    ¬ Intact (.rest 200 [49])
      (run answerStep (Answer.start (.rest 200 [49]))
        [.handled (roomFor 93), .sent (roomFor 1000)]) := by
  intro h
  exact absurd h.queued (by decide +kernel)

/-- The page of an upload is not sent any further once a part of it has been taken. -/
theorem not_intact_upload :
    ¬ Intact (.upload .ended [49, 50, 51])
      (run answerStep (Answer.start (.upload .ended [49, 50, 51]))
        [.handled (roomFor 2), .sent (roomFor 1000), .poll (roomFor 1000), .poll (roomFor 1000),
          .poll (roomFor 1000), .poll (roomFor 1000)]) := by
  intro h
  exact absurd (h.closed (by rfl)) (by decide +kernel)

end Http

end RtosLwip
