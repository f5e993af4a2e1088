import RtosLwip.Base.Run
import RtosLwip.Base.Text
import RtosLwip.Http.Post
import RtosLwip.Http.Write

/-!
# Serving a File

A connection that serves a file of the built-in file system: `extHttpFileFind`
opens the file, and `_mHttpSendFile` writes as much of it as the stack takes,
at once and again from every sent callback and every poll, until nothing is
left and `mhttpConnEof` closes the connection. Meanwhile further segments are
thrown away, and the peer, a lost control block or the retry limit may end the
connection earlier.

The files are stored with their HTTP header in front. A request of HTTP/0.9
gets the file without it, so there the bytes sent begin behind the header.

`mhc->file` is a pointer into read-only memory and is modelled by the bytes
from there on. A connection serving a file is never a POST nor a web socket,
as `extHttpHandleRequest` is only reached with other methods, and the pages it
fills in on the way to a file are read by other request types only.

## Main definitions

* `MfsdataFile`, `MfsFile`, `mfsOpen`, `mhttpFileGet404`, `mhttpFileInit`,
  `extHttpFileFind`: Finding the file.
* `FileConn`, `Download`: The connection, and what has become of it.
* `mhttpSendCheckEof`, `mHttpSendFile`: Sending.
* `FileEvent`, `fileStep`: The callbacks.
* `response`: What a request is to be answered with.
* `FileServed`: What holds all along.

## Theorems

* `mHttpSendFile_ok`: One call sends the next bytes, or the last of them and closes.
* `fileServed_run`: Every schedule serves the response.
-/

namespace RtosLwip

namespace Http

/-- `struct mfsdata_file`: a file as it is stored. -/
structure MfsdataFile where
  name : List UInt8
  data : List UInt8
  flags : UInt8

/-- `struct mfs_file`: an open file. -/
structure MfsFile where
  data : List UInt8
  index : Nat
  flags : UInt8

/-- `MFS_FILE_FLAGS_HEADER_INCLUDED`. -/
def MfsFile.headerIncluded (f : MfsFile) : Bool := f.flags &&& 1 ≠ 0

/-- `mfsOpen`: the file is complete in memory, so its index is at the end. -/
def mfsOpen (root : List MfsdataFile) (name : List UInt8) : Option MfsFile :=
  (root.find? fun f => f.name == name).map fun f => ⟨f.data, f.data.length, f.flags⟩

def mfsBytesLeft (f : MfsFile) : Int := f.data.length - f.index

/-- `_mhttpFileGet404`. -/
def mhttpFileGet404 (root : List MfsdataFile) : Option MfsFile :=
  (mfsOpen root (ascii "/404.html")).or <|
    (mfsOpen root (ascii "/404.htm")).or (mfsOpen root (ascii "/404.shtml"))

/-- The fields of `MuxHttpConn` a file is sent from. -/
structure FileConn where
  handle : Option MfsFile
  file : List UInt8
  left : Nat
  retries : Nat

/-- The bytes an HTTP/0.9 request does not get. -/
def headerLength (f : MfsFile) (isV09 : Bool) : Nat :=
  if isV09 && f.headerIncluded then
    match strnstr f.data (crlf ++ crlf) f.data.length with
    | some p => p + 4
    | none => 0
  else 0

/-- `_mhttpFileInit`. -/
def mhttpFileInit (file : Option MfsFile) (isV09 : Bool) : FileConn :=
  match file with
  | some f =>
    let diff := headerLength f isV09
    ⟨file, f.data.drop diff, f.data.length - diff, 0⟩
  | none => ⟨none, [], 0, 0⟩

/-- The file `extHttpFileFind` opens: the parameters do not belong to the name, and a file
    that does not exist is replaced by the 404 page. -/
def requestedFile (root : List MfsdataFile) (uri : List UInt8) : Option MfsFile :=
  (mfsOpen root (uri.takeWhile (· ≠ 63))).or (mhttpFileGet404 root)

/-- `extHttpFileFind`. -/
def extHttpFileFind (root : List MfsdataFile) (uri : List UInt8) (isV09 : Bool) : FileConn :=
  mhttpFileInit (requestedFile root uri) isV09

/-- The connection until it is freed, what was queued on it, how often `mhttpConnEof` was
    called, and whether it was closed before that. -/
structure Download where
  conn : Option FileConn
  queued : List UInt8
  eofs : Nat
  abandoned : Bool

/-- `mhttpConnEof`. -/
def Download.connEof (s : Download) : Download := { s with conn := none, eofs := s.eofs + 1 }

/-- `mhttpConnClose` by the peer or the retry limit, or `mhttpConnFree`. -/
def Download.abandon (s : Download) : Download := { s with conn := none, abandoned := true }

/-- `_mhttpSendCheckEof`: whether there is nothing more to come from the file. -/
def mhttpSendCheckEof (c : FileConn) : Bool :=
  match c.handle with
  | none => true
  | some f => mfsBytesLeft f ≤ 0

/-- `_mHttpSendFile`. -/
def mHttpSendFile (pcb : Pcb) (c : FileConn) (s : Download) : Download :=
  if c.left = 0 ∧ mhttpSendCheckEof c then s.connEof
  else
    let len := min c.left 65535
    let r := extHttpWrite pcb 0 len
    let s' := { s with queued := s.queued ++ c.file.take r.2 }
    let c' := if r.1 = .ok then { c with file := c.file.drop r.2, left := c.left - r.2 } else c
    if c'.left = 0 ∧ mhttpSendCheckEof c' then s'.connEof else { s' with conn := some c' }

/-- `MHTTPD_MAX_RETRIES`. -/
def maxRetries : Nat := 4

/-- What happens to a connection that serves a file. -/
inductive FileEvent where
  /-- `__mhttpSent` -/
  | sent (pcb : Pcb)
  /-- `mhttpPoll` -/
  | poll (pcb : Pcb)
  /-- `__mhttpRecv` with a further segment -/
  | recv
  /-- `__mhttpRecv` without one: the peer has closed -/
  | peerClose
  /-- `__mhttpErr` -/
  | err

/-- The callbacks of the source. Those of a freed connection are not called any more. -/
def fileStep (s : Download) (e : FileEvent) : Download :=
  match s.conn with
  | none => s
  | some c =>
    match e with
    | .sent pcb => mHttpSendFile pcb { c with retries := 0 } s
    | .poll pcb =>
      let retries := (c.retries + 1) % 256
      if retries = maxRetries then s.abandon
      else mHttpSendFile pcb { c with retries := retries } s
    -- already sending data
    | .recv => s
    | .peerClose => s.abandon
    | .err => s.abandon

/-- A request has found its file; its answer is begun in the same callback. -/
def Download.start (root : List MfsdataFile) (uri : List UInt8) (isV09 : Bool) (pcb : Pcb) :
    Download :=
  let c := extHttpFileFind root uri isV09
  mHttpSendFile pcb c ⟨some c, [], 0, false⟩

/-- What a request is to be answered with: the file, for HTTP/0.9 without its header. -/
def response (root : List MfsdataFile) (uri : List UInt8) (isV09 : Bool) : List UInt8 :=
  match requestedFile root uri with
  | some f => f.data.drop (headerLength f isV09)
  | none => []

/-- What was queued is the beginning of the response, `mhttpConnEof` was called once if it is
    all of it and never before, and the connection is there until then or until it was
    closed early. -/
structure FileServed (whole : List UInt8) (s : Download) : Prop where
  queued : s.queued <+: whole
  eofs : s.eofs = if s.queued = whole then 1 else 0
  freed : s.conn = none ↔ s.queued = whole ∨ s.abandoned

/-- A connection in the middle of its response. -/
structure Sending (whole : List UInt8) (c : FileConn) (s : Download) : Prop where
  split : s.queued ++ c.file = whole
  left : c.left = c.file.length
  no_more : mhttpSendCheckEof c
  eofs : s.eofs = 0
  going : s.abandoned = false

/-- What every step keeps. -/
structure DownloadOk (whole : List UInt8) (s : Download) : Prop where
  served : FileServed whole s
  sending : ∀ c, s.conn = some c → Sending whole c s

variable {whole : List UInt8}

theorem Sending.queued_eq_iff {c : FileConn} {s : Download} (h : Sending whole c s) :
    s.queued = whole ↔ c.left = 0 := by
  rw [h.left, List.length_eq_zero_iff, ← h.split]
  constructor
  · intro heq
    exact List.append_cancel_left (heq.symm.trans (List.append_nil s.queued).symm)
  · intro heq
    rw [heq, List.append_nil]

/-- There is something left, and the connection stays. -/
theorem Sending.ok {c : FileConn} {s : Download} (h : Sending whole c s) (hleft : c.left ≠ 0)
    (hconn : s.conn = some c) : DownloadOk whole s := by
  have hne : s.queued ≠ whole := fun heq => hleft (h.queued_eq_iff.mp heq)
  refine ⟨⟨⟨c.file, h.split⟩, ?_, ?_⟩, fun c' hc' => ?_⟩
  · rw [if_neg hne, h.eofs]
  · rw [hconn, h.going]
    exact iff_of_false nofun (fun hor => hor.elim hne nofun)
  · rw [hconn, Option.some.injEq] at hc'
    rwa [← hc']

/-- Nothing is left, and the connection is closed. -/
theorem Sending.connEof_ok {c : FileConn} {s : Download} (h : Sending whole c s)
    (hleft : c.left = 0) : DownloadOk whole s.connEof := by
  have heq : s.queued = whole := h.queued_eq_iff.mpr hleft
  refine ⟨⟨⟨c.file, h.split⟩, ?_, ?_⟩, nofun⟩
  · change s.eofs + 1 = if s.queued = whole then 1 else 0
    rw [if_pos heq, h.eofs]
  · exact iff_of_true rfl (.inl heq)

/-- A connection that is closed early has not queued everything. -/
theorem DownloadOk.abandon_ok {s : Download} (h : DownloadOk whole s) :
    DownloadOk whole s.abandon :=
  ⟨⟨h.served.queued, h.served.eofs, iff_of_true rfl (.inr rfl)⟩, nofun⟩

/-- The connection behind a write: the file and what is left of it move on together, by the
    bytes that were queued. -/
theorem sending_write (pcb : Pcb) {c c' : FileConn} {s : Download} (h : Sending whole c s)
    {r : TcpErr × Nat} (hr : r = extHttpWrite pcb 0 (min c.left 65535))
    (hc' : c' = if r.1 = .ok then { c with file := c.file.drop r.2, left := c.left - r.2 } else c) :
    Sending whole c' { s with queued := s.queued ++ c.file.take r.2 } := by
  have hmoved : c' = { c with file := c.file.drop r.2, left := c.left - r.2 } := by
    rw [hc']
    by_cases hok : r.1 = .ok
    · rw [if_pos hok]
    · have hzero : r.2 = 0 := by
        rw [hr] at hok ⊢
        exact extHttpWrite_failed pcb 0 _ hok
      rw [if_neg hok, hzero, List.drop_zero, Nat.sub_zero]
  rw [hmoved]
  refine ⟨?_, ?_, h.no_more, h.eofs, h.going⟩
  · simp only [List.append_assoc, List.take_append_drop, h.split]
  · simp only [List.length_drop, h.left]

/-- One call sends the next bytes, or the last of them and closes. -/
theorem mHttpSendFile_ok (pcb : Pcb) {c : FileConn} {s : Download} (h : Sending whole c s) :
    DownloadOk whole (mHttpSendFile pcb c s) := by
  unfold mHttpSendFile
  by_cases hzero : c.left = 0 ∧ mhttpSendCheckEof c
  · rw [if_pos hzero]
    exact h.connEof_ok hzero.1
  · rw [if_neg hzero]
    extract_lets len r s' c'
    have hnext : Sending whole c' s' := sending_write pcb h rfl rfl
    by_cases hend : c'.left = 0 ∧ mhttpSendCheckEof c'
    · rw [if_pos hend]
      exact hnext.connEof_ok hend.1
    · rw [if_neg hend]
      have hleft : c'.left ≠ 0 := fun hz => hend ⟨hz, hnext.no_more⟩
      have hkept : Sending whole c' { s' with conn := some c' } :=
        ⟨hnext.split, hnext.left, hnext.no_more, hnext.eofs, hnext.going⟩
      exact hkept.ok hleft rfl

theorem fileStep_ok (s : Download) (e : FileEvent) (h : DownloadOk whole s) :
    DownloadOk whole (fileStep s e) := by
  unfold fileStep
  cases hconn : s.conn with
  | none => exact h
  | some c =>
      have hc := h.sending c hconn
      have hretries : ∀ n, Sending whole { c with retries := n } s := fun n =>
        ⟨hc.split, hc.left, hc.no_more, hc.eofs, hc.going⟩
      cases e with
      | sent pcb => exact mHttpSendFile_ok pcb (hretries 0)
      | poll pcb =>
          simp only []
          split
          · exact h.abandon_ok
          · exact mHttpSendFile_ok pcb (hretries _)
      | recv => exact h
      | peerClose => exact h.abandon_ok
      | err => exact h.abandon_ok

theorem mfsOpen_index {root : List MfsdataFile} {name : List UInt8} {f : MfsFile}
    (h : mfsOpen root name = some f) : f.index = f.data.length := by
  rcases Option.map_eq_some_iff.mp h with ⟨g, -, rfl⟩
  rfl

theorem requestedFile_index {root : List MfsdataFile} {uri : List UInt8} {f : MfsFile}
    (h : requestedFile root uri = some f) : f.index = f.data.length := by
  simp only [requestedFile, mhttpFileGet404, Option.or_eq_some_iff] at h
  rcases h with h | ⟨-, h | ⟨-, h | ⟨-, h⟩⟩⟩ <;> exact mfsOpen_index h

/-- A request begins with the whole response still to be sent. -/
theorem sending_extHttpFileFind (root : List MfsdataFile) (uri : List UInt8) (isV09 : Bool)
    (conn : Option FileConn) :
    Sending (response root uri isV09) (extHttpFileFind root uri isV09) ⟨conn, [], 0, false⟩ := by
  unfold response extHttpFileFind mhttpFileInit
  cases hf : requestedFile root uri with
  | none => exact ⟨rfl, rfl, rfl, rfl, rfl⟩
  | some f =>
      refine ⟨rfl, ?_, ?_, rfl, rfl⟩
      · simp only [List.length_drop]
      · simp only [mhttpSendCheckEof, mfsBytesLeft, requestedFile_index hf, Int.sub_self,
          Int.le_refl, decide_true]

/-- Whatever the stack takes and whatever happens to the connection, what is queued is the
    beginning of the response, and the connection is closed when it is all of it. -/
theorem fileServed_run (root : List MfsdataFile) (uri : List UInt8) (isV09 : Bool) (pcb : Pcb)
    (evs : List FileEvent) :
    FileServed (response root uri isV09)
      (run fileStep (Download.start root uri isV09 pcb) evs) := by
  have hstart := mHttpSendFile_ok pcb
    (sending_extHttpFileFind root uri isV09 (some (extHttpFileFind root uri isV09)))
  exact (run_invariant fileStep_ok _ hstart evs).served

/-- HTTP/0.9 is not sent the header a file is stored with. -/
theorem not_prefix_headerLess :
    let file : MfsdataFile := ⟨ascii "/styles.css", [72] ++ crlf ++ crlf ++ [66], 1⟩
    ¬ (run fileStep (Download.start [file] file.name true
      ⟨100, 100, fun _ => false, fun _ _ => .ok⟩) []).queued <+: file.data := by
  decide +kernel

end Http

end RtosLwip
