import RtosLwip.Base.Run
import RtosLwip.Base.History
import RtosLwip.Http.Receive

/-!
# Uploads and the Pending Update

The web server as a system: any number of connections, each with its upload,
one device they all work on, and everything that can happen to them. A request
opens a connection; its segments arrive, the peer or the server closes it, or
its TCP control block is lost. At any time some other part of the firmware may
save the configuration, and with it the pending-update record.

A run stops where the source has no defined behaviour, so what is said about
every run is also said about every beginning of it.

Connections are numbered in the order they are accepted, so that the effects of
one of them are not taken for those of a later one.

## Main definitions

* `Server`, `Event`, `serverStep`: The system.
* `lastOpened`, `contentLength`, `receivedLength`: Read from the effects.
* `Complete`: The most recently opened upload has delivered its whole body and
  its ending boundary was found.
* `SavedComplete`: A saved record is empty, or that upload is complete.
* `Orderly`: The events under which every saved record is as it should be.
-/

namespace RtosLwip

namespace Http

open Flash

/-- The connections by their numbers, how many were accepted, the device, and
    the effects so far. -/
structure Server (ρ : Type) where
  conns : Nat → Option Conn
  accepted : Nat
  dev : Device ρ
  history : List Effect

/-- What can happen to the server. -/
inductive Event where
  /-- An upload request, with what its segments hold of the body, and whether they have no
      more bytes and pbufs than `extHttpRequestParse` waits with. -/
  | post (page : Page) (boundary : List UInt8) (contentLen : Nat) (body : Pbuf) (short : Bool)
    (data : ReqBuf)
  /-- A segment of a body. -/
  | recv (i : Nat) (p : Pbuf)
  /-- The peer closes, the server gives up or a new connection needs the place. -/
  | close (i : Nat)
  /-- The control block of the connection is lost: `__mhttpErr`. -/
  | err (i : Nat)
  /-- The configuration is saved by another part of the firmware. -/
  | save (cfgType : CfgType)

variable {ρ : Type}

/-- The server after the bootloader has cleared the record. -/
def Server.start (dev : Device ρ) : Server ρ := ⟨fun _ => none, 0, dev.cancel, []⟩

/-- A connection as the functions of the source see it. -/
def Server.post (s : Server ρ) (c : Conn) : Post ρ := ⟨c, s.dev, s.history⟩

/-- Take over what has become of a connection. -/
def Server.put (s : Server ρ) (i : Nat) (c : Option Conn) (t : Post ρ) : Server ρ :=
  { s with conns := Function.update s.conns i c, dev := t.dev, history := t.history }

/-- One event. A request that fails closes its connection, unless it was short: then it is taken
    for one that is "not fully received". -/
def serverStep (hw : UploadHw) (s : Server ρ) : Event → Option (Server ρ)
  | .post page boundary contentLen body short data =>
    (extHttpPostRequest hw contentLen body
      (s.post (newConn s.accepted page boundary data))).bind fun r =>
        let s' := { s with accepted := s.accepted + 1 }
        if r.1 || short then some (s'.put s.accepted (some r.2.conn) r.2)
        else (mhttpConnClose hw r.2).map (s'.put s.accepted none)
  | .recv i p =>
    match s.conns i with
    | none => some s
    | some c => (extHttpPostRxDataPbuf hw p (s.post c)).map fun r =>
        s.put i (some r.2.conn) r.2
  | .close i =>
    match s.conns i with
    | none => some s
    | some c => (mhttpConnClose hw (s.post c)).map (s.put i none)
  | .err i => some { s with conns := Function.update s.conns i none }
  | .save cfgType => some { s with
      dev := s.dev.save hw cfgType
      history := .saved s.dev.runCfg.firmUpdateInfo :: s.history }

/-- One event of a run, which ends where nothing is defined any more. -/
def serverNext (hw : UploadHw) (s : Option (Server ρ)) (e : Event) : Option (Server ρ) :=
  s.bind fun s => serverStep hw s e

/-- The connection whose upload was opened last. -/
def lastOpened : List Effect → Option Nat
  | [] => none
  | .opened i :: _ => some i
  | _ :: past => lastOpened past

/-- The length a connection has announced. -/
def contentLength (i : Nat) : List Effect → Nat
  | [] => 0
  | .requested j n :: past => if j = i then n else contentLength i past
  | _ :: past => contentLength i past

/-- The bytes a connection has delivered. -/
def receivedLength (i : Nat) : List Effect → Nat
  | [] => 0
  | .received j n :: past => if j = i then n + receivedLength i past else receivedLength i past
  | _ :: past => receivedLength i past

/-- The most recently opened upload has delivered its whole body, and its ending
    boundary was found. -/
def Complete (past : List Effect) : Prop :=
  ∃ i ∈ lastOpened past, .found i ∈ past ∧ contentLength i past ≤ receivedLength i past

instance (past : List Effect) : Decidable (Complete past) :=
  inferInstanceAs (Decidable (∃ i ∈ lastOpened past, _))

/-- A record that is saved is empty, or the upload it is for is complete. -/
def SavedComplete (e : Effect) (past : List Effect) : Prop :=
  match e with
  | .saved info => info.type ≠ .none → Complete past
  | _ => True

instance : ∀ (e : Effect) (past : List Effect), Decidable (SavedComplete e past)
  | .saved info, past => inferInstanceAs (Decidable (info.type ≠ .none → Complete past))
  | .requested _ _, _ => .isTrue trivial
  | .received _ _, _ => .isTrue trivial
  | .opened _, _ => .isTrue trivial
  | .wrote _ _, _ => .isTrue trivial
  | .found _, _ => .isTrue trivial
  | .closed _, _ => .isTrue trivial

/-- An upload that is neither finished nor given up. -/
def Conn.Active (c : Conn) : Prop :=
  c.uploadStatus = .copy ∨ c.uploadStatus = .ended ∧ c.postDataLeft ≠ 0

instance (c : Conn) : Decidable c.Active := inferInstanceAs (Decidable (_ ∨ _))

/-- The most recently opened upload is going on. -/
def Server.Uploading (s : Server ρ) : Prop :=
  ∃ i ∈ lastOpened s.history, ∃ c ∈ s.conns i, c.Active

instance (s : Server ρ) : Decidable s.Uploading :=
  inferInstanceAs (Decidable (∃ i ∈ lastOpened s.history, ∃ c ∈ s.conns i, c.Active))

/-- The boundary stands in one of the buffers the bytes will be cut into. -/
def BoundaryIn (boundary bytes : List UInt8) : Prop :=
  Marked boundary (blocks maxReqLength bytes ++ [leftover maxReqLength bytes])

instance (boundary bytes : List UInt8) : Decidable (BoundaryIn boundary bytes) :=
  inferInstanceAs (Decidable (Marked _ _))

/-- The bytes behind the part header of a first segment that opens an upload. -/
def firstBytes (hw : UploadHw) (p : Pbuf) (t : Post ρ) : Option (List UInt8) :=
  match recvPartHeader hw p (countReceived p t) with
  | some (.inr bytes, _) => some bytes
  | _ => none

/-- A segment that completes a body holds the boundary, or completes the one of
    an older upload while no newer one is going on. -/
def RecvOrderly (hw : UploadHw) (uploading : Prop) (p : Pbuf) (t : Post ρ) : Prop :=
  t.conn.postDataLeft ≤ p.flatten.length →
    (t.conn.uploadStatus = .init →
      ∀ bytes ∈ firstBytes hw p t, BoundaryIn t.conn.boundary bytes) ∧
    (t.conn.uploadStatus = .copy → lastOpened t.history = some t.conn.pcb →
      BoundaryIn t.conn.boundary (t.conn.pending ++ p.flatten)) ∧
    (t.conn.uploadStatus = .copy → lastOpened t.history ≠ some t.conn.pcb → ¬ uploading)

instance (hw : UploadHw) (uploading : Prop) [Decidable uploading] (p : Pbuf) (t : Post ρ) :
    Decidable (RecvOrderly hw uploading p t) :=
  inferInstanceAs (Decidable (_ → _))

/-- The events that leave no record behind which should not be there: bodies end
    with their boundary, the connection of the most recent upload is neither
    lost while it is going on nor closed between the boundary and the end of the
    body, no older upload is finished and no configuration saved meanwhile. -/
def Orderly (hw : UploadHw) (s : Server ρ) : Event → Prop
  | .post page boundary contentLen body _ data =>
    RecvOrderly hw s.Uploading body
      (announceContent contentLen (s.post (newConn s.accepted page boundary data)))
  | .recv i p => ∀ c ∈ s.conns i, RecvOrderly hw s.Uploading p (s.post c)
  | .close i => lastOpened s.history = some i →
      ∀ c ∈ s.conns i, c.uploadStatus = .ended → c.postDataLeft = 0
  | .err i => lastOpened s.history = some i → ¬ s.Uploading
  | .save _ => ¬ s.Uploading

instance (hw : UploadHw) (s : Server ρ) : ∀ e, Decidable (Orderly hw s e)
  | .post _ _ _ _ _ _ => inferInstanceAs (Decidable (RecvOrderly _ _ _ _))
  | .recv i _ => inferInstanceAs (Decidable (∀ c ∈ s.conns i, _))
  | .close i => inferInstanceAs (Decidable (_ → ∀ c ∈ s.conns i, _))
  | .err _ => inferInstanceAs (Decidable (_ → _))
  | .save _ => inferInstanceAs (Decidable (¬ s.Uploading))

/-- The condition for a run that may have ended. -/
def OrderlyNext (hw : UploadHw) (s : Option (Server ρ)) (e : Event) : Prop :=
  ∀ t ∈ s, Orderly hw t e

instance (hw : UploadHw) (s : Option (Server ρ)) (e : Event) : Decidable (OrderlyNext hw s e) :=
  inferInstanceAs (Decidable (∀ t ∈ s, _))

end Http

end RtosLwip
