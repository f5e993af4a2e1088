import RtosLwip.Base.Channel
import RtosLwip.Tftp.PendingUpdate

/-!
# Delivery of a File

A write transfer between the server and a client that does what the protocol
asks of it: it repeats its request until it is acknowledged, then each block
until that one is, and it gives up when it gets an error. Between the two are
channels that keep the order of the packets but lose and duplicate them.

What is wanted is that the blocks passed on are those of the file, each once
and in order, that every block that gets to the open session is among them,
and that a block is acknowledged only after it has been passed on and what the
session has issued to the flash so far has been carried out. The callback
collects two blocks before it programs them, so what is acknowledged may still
wait in the staging buffer.

The block numbers make this a sliding window of one: what is under way to the
server is the last block it has, or the next one. `networkOk_step` carries this
over every step, with two conditions on the packets that are delivered. The
numbers are compared as ints, so the block behind number 65535 is out of order
and ends the session. And a failure of the flash does not come back from the
write callback, so the block is acknowledged all the same.

## Main definitions

* `Transfer`, `Client`, `Network`: The file, its client and the whole system.
* `Delivered`: What is wanted of the transfer.
* `Carried`: The condition on the packets delivered.
* `Session`: The server in the middle of the transfer.

## Theorems

* `answered_wrq`, `answered_data`, `answered_tick`: What the server does.
* `networkOk_step`: A step keeps the window.
* `delivered_run`: Every run under the condition delivers the file.
* `recvData_behindLast`: No block comes behind number 65535.
-/

namespace RtosLwip

namespace Tftp

open Flash

/-- A file, the names it is requested with, and where its client is. -/
structure Transfer where
  peer : Peer
  fname : List UInt8
  mode : List UInt8
  file : List UInt8

/-- The block `k` of the file, from 1 on. -/
def Transfer.block (t : Transfer) (k : Nat) : List UInt8 :=
  (t.file.drop (maxPayloadSize * (k - 1))).take maxPayloadSize

/-- The number of blocks; the last one is short, and may be empty. -/
def Transfer.count (t : Transfer) : Nat := t.file.length / maxPayloadSize + 1

/-- A block as the server numbers it. -/
def Transfer.numbered (t : Transfer) (k : Nat) : UInt16 × List UInt8 := (UInt16.ofNat k, t.block k)

/-- A packet of the client. -/
inductive Packet where
  | wrq
  | data (k : Nat)
  deriving DecidableEq, Repr

/-- The block a packet carries, 0 for the request. -/
def Packet.index : Packet → Nat
  | wrq => 0
  | data k => k

/-- The bytes of a packet. The number of a block is cut to 16 bits. -/
def Transfer.datagram (t : Transfer) : Packet → Datagram
  | .wrq => ⟨t.peer, [0, 2] ++ t.fname ++ [0] ++ t.mode ++ [0], []⟩
  | .data k =>
    let blknum := UInt16.ofNat k
    ⟨t.peer, ([0, 3, (blknum >>> 8).toUInt8, blknum.toUInt8] : List UInt8) ++ t.block k, []⟩

/-- Where the client is. -/
inductive Client where
  | requesting
  | sending (k : Nat)
  | done
  | aborted
  deriving DecidableEq, Repr

/-- The packet the client repeats. -/
def Client.current : Client → Option Packet
  | requesting => some .wrq
  | sending k => some (.data k)
  | done | aborted => none

/-- The client behind a packet of the server. An acknowledgement of another block is
    ignored. -/
def Client.recv (t : Transfer) (r : Reply) : Client → Client
  | requesting =>
    match r with
    | .ack n => if n = 0 then sending 1 else requesting
    | .error _ _ => aborted
    | .data _ => requesting
  | sending k =>
    match r with
    | .ack n =>
      if n = UInt16.ofNat k then (if t.count ≤ k then done else sending (k + 1)) else sending k
    | .error _ _ => aborted
    | .data _ => sending k
  | done => done
  | aborted => aborted

variable {ρ : Type}

/-- The client, what is under way in both directions, the server, and the blocks that
    were delivered while the session was open. -/
structure Network (ρ : Type) where
  client : Client
  toServer : List Packet
  toClient : List Reply
  server : Server ρ
  received : List Nat

/-- Nothing has been sent. -/
def Network.start (dev : Device ρ) : Network ρ where
  client := .requesting
  toServer := []
  toClient := []
  server := Server.start dev
  received := []

/-- What can happen. -/
inductive Happening where
  /-- The client sends its packet, the first time or again. -/
  | send
  | faultToServer (f : Fault)
  | faultToClient (f : Fault)
  | deliverToServer (env : Env)
  | deliverToClient
  | tick (env : Env)

/-- What the server has sent to the client between two histories. -/
def Transfer.replies (t : Transfer) (past history : List Effect) : List Reply :=
  (history.take (history.length - past.length)).reverse.filterMap fun e =>
    match e with
    | .sent peer reply => if peer = t.peer then some reply else none
    | _ => none

/-- The server has made a step. -/
def Network.served (t : Transfer) (s : Server ρ) (w : Network ρ) : Network ρ :=
  { w with server := s, toClient := w.toClient ++ t.replies w.server.history s.history }

/-- The blocks delivered to the open session, with this packet. -/
def Network.deliver (p : Packet) (w : Network ρ) : List Nat :=
  match p with
  | .wrq => w.received
  | .data k => if w.server.handle then k :: w.received else w.received

/-- One step of the system. -/
def Network.step (t : Transfer) (w : Network ρ) : Happening → Network ρ
  | .send => { w with toServer := w.toServer ++ w.client.current.toList }
  | .faultToServer f => { w with toServer := f.apply w.toServer }
  | .faultToClient f => { w with toClient := f.apply w.toClient }
  | .deliverToServer env =>
    match w.toServer with
    | [] => w
    | p :: rest =>
      { w.served t (tftpRecv env (t.datagram p) w.server) with
        toServer := rest, received := w.deliver p }
  | .deliverToClient =>
    match w.toClient with
    | [] => w
    | r :: rest => { w with toClient := rest, client := w.client.recv t r }
  | .tick env => w.served t (w.server.step (env, .tick))

/-- The blocks passed on, oldest first. -/
def writtenBlocks (history : List Effect) : List (UInt16 × List UInt8) :=
  (history.filterMap fun e =>
    match e with
    | .wrote blknum bytes => some (blknum, bytes)
    | _ => none).reverse

/-- A block is acknowledged behind the callback that takes it, and if what the session
    has issued to the flash was carried out. -/
def AckOk (t : Transfer) (e : Effect) (past : List Effect) : Prop :=
  match e with
  | .sent _ (.ack n) =>
    n ≠ 0 → (n, t.block n.toNat) ∈ writtenBlocks past ∧ ∀ o ∈ operations past, o.2 = true
  | _ => True

/-- The blocks passed on. -/
def Network.stored (w : Network ρ) : Nat := (writtenBlocks w.server.history).length

/-- What is wanted of the transfer. -/
structure Delivered (t : Transfer) (w : Network ρ) : Prop where
  /-- The blocks passed on are the first ones of the file, each once and in order. -/
  inOrder : writtenBlocks w.server.history = (List.range' 1 w.stored).map t.numbered
  /-- Every block that got to the open session is among them, -/
  received : ∀ k ∈ w.received, k ≤ w.stored
  /-- and so is every block the client has got an acknowledgement for. -/
  acknowledged : ∀ k, w.client = .sending k → k ≤ w.stored + 1
  finished : w.client = .done → w.stored = t.count
  acks : EachPast (AckOk t) w.server.history

/-- A packet is delivered to the server while the flash does what it is told, and to an
    open session only the blocks whose number fits into 16 bits. -/
def Carried (w : Network ρ) : Happening → Prop
  | .deliverToServer env =>
    (∀ n, env.hw.spi n = true) ∧
      ∀ p ∈ w.toServer.head?, w.server.handle = true → p.index < 2 ^ 16
  | _ => True

section Effects

variable {t : Transfer} {new past : List Effect}

/-- An effect that opens no session, passes no block on and acknowledges none. -/
def Silent : Effect → Prop
  | .opened _ _ | .wrote _ _ | .sent _ (.ack _) => False
  | _ => True

theorem silent_issued (hw : UploadHw) (d d' : Device ρ) : ∀ e ∈ issued hw d d', Silent e := by
  intro e he
  rcases List.mem_append.mp he with hsaved | hspi
  · rcases saved_of_mem_savedEffects hsaved with ⟨page, cfg, -, rfl⟩
    trivial
  · rcases spi_of_mem_spiEffects hspi with ⟨op, n, rfl⟩
    trivial

theorem writtenBlocks_wrote (n : UInt16) (bytes : List UInt8) :
    writtenBlocks (.wrote n bytes :: past) = writtenBlocks past ++ [(n, bytes)] :=
  List.reverse_cons

theorem writtenBlocks_append (h : ∀ e ∈ new, Silent e) :
    writtenBlocks (new ++ past) = writtenBlocks past := by
  induction new with
  | nil => rfl
  | cons e new ih =>
      have hrest := ih fun e' he' => h e' (List.mem_cons_of_mem e he')
      have he := h e List.mem_cons_self
      cases e with
      | wrote n bytes => exact absurd he id
      | _ => exact hrest

theorem acks_append (h : ∀ e ∈ new, Silent e) (hpast : EachPast (AckOk t) past) :
    EachPast (AckOk t) (new ++ past) := by
  induction new with
  | nil => exact hpast
  | cons e new ih =>
      refine ⟨?_, ih fun e' he' => h e' (List.mem_cons_of_mem e he')⟩
      have he := h e List.mem_cons_self
      cases e with
      | sent peer reply =>
          cases reply with
          | ack n => exact absurd he id
          | _ => trivial
      | _ => trivial

theorem not_ack_of_silent (h : ∀ e ∈ new, Silent e) {peer : Peer} {n : UInt16} :
    .sent peer (.ack n) ∉ new :=
  fun hin => h _ hin

end Effects

/-- The server in the middle of the transfer, with `m` blocks passed on. -/
structure Session (t : Transfer) (m : Nat) (s : Server ρ) : Prop where
  acks : EachPast (AckOk t) s.history
  written : writtenBlocks s.history = (List.range' 1 m).map t.numbered
  port : s.port = 0 ∨ t.peer.port = s.port
  addr : s.addr = 0 ∨ s.addr = t.peer.addr
  opened : s.handle = true → s.modeWrite = true ∧ s.blknum.toNat = m ∧
    ∀ o ∈ operations s.history, o.2 = true

/-- A reaction of the server, behind which `m` blocks are passed on; what it acknowledges
    is the last of them. -/
structure Answered (t : Transfer) (m : Nat) (past : List Effect) (s' : Server ρ) : Prop where
  session : Session t m s'
  extended : ∃ new, s'.history = new ++ past ∧
    ∀ peer n, .sent peer (.ack n) ∈ new → n.toNat = m

section Reactions

variable {t : Transfer} {m : Nat} {env : Env} {s u v : Server ρ} {past : List Effect}

theorem Answered.refl (h : Session t m s) : Answered t m s.history s :=
  ⟨h, [], rfl, fun _ _ hin => absurd hin List.not_mem_nil⟩

theorem Answered.trans (hsu : Answered t m past u) (huv : Answered t m u.history v) :
    Answered t m past v := by
  rcases hsu.extended with ⟨first, hfirst, hacks⟩
  rcases huv.extended with ⟨second, hsecond, hacks'⟩
  refine ⟨huv.session, second ++ first, ?_, fun peer n hin => ?_⟩
  · rw [hsecond, hfirst, List.append_assoc]
  · rcases List.mem_append.mp hin with hin | hin
    · exact hacks' peer n hin
    · exact hacks peer n hin

/-- The last block passed on is there under its number. -/
theorem Session.last (h : Session t m s) {n : UInt16} (hn : n.toNat = m) (hpos : n ≠ 0) :
    (n, t.block n.toNat) ∈ writtenBlocks s.history := by
  have hm : 0 < m := by
    rcases Nat.eq_zero_or_pos m with hzero | hpos'
    · exact absurd (UInt16.toNat_inj.mp (hn.trans hzero : n.toNat = (0 : UInt16).toNat)) hpos
    · exact hpos'
  rw [h.written, List.mem_map]
  refine ⟨m, List.mem_range'_1.mpr (by omega), ?_⟩
  rw [Transfer.numbered, ← hn, UInt16.ofNat_toNat]

/-- A packet that acknowledges nothing. -/
theorem answered_sendTo (peer : Peer) {reply : Reply} (hreply : ∀ n, reply ≠ .ack n)
    (h : Session t m s) : Answered t m s.history (sendTo env peer reply s) := by
  unfold sendTo
  split
  · have hsilent : ∀ e ∈ [Effect.sent peer reply], Silent e := by
      intro e he
      rw [List.mem_singleton.mp he]
      cases reply with
      | ack n => exact absurd rfl (hreply n)
      | _ => trivial
    refine ⟨⟨acks_append hsilent h.acks, (writtenBlocks_append hsilent).trans h.written, h.port,
      h.addr, h.opened⟩, [.sent peer reply], rfl, fun _ _ hin => ?_⟩
    exact absurd hin (not_ack_of_silent hsilent)
  · exact Answered.refl h

/-- The last block is acknowledged. -/
theorem answered_sendAck {n : UInt16} (hn : n.toNat = m) (hopen : s.handle = true)
    (h : Session t m s) : Answered t m s.history (sendAck env n s) := by
  unfold sendAck sendTo
  split
  · refine ⟨⟨⟨fun hpos => ⟨h.last hn hpos, (h.opened hopen).2.2⟩, h.acks⟩, h.written, h.port,
      h.addr, h.opened⟩, [.sent s.peer (.ack n)], rfl, fun peer n' hin => ?_⟩
    have hsame := List.mem_singleton.mp hin
    rw [Effect.sent.injEq, Reply.ack.injEq] at hsame
    rw [hsame.2]
    exact hn
  · exact Answered.refl h

/-- The session is closed, whatever becomes of the operations. -/
theorem answered_closeHandle (h : Session t m s) : Answered t m s.history (closeHandle env s) := by
  unfold closeHandle
  dsimp only
  split
  · have hsilent := silent_issued env.hw s.ctx.dev (extTftpClose env.hw s.ctx)
    refine ⟨⟨acks_append hsilent h.acks, (writtenBlocks_append hsilent).trans h.written,
      Or.inl rfl, Or.inl rfl, fun hfalse => absurd hfalse Bool.false_ne_true⟩, _, rfl,
      fun _ _ hin => absurd hin (not_ack_of_silent hsilent)⟩
  · exact ⟨⟨h.acks, h.written, Or.inl rfl, Or.inl rfl, h.opened⟩, [], rfl,
      fun _ _ hin => absurd hin List.not_mem_nil⟩

/-- The client is never refused as somebody else. -/
theorem not_refuses (h : Session t m s) : s.refuses t.peer = false := by
  have hport : (s.port ≠ 0 && t.peer.port ≠ s.port) = false := by
    rcases h.port with hp | hp <;> simp [hp]
  have haddr : (s.addr ≠ 0 && s.addr ≠ t.peer.addr) = false := by
    rcases h.addr with ha | ha <;> simp [ha]
  rw [Server.refuses, hport, haddr]
  rfl

theorem Session.noted (h : Session t m s) (lastPkt : Int) (retries : Nat) :
    Session t m { s with lastPkt := lastPkt, retries := retries } :=
  ⟨h.acks, h.written, h.port, h.addr, h.opened⟩

theorem opcode_wrq : (t.datagram .wrq).opcode = 2 := by
  simp only [Datagram.opcode, Transfer.datagram, load16, load8, List.cons_append,
    List.getD_cons_zero, List.getD_cons_succ]
  decide

theorem opcode_data (k : Nat) : (t.datagram (.data k)).opcode = 3 := by
  simp only [Datagram.opcode, Transfer.datagram, load16, load8, List.cons_append,
    List.getD_cons_zero, List.getD_cons_succ]
  decide

theorem blknum_data (k : Nat) : (t.datagram (.data k)).blknum = UInt16.ofNat k :=
  join16 (UInt16.ofNat k)

theorem payload_data (k : Nat) : (t.datagram (.data k)).payload = t.block k := by
  have hlen : headerLength ≤ (t.datagram (.data k)).bytes.length := by
    simp only [Transfer.datagram, headerLength, List.length_append, List.length_cons]
    omega
  rw [Datagram.payload, if_pos hlen]
  rfl

/-- The request of the client is taken up as a request to write. -/
theorem tftpRecv_wrq (h : Session t m s) : tftpRecv env (t.datagram .wrq) s =
    recvRequest env true (t.datagram .wrq) { s with lastPkt := s.timer, retries := 0 } := by
  have hrefused : s.refuses (t.datagram .wrq).peer = false := not_refuses h
  have hrrq : ¬ (t.datagram .wrq).opcode = 1 := by
    rw [opcode_wrq]
    decide
  unfold tftpRecv
  rw [hrefused, if_neg Bool.false_ne_true]
  dsimp only
  rw [if_neg hrrq, if_pos opcode_wrq]

/-- And its packets as blocks. -/
theorem tftpRecv_data (h : Session t m s) (k : Nat) : tftpRecv env (t.datagram (.data k)) s =
    recvData env (t.datagram (.data k)) { s with lastPkt := s.timer, retries := 0 } := by
  have hrefused : s.refuses (t.datagram (.data k)).peer = false := not_refuses h
  have hrrq : ¬ (t.datagram (.data k)).opcode = 1 := by
    rw [opcode_data]
    decide
  have hwrq : ¬ (t.datagram (.data k)).opcode = 2 := by
    rw [opcode_data]
    decide
  unfold tftpRecv
  rw [hrefused, if_neg Bool.false_ne_true]
  dsimp only
  rw [if_neg hrrq, if_neg hwrq, if_pos (opcode_data k)]

theorem answered_sendError (peer : Peer) (code : ErrorCode) (text : String)
    (h : Session t m s) : Answered t m s.history (sendError env peer code text s) :=
  answered_sendTo peer (fun _ => Reply.noConfusion) h

/-- The request: it opens the session, or is answered with an error. -/
theorem answered_wrq (hok : ∀ n, env.hw.spi n = true) (h : Session t 0 s) :
    Answered t 0 s.history (tftpRecv env (t.datagram .wrq) s) := by
  have hnoted := h.noted s.timer 0
  rw [tftpRecv_wrq h]
  unfold recvRequest
  dsimp only
  split
  · exact answered_sendError _ _ _ hnoted
  · split
    · have harmed : Session t 0 { s with
          lastPkt := s.timer, retries := 0, armed := s.armed + 1 } :=
        ⟨h.acks, h.written, h.port, h.addr, h.opened⟩
      exact answered_sendError _ _ _ harmed
    · rename_i fname _
      rw [if_pos rfl]
      have hsilent := silent_issued env.hw s.ctx.dev (extTftpOpen env.hw fname s.ctx.dev).dev
      have hopened : EachPast (AckOk t) (.opened true fname :: s.history) := ⟨trivial, h.acks⟩
      have hacks := acks_append hsilent hopened
      have hstored : ∀ o ∈ operations (_ ++ .opened true fname :: s.history), o.2 = true :=
        operations_append
          (plain_issued hok s.ctx.dev (extTftpOpen env.hw fname s.ctx.dev).dev)
          (fun _ ho => absurd ho List.not_mem_nil)
      have hwritten : writtenBlocks (_ ++ .opened true fname :: s.history) = _ :=
        (writtenBlocks_append hsilent).trans h.written
      refine Answered.trans ⟨⟨hacks, hwritten, Or.inr rfl, Or.inr rfl,
          fun _ => ⟨rfl, rfl, hstored⟩⟩,
        issued env.hw s.ctx.dev (extTftpOpen env.hw fname s.ctx.dev).dev ++ [.opened true fname],
        (List.append_assoc _ [_] s.history).symm, fun peer n hin => ?_⟩
        (answered_sendAck rfl rfl ⟨hacks, hwritten, Or.inr rfl, Or.inr rfl,
          fun _ => ⟨rfl, rfl, hstored⟩⟩)
      rcases List.mem_append.mp hin with hin | hin
      · exact absurd hin (not_ack_of_silent hsilent)
      · exact Effect.noConfusion (List.mem_singleton.mp hin)

/-- The next block: it is passed on and acknowledged, and a short one ends the session. -/
theorem answered_storeBlock {k : Nat} (peer : Peer) (hok : ∀ n, env.hw.spi n = true)
    (h : Session t m s) (hopen : s.handle = true) (hk : k = m + 1) (hsmall : k < 2 ^ 16) :
    Answered t k s.history (storeBlock env (UInt16.ofNat k) (t.block k) peer s) := by
  have hsilent := silent_issued env.hw s.ctx.dev (extTftpWrite env.hw (t.block k) s.ctx).2.dev
  rcases h.opened hopen with ⟨hmode, -, hdone⟩
  have hwritten : Session t k (({ s with blknum := UInt16.ofNat k }.emit
      (.wrote (UInt16.ofNat k) (t.block k))).device env.hw
        (extTftpWrite env.hw (t.block k) s.ctx).2) := by
    refine ⟨acks_append hsilent ⟨trivial, h.acks⟩, ?_, h.port, h.addr, fun _ => ⟨hmode, ?_, ?_⟩⟩
    · refine (writtenBlocks_append hsilent).trans ((writtenBlocks_wrote _ _).trans ?_)
      rw [h.written, hk, List.range'_1_concat, List.map_append, Nat.add_comm 1 m]
      rfl
    · exact UInt16.toNat_ofNat_of_lt' hsmall
    · exact operations_append (plain_issued hok _ _) hdone
  have hpassed : Answered t k s.history (({ s with blknum := UInt16.ofNat k }.emit
      (.wrote (UInt16.ofNat k) (t.block k))).device env.hw
        (extTftpWrite env.hw (t.block k) s.ctx).2) := by
    refine ⟨hwritten, issued env.hw s.ctx.dev (extTftpWrite env.hw (t.block k) s.ctx).2.dev
      ++ [.wrote (UInt16.ofNat k) (t.block k)], ?_, fun peer n hin => ?_⟩
    · rw [List.append_assoc]
      rfl
    rcases List.mem_append.mp hin with hin | hin
    · exact absurd hin (not_ack_of_silent hsilent)
    · exact Effect.noConfusion (List.mem_singleton.mp hin)
  rw [storeBlock_eq]
  have hacked := hpassed.trans (@answered_sendAck _ _ _ env _ _
    (UInt16.toNat_ofNat_of_lt' hsmall) hopen hwritten)
  dsimp only
  split
  · exact hacked.trans (answered_closeHandle hacked.session)
  · exact hacked

/-- A block: the next one is passed on, the last one is acknowledged again, and without a
    session there is nothing but an error. -/
theorem answered_data {k : Nat} (hok : ∀ n, env.hw.spi n = true) (h : Session t m s)
    (hwindow : s.handle = true → k < 2 ^ 16 ∧ (k = m ∨ k = m + 1)) :
    Answered t (if s.handle then k else m) s.history
      (tftpRecv env (t.datagram (.data k)) s) := by
  have hnoted := h.noted s.timer 0
  rw [tftpRecv_data h]
  unfold recvData
  dsimp only
  by_cases hopen : s.handle = true
  · rcases hwindow hopen with ⟨hsmall, hk⟩
    rcases h.opened hopen with ⟨hmode, hblknum, -⟩
    have hnum : (UInt16.ofNat k).toNat = k := UInt16.toNat_ofNat_of_lt' hsmall
    have hopen' : ¬ s.handle = false := by rw [hopen]; decide
    have hmode' : ¬ s.modeWrite = false := by rw [hmode]; decide
    rw [if_pos hopen, if_neg hopen', if_neg hmode', blknum_data, payload_data]
    by_cases hagain : UInt16.ofNat k = s.blknum
    · rw [if_pos hagain]
      have hsame : k = m := by rw [← hnum, hagain, hblknum]
      rw [hsame] at hnum ⊢
      exact answered_sendAck (s := { s with lastPkt := s.timer, retries := 0 }) hnum hopen hnoted
    · have hnext : k = m + 1 := by
        rcases hk with hk | hk
        · exact absurd (UInt16.toNat_inj.mp (by rw [hnum, hblknum, hk])) hagain
        · exact hk
      rw [if_neg hagain, if_neg (by rw [hnum, hblknum]; exact not_not.mpr hnext)]
      exact answered_storeBlock _ hok hnoted hopen hnext hsmall
  · rw [if_pos (Bool.eq_false_iff.mpr hopen), if_neg hopen]
    exact answered_sendError _ _ _ hnoted

/-- A tick: the session may time out. -/
theorem answered_tick (h : Session t m s) : Answered t m s.history (s.step (env, .tick)) := by
  have hclosed : ∀ (armed : Nat) (timer : Int), Answered t m s.history
      (closeHandle env { s with armed := armed, timer := timer }.cancel) :=
    fun armed timer => answered_closeHandle (s := { s with
      armed := armed, timer := timer }.cancel) ⟨h.acks, h.written, h.port, h.addr, h.opened⟩
  have hquiet : ∀ (armed : Nat) (timer : Int),
      Session t m { s with armed := armed, timer := timer } :=
    fun armed timer => ⟨h.acks, h.written, h.port, h.addr, h.opened⟩
  change Answered t m s.history (if s.armed = 0 then s else tftpTmr env s)
  split
  · exact Answered.refl h
  · unfold tftpTmr
    dsimp only
    split
    · exact Answered.refl (hquiet (s.armed - 1) (s.timer + 1))
    · split
      · split
        · rename_i packet _
          split
          · have hresent : Answered t m _ (sendTo env _ (.data packet) _) :=
              answered_sendTo ⟨s.addr, s.port⟩ (fun _ => Reply.noConfusion)
                (hquiet (s.armed - 1 + 1) (s.timer + 1))
            exact ⟨⟨hresent.session.acks, hresent.session.written, hresent.session.port,
              hresent.session.addr, hresent.session.opened⟩, hresent.extended⟩
          · exact hclosed _ _
        · exact hclosed _ _
      · exact Answered.refl (hquiet (s.armed - 1 + 1) (s.timer + 1))

/-- A packet of the client that lies in the window takes the server on within the window,
    and in an open session its block is then there. -/
theorem answered_packet {p : Packet} (hok : ∀ n, env.hw.spi n = true) (h : Session t m s)
    (hlow : m ≤ p.index) (hhigh : p.index ≤ m + 1) (hm : m < 2 ^ 16)
    (hsmall : s.handle = true → p.index < 2 ^ 16) :
    ∃ m', m ≤ m' ∧ m' ≤ p.index ∧ m' < 2 ^ 16 ∧ (s.handle = true → p.index ≤ m') ∧
      Answered t m' s.history (tftpRecv env (t.datagram p) s) := by
  cases p with
  | wrq =>
      have hzero : m = 0 := Nat.le_zero.mp hlow
      subst hzero
      exact ⟨0, Nat.le_refl 0, Nat.le_refl 0, hm, fun _ => Nat.le_refl 0, answered_wrq hok h⟩
  | data k =>
      simp only [Packet.index] at hlow hhigh hsmall ⊢
      have hk : k = m ∨ k = m + 1 := by omega
      have hreact := answered_data (k := k) hok h fun hopen => ⟨hsmall hopen, hk⟩
      by_cases hopen : s.handle = true
      · rw [if_pos hopen] at hreact
        exact ⟨k, hlow, Nat.le_refl k, hsmall hopen, fun _ => Nat.le_refl k, hreact⟩
      · rw [if_neg hopen] at hreact
        exact ⟨m, Nat.le_refl m, hlow, hm, fun h' => absurd h' hopen, hreact⟩

end Reactions

/-- The acknowledgements under way: they are of blocks passed on, and in order. -/
structure AcksUnderWay (m : Nat) (toClient : List Reply) : Prop where
  bounded : ∀ n, .ack n ∈ toClient → n.toNat ≤ m
  order : toClient.Pairwise fun r r' => ∀ n n', r = .ack n → r' = .ack n' → n.toNat ≤ n'.toNat

/-- The window of the transfer, with `m` blocks passed on: what is under way to the server
    and what the client repeats is the last of them or the next one, and no
    acknowledgement under way is older than the one the client waits for. -/
structure NetworkOk (t : Transfer) (w : Network ρ) (m : Nat) : Prop where
  session : Session t m w.server
  small : m < 2 ^ 16
  count : m ≤ t.count
  order : w.toServer.Pairwise fun p q => p.index ≤ q.index
  window : ∀ p ∈ w.toServer, m ≤ p.index ∧ p.index ≤ m + 1 ∧ p.index ≤ t.count
  client : ∀ p ∈ w.client.current, m ≤ p.index ∧ p.index ≤ m + 1 ∧ p.index ≤ t.count
  latest : ∀ p ∈ w.client.current, ∀ q ∈ w.toServer, q.index ≤ p.index
  acks : AcksUnderWay m w.toClient
  awaited : ∀ p ∈ w.client.current, ∀ n, .ack n ∈ w.toClient → p.index ≤ n.toNat + 1
  received : ∀ k ∈ w.received, k ≤ m
  finished : w.client = .done → m = t.count

section Steps

variable {t : Transfer} {m m' : Nat} {w : Network ρ}

theorem sent_of_mem_replies {new past : List Effect} {r : Reply}
    (h : r ∈ t.replies past (new ++ past)) : .sent t.peer r ∈ new := by
  have hnew : (new ++ past).length - past.length = new.length := by
    rw [List.length_append]
    omega
  rw [Transfer.replies, hnew, List.take_left, List.mem_filterMap] at h
  rcases h with ⟨e, he, hreply⟩
  rw [List.mem_reverse] at he
  cases e with
  | sent peer reply =>
      dsimp only at hreply
      split at hreply
      · rename_i hpeer
        rw [Option.some.injEq] at hreply
        rw [← hpeer, ← hreply]
        exact he
      · exact absurd hreply (Option.some_ne_none r).symm
  | _ => exact absurd hreply (Option.some_ne_none r).symm

/-- What the client gets acknowledged is the last block passed on. -/
theorem Answered.reply_eq {past : List Effect} {s' : Server ρ} (h : Answered t m past s')
    {n : UInt16} (hin : .ack n ∈ t.replies past s'.history) : n.toNat = m := by
  rcases h.extended with ⟨new, hnew, hacks⟩
  rw [hnew] at hin
  exact hacks t.peer n (sent_of_mem_replies hin)

theorem AcksUnderWay.fault {toClient : List Reply} (h : AcksUnderWay m toClient) (f : Fault) :
    AcksUnderWay m (f.apply toClient) where
  bounded := fun n hin => h.bounded n (f.mem_of_mem_apply hin)
  order := by
    refine f.pairwise_apply (fun r n n' hn hn' => ?_) h.order
    rw [Reply.ack.inj (hn.symm.trans hn')]

/-- What the server answers comes behind what is under way. -/
theorem AcksUnderWay.answered {toClient : List Reply} {past : List Effect} {s' : Server ρ}
    (h : AcksUnderWay m toClient) (hm : m ≤ m') (hs : Answered t m' past s') :
    AcksUnderWay m' (toClient ++ t.replies past s'.history) := by
  constructor
  · intro n hin
    rcases List.mem_append.mp hin with hin | hin
    · exact Nat.le_trans (h.bounded n hin) hm
    · exact Nat.le_of_eq (hs.reply_eq hin)
  · refine List.pairwise_append.mpr ⟨h.order, ?_, ?_⟩
    · refine List.pairwise_of_forall_mem_list fun r hr r' hr' n n' hn hn' => ?_
      rw [hs.reply_eq (hn ▸ hr), hs.reply_eq (hn' ▸ hr')]
    · intro r hr r' hr' n n' hn hn'
      have hold := h.bounded n (hn ▸ hr)
      have hlast := hs.reply_eq (hn' ▸ hr')
      omega

theorem networkOk_start (dev : Device ρ) : NetworkOk t (Network.start dev) 0 where
  session := ⟨trivial, rfl, Or.inl rfl, Or.inl rfl, fun h => absurd h Bool.false_ne_true⟩
  small := by decide
  count := Nat.zero_le _
  order := List.Pairwise.nil
  window := fun _ hp => absurd hp List.not_mem_nil
  client := by
    intro p hp
    rw [← Option.some.inj hp]
    exact ⟨Nat.le_refl 0, Nat.zero_le _, Nat.zero_le _⟩
  latest := fun _ _ _ hq => absurd hq List.not_mem_nil
  acks := ⟨fun _ hn => absurd hn List.not_mem_nil, List.Pairwise.nil⟩
  awaited := fun _ _ _ hn => absurd hn List.not_mem_nil
  received := fun _ hk => absurd hk List.not_mem_nil
  finished := Client.noConfusion

/-- The client takes no acknowledgement for that of another block: the window is smaller
    than the numbers are, and the acknowledgements come in order. -/
theorem acknowledged_last (h : NetworkOk t w m) {k : Nat} {n : UInt16}
    (hsending : w.client = .sending k) (hin : .ack n ∈ w.toClient) (hn : n = UInt16.ofNat k) :
    k = m ∧ n.toNat = k := by
  have hcurrent : Packet.data k ∈ w.client.current := by rw [hsending]; rfl
  have hclient := h.client _ hcurrent
  have hawaited := h.awaited _ hcurrent n hin
  have hbound := h.acks.bounded n hin
  have hsmall := h.small
  have hmod : n.toNat = k % 2 ^ 16 := by rw [hn]; exact UInt16.toNat_ofNat'
  simp only [Packet.index] at hclient hawaited
  omega

/-- The client gets a packet. -/
theorem networkOk_deliverToClient (h : NetworkOk t w m) {r : Reply} {rest : List Reply}
    (hlist : w.toClient = r :: rest) :
    NetworkOk t { w with toClient := rest, client := w.client.recv t r } m := by
  have hrest : ∀ n, .ack n ∈ rest → .ack n ∈ w.toClient := by
    intro n hn
    rw [hlist]
    exact List.mem_cons_of_mem r hn
  have horder := h.acks.order
  rw [hlist, List.pairwise_cons] at horder
  have hacks : AcksUnderWay m rest := ⟨fun n hn => h.acks.bounded n (hrest n hn), horder.2⟩
  -- the client stays as it is, or has nothing more to send
  have hsame : ∀ c, c = w.client ∨ c = .aborted →
      NetworkOk t { w with toClient := rest, client := c } m := by
    rintro c (rfl | rfl)
    · exact ⟨h.session, h.small, h.count, h.order, h.window, h.client, h.latest, hacks,
        fun p hp n hn => h.awaited p hp n (hrest n hn), h.received, h.finished⟩
    · exact ⟨h.session, h.small, h.count, h.order, h.window, fun _ hp => absurd hp nofun,
        fun _ hp => absurd hp nofun, hacks, fun _ hp => absurd hp nofun, h.received,
        Client.noConfusion⟩
  -- the client goes on to the next block
  have hnext : ∀ k, (∀ q ∈ w.toServer, q.index ≤ k) → k = m → k + 1 ≤ t.count →
      (∀ n, .ack n ∈ rest → k ≤ n.toNat) →
      NetworkOk t { w with toClient := rest, client := .sending (k + 1) } m := by
    intro k hq hk hcount hawaited
    refine ⟨h.session, h.small, h.count, h.order, h.window, fun p hp => ?_, fun p hp q hin => ?_,
      hacks, fun p hp n hn => ?_, h.received, Client.noConfusion⟩
    all_goals rw [← Option.some.inj hp, Packet.index]
    · omega
    · have hle := hq q hin
      omega
    · have hle := hawaited n hn
      omega
  cases hclient : w.client with
  | requesting =>
      have hcurrent : Packet.wrq ∈ w.client.current := by rw [hclient]; rfl
      cases r with
      | ack n =>
          simp only [Client.recv]
          split
          · have hzero := (h.client _ hcurrent).1
            exact hnext 0 (h.latest _ hcurrent) (Nat.le_zero.mp hzero).symm
              (Nat.le_add_left 1 _) fun _ _ => Nat.zero_le _
          · exact hsame _ (Or.inl hclient.symm)
      | error code text => exact hsame _ (Or.inr rfl)
      | data packet => exact hsame _ (Or.inl hclient.symm)
  | sending k =>
      have hcurrent : Packet.data k ∈ w.client.current := by rw [hclient]; rfl
      cases r with
      | ack n =>
          have hin : .ack n ∈ w.toClient := by rw [hlist]; exact List.mem_cons_self
          simp only [Client.recv]
          split
          · rename_i hn
            rcases acknowledged_last h hclient hin hn with ⟨hk, hnum⟩
            split
            · rename_i hlast
              refine ⟨h.session, h.small, h.count, h.order, h.window, fun _ hp => absurd hp nofun,
                fun _ hp => absurd hp nofun, hacks, fun _ hp => absurd hp nofun, h.received,
                fun _ => ?_⟩
              have hcount := h.count
              omega
            · refine hnext k (h.latest _ hcurrent) hk (by omega) fun n' hn' => ?_
              rw [← hnum]
              exact horder.1 _ hn' n n' rfl rfl
          · exact hsame _ (Or.inl hclient.symm)
      | error code text => exact hsame _ (Or.inr rfl)
      | data packet => exact hsame _ (Or.inl hclient.symm)
  | done =>
      simp only [Client.recv]
      exact hsame _ (Or.inl hclient.symm)
  | aborted =>
      simp only [Client.recv]
      exact hsame _ (Or.inr rfl)

/-- The server gets a packet. -/
theorem networkOk_deliverToServer (h : NetworkOk t w m) {env : Env} {p : Packet}
    {rest : List Packet} (hlist : w.toServer = p :: rest) (hok : ∀ n, env.hw.spi n = true)
    (hsmall : w.server.handle = true → p.index < 2 ^ 16) :
    ∃ m', NetworkOk t { w.served t (tftpRecv env (t.datagram p) w.server) with
      toServer := rest, received := w.deliver p } m' := by
  have hp : p ∈ w.toServer := by rw [hlist]; exact List.mem_cons_self
  have hrest : ∀ q ∈ rest, q ∈ w.toServer := by
    intro q hq
    rw [hlist]
    exact List.mem_cons_of_mem p hq
  have horder := h.order
  rw [hlist, List.pairwise_cons] at horder
  have hwindow := h.window p hp
  rcases answered_packet hok h.session hwindow.1 hwindow.2.1 h.small hsmall with
    ⟨m', hlow, hhigh, hsmall', htaken, hs⟩
  refine ⟨m', hs.session, hsmall', Nat.le_trans hhigh hwindow.2.2, horder.2, fun q hq => ?_,
    fun c hc => ?_, fun c hc q hq => h.latest c hc q (hrest q hq), h.acks.answered hlow hs,
    fun c hc n hn => ?_, fun k hk => ?_, fun hdone => ?_⟩
  · have hq' := h.window q (hrest q hq)
    have hbehind := horder.1 q hq
    omega
  · have hc' := h.client c hc
    have hlatest := h.latest c hc p hp
    omega
  · rcases List.mem_append.mp hn with hn | hn
    · exact h.awaited c hc n hn
    · have hc' := h.client c hc
      have hvalue := hs.reply_eq hn
      omega
  · have hold : ∀ j ∈ w.received, j ≤ m' := fun j hj => Nat.le_trans (h.received j hj) hlow
    cases p with
    | wrq => exact hold k hk
    | data j =>
        simp only [Network.deliver] at hk
        split at hk
        · rename_i hopen
          rcases List.mem_cons.mp hk with rfl | hk
          · exact htaken hopen
          · exact hold k hk
        · exact hold k hk
  · have hcount := h.finished hdone
    omega

/-- A step keeps the window. -/
theorem networkOk_step {e : Happening} (h : NetworkOk t w m) (hcarried : Carried w e) :
    ∃ m', NetworkOk t (w.step t e) m' := by
  cases e with
  | send =>
      refine ⟨m, h.session, h.small, h.count, ?_, fun p hp => ?_, h.client, fun c hc q hq => ?_,
        h.acks, h.awaited, h.received, h.finished⟩
      · refine List.pairwise_append.mpr ⟨h.order, ?_, fun p hp q hq => ?_⟩
        · cases w.client.current with
          | none => exact List.Pairwise.nil
          | some q => exact List.pairwise_singleton _ q
        · exact h.latest q (Option.mem_toList.mp hq) p hp
      · rcases List.mem_append.mp hp with hp | hp
        · exact h.window p hp
        · exact h.client p (Option.mem_toList.mp hp)
      · rcases List.mem_append.mp hq with hq | hq
        · exact h.latest c hc q hq
        · rw [Option.mem_unique (Option.mem_toList.mp hq) hc]
  | faultToServer f =>
      exact ⟨m, h.session, h.small, h.count, f.pairwise_apply (fun _ => Nat.le_refl _) h.order,
        fun p hp => h.window p (f.mem_of_mem_apply hp), h.client,
        fun c hc q hq => h.latest c hc q (f.mem_of_mem_apply hq), h.acks, h.awaited, h.received,
        h.finished⟩
  | faultToClient f =>
      exact ⟨m, h.session, h.small, h.count, h.order, h.window, h.client, h.latest, h.acks.fault f,
        fun c hc n hn => h.awaited c hc n (f.mem_of_mem_apply hn), h.received, h.finished⟩
  | deliverToServer env =>
      unfold Network.step
      cases hlist : w.toServer with
      | nil => exact ⟨m, h⟩
      | cons p rest =>
          refine networkOk_deliverToServer h hlist hcarried.1 (hcarried.2 p ?_)
          rw [hlist]
          rfl
  | deliverToClient =>
      unfold Network.step
      cases hlist : w.toClient with
      | nil => exact ⟨m, h⟩
      | cons r rest => exact ⟨m, networkOk_deliverToClient h hlist⟩
  | tick env =>
      have hs : Answered t m _ (w.server.step (env, .tick)) := answered_tick h.session
      refine ⟨m, hs.session, h.small, h.count, h.order, h.window, h.client, h.latest,
        h.acks.answered (Nat.le_refl m) hs, fun c hc n hn => ?_, h.received, h.finished⟩
      rcases List.mem_append.mp hn with hn | hn
      · exact h.awaited c hc n hn
      · have hc' := h.client c hc
        have hvalue := hs.reply_eq hn
        omega

/-- The window says what is wanted. -/
theorem NetworkOk.delivered (h : NetworkOk t w m) : Delivered t w := by
  have hstored : w.stored = m := by
    rw [Network.stored, h.session.written, List.length_map, List.length_range']
  refine ⟨?_, ?_, fun k hk => ?_, fun hdone => ?_, h.session.acks⟩
  · rw [hstored]
    exact h.session.written
  · rw [hstored]
    exact h.received
  · rw [hstored]
    exact (h.client (.data k) (by rw [hk]; rfl)).2.1
  · rw [hstored]
    exact h.finished hdone

end Steps

/-- Every run whose packets are carried out delivers the file, whatever the channels lose
    and repeat, whenever the client sends and the timer ticks. -/
theorem delivered_run (t : Transfer) (dev : Device ρ) (evs : List Happening)
    (hcarried : Meets (Network.step t) Carried (Network.start dev) evs) :
    ∀ past, past <+: evs → Delivered t (run (Network.step t) (Network.start dev) past) := by
  rintro past ⟨rest, rfl⟩
  rcases meets_invariant (I := fun w : Network ρ => ∃ m, NetworkOk t w m)
    (fun _ _ ⟨_, h⟩ hc => networkOk_step h hc) (Network.start dev) ⟨0, networkOk_start dev⟩ past
    ((meets_append _ _ _).mp hcarried).1 with ⟨m, h⟩
  exact h.delivered

section Runs

instance (t : Transfer) (e : Effect) (past : List Effect) : Decidable (AckOk t e past) :=
  match e with
  | .sent _ (.ack n) => inferInstanceAs (Decidable (n ≠ 0 → _ ∧ _))
  | .sent _ (.data _) | .sent _ (.error _ _) | .opened _ _ | .wrote _ _ | .spi _ _ | .saved _ =>
    .isTrue trivial

/-- A file of that many bytes, as the image of the RTOS. -/
def image (length : Nat) : Transfer :=
  ⟨⟨0x0A000001, 2000⟩, ascii "firmOs", ascii "octet", List.replicate length 7⟩

/-- A delivery to the server, and whether the flash does what it is told meanwhile. -/
def served (spi : Bool) : Happening :=
  .deliverToServer ⟨⟨fun _ => spi, fun _ => true⟩, true, true⟩

/-- A file of one block, with its request lost once. -/
theorem delivered_run_oneBlock :
    Delivered (image 3) (run (Network.step (image 3)) (Network.start FirmwareUpload.blankDevice)
      [.send, .faultToServer (.lose 0), .send, served true, .deliverToClient, .send,
        served true]) :=
  delivered_run (image 3) FirmwareUpload.blankDevice
    [.send, .faultToServer (.lose 0), .send, served true, .deliverToClient, .send, served true]
    ⟨trivial, trivial, trivial, ⟨fun _ => rfl, by decide +kernel⟩, trivial, trivial,
      ⟨fun _ => rfl, by decide +kernel⟩, trivial⟩ _ (List.prefix_refl _)

/-- The second block of a file fills the staging buffer; the flash does not take the pages
    of it, and the block is acknowledged. -/
theorem not_delivered_failingFlash :
    ¬ Delivered (image 1024) (run (Network.step (image 1024))
      (Network.start FirmwareUpload.blankDevice)
      [.send, served true, .deliverToClient, .send, served true, .deliverToClient, .send,
        served false]) := by
  have hacks : ¬ EachPast (AckOk (image 1024)) (run (Network.step (image 1024))
      (Network.start FirmwareUpload.blankDevice)
      [.send, served true, .deliverToClient, .send, served true, .deliverToClient, .send,
        served false]).server.history := by
    decide +kernel
  generalize run (Network.step (image 1024)) _ _ = w at hacks ⊢
  exact fun h => hacks h.acks

end Runs

/-- No block comes behind number 65535: its successor is an int that no 16-bit number is
    equal to. -/
theorem recvData_behindLast {env : Env} {p : Datagram} {s : Server ρ} (hopen : s.handle = true)
    (hmode : s.modeWrite = true) (hlast : s.blknum = 0xFFFF) (hother : p.blknum ≠ s.blknum) :
    recvData env p s =
      closeHandle env (sendError env p.peer .accessViolation "error writing file" s) := by
  have hnext : p.blknum.toNat ≠ s.blknum.toNat + 1 := by
    have hlt : p.blknum.toNat < 65536 := p.blknum.toNat_lt
    have hvalue : s.blknum.toNat = 65535 := by rw [hlast]; rfl
    omega
  rw [recvData, if_neg (by rw [hopen]; decide), if_neg (by rw [hmode]; decide), if_neg hother,
    if_pos hnext]

/-- So a longer file is not delivered: the block behind it gets to the open session and is
    not passed on. -/
theorem not_delivered_behindLast {t : Transfer} {m : Nat} {w : Network ρ} (h : NetworkOk t w m)
    {env : Env} {p : Packet} {rest : List Packet} (hlist : w.toServer = p :: rest)
    (hopen : w.server.handle = true) (hlarge : 2 ^ 16 ≤ p.index) :
    ¬ Delivered t (w.step t (.deliverToServer env)) := by
  have hwindow := h.window p (by rw [hlist]; exact List.mem_cons_self)
  have hsmall := h.small
  rcases h.session.opened hopen with ⟨hmode, hblknum, -⟩
  cases p with
  | wrq => exact absurd hlarge (by decide)
  | data k =>
      simp only [Packet.index] at hwindow hlarge
      have hk : k = 2 ^ 16 := by omega
      have hlast : w.server.blknum = 0xFFFF := by
        refine UInt16.toNat_inj.mp ?_
        rw [hblknum]
        change m = 65535
        omega
      have hother : (t.datagram (.data k)).blknum ≠ w.server.blknum := by
        rw [blknum_data, hlast, hk]
        decide
      have hnoted := h.session.noted w.server.timer 0
      have hrefused : Answered t m _ (sendError env _ _ _ _) :=
        answered_sendError t.peer .accessViolation "error writing file" hnoted
      have hclosed : Answered t m _ (closeHandle env _) :=
        hrefused.trans (answered_closeHandle hrefused.session)
      have hstep : tftpRecv env (t.datagram (.data k)) w.server = closeHandle env
          (sendError env t.peer .accessViolation "error writing file"
            { w.server with lastPkt := w.server.timer, retries := 0 }) := by
        rw [tftpRecv_data h.session]
        exact recvData_behindLast hopen hmode hlast hother
      intro hdelivered
      have hstored := (hstep ▸ hclosed.session).written
      have hreceived := hdelivered.received k
      simp only [Network.step, hlist, Network.stored, Network.deliver, hopen, if_true,
        List.mem_cons, true_or, true_implies] at hreceived
      rw [Network.served, hstored, List.length_map, List.length_range'] at hreceived
      omega

end Tftp

end RtosLwip
