import RtosLwip.Base.History
import RtosLwip.Base.Run
import RtosLwip.Tftp.Server

/-!
# Pending Updates by TFTP

A record saved with a type is picked up by the bootloader, so it must stand for
an image that is there. For the TFTP server this means: a write transfer whose
blocks came in order from 1 on, all but the last of them full, and whose
operations on the flash have all been carried out.

The server does not see to that. Every transfer ends in the same function,
which saves whatever record there is, and the record is entered when the file
is opened. Three kinds of steps leave a record for an image that is not there:

* a read request, which is accepted like a write request and erases the
  staging region,
* a block that is out of order, which ends the transfer without cancelling it,
* an operation of the flash that fails, which nobody notices.

Only the timeout cancels the update. `sound_run` says that these three are all
there is: a run whose steps are `Orderly` keeps records and images together.

## Main definitions

* `Complete`: The last session was a write transfer that has stored its file.
* `Sound`: The records saved and left belong to complete transfers.
* `Orderly`: A step of none of the three kinds.
* `Receiving`: What the blocks of a running transfer amount to.

## Theorems

* `serverOk_step`: An orderly step keeps the invariant.
* `sound_run`: A run of orderly steps is sound in every state.
-/

namespace RtosLwip

namespace Tftp

open Flash

/-- The direction of the session opened last. -/
def lastOpened : List Effect → Option Bool
  | [] => none
  | .opened isWrite _ :: _ => some isWrite
  | _ :: past => lastOpened past

/-- The blocks passed on in that session, newest first. -/
def blocks : List Effect → List (UInt16 × List UInt8)
  | [] => []
  | .opened _ _ :: _ => []
  | .wrote blknum bytes :: past => (blknum, bytes) :: blocks past
  | _ :: past => blocks past

/-- The operations issued to the SPI flash in that session, and how they went. -/
def operations : List Effect → List (FlashOp × Bool)
  | [] => []
  | .opened _ _ :: _ => []
  | .spi op ok :: past => (op, ok) :: operations past
  | _ :: past => operations past

/-- The blocks have the numbers from 1 on. -/
def Numbered : List (UInt16 × List UInt8) → Prop
  | [] => True
  | b :: older => b.1.toNat = older.length + 1 ∧ Numbered older

instance : ∀ bs, Decidable (Numbered bs)
  | [] => .isTrue trivial
  | b :: older =>
    have : Decidable (Numbered older) := instDecidableNumbered older
    inferInstanceAs (Decidable (b.1.toNat = older.length + 1 ∧ Numbered older))

/-- The last block is short, and no other one. -/
def EndsShort : List (UInt16 × List UInt8) → Prop
  | [] => False
  | b :: older => b.2.length < maxPayloadSize ∧ ∀ b' ∈ older, maxPayloadSize ≤ b'.2.length

instance : ∀ bs, Decidable (EndsShort bs)
  | [] => .isFalse id
  | _ :: _ => inferInstanceAs (Decidable (_ ∧ _))

/-- The last session was a write transfer; its blocks came in order, the last one
    of them short, and everything issued to the flash was carried out. -/
def Complete (past : List Effect) : Prop :=
  lastOpened past = some true ∧ Numbered (blocks past) ∧ EndsShort (blocks past) ∧
    ∀ o ∈ operations past, o.2 = true

instance (past : List Effect) : Decidable (Complete past) :=
  inferInstanceAs (Decidable (_ ∧ _ ∧ _ ∧ _))

/-- A record with a type is saved behind a complete transfer only, and the flash is
    not erased for a read request. -/
def EffectOk (e : Effect) (past : List Effect) : Prop :=
  match e with
  | .saved info => info.type ≠ .none → Complete past
  | .spi (.erase _) _ => lastOpened past ≠ some false
  | _ => True

instance (e : Effect) (past : List Effect) : Decidable (EffectOk e past) :=
  match e with
  | .saved info => inferInstanceAs (Decidable (info.type ≠ .none → Complete past))
  | .spi (.erase _) _ => inferInstanceAs (Decidable (lastOpened past ≠ some false))
  | .spi (.program _ _) _ | .spi (.read _ _) _ | .opened _ _ | .wrote _ _ | .sent _ _ =>
    .isTrue trivial

variable {ρ : Type}

/-- The records saved and the record left when no session is open are those of
    complete transfers. -/
def Sound (s : Server ρ) : Prop :=
  EachPast EffectOk s.history ∧
    (s.handle = false → s.ctx.dev.fmType ≠ .none → Complete s.history)

instance (s : Server ρ) : Decidable (Sound s) :=
  inferInstanceAs (Decidable (_ ∧ _))

/-- A step in which the flash does what it is told, no read request is accepted, and
    the blocks of the current transfer come in order or again. -/
def Orderly (s : Server ρ) (e : Env × Event) : Prop :=
  (∀ n, e.1.hw.spi n = true) ∧
    match e.2 with
    | .packet p =>
      s.refuses p.peer = false →
        (p.opcode = 1 → s.handle = false → ∃ text, p.request = .error text) ∧
        (p.opcode = 3 → s.handle = true → s.modeWrite = true →
          p.blknum = s.blknum ∨ p.blknum.toNat = s.blknum.toNat + 1)
    | .tick => True

section Effects

variable {new past : List Effect}

/-- An effect that neither opens a session nor passes a block on, and is no failure. -/
def Plain : Effect → Prop
  | .opened _ _ | .wrote _ _ => False
  | .spi _ ok => ok = true
  | _ => True

theorem lastOpened_append (h : ∀ e ∈ new, Plain e) :
    lastOpened (new ++ past) = lastOpened past := by
  induction new with
  | nil => rfl
  | cons e new ih =>
      have hrest := ih fun e' he' => h e' (List.mem_cons_of_mem e he')
      have he := h e List.mem_cons_self
      cases e with
      | opened isWrite fname => exact absurd he id
      | _ => exact hrest

theorem blocks_append (h : ∀ e ∈ new, Plain e) : blocks (new ++ past) = blocks past := by
  induction new with
  | nil => rfl
  | cons e new ih =>
      have hrest := ih fun e' he' => h e' (List.mem_cons_of_mem e he')
      have he := h e List.mem_cons_self
      cases e with
      | opened isWrite fname => exact absurd he id
      | wrote blknum bytes => exact absurd he id
      | _ => exact hrest

theorem operations_append (h : ∀ e ∈ new, Plain e) (hpast : ∀ o ∈ operations past, o.2 = true) :
    ∀ o ∈ operations (new ++ past), o.2 = true := by
  induction new with
  | nil => exact hpast
  | cons e new ih =>
      have hrest := ih fun e' he' => h e' (List.mem_cons_of_mem e he')
      have he := h e List.mem_cons_self
      cases e with
      | opened isWrite fname => exact absurd he id
      | spi op ok => exact List.forall_mem_cons.mpr ⟨he, hrest⟩
      | _ => exact hrest

/-- A complete transfer stays complete until another session is opened. -/
theorem complete_append (h : ∀ e ∈ new, Plain e) (hc : Complete past) : Complete (new ++ past) := by
  rcases hc with ⟨hopened, hnumbered, hshort, hdone⟩
  rw [Complete, lastOpened_append h, blocks_append h]
  exact ⟨hopened, hnumbered, hshort, operations_append h hdone⟩

/-- Effects that open nothing are sound if the records among them are. -/
theorem eachPast_append (h : ∀ e ∈ new, Plain e) (hpast : EachPast EffectOk past)
    (hread : lastOpened past ≠ some false)
    (hsaved : ∀ info, .saved info ∈ new → info.type ≠ .none → Complete past) :
    EachPast EffectOk (new ++ past) := by
  induction new with
  | nil => exact hpast
  | cons e new ih =>
      have hnew : ∀ e' ∈ new, Plain e' := fun e' he' => h e' (List.mem_cons_of_mem e he')
      refine ⟨?_, ih hnew fun info hin => hsaved info (List.mem_cons_of_mem e hin)⟩
      cases e with
      | saved info =>
          intro htype
          exact complete_append hnew (hsaved info List.mem_cons_self htype)
      | spi op ok =>
          cases op with
          | erase sector =>
              change lastOpened (new ++ past) ≠ some false
              rw [lastOpened_append hnew]
              exact hread
          | _ => trivial
      | _ => trivial

end Effects

section Callbacks

variable (hw : UploadHw)

theorem spi_of_mem_spiEffects {hw : UploadHw} {d d' : Device ρ} {e : Effect}
    (h : e ∈ spiEffects hw d d') : ∃ op n, e = .spi op (hw.spi n) := by
  rw [spiEffects, List.mem_reverse, List.mem_map] at h
  rcases h with ⟨x, -, rfl⟩
  exact ⟨x.1, x.2, rfl⟩

theorem saved_of_mem_savedEffects {d d' : Device ρ} {e : Effect} (h : e ∈ savedEffects d d') :
    ∃ page cfg, .writeCfg page cfg ∈ d'.efcOps.drop d.efcOps.length ∧
      e = .saved cfg.firmUpdateInfo := by
  rw [savedEffects, List.mem_reverse, List.mem_filterMap] at h
  rcases h with ⟨op, hop, he⟩
  cases op with
  | writeCfg page cfg => exact ⟨page, cfg, hop, (Option.some.inj he).symm⟩
  | erase page => exact absurd he (Option.some_ne_none e).symm
  | write page data => exact absurd he (Option.some_ne_none e).symm

/-- While the flash does what it is told, the callbacks' effects are plain. -/
theorem plain_issued {hw : UploadHw} (hok : ∀ n, hw.spi n = true) (d d' : Device ρ) :
    ∀ e ∈ issued hw d d', Plain e := by
  intro e he
  rcases List.mem_append.mp he with hsaved | hspi
  · rcases saved_of_mem_savedEffects hsaved with ⟨page, cfg, -, rfl⟩
    trivial
  · rcases spi_of_mem_spiEffects hspi with ⟨op, n, rfl⟩
    exact hok n

theorem mem_savedEffects_of_issued {hw : UploadHw} {d d' : Device ρ} {info : FmUpdate}
    (h : .saved info ∈ issued hw d d') : .saved info ∈ savedEffects d d' := by
  rcases List.mem_append.mp h with hsaved | hspi
  · exact hsaved
  · rcases spi_of_mem_spiEffects hspi with ⟨op, n, heq⟩
    exact absurd heq Effect.noConfusion

/-- A callback that leaves the internal flash alone saves nothing. -/
theorem not_saved_of_efcOps_eq {hw : UploadHw} {d d' : Device ρ} (h : d'.efcOps = d.efcOps)
    (info : FmUpdate) : .saved info ∉ issued hw d d' := by
  intro hin
  have hsaved := mem_savedEffects_of_issued hin
  rw [savedEffects, h, List.drop_length] at hsaved
  exact absurd hsaved List.not_mem_nil

/-- What collecting a packet and handing over the buffer both keep, a write keeps. -/
theorem kept_extTftpWrite {P : Device ρ → Prop}
    (hcollect : ∀ (c : TftpContext ρ) bytes, P c.dev → P (c.collect bytes).dev)
    (hdata : ∀ len d, P d → P (extTftpWriteData hw len d).2) (packet : List UInt8)
    (c : TftpContext ρ) (h : P c.dev) : P (extTftpWrite hw packet c).2.dev := by
  unfold extTftpWrite
  generalize packet.length + 2 = fuel
  induction fuel generalizing packet c with
  | zero => exact h
  | succ fuel ih =>
      unfold tftpWriteLoop
      by_cases hnil : packet = []
      · rw [if_pos hnil]
        exact h
      · rw [if_neg hnil]
        have hcol := hcollect c packet h
        have hout := hdata (c.collect packet).dataIndex _ hcol
        dsimp only
        split
        · split
          · exact hout
          · exact ih _ _ hout
        · exact ih _ _ hcol

theorem efcOps_extTftpWriteData (len : Nat) (d : Device ρ) :
    (extTftpWriteData hw len d).2.efcOps = d.efcOps := by
  unfold extTftpWriteData
  dsimp only
  split <;> rfl

theorem fmType_extTftpWriteData (len : Nat) (d : Device ρ) :
    (extTftpWriteData hw len d).2.fmType = d.fmType := by
  simp only [Device.fmType, runCfg_extTftpWriteData]

theorem efcOps_extTftpWrite (packet : List UInt8) (c : TftpContext ρ) :
    (extTftpWrite hw packet c).2.dev.efcOps = c.dev.efcOps :=
  kept_extTftpWrite hw (P := fun d => d.efcOps = c.dev.efcOps) (fun _ _ h => h)
    (fun len d h => (efcOps_extTftpWriteData hw len d).trans h) packet c rfl

/-- Programming a page issues the erase of its block, the page, or both. -/
theorem mem_efcFlashProgram {ok : Nat → Bool} {page : Nat} {op o : EfcOp ρ} {ops : List (EfcOp ρ)}
    (h : o ∈ (efcFlashProgram ok page op ops).2.drop ops.length) : o = .erase page ∨ o = op := by
  unfold efcFlashProgram efcIssue at h
  split at h
  · dsimp only at h
    split at h
    · rw [List.append_assoc, List.drop_left] at h
      rcases List.mem_cons.mp h with herase | hop
      · exact Or.inl herase
      · exact Or.inr (List.mem_singleton.mp hop)
    · rw [List.drop_left] at h
      exact Or.inl (List.mem_singleton.mp h)
  · rw [List.drop_left] at h
    exact Or.inr (List.mem_singleton.mp h)

/-- Ending an upload saves the record it leaves, or nothing. -/
theorem mem_efcOps_firmwareUpdateEnd {d : Device ρ} {page : Nat} {cfg : RuntimeCfg ρ}
    (h : .writeCfg page cfg ∈ (firmwareUpdateEnd hw d).2.efcOps.drop d.efcOps.length) :
    cfg = d.runCfg := by
  unfold firmwareUpdateEnd at h
  dsimp only at h
  split at h
  · rcases mem_efcFlashProgram h with herase | hwrite
    · cases herase
    · exact (EfcOp.writeCfg.inj hwrite).2
  · rw [List.drop_length] at h
    exact absurd h List.not_mem_nil

theorem fmType_extTftpClose (c : TftpContext ρ) : (extTftpClose hw c).fmType = c.dev.fmType := by
  rw [extTftpClose, Device.fmType, runCfg_firmwareUpdateEnd]
  split
  · exact fmType_extTftpWriteData hw _ _
  · rfl

/-- Closing saves a record of the type that was entered. -/
theorem type_of_saved_extTftpClose {c : TftpContext ρ} {info : FmUpdate}
    (h : .saved info ∈ issued hw c.dev (extTftpClose hw c)) : info.type = c.dev.fmType := by
  rcases saved_of_mem_savedEffects (mem_savedEffects_of_issued h) with ⟨page, cfg, hop, heq⟩
  have hinfo : info = cfg.firmUpdateInfo := Effect.saved.inj heq
  rw [extTftpClose] at hop
  split at hop
  · rename_i hcol
    rw [← efcOps_extTftpWriteData hw c.dataIndex c.dev] at hop
    rw [hinfo, mem_efcOps_firmwareUpdateEnd hw hop]
    exact fmType_extTftpWriteData hw _ _
  · rw [hinfo, mem_efcOps_firmwareUpdateEnd hw hop]
    rfl

end Callbacks

/-- The blocks of a running transfer: they came in order up to this number, they are
    all full, and everything issued to the flash was carried out. -/
structure Receiving (past : List Effect) (blknum : UInt16) : Prop where
  opened : lastOpened past = some true
  numbered : Numbered (blocks past)
  count : (blocks past).length = blknum.toNat
  full : ∀ b ∈ blocks past, maxPayloadSize ≤ b.2.length
  stored : ∀ o ∈ operations past, o.2 = true

section Blocks

variable {new past : List Effect} {n n' : UInt16}

theorem Receiving.append (h : Receiving past n) (hnew : ∀ e ∈ new, Plain e) :
    Receiving (new ++ past) n where
  opened := (lastOpened_append hnew).trans h.opened
  numbered := by rw [blocks_append hnew]; exact h.numbered
  count := by rw [blocks_append hnew]; exact h.count
  full := by rw [blocks_append hnew]; exact h.full
  stored := operations_append hnew h.stored

theorem receiving_opened (fname : List UInt8) : Receiving (.opened true fname :: past) 0 where
  opened := rfl
  numbered := trivial
  count := rfl
  full := fun _ hb => absurd hb List.not_mem_nil
  stored := fun _ ho => absurd ho List.not_mem_nil

theorem Receiving.wrote (h : Receiving past n) (hnext : n'.toNat = n.toNat + 1)
    {bytes : List UInt8} (hfull : maxPayloadSize ≤ bytes.length) :
    Receiving (.wrote n' bytes :: past) n' where
  opened := h.opened
  numbered := ⟨by rw [hnext, h.count], h.numbered⟩
  count := by
    change (blocks past).length + 1 = n'.toNat
    rw [h.count, hnext]
  full := List.forall_mem_cons.mpr ⟨hfull, h.full⟩
  stored := h.stored

/-- A short block completes the transfer. -/
theorem Receiving.complete (h : Receiving past n) (hnext : n'.toNat = n.toNat + 1)
    {bytes : List UInt8} (hshort : bytes.length < maxPayloadSize) :
    Complete (.wrote n' bytes :: past) :=
  ⟨h.opened, ⟨by rw [hnext, h.count], h.numbered⟩, ⟨hshort, h.full⟩, h.stored⟩

end Blocks

/-- What holds between the steps of an orderly run. -/
structure ServerOk (s : Server ρ) : Prop where
  effects : EachPast EffectOk s.history
  writes : lastOpened s.history ≠ some false
  closed : s.handle = false → s.ctx.dev.fmType ≠ .none → Complete s.history
  opened : s.handle = true → s.modeWrite = true ∧ Receiving s.history s.blknum

section Steps

variable {env : Env} {s : Server ρ}

theorem serverOk_start (dev : Device ρ) : ServerOk (Server.start dev) where
  effects := trivial
  writes := nofun
  closed := fun _ htype => absurd rfl htype
  opened := fun h => absurd h Bool.false_ne_true

/-- Plain effects are written down; the records among them must be those of a complete
    transfer. -/
theorem ServerOk.extend (h : ServerOk s) {c : TftpContext ρ} {new : List Effect}
    (hnew : ∀ e ∈ new, Plain e) (htype : c.dev.fmType = s.ctx.dev.fmType)
    (hsaved : ∀ info, .saved info ∉ new) :
    ServerOk { s with ctx := c, history := new ++ s.history } where
  effects := eachPast_append hnew h.effects h.writes fun info hin => absurd hin (hsaved info)
  writes := by
    dsimp only
    rw [lastOpened_append hnew]
    exact h.writes
  closed := fun hclosed hpending =>
    complete_append hnew (h.closed hclosed fun hnone => hpending (htype.trans hnone))
  opened := fun hopen => ⟨(h.opened hopen).1, (h.opened hopen).2.append hnew⟩

theorem serverOk_sendTo (peer : Peer) (reply : Reply) (h : ServerOk s) :
    ServerOk (sendTo env peer reply s) := by
  unfold sendTo
  split
  · have hplain : ∀ e ∈ [Effect.sent peer reply], Plain e := by
      intro e he
      rw [List.mem_singleton.mp he]
      trivial
    have hsaved : ∀ info, .saved info ∉ [Effect.sent peer reply] := fun info hin =>
      Effect.noConfusion (List.mem_singleton.mp hin)
    exact h.extend hplain rfl hsaved
  · exact h

/-- Closing saves whatever record there is, so it must be that of a complete transfer. -/
theorem serverOk_closeHandle (hok : ∀ n, env.hw.spi n = true)
    (heffects : EachPast EffectOk s.history) (hwrites : lastOpened s.history ≠ some false)
    (hcomplete : s.ctx.dev.fmType ≠ .none → Complete s.history) :
    ServerOk (closeHandle env s) := by
  unfold closeHandle
  dsimp only
  by_cases hhandle : s.handle = true
  · rw [if_pos hhandle]
    have hplain := plain_issued hok s.ctx.dev (extTftpClose env.hw s.ctx)
    refine ⟨?_, ?_, fun _ hpending => ?_, fun h => absurd h Bool.false_ne_true⟩
    · refine eachPast_append hplain heffects hwrites fun info hin htype => hcomplete ?_
      rw [← type_of_saved_extTftpClose env.hw hin]
      exact htype
    · change lastOpened (issued _ _ _ ++ s.history) ≠ _
      rw [lastOpened_append hplain]
      exact hwrites
    · refine complete_append hplain (hcomplete ?_)
      rw [← fmType_extTftpClose env.hw]
      exact hpending
  · rw [if_neg hhandle]
    exact ⟨heffects, hwrites, fun _ => hcomplete, fun h => absurd h hhandle⟩

/-- The write callback's failure is not below zero, so a block is always acknowledged. -/
theorem storeBlock_eq (blknum : UInt16) (payload : List UInt8) (peer : Peer) :
    storeBlock env blknum payload peer s =
      let t := sendAck env blknum
        (({ s with blknum := blknum }.emit (.wrote blknum payload)).device env.hw
          (extTftpWrite env.hw payload s.ctx).2)
      if payload.length < maxPayloadSize then closeHandle env t else t := by
  unfold storeBlock
  have hret : ∀ b : Bool, ¬ (if b = true then 0 else exitFailure) < 0 := by decide
  simp only [if_neg (hret _)]

/-- The next block of a transfer: a full one goes on with it, a short one ends it. -/
theorem serverOk_storeBlock {blknum : UInt16} {payload : List UInt8} {peer : Peer}
    (hok : ∀ n, env.hw.spi n = true) (h : ServerOk s) (hopen : s.handle = true)
    (hnext : blknum.toNat = s.blknum.toNat + 1) :
    ServerOk (storeBlock env blknum payload peer s) := by
  have hplain := plain_issued hok s.ctx.dev (extTftpWrite env.hw payload s.ctx).2.dev
  have hnothing : ∀ info, .saved info ∉ issued env.hw s.ctx.dev
      (extTftpWrite env.hw payload s.ctx).2.dev :=
    not_saved_of_efcOps_eq (efcOps_extTftpWrite env.hw payload s.ctx)
  rcases h.opened hopen with ⟨hwrite, hreceiving⟩
  have heffects : EachPast EffectOk (issued env.hw s.ctx.dev
      (extTftpWrite env.hw payload s.ctx).2.dev ++ .wrote blknum payload :: s.history) :=
    eachPast_append hplain ⟨trivial, h.effects⟩ h.writes fun info hin =>
      absurd hin (hnothing info)
  have hwrites : lastOpened (issued env.hw s.ctx.dev
      (extTftpWrite env.hw payload s.ctx).2.dev ++ .wrote blknum payload :: s.history)
      ≠ some false := by
    rw [lastOpened_append hplain]
    exact h.writes
  rw [storeBlock_eq]
  dsimp only
  split
  · rename_i hshort
    -- the acknowledgement is one effect more on a complete transfer
    have hcomplete := complete_append hplain (hreceiving.complete hnext hshort)
    unfold sendAck sendTo
    split
    · exact serverOk_closeHandle hok ⟨trivial, heffects⟩ hwrites fun _ => hcomplete
    · exact serverOk_closeHandle hok heffects hwrites fun _ => hcomplete
  · rename_i hlong
    refine serverOk_sendTo _ _ ⟨heffects, hwrites, fun hclosed => ?_, fun _ => ⟨hwrite, ?_⟩⟩
    · exact absurd (hopen.symm.trans hclosed) Bool.noConfusion
    · exact (hreceiving.wrote hnext (Nat.not_lt.mp hlong)).append hplain

/-- A write request opens a transfer without blocks. -/
theorem serverOk_recvRequest {isWrite : Bool} {p : Datagram} (hok : ∀ n, env.hw.spi n = true)
    (h : ServerOk s)
    (hwrite : isWrite = false → s.handle = false → ∃ text, p.request = .error text) :
    ServerOk (recvRequest env isWrite p s) := by
  unfold recvRequest
  split
  · exact serverOk_sendTo _ _ h
  · rename_i hclosed
    dsimp only
    split
    · exact serverOk_sendTo _ _ ⟨h.effects, h.writes, h.closed, h.opened⟩
    · rename_i fname hrequest
      cases isWrite with
      | false =>
          rcases hwrite rfl (Bool.eq_false_iff.mpr hclosed) with ⟨text, htext⟩
          exact absurd (htext.symm.trans hrequest) nofun
      | true =>
          have hplain := plain_issued hok s.ctx.dev (extTftpOpen env.hw fname s.ctx.dev).dev
          have hopened : Receiving (.opened true fname :: s.history) 0 := receiving_opened fname
          have hreceiving := hopened.append hplain
          refine serverOk_sendTo _ _ ⟨?_, ?_, ?_, fun _ => ⟨rfl, hreceiving⟩⟩
          · refine eachPast_append hplain ⟨trivial, h.effects⟩ nofun fun info hin => ?_
            exact absurd hin (not_saved_of_efcOps_eq (by rfl) info)
          · exact fun hread => absurd (hreceiving.opened.symm.trans hread) nofun
          · exact fun hfalse => absurd hfalse nofun

theorem serverOk_recvData {p : Datagram} (hok : ∀ n, env.hw.spi n = true) (h : ServerOk s)
    (hinOrder : s.handle = true → s.modeWrite = true →
      p.blknum = s.blknum ∨ p.blknum.toNat = s.blknum.toNat + 1) :
    ServerOk (recvData env p s) := by
  unfold recvData
  split
  · exact serverOk_sendTo _ _ h
  · rename_i hopen
    split
    · exact serverOk_sendTo _ _ h
    · rename_i hwrite
      rw [Bool.not_eq_false] at hopen hwrite
      split
      · exact serverOk_sendTo _ _ h
      · rename_i hother
        have hnext := (hinOrder hopen hwrite).resolve_left hother
        rw [if_neg (not_not.mpr hnext)]
        exact serverOk_storeBlock hok h hopen hnext

/-- In a write transfer an acknowledgement is only answered with an error. -/
theorem serverOk_recvAck {p : Datagram} (h : ServerOk s) : ServerOk (recvAck env p s) := by
  unfold recvAck
  split
  · exact serverOk_sendTo _ _ h
  · rename_i hopen
    rw [Bool.not_eq_false] at hopen
    rw [if_pos (h.opened hopen).1]
    exact serverOk_sendTo _ _ h

/-- A timeout cancels the update before it closes the session. -/
theorem serverOk_tftpTmr (hok : ∀ n, env.hw.spi n = true) (h : ServerOk s) :
    ServerOk (tftpTmr env s) := by
  have hcancelled : ∀ (armed : Nat) (timer : Int),
      ServerOk (closeHandle env { s with armed := armed, timer := timer }.cancel) :=
    fun armed timer => serverOk_closeHandle hok h.effects h.writes
      fun hpending => absurd rfl hpending
  unfold tftpTmr
  dsimp only
  split
  · exact ⟨h.effects, h.writes, h.closed, h.opened⟩
  · split
    · split
      · split
        · have hretried : ServerOk { s with armed := s.armed - 1 + 1, timer := s.timer + 1 } :=
            ⟨h.effects, h.writes, h.closed, h.opened⟩
          have hresent : ServerOk (sendTo env _ _ _) :=
            serverOk_sendTo ⟨s.addr, s.port⟩ (.data ‹LastData›) hretried
          exact ⟨hresent.effects, hresent.writes, hresent.closed, hresent.opened⟩
        · exact hcancelled _ _
      · exact hcancelled _ _
    · exact ⟨h.effects, h.writes, h.closed, h.opened⟩

theorem serverOk_tftpRecv {p : Datagram} (hok : ∀ n, env.hw.spi n = true) (h : ServerOk s)
    (horderly : s.refuses p.peer = false →
      (p.opcode = 1 → s.handle = false → ∃ text, p.request = .error text) ∧
      (p.opcode = 3 → s.handle = true → s.modeWrite = true →
        p.blknum = s.blknum ∨ p.blknum.toNat = s.blknum.toNat + 1)) :
    ServerOk (tftpRecv env p s) := by
  unfold tftpRecv
  split
  · exact serverOk_sendTo _ _ h
  · rename_i hrefused
    rcases horderly (Bool.eq_false_iff.mpr hrefused) with ⟨hread, hdata⟩
    have hnoted : ServerOk { s with lastPkt := s.timer, retries := 0 } :=
      ⟨h.effects, h.writes, h.closed, h.opened⟩
    dsimp only
    by_cases hrrq : p.opcode = 1
    · rw [if_pos hrrq]
      exact serverOk_recvRequest hok hnoted fun _ hclosed => hread hrrq hclosed
    rw [if_neg hrrq]
    by_cases hwrq : p.opcode = 2
    · rw [if_pos hwrq]
      exact serverOk_recvRequest hok hnoted nofun
    rw [if_neg hwrq]
    by_cases hop : p.opcode = 3
    · rw [if_pos hop]
      exact serverOk_recvData hok hnoted (hdata hop)
    rw [if_neg hop]
    split
    · exact serverOk_recvAck hnoted
    · exact serverOk_sendTo _ _ hnoted

/-- An orderly step keeps the invariant. -/
theorem serverOk_step {e : Env × Event} (h : ServerOk s) (horderly : Orderly s e) :
    ServerOk (s.step e) := by
  rcases e with ⟨env, event⟩
  cases event with
  | packet p => exact serverOk_tftpRecv horderly.1 h horderly.2
  | tick =>
      change ServerOk (if s.armed = 0 then s else tftpTmr env s)
      split
      · exact h
      · exact serverOk_tftpTmr horderly.1 h

end Steps

theorem ServerOk.sound {s : Server ρ} (h : ServerOk s) : Sound s := ⟨h.effects, h.closed⟩

/-- A run of orderly steps is sound in every state it comes through. -/
theorem sound_run (dev : Device ρ) (evs : List (Env × Event))
    (horderly : Meets Server.step Orderly (Server.start dev) evs) :
    ∀ past, past <+: evs → Sound (run Server.step (Server.start dev) past) := by
  rintro past ⟨rest, rfl⟩
  exact (meets_invariant (fun _ _ => serverOk_step) (Server.start dev) (serverOk_start dev) past
    ((meets_append _ _ _).mp horderly).1).sound

section Runs

/-- A packet of one host, on a board where everything works. -/
def fromHost (bytes : List UInt8) : Env × Event :=
  (⟨⟨fun _ => true, fun _ => true⟩, true, true⟩, .packet ⟨⟨0x0A000001, 2000⟩, bytes, []⟩)

/-- The same packet, on a board whose SPI flash does nothing. -/
def withoutFlash (e : Env × Event) : Env × Event :=
  ({ e.1 with hw := { e.1.hw with spi := fun _ => false } }, e.2)

def request (opcode : UInt8) : Env × Event :=
  fromHost ([0, opcode] ++ ascii "firmOs" ++ [0] ++ ascii "octet" ++ [0])

/-- A transfer of one short block. -/
theorem sound_run_oneBlock :
    Sound (run Server.step (Server.start FirmwareUpload.blankDevice)
      [request 2, fromHost [0, 3, 0, 1, 7, 8, 9]]) :=
  sound_run FirmwareUpload.blankDevice [request 2, fromHost [0, 3, 0, 1, 7, 8, 9]]
    ⟨⟨fun _ => rfl, fun _ => ⟨fun h => absurd h (by decide), fun h => absurd h (by decide)⟩⟩,
      ⟨fun _ => rfl, fun _ => ⟨fun h => absurd h (by decide), fun _ _ _ =>
        Or.inr (by decide +kernel)⟩⟩, trivial⟩ _ (List.prefix_refl _)

/-- One step of each of the three kinds leaves an update pending: a read request, a block
    out of order, and a block that the flash does not take. -/
theorem not_sound_run :
    ¬ Sound (run Server.step (Server.start FirmwareUpload.blankDevice) [request 1]) ∧
      ¬ Sound (run Server.step (Server.start FirmwareUpload.blankDevice)
        [request 2, fromHost [0, 3, 0, 2, 7, 8, 9]]) ∧
      ¬ Sound (run Server.step (Server.start FirmwareUpload.blankDevice)
        [request 2, withoutFlash (fromHost [0, 3, 0, 1, 7, 8, 9])]) := by
  decide +kernel

end Runs

end Tftp

end RtosLwip
