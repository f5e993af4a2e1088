import Mathlib.Logic.Function.Basic
import RtosLwip.Flash.Chip
import RtosLwip.Flash.Transfer

/-!
# Uploads that Share the Writer

There is one flash writer, one staging buffer and one update record, and there
are several ways to them: the TFTP session and every HTTP connection that posts
a file. An upload that is opened while another one is running takes all three
over, and both go on writing.

The TFTP server refuses a second TFTP session. Nothing else is refused: the
HTTP side does not look whether somebody is uploading, and the TFTP server does
not know of the HTTP side. So what an upload needs in order to leave its image,
and nothing else, in the staging region is that no other one is opened before
it is closed. `boardOk_step` says that it needs no more than that, as long as
the flash does what it is told and the image fits into its region.

What is left is read off the chip itself, and the record off the device.

## Main definitions

* `Board`: The device and the uploads that are open.
* `Board.step`: Open, write and close of each of them.
* `StoredAlone`: The region and the record are those of one upload.
* `Unshared`: What is wanted of a step.
* `Alone`: The condition.
* `Writing`: An upload that is alone.

## Theorems

* `writing_write`: A piece is added to the upload.
* `stored_close`: Closing leaves the upload and nothing else.
* `boardOk_step`: A step keeps the invariant.
* `unshared_run`: Every run under the condition keeps uploads apart.
-/

namespace RtosLwip

namespace Sharing

open Flash

/-- Who uploads: the TFTP session, or the connection with this control block. -/
inductive SessionId where
  | tftp
  | http (pcb : Nat)
  deriving DecidableEq, Repr

/-- An upload that is open: its type, and the bytes it has written so far. -/
structure Session where
  fmT : FmType
  bytes : List UInt8
  deriving DecidableEq, Repr

/-- What one call hands over; the length is an unsigned short. -/
structure Piece where
  bytes : List UInt8
  short : bytes.length < 65536

/-- The firmware type `_extUploadOpen` reads from the uri. -/
def extUploadType (uri : List UInt8) : FmType :=
  if strcasecmpEq uri (ascii "/mcuUpdate") then .rtos
  else if strcasecmpEq uri (ascii "/fpgaUpdate") then .fpga
  else .none

variable {ρ : Type}

/-- The TFTP context with the device all uploads write to, and the uploads that are
    open. -/
structure Board (ρ : Type) where
  ctx : TftpContext ρ
  sessions : SessionId → Option Session

/-- No upload is open. -/
def Board.start (dev : Device ρ) : Board ρ := ⟨⟨dev, 0, Nat.zero_le _⟩, fun _ => none⟩

/-- The context on another state of the device. -/
def onDevice (c : TftpContext ρ) (d : Device ρ) : TftpContext ρ :=
  { c with dev := d, room := c.room }

/-- A write of an upload. -/
def SessionId.write (id : SessionId) (hw : UploadHw) (bytes : List UInt8) (c : TftpContext ρ) :
    TftpContext ρ :=
  match id with
  | .tftp => (extTftpWrite hw bytes c).2
  | .http _ => onDevice c (extUploadWrite hw bytes c.dev).2

/-- The close of an upload. -/
def SessionId.close (id : SessionId) (hw : UploadHw) (c : TftpContext ρ) : Device ρ :=
  match id with
  | .tftp => extTftpClose hw c
  | .http _ => (firmwareUpdateEnd hw c.dev).2

/-- What can happen. -/
inductive Event where
  | tftpOpen (fname : List UInt8)
  | httpOpen (pcb : Nat) (uri : List UInt8)
  | write (id : SessionId) (piece : Piece)
  | close (id : SessionId)

/-- One step. The TFTP server refuses a second session of its own; a connection opens its
    upload once, and nobody writes or closes what he has not opened. -/
def Board.step (b : Board ρ) (e : UploadHw × Event) : Board ρ :=
  match e.2 with
  | .tftpOpen fname =>
    match b.sessions .tftp with
    | some _ => b
    | none =>
      ⟨extTftpOpen e.1 fname b.ctx.dev,
        Function.update b.sessions .tftp (some ⟨tftpType fname, []⟩)⟩
  | .httpOpen pcb uri =>
    match b.sessions (.http pcb) with
    | some _ => b
    | none =>
      ⟨onDevice b.ctx (firmwareUpdateInit e.1 (extUploadType uri) b.ctx.dev),
        Function.update b.sessions (.http pcb) (some ⟨extUploadType uri, []⟩)⟩
  | .write id piece =>
    match b.sessions id with
    | none => b
    | some s =>
      ⟨id.write e.1 piece.bytes b.ctx,
        Function.update b.sessions id (some { s with bytes := s.bytes ++ piece.bytes })⟩
  | .close id =>
    match b.sessions id with
    | none => b
    | some _ => ⟨onDevice b.ctx (id.close e.1 b.ctx), Function.update b.sessions id none⟩

/-- The staging region holds the bytes of this upload, and the record is that of it. -/
structure StoredAlone (chip : Chip) (s : Session) (d : Device ρ) : Prop where
  type : d.fmType = s.fmT
  size : d.runCfg.firmUpdateInfo.size = s.bytes.length
  bytes : Holds (contents d.flash.ops chip) (sectorAddress (region s.fmT).start) s.bytes

/-- At most one upload is open. -/
def Exclusive (b : Board ρ) : Prop :=
  ∀ i j, b.sessions i ≠ none → b.sessions j ≠ none → i = j

/-- What is wanted of a step: uploads that would share the writer are refused, and one that
    is closed and leaves an update pending is what the chip holds. -/
def Unshared (chip : Chip) (b : Board ρ) (e : UploadHw × Event) : Prop :=
  Exclusive (b.step e) ∧
    ∀ id, e.2 = .close id → ∀ s ∈ b.sessions id, (b.step e).ctx.dev.fmType ≠ .none →
      StoredAlone chip s (b.step e).ctx.dev

/-- An upload is opened only while no other one is open, what is written fits into the
    region, and the flash does what it is told. -/
def Alone (b : Board ρ) (e : UploadHw × Event) : Prop :=
  (∀ n, e.1.spi n = true) ∧
    match e.2 with
    | .tftpOpen _ => ∀ id, id ≠ .tftp → b.sessions id = none
    | .httpOpen pcb _ => ∀ id, id ≠ .http pcb → b.sessions id = none
    | .write id piece =>
      ∀ s ∈ b.sessions id, (s.bytes ++ piece.bytes).length ≤ (region s.fmT).bytes
    | .close _ => True

/-- An upload that has been alone since it was opened: what it has written is in the flash,
    or waits in the buffer, and is counted in the record. -/
structure Writing (id : SessionId) (s : Session) (c : TftpContext ρ) : Prop where
  fits : s.bytes.length ≤ (region s.fmT).bytes
  staged : ∃ prior ps, match id with
    | .tftp => c.dataIndex < bufLength ∧
      Collected (region s.fmT).start (prior ++ [.erase (region s.fmT).start]) ps s.bytes c
    | .http _ => c.dev.flash.leftBytesWrite < pageSize ∧
      Staged (region s.fmT).start (prior ++ [.erase (region s.fmT).start]) ps s.bytes c.dev.flash
  recorded : ∃ old, match id with
    | .tftp => Recorded old s.fmT s.bytes.length c
    | .http _ => c.dev.runCfg = ⟨⟨s.fmT, true, s.bytes.length⟩, old.rest⟩

section Uploads

variable {hw : UploadHw} {id : SessionId} {s : Session} {c : TftpContext ρ}

/-- A region is small enough for the counters of the writer and of the record. -/
theorem fits_region {fmT : FmType} {n : Nat} (h : n ≤ (region fmT).bytes) :
    Fits (region fmT).start ((n + 255) / pageSize) ∧ Fits (region fmT).start (n / pageSize) ∧
      n < 2 ^ 32 := by
  have hregion := (FirmwareUpload.region_fits fmT).1
  simp only [sectorAddress, capacity, Fits, pagesInOneSector, pageSize] at hregion ⊢
  omega

theorem start_lt (fmT : FmType) : (region fmT).start < 65536 := by
  unfold region
  split <;> decide

theorem writing_tftpOpen (fname : List UInt8) (d : Device ρ) :
    Writing .tftp ⟨tftpType fname, []⟩ (extTftpOpen hw fname d) where
  fits := Nat.zero_le _
  staged := ⟨d.flash.ops, [], by change 0 < 1024; decide,
    FirmwareUpload.collected_extTftpOpen hw fname d⟩
  recorded := ⟨d.runCfg, rfl, rfl, rfl, by change 0 < 2 ^ 32; decide, rfl⟩

theorem writing_httpOpen (pcb : Nat) (fmT : FmType) (c : TftpContext ρ) :
    Writing (.http pcb) ⟨fmT, []⟩ (onDevice c (firmwareUpdateInit hw fmT c.dev)) where
  fits := Nat.zero_le _
  staged := by
    have hflash : (onDevice c (firmwareUpdateInit hw fmT c.dev)).dev.flash
        = bspSpiFlashInit hw.spi (region fmT).start (sectorAddress (region fmT).start) true
          c.dev.flash := FirmwareUpload.flash_firmwareUpdateInit hw fmT c.dev
    refine ⟨c.dev.flash.ops, [], ?_⟩
    dsimp only
    rw [hflash]
    exact ⟨by change 0 < 256; decide, staged_init hw.spi _ _ c.dev.flash (start_lt fmT)⟩
  recorded := ⟨c.dev.runCfg, rfl⟩

/-- A piece is added to the upload. -/
theorem writing_write (hok : ∀ n, hw.spi n = true) (h : Writing id s c) (piece : Piece)
    (hfits : (s.bytes ++ piece.bytes).length ≤ (region s.fmT).bytes) :
    Writing id { s with bytes := s.bytes ++ piece.bytes } (id.write hw piece.bytes c) := by
  have hroom := (fits_region hfits).2.1
  have hsmall := (fits_region hfits).2.2
  rcases h.staged with ⟨prior, ps, hstaged⟩
  rcases h.recorded with ⟨old, hrecorded⟩
  cases id with
  | tftp =>
      rcases hstaged with ⟨hidx, hcol⟩
      rcases collected_writeLoop hok _ _ (piece.bytes.length + 2) piece.bytes ps s.bytes c
        (by omega) hidx hcol hroom with ⟨ps', hcol', hidx'⟩
      have hrec := (recorded_extTftpWrite hw (piece.bytes.length + 2) piece.bytes
        s.bytes.length c (by omega) hidx hrecorded).1
      rw [← List.length_append] at hrec
      exact ⟨hfits, ⟨prior, ps', hidx', hcol'⟩, old, hrec⟩
  | http pcb =>
      rcases hstaged with ⟨hleft, hst⟩
      have hone : [piece.bytes].flatten = piece.bytes := List.flatten_singleton
      rcases staged_writeChunks hok _ _ [piece.bytes]
        (fun c hc => by rw [List.mem_singleton.mp hc]; exact Nat.le_of_lt_succ piece.short)
        ps s.bytes c.dev.flash hleft hst (by rw [hone]; exact hroom) with ⟨ps', hst', hleft'⟩
      have hflash : writeChunks hw.spi c.dev.flash [piece.bytes]
          = (onDevice c (extUploadWrite hw piece.bytes c.dev).2).dev.flash :=
        (flash_extUploadWrite hw piece.bytes c.dev).symm
      rw [hone, hflash] at hst'
      rw [hflash] at hleft'
      refine ⟨hfits, ⟨prior, ps', hleft', hst'⟩, old, ?_⟩
      rw [List.length_append] at hsmall
      have htakes := (bspSpiFlashWrite_accepts hw.spi piece.bytes c.dev.flash c.dev.buffered).1
      simp only [SessionId.write, onDevice, extUploadWrite, htakes, ne_eq, not_true_eq_false,
        if_false, hrecorded, List.length_append, Nat.mod_eq_of_lt hsmall]

/-- The pages of an upload read back, and its last page is no longer than a page. -/
theorem holds_pages {fmT : FmType} {prior : List FlashOp} {pages last : List (List UInt8)}
    {data : List UInt8} (chip : Chip) (hfull : ∀ p ∈ pages, p.length = pageSize)
    (hone : last.length ≤ 1) (hdata : (pages ++ last).flatten = data)
    (hcount : (pages ++ last).length = (data.length + 255) / pageSize) :
    Holds (contents (prior ++ [.erase (region fmT).start]
      ++ pagesOps (region fmT).start (pages ++ last)) chip)
      (sectorAddress (region fmT).start) data := by
  have hlast : ∀ p ∈ last, p.length ≤ pageSize := by
    intro p hp
    -- then it is the only one, and the number of pages is one more than the full ones
    have hsingle : last = [p] := by
      rcases List.append_of_mem hp with ⟨before, behind, heq⟩
      rw [heq, List.length_append, List.length_cons] at hone
      have hbefore : before = [] := List.length_eq_zero_iff.mp (by omega)
      have hbehind : behind = [] := List.length_eq_zero_iff.mp (by omega)
      rw [heq, hbefore, hbehind, List.nil_append]
    have hps : pageSize = 256 := rfl
    have hlen := congrArg List.length hdata
    rw [List.flatten_append, List.length_append, length_flatten_pages pages hfull, hsingle,
      List.flatten_singleton, hps] at hlen
    rw [List.length_append, hsingle, List.length_singleton, hps] at hcount
    omega
  rw [← hdata]
  exact contents_pagesOps _ prior hfull hone hlast

/-- Closing leaves the upload in its region, and the record of it. -/
theorem stored_close (hok : ∀ n, hw.spi n = true) (chip : Chip) (h : Writing id s c) :
    StoredAlone chip s (id.close hw c) := by
  have hroom := (fits_region h.fits).1
  have hsmall := (fits_region h.fits).2.2
  rcases h.staged with ⟨prior, ps, hstaged⟩
  rcases h.recorded with ⟨old, hrecorded⟩
  cases id with
  | tftp =>
      rcases hstaged with ⟨-, hcol⟩
      rcases extTftpClose_ops hok hcol hroom with ⟨pages, last, hops, hfull, hone, hdata, hcount⟩
      have hcfg := runCfg_extTftpClose hw hrecorded hsmall
      refine ⟨congrArg (fun r => r.firmUpdateInfo.type) hcfg,
        congrArg (fun r => r.firmUpdateInfo.size) hcfg, ?_⟩
      change Holds (contents (extTftpClose hw c).flash.ops chip) _ _
      rw [hops]
      exact holds_pages chip hfull hone hdata hcount
  | http pcb =>
      rcases hstaged with ⟨hleft, hst⟩
      rcases staged_flush hok hst hleft hroom with ⟨pages, last, hops, hfull, hone, hdata, hcount⟩
      have hcfg := (runCfg_firmwareUpdateEnd hw c.dev).trans hrecorded
      refine ⟨congrArg (fun r => r.firmUpdateInfo.type) hcfg,
        congrArg (fun r => r.firmUpdateInfo.size) hcfg, ?_⟩
      change Holds (contents (firmwareUpdateEnd hw c.dev).2.flash.ops chip) _ _
      rw [flash_firmwareUpdateEnd, hops]
      exact holds_pages chip hfull hone hdata hcount

end Uploads

/-- No upload is open, or one that has been alone. -/
def BoardOk (b : Board ρ) : Prop :=
  (∀ id, b.sessions id = none) ∨
    ∃ id s, b.sessions id = some s ∧ (∀ j, j ≠ id → b.sessions j = none) ∧ Writing id s b.ctx

theorem BoardOk.exclusive {b : Board ρ} (h : BoardOk b) : Exclusive b := by
  intro i j hi hj
  rcases h with hnone | ⟨id, s, -, hothers, -⟩
  · exact absurd (hnone i) hi
  · have hsame : ∀ k, b.sessions k ≠ none → k = id := fun k hk =>
      by_contra fun hne => hk (hothers k hne)
    rw [hsame i hi, hsame j hj]

/-- The upload that is open is the one that has been alone. -/
theorem BoardOk.writing {b : Board ρ} (h : BoardOk b) {id : SessionId} {s : Session}
    (hs : b.sessions id = some s) :
    Writing id s b.ctx ∧ ∀ j, j ≠ id → b.sessions j = none := by
  rcases h with hnone | ⟨k, s', hs', hothers, hwriting⟩
  · exact absurd ((hnone id).symm.trans hs) (Option.some_ne_none s).symm
  · have hk : id = k := by
      by_contra hne
      exact absurd ((hothers id hne).symm.trans hs) (Option.some_ne_none s).symm
    subst hk
    rw [← Option.some.inj (hs'.symm.trans hs)]
    exact ⟨hwriting, hothers⟩

theorem update_others {sessions : SessionId → Option Session} {id : SessionId}
    (hothers : ∀ j, j ≠ id → sessions j = none) (s : Option Session) :
    ∀ j, j ≠ id → Function.update sessions id s j = none := by
  intro j hj
  rw [Function.update_of_ne hj]
  exact hothers j hj

/-- An upload takes the place it is alone in. -/
theorem boardOk_put {sessions : SessionId → Option Session} {id : SessionId} {s : Session}
    {c : TftpContext ρ} (hothers : ∀ j, j ≠ id → sessions j = none) (h : Writing id s c) :
    BoardOk ⟨c, Function.update sessions id (some s)⟩ :=
  Or.inr ⟨id, s, Function.update_self .., update_others hothers (some s), h⟩

/-- A step keeps the invariant. -/
theorem boardOk_step {b : Board ρ} {e : UploadHw × Event} (h : BoardOk b) (halone : Alone b e) :
    BoardOk (b.step e) := by
  rcases e with ⟨hw, event⟩
  unfold Board.step
  cases event with
  | tftpOpen fname =>
      dsimp only
      split
      · exact h
      · exact boardOk_put halone.2 (writing_tftpOpen fname b.ctx.dev)
  | httpOpen pcb uri =>
      dsimp only
      split
      · exact h
      · exact boardOk_put halone.2 (writing_httpOpen pcb (extUploadType uri) b.ctx)
  | write id piece =>
      dsimp only
      split
      · exact h
      · rename_i s hs
        rcases h.writing hs with ⟨hwriting, hothers⟩
        exact boardOk_put hothers (writing_write halone.1 hwriting piece (halone.2 s hs))
  | close id =>
      dsimp only
      split
      · exact h
      · rename_i s hs
        refine Or.inl fun j => ?_
        by_cases hj : j = id
        · rw [hj]
          exact Function.update_self ..
        · exact update_others (h.writing hs).2 none j hj

/-- An upload that has been alone leaves what it should. -/
theorem unshared_step {b : Board ρ} {e : UploadHw × Event} (chip : Chip) (h : BoardOk b)
    (halone : Alone b e) : Unshared chip b e := by
  refine ⟨(boardOk_step h halone).exclusive, fun id hclose s hs _ => ?_⟩
  rcases e with ⟨hw, event⟩
  dsimp only at hclose
  subst hclose
  have hstored := stored_close halone.1 chip (h.writing hs).1
  rw [Option.mem_def] at hs
  simp only [Board.step, hs]
  exact hstored

/-- Nothing is refused: a connection that posts a file while an upload is open makes two of
    them. -/
theorem not_exclusive_httpOpen {b : Board ρ} {id : SessionId} {pcb : Nat} (hw : UploadHw)
    (uri : List UInt8) (hopen : b.sessions id ≠ none) (hother : id ≠ .http pcb) :
    ¬ Exclusive (b.step (hw, .httpOpen pcb uri)) := by
  intro h
  refine hother (h id (.http pcb) ?_ ?_)
  all_goals
    simp only [Board.step]
    split
  · exact hopen
  · dsimp only
    rw [Function.update_of_ne hother]
    exact hopen
  · rename_i s hs
    rw [hs]
    exact Option.some_ne_none s
  · dsimp only
    rw [Function.update_self]
    exact Option.some_ne_none _

/-- In every run in which an upload is opened only while no other one is open, what is
    written fits into the region and the flash does what it is told, every step keeps the
    uploads apart. -/
theorem unshared_run (chip : Chip) (dev : Device ρ) (evs : List (UploadHw × Event))
    (halone : Meets Board.step Alone (Board.start dev) evs) :
    ∀ past e, past ++ [e] <+: evs → Unshared chip (run Board.step (Board.start dev) past) e := by
  rintro past e ⟨rest, rfl⟩
  have hstart : BoardOk (Board.start dev) := Or.inl fun _ => rfl
  rcases (meets_append _ _ _).mp halone with ⟨hbefore, -⟩
  rcases (meets_append _ _ _).mp hbefore with ⟨hpast, hlast⟩
  exact unshared_step chip
    (meets_invariant (fun _ _ => boardOk_step) (Board.start dev) hstart past hpast) hlast.1

section Runs

/-- A step of a board where everything works. -/
def working (e : Event) : UploadHw × Event := (⟨fun _ => true, fun _ => true⟩, e)

/-- The first write of a connection that is alone. -/
theorem alone_firstWrite :
    Alone ((Board.start FirmwareUpload.blankDevice).step
        (working (.httpOpen 1 (ascii "/mcuUpdate"))))
      (working (.write (.http 1) ⟨[1, 2, 3], by decide⟩)) := by
  refine ⟨fun _ => rfl, fun s hs => ?_⟩
  have hopened : ((Board.start FirmwareUpload.blankDevice).step
      (working (.httpOpen 1 (ascii "/mcuUpdate")))).sessions (.http 1) = some ⟨.rtos, []⟩ := by
    decide +kernel
  rw [← Option.some.inj (hopened.symm.trans hs)]
  decide

/-- Three bytes over a connection. -/
theorem unshared_run_threeBytes :
    Unshared (fun _ => 0) (run Board.step (Board.start FirmwareUpload.blankDevice)
      [working (.httpOpen 1 (ascii "/mcuUpdate")),
        working (.write (.http 1) ⟨[1, 2, 3], by decide⟩)])
      (working (.close (.http 1))) :=
  unshared_run (fun _ => 0) FirmwareUpload.blankDevice
    [working (.httpOpen 1 (ascii "/mcuUpdate")), working (.write (.http 1) ⟨[1, 2, 3], by decide⟩),
      working (.close (.http 1))]
    ⟨⟨fun _ => rfl, fun _ _ => rfl⟩, alone_firstWrite, ⟨fun _ => rfl, trivial⟩,
      trivial⟩ _ _ (List.prefix_refl _)

/-- A second connection posts a file while the first one is uploading: the upload of the
    first one ends with an update pending, and the record has the size of the second. -/
theorem not_unshared_twoConnections :
    ¬ Unshared (fun _ => 0) (run Board.step (Board.start FirmwareUpload.blankDevice)
      [working (.httpOpen 1 (ascii "/mcuUpdate")),
        working (.write (.http 1) ⟨[1, 2, 3], by decide⟩),
        working (.httpOpen 2 (ascii "/mcuUpdate")), working (.write (.http 2) ⟨[9], by decide⟩)])
      (working (.close (.http 1))) := by
  intro h
  have hsize := (h.2 (.http 1) rfl ⟨.rtos, [1, 2, 3]⟩ (by decide +kernel) (by decide +kernel)).size
  exact absurd hsize (by decide +kernel)

end Runs

end Sharing

end RtosLwip
