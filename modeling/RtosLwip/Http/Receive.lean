import RtosLwip.Base.Blocks
import RtosLwip.Http.Post

/-!
# The Body in Blocks

What `__extHttpPostData` makes of the bytes it is given. However they are cut
into segments, the request buffer is written once for every full block of the
stream and holds what is left over: `extHttpPostData_eq` is the loop as a fold
over blocks, with nothing about indices left in it.

A block is written as it is, or, when the boundary is found in it, up to four
bytes before the boundary. `Flushed` says what a list of blocks does to the
connection and to the effects; it is all the later proofs use.

## Main definitions

* `Post.stash`: The request buffer holds these bytes.
* `flushBlock`: One full block is written.
* `written`, `closes`: The bytes written and the closes of a history.
* `Marked`: One of the blocks holds the boundary.
* `Flushed`: What writing a list of blocks does.

## Theorems

* `extHttpPostData_eq`: The loop is a fold over the blocks of the stream.
* `flushed_foldlM`: What the fold does.
* `exists_foldlM`: Blocks without the boundary are all written.
-/

namespace RtosLwip

namespace Http

open Flash

theorem maxReqLength_pos : 0 < maxReqLength := by decide

theorem ReqBuf.ext {a b : ReqBuf} (h : a.bytes = b.bytes) : a = b := by
  cases a
  cases b
  cases h
  rfl

/-- A copy within the buffer. -/
theorem ReqBuf.bytes_copy {b : ReqBuf} {off : Nat} {src : List UInt8}
    (h : off + src.length ≤ maxReqLength) : (b.copy off src).bytes = memcpy b.bytes off src := by
  refine List.take_of_length_le ?_
  rw [length_memcpy (by rw [b.length_bytes]; exact h), b.length_bytes]

/-- A copy behind a copy to the front is one copy to the front. -/
theorem ReqBuf.copy_copy (b : ReqBuf) {x y : List UInt8} (h : x.length + y.length ≤ maxReqLength) :
    (b.copy 0 x).copy x.length y = b.copy 0 (x ++ y) := by
  have hx : 0 + x.length ≤ maxReqLength := by omega
  have hxy : 0 + (x ++ y).length ≤ maxReqLength := by
    rw [List.length_append]
    omega
  refine ReqBuf.ext ?_
  rw [ReqBuf.bytes_copy h, ReqBuf.bytes_copy hx, ReqBuf.bytes_copy hxy]
  unfold memcpy
  simp only [List.take_zero, List.nil_append, Nat.zero_add, List.take_left,
    List.drop_length_add_append, List.drop_drop, List.length_append]

/-- The buffer copied onto itself. -/
theorem ReqBuf.copy_take (b : ReqBuf) {n : Nat} (h : n ≤ maxReqLength) :
    b.copy 0 (b.bytes.take n) = b := by
  have hlen : (b.bytes.take n).length = n :=
    List.length_take_of_le (by rw [b.length_bytes]; exact h)
  refine ReqBuf.ext ?_
  rw [ReqBuf.bytes_copy (by rw [hlen]; omega), memcpy, hlen, List.take_zero, List.nil_append,
    Nat.zero_add, List.take_append_drop]

/-- A block fills the whole buffer. -/
theorem ReqBuf.take_copy (b : ReqBuf) {x : List UInt8} (h : x.length ≤ maxReqLength) :
    (b.copy 0 x).bytes.take x.length = x := by
  rw [ReqBuf.bytes_copy (by omega), memcpy, List.take_zero, List.nil_append, List.take_left]

variable {ρ : Type} (hw : UploadHw)

/-- The request buffer holds these bytes. -/
def Post.stash (s : Post ρ) (bytes : List UInt8) : Post ρ :=
  { s with conn := { s.conn with
    data := s.conn.data.copy 0 bytes, dataSendIndex := bytes.length } }

/-- The bytes in the request buffer. -/
def Conn.pending (c : Conn) : List UInt8 := c.data.bytes.take c.dataSendIndex

theorem Conn.length_pending (c : Conn) (h : c.dataSendIndex ≤ maxReqLength) :
    c.pending.length = c.dataSendIndex :=
  List.length_take_of_le (by rw [c.data.length_bytes]; exact h)

theorem Post.stash_pending (s : Post ρ) (h : s.conn.dataSendIndex ≤ maxReqLength) :
    s.stash s.conn.pending = s := by
  unfold Post.stash
  rw [s.conn.length_pending h, Conn.pending, ReqBuf.copy_take _ h]

theorem Post.pending_stash (s : Post ρ) {x : List UInt8} (h : x.length ≤ maxReqLength) :
    (s.stash x).conn.pending = x :=
  ReqBuf.take_copy s.conn.data h

/-- One full block is written. -/
def flushBlock (s : Post ρ) (block : List UInt8) : Option (Post ρ) :=
  (writeBlock hw (s.stash block)).map Prod.snd

section FlushBlock

variable {s : Post ρ} {block : List UInt8}

theorem findEndingBoundary_none (h : memmem s.conn.boundary s.conn.pending = none) :
    findEndingBoundary s = (false, s) := by
  unfold findEndingBoundary
  rw [Conn.pending] at h
  rw [h]

theorem findEndingBoundary_some {p : Nat} (h : memmem s.conn.boundary s.conn.pending = some p) :
    findEndingBoundary s = (true, { s with
      conn := { s.conn with
        dataSendIndex := (p + 65536 - 4) % 65536
        uploadStatus := .ended
        uri := .uploaded s.dev.runCfg.firmUpdateInfo.size s.conn.filename }
      history := .found s.conn.pcb :: s.history }) := by
  unfold findEndingBoundary
  rw [Conn.pending] at h
  rw [h]

/-- A write through the context takes everything. -/
theorem ctxWrite_eq (hctx : s.conn.uploadCtx = true) (hidx : s.conn.dataSendIndex ≤ maxReqLength) :
    ctxWrite hw s = some (s.conn.dataSendIndex, { s with
      conn := { s.conn with
        data := s.conn.data.copy 0 (List.replicate s.conn.dataSendIndex 0) }
      dev := (extUploadWrite hw s.conn.pending s.dev).2
      history := .wrote s.conn.pcb s.conn.pending :: s.history }) := by
  have hlen := s.conn.length_pending hidx
  have htaken : (extUploadWrite hw s.conn.pending s.dev).1 = s.conn.dataSendIndex := by
    rw [extUploadWrite_accepts, hlen]
    simp only [maxReqLength] at hidx
    omega
  unfold ctxWrite
  rw [if_pos ⟨hctx, hidx⟩]
  rw [Conn.pending] at htaken
  simp only [htaken, if_true, Conn.pending]

/-- A block without the boundary is written as it is. -/
theorem writeBlock_clean (hctx : s.conn.uploadCtx = true) (hlen : block.length = maxReqLength)
    (hclean : ¬ s.conn.boundary <:+: block) :
    writeBlock hw (s.stash block) = some (true, { s with
      conn := { s.conn with
        data := (s.conn.data.copy 0 block).copy 0 (List.replicate block.length 0)
        dataSendIndex := 0 }
      dev := (extUploadWrite hw block s.dev).2
      history := .wrote s.conn.pcb block :: s.history }) := by
  have hpend : (s.stash block).conn.pending = block := s.pending_stash hlen.le
  have hnone : memmem (s.stash block).conn.boundary (s.stash block).conn.pending = none := by
    rw [hpend]
    exact (memmem_eq_none_iff _ _).mpr hclean
  unfold writeBlock
  rw [findEndingBoundary_none hnone, ctxWrite_eq hw (s := s.stash block) hctx hlen.le,
    Option.map_some]
  simp only [ne_eq, not_true_eq_false, if_false, hpend]
  rfl

/-- A block with the boundary is written up to four bytes before it. -/
theorem writeBlock_marked {p : Nat} (hctx : s.conn.uploadCtx = true)
    (hlen : block.length = maxReqLength) (hp : memmem s.conn.boundary block = some p)
    (hfour : 4 ≤ p) :
    writeBlock hw (s.stash block) = some (true, { s with
      conn := { s.conn with
        data := (s.conn.data.copy 0 block).copy 0 (List.replicate (p - 4) 0)
        dataSendIndex := 0
        uploadStatus := .ended
        uri := .uploaded s.dev.runCfg.firmUpdateInfo.size s.conn.filename }
      dev := (extUploadWrite hw (block.take (p - 4)) s.dev).2
      history := .wrote s.conn.pcb (block.take (p - 4)) :: .found s.conn.pcb :: s.history }) := by
  have hpend : (s.stash block).conn.pending = block := s.pending_stash hlen.le
  have hsome : memmem (s.stash block).conn.boundary (s.stash block).conn.pending = some p := by
    rw [hpend]
    exact hp
  have hend := memmem_add_length_le hp
  simp only [maxReqLength] at hlen
  have hidx : (p + 65536 - 4) % 65536 = p - 4 := by omega
  have hbytes : (s.stash block).conn.data.bytes.take (p - 4) = block.take (p - 4) := by
    have hall : (s.stash block).conn.data.bytes.take block.length = block := hpend
    conv_rhs => rw [← hall]
    rw [List.take_take, Nat.min_eq_left (by omega)]
  unfold writeBlock
  rw [findEndingBoundary_some hsome, hidx]
  dsimp only
  rw [ctxWrite_eq hw, Option.map_some]
  · simp only [ne_eq, not_true_eq_false, if_false, Conn.pending, hbytes]
    rfl
  · exact hctx
  · change p - 4 ≤ 3072
    omega

/-- With the boundary in its first four bytes there is no length to write. -/
theorem writeBlock_early {p : Nat} (hlen : block.length = maxReqLength)
    (hp : memmem s.conn.boundary block = some p) (hfour : p < 4) :
    writeBlock hw (s.stash block) = none := by
  have hpend : (s.stash block).conn.pending = block := s.pending_stash hlen.le
  have hsome : memmem (s.stash block).conn.boundary (s.stash block).conn.pending = some p := by
    rw [hpend]
    exact hp
  have hidx : ¬ (p + 65536 - 4) % 65536 ≤ maxReqLength := by
    simp only [maxReqLength]
    omega
  unfold writeBlock ctxWrite
  rw [findEndingBoundary_some hsome, if_neg fun h => hidx h.2, Option.map_none]

/-- Without a context there is nothing to write to. -/
theorem writeBlock_null (hctx : s.conn.uploadCtx = false) :
    writeBlock hw (s.stash block) = none := by
  have hnull : ((findEndingBoundary (s.stash block)).2).conn.uploadCtx = false := by
    unfold findEndingBoundary
    split <;> exact hctx
  unfold writeBlock ctxWrite
  rw [if_neg fun h => absurd h.1 (by rw [hnull]; decide), Option.map_none]

end FlushBlock

/-- A full block is never reported as a failure, and leaves the buffer empty. -/
theorem writeBlock_stash (s : Post ρ) {block : List UInt8} (hlen : block.length = maxReqLength) :
    writeBlock hw (s.stash block) = (flushBlock hw s block).map fun s' => (true, s'.stash []) := by
  have hempty : ∀ s' : Post ρ, s'.conn.dataSendIndex = 0 → s'.stash [] = s' := fun s' h => by
    have hpend : s'.conn.pending = [] := by rw [Conn.pending, h, List.take_zero]
    rw [← hpend]
    exact s'.stash_pending (by rw [h]; exact Nat.zero_le _)
  unfold flushBlock
  cases hctx : s.conn.uploadCtx with
  | false => rw [writeBlock_null hw hctx, Option.map_none, Option.map_none]
  | true =>
      cases hp : memmem s.conn.boundary block with
      | none =>
          rw [writeBlock_clean hw hctx hlen ((memmem_eq_none_iff _ _).mp hp), Option.map_some,
            Option.map_some, hempty]
          rfl
      | some p =>
          by_cases hfour : 4 ≤ p
          · rw [writeBlock_marked hw hctx hlen hp hfour, Option.map_some, Option.map_some, hempty]
            rfl
          · rw [writeBlock_early hw hlen hp (by omega), Option.map_none, Option.map_none]

/-- The loop of `__extHttpPostData`, from a buffer that holds `x` on: a fold over
    the full blocks of what is in the buffer and what is left of the segment. -/
theorem postDataLoop_eq (bytes : List UInt8) (fuel copied : Nat) (s : Post ρ) (x : List UInt8)
    (hx : x.length < maxReqLength) (hcopied : copied ≤ bytes.length)
    (hfuel : bytes.length - copied < fuel) :
    postDataLoop hw bytes fuel copied (s.stash x)
      = ((blocks maxReqLength (x ++ bytes.drop copied)).foldlM (flushBlock hw) s).map
          fun s' => (true, s'.stash (leftover maxReqLength (x ++ bytes.drop copied))) := by
  induction fuel generalizing copied s x with
  | zero => omega
  | succ fuel ih =>
      unfold postDataLoop
      by_cases hdone : copied = bytes.length
      · -- nothing is left of the segment
        rw [if_pos hdone, hdone, List.drop_length, List.append_nil, blocks_of_lt hx,
          leftover_of_lt hx]
        rfl
      · have hidx : (s.stash x).conn.dataSendIndex = x.length := rfl
        rw [if_neg hdone, if_neg (by rw [hidx]; omega)]
        generalize hlen :
          min (bytes.length - copied) (maxReqLength - (s.stash x).conn.dataSendIndex) = len
        rw [hidx] at hlen
        generalize hpiece : (bytes.drop copied).take len = piece
        have hplen : piece.length = len := by
          rw [← hpiece, List.length_take, List.length_drop]
          omega
        have hrest : bytes.drop copied = piece ++ bytes.drop (copied + len) := by
          rw [← hpiece, ← List.drop_drop, List.take_append_drop]
        have hstash : ({ s.stash x with conn := { (s.stash x).conn with
            data := (s.stash x).conn.data.copy (s.stash x).conn.dataSendIndex piece
            dataSendIndex := (s.stash x).conn.dataSendIndex + len } } : Post ρ)
            = s.stash (x ++ piece) := by
          simp only [Post.stash, ReqBuf.copy_copy s.conn.data
            (show x.length + piece.length ≤ maxReqLength by omega), List.length_append, hplen]
        dsimp only
        rw [hpiece, hrest, ← List.append_assoc]
        by_cases hfull : (s.stash x).conn.dataSendIndex + len = maxReqLength
        · -- the buffer is full: its block is written, and the loop goes on with an empty one
          have hblock : (x ++ piece).length = maxReqLength := by
            rw [List.length_append, hplen]
            exact hfull
          rw [if_pos hfull, hstash, writeBlock_stash hw s hblock,
            blocks_block_append maxReqLength_pos hblock,
            leftover_block_append maxReqLength_pos hblock, List.foldlM_cons]
          cases flushBlock hw s (x ++ piece) with
          | none => rfl
          | some s' =>
              simp only [Option.map_some, Option.bind_some, if_true]
              rw [ih (copied + len) s' [] maxReqLength_pos (by omega) (by omega), List.nil_append]
              rfl
        · -- the segment is used up
          have hshort : (x ++ piece).length < maxReqLength := by
            rw [hidx] at hfull
            rw [List.length_append]
            omega
          rw [if_neg hfull, hstash, ih (copied + len) s (x ++ piece) hshort (by omega) (by omega)]

/-- `__extHttpPostData`: the full blocks of what waited and what arrived are
    written, and what is left over waits. -/
theorem extHttpPostData_eq (bytes : List UInt8) (s : Post ρ)
    (hidx : s.conn.dataSendIndex < maxReqLength) :
    extHttpPostData hw bytes s
      = ((blocks maxReqLength (s.conn.pending ++ bytes)).foldlM (flushBlock hw) s).map
          fun s' => (true, s'.stash (leftover maxReqLength (s.conn.pending ++ bytes))) := by
  have hloop := postDataLoop_eq hw bytes (bytes.length + 2) 0 s s.conn.pending
    (by rw [s.conn.length_pending hidx.le]; exact hidx) (Nat.zero_le _) (by omega)
  rw [s.stash_pending hidx.le, List.drop_zero] at hloop
  exact hloop

/-- The bytes handed to the upload context, in order. -/
def written : List Effect → List UInt8
  | [] => []
  | .wrote _ bytes :: past => written past ++ bytes
  | _ :: past => written past

/-- How often the upload context was closed. -/
def closes : List Effect → Nat
  | [] => 0
  | .closed _ :: past => closes past + 1
  | _ :: past => closes past

/-- One of the blocks holds the boundary. -/
def Marked (boundary : List UInt8) (bs : List (List UInt8)) : Prop :=
  ∃ b ∈ bs, boundary <:+: b

instance (boundary : List UInt8) (bs : List (List UInt8)) : Decidable (Marked boundary bs) :=
  inferInstanceAs (Decidable (∃ b ∈ bs, _))

theorem marked_cons (boundary b : List UInt8) (bs : List (List UInt8)) :
    Marked boundary (b :: bs) ↔ boundary <:+: b ∨ Marked boundary bs :=
  List.exists_mem_cons_iff _ b bs

theorem marked_append (boundary : List UInt8) (as bs : List (List UInt8)) :
    Marked boundary (as ++ bs) ↔ Marked boundary as ∨ Marked boundary bs := by
  simp only [Marked, List.mem_append, or_and_right, exists_or]

/-- An effect of writing a block. -/
def Stored (pcb : Nat) (e : Effect) : Prop := e = .found pcb ∨ ∃ bytes, e = .wrote pcb bytes

theorem closes_append_stored {pcb : Nat} {new : List Effect} (h : ∀ e ∈ new, Stored pcb e)
    (past : List Effect) : closes (new ++ past) = closes past := by
  induction new with
  | nil => rfl
  | cons e new ih =>
      have hrest := ih fun e' he' => h e' (List.mem_cons_of_mem e he')
      rcases h e List.mem_cons_self with rfl | ⟨bytes, rfl⟩
      · exact hrest
      · exact hrest

/-- What writing a list of blocks does: the connection keeps all but its buffer,
    its message and its status, and the boundary in one of the blocks ends the
    upload. -/
structure Flushed (bs : List (List UInt8)) (s s' : Post ρ) : Prop where
  pcb : s'.conn.pcb = s.conn.pcb
  boundary : s'.conn.boundary = s.conn.boundary
  uploadCtx : s'.conn.uploadCtx = s.conn.uploadCtx
  postDataLeft : s'.conn.postDataLeft = s.conn.postDataLeft
  uploadStatus : s'.conn.uploadStatus
    = if Marked s.conn.boundary bs then .ended else s.conn.uploadStatus
  fmType : s'.dev.fmType = s.dev.fmType
  history : ∃ new, s'.history = new ++ s.history ∧ (∀ e ∈ new, Stored s.conn.pcb e) ∧
    (.found s.conn.pcb ∈ new ↔ Marked s.conn.boundary bs)
  written : ¬ Marked s.conn.boundary bs → written s'.history = written s.history ++ bs.flatten

theorem flushed_nil (s : Post ρ) : Flushed [] s s where
  pcb := rfl
  boundary := rfl
  uploadCtx := rfl
  postDataLeft := rfl
  uploadStatus := (if_neg fun h => List.not_mem_nil h.choose_spec.1).symm
  fmType := rfl
  history := ⟨[], rfl, fun _ he => absurd he List.not_mem_nil,
    iff_of_false List.not_mem_nil fun h => List.not_mem_nil h.choose_spec.1⟩
  written := fun _ => (List.append_nil _).symm

theorem Flushed.append {as bs : List (List UInt8)} {s t u : Post ρ} (h : Flushed as s t)
    (h' : Flushed bs t u) : Flushed (as ++ bs) s u where
  pcb := h'.pcb.trans h.pcb
  boundary := h'.boundary.trans h.boundary
  uploadCtx := h'.uploadCtx.trans h.uploadCtx
  postDataLeft := h'.postDataLeft.trans h.postDataLeft
  uploadStatus := by
    have hu := h'.uploadStatus
    have ht := h.uploadStatus
    rw [h.boundary] at hu
    by_cases hb : Marked s.conn.boundary bs
    · rw [if_pos ((marked_append _ _ _).mpr (Or.inr hb)), hu, if_pos hb]
    · by_cases ha : Marked s.conn.boundary as
      · rw [if_pos ((marked_append _ _ _).mpr (Or.inl ha)), hu, if_neg hb, ht, if_pos ha]
      · rw [if_neg fun hab => ((marked_append _ _ _).mp hab).elim ha hb, hu, if_neg hb, ht,
          if_neg ha]
  fmType := h'.fmType.trans h.fmType
  history := by
    rcases h.history with ⟨new, hnew, hstored, hfound⟩
    rcases h'.history with ⟨new', hnew', hstored', hfound'⟩
    rw [h.pcb] at hstored'
    rw [h.pcb, h.boundary] at hfound'
    refine ⟨new' ++ new, by rw [hnew', hnew, List.append_assoc], fun e he => ?_, ?_⟩
    · rcases List.mem_append.mp he with he | he
      · exact hstored' e he
      · exact hstored e he
    · rw [List.mem_append, hfound, hfound', marked_append, or_comm]
  written := by
    intro hclean
    have ha : ¬ Marked s.conn.boundary as := fun ha =>
      hclean ((marked_append _ _ _).mpr (Or.inl ha))
    have hb : ¬ Marked t.conn.boundary bs := fun hb =>
      hclean ((marked_append _ _ _).mpr (Or.inr (by rw [← h.boundary]; exact hb)))
    rw [h'.written hb, h.written ha, List.flatten_append, List.append_assoc]

/-- One block. -/
theorem flushed_flushBlock {s s' : Post ρ} {block : List UInt8}
    (hlen : block.length = maxReqLength) (h : flushBlock hw s block = some s') :
    Flushed [block] s s' := by
  have hone : Marked s.conn.boundary [block] ↔ s.conn.boundary <:+: block := by
    rw [marked_cons]
    exact or_iff_left fun hm => List.not_mem_nil hm.choose_spec.1
  unfold flushBlock at h
  cases hctx : s.conn.uploadCtx with
  | false =>
      rw [writeBlock_null hw hctx] at h
      exact absurd h (Option.some_ne_none s').symm
  | true =>
      cases hp : memmem s.conn.boundary block with
      | none =>
          have hclean := (memmem_eq_none_iff _ _).mp hp
          have hnot : ¬ Marked s.conn.boundary [block] := fun hm => hclean (hone.mp hm)
          rw [writeBlock_clean hw hctx hlen hclean, Option.map_some, Option.some.injEq] at h
          subst h
          refine ⟨rfl, rfl, rfl, rfl, (if_neg hnot).symm, fmType_extUploadWrite hw block s.dev,
            ⟨[.wrote s.conn.pcb block], rfl, ?_, ?_⟩, fun _ => ?_⟩
          · intro e he
            exact Or.inr ⟨block, List.mem_singleton.mp he⟩
          · exact iff_of_false (by simp only [List.mem_singleton, reduceCtorEq, not_false_eq_true])
              hnot
          · rw [List.flatten_singleton]
            rfl
      | some p =>
          have hin : s.conn.boundary <:+: block := by
            by_contra hclean
            rw [(memmem_eq_none_iff _ _).mpr hclean] at hp
            exact Option.some_ne_none p hp.symm
          have hmarked : Marked s.conn.boundary [block] := hone.mpr hin
          by_cases hfour : 4 ≤ p
          · rw [writeBlock_marked hw hctx hlen hp hfour, Option.map_some, Option.some.injEq] at h
            subst h
            refine ⟨rfl, rfl, rfl, rfl, (if_pos hmarked).symm, fmType_extUploadWrite hw _ s.dev,
              ⟨[.wrote s.conn.pcb (block.take (p - 4)), .found s.conn.pcb], rfl, ?_, ?_⟩,
              fun hnot => absurd hmarked hnot⟩
            · intro e he
              rcases List.mem_cons.mp he with he | he
              · exact Or.inr ⟨_, he⟩
              · exact Or.inl (List.mem_singleton.mp he)
            · exact iff_of_true (List.mem_cons_of_mem _ (List.mem_singleton_self _)) hmarked
          · rw [writeBlock_early hw hlen hp (by omega)] at h
            exact absurd h (Option.some_ne_none s').symm

/-- What the fold over the blocks does. -/
theorem flushed_foldlM {s s' : Post ρ} {bs : List (List UInt8)}
    (hbs : ∀ b ∈ bs, b.length = maxReqLength) (h : bs.foldlM (flushBlock hw) s = some s') :
    Flushed bs s s' := by
  induction bs generalizing s with
  | nil =>
      rw [List.foldlM_nil] at h
      rw [← Option.some.inj h]
      exact flushed_nil s
  | cons b bs ih =>
      rw [List.foldlM_cons] at h
      rcases Option.bind_eq_some_iff.mp h with ⟨t, ht, hrest⟩
      have hfirst := flushed_flushBlock hw (hbs b List.mem_cons_self) ht
      exact hfirst.append (ih (fun b' hb' => hbs b' (List.mem_cons_of_mem b hb')) hrest)

/-- Blocks without the boundary are all written. -/
theorem exists_foldlM {s : Post ρ} {bs : List (List UInt8)} (hctx : s.conn.uploadCtx = true)
    (hbs : ∀ b ∈ bs, b.length = maxReqLength) (hclean : ¬ Marked s.conn.boundary bs) :
    ∃ s', bs.foldlM (flushBlock hw) s = some s' := by
  induction bs generalizing s with
  | nil => exact ⟨s, List.foldlM_nil⟩
  | cons b bs ih =>
      have hlen := hbs b List.mem_cons_self
      have hb : ¬ s.conn.boundary <:+: b := fun hin => hclean ((marked_cons _ _ _).mpr (Or.inl hin))
      have hfirst := writeBlock_clean hw hctx hlen hb
      rw [List.foldlM_cons]
      unfold flushBlock
      rw [hfirst]
      refine ih ?_ (fun b' hb' => hbs b' (List.mem_cons_of_mem b hb')) ?_
      · exact hctx
      · exact fun hm => hclean ((marked_cons _ _ _).mpr (Or.inr hm))

/-- What `__extHttpPostData` does: the full blocks of what waited and what
    arrived are written, and what is left over waits. -/
theorem flushed_extHttpPostData {bytes : List UInt8} {s : Post ρ} {r : Bool × Post ρ}
    (hidx : s.conn.dataSendIndex < maxReqLength) (h : extHttpPostData hw bytes s = some r) :
    r.1 = true ∧ Flushed (blocks maxReqLength (s.conn.pending ++ bytes)) s r.2 ∧
      r.2.conn.pending = leftover maxReqLength (s.conn.pending ++ bytes) ∧
      r.2.conn.dataSendIndex = (leftover maxReqLength (s.conn.pending ++ bytes)).length := by
  rw [extHttpPostData_eq hw bytes s hidx] at h
  rcases Option.map_eq_some_iff.mp h with ⟨t, ht, rfl⟩
  have hflushed := flushed_foldlM hw (fun b hb => length_of_mem_blocks hb) ht
  have hlt := length_leftover_lt maxReqLength_pos (s.conn.pending ++ bytes)
  exact ⟨rfl, ⟨hflushed.pcb, hflushed.boundary, hflushed.uploadCtx, hflushed.postDataLeft,
    hflushed.uploadStatus, hflushed.fmType, hflushed.history, hflushed.written⟩,
    t.pending_stash hlt.le, rfl⟩

/-- The upload is over, for good or bad: `extHttpPostDataFinished` does nothing
    any more. -/
def Conn.Handled (c : Conn) : Prop := c.uploadStatus = .error ∨ c.uploadStatus = .ended

/-- The upload is handled and its context was never closed. -/
def Spoiled (s : Post ρ) : Prop :=
  s.conn.Handled ∧ closes s.history = 0 ∧ s.conn.dataSendIndex < maxReqLength

theorem extHttpPostDataFinished_handled {s : Post ρ} (h : s.conn.Handled) :
    extHttpPostDataFinished hw s = some s :=
  if_pos h

theorem extHttpPostDataFinished_open {s : Post ρ} (h : ¬ s.conn.Handled) :
    extHttpPostDataFinished hw s
      = (ctxWrite hw (finishStatus s)).map fun w => closeUpload hw w.2 :=
  if_neg h

/-- The configuration is saved when an update is pending. -/
def savedEffects (d : Device ρ) : List Effect :=
  if d.fmType = .rtos ∨ d.fmType = .fpga then [.saved d.runCfg.firmUpdateInfo] else []

/-- What is written of the last buffer. -/
def beforeBoundary (boundary l : List UInt8) : List UInt8 :=
  match memmem boundary l with
  | some p => l.take (p - 4)
  | none => l

/-- What the end of the body does when nothing has ended the upload yet. -/
structure Finished (s s' : Post ρ) : Prop where
  pcb : s'.conn.pcb = s.conn.pcb
  postDataLeft : s'.conn.postDataLeft = s.conn.postDataLeft
  dataSendIndex : s'.conn.dataSendIndex ≤ s.conn.dataSendIndex
  uploadStatus : s'.conn.uploadStatus
    = if s.conn.boundary <:+: s.conn.pending then .ended else .error
  fmType : s'.dev.fmType = if s.conn.postDataLeft ≠ 0 then .none else s.dev.fmType
  history : ∃ bytes, s'.history = savedEffects s'.dev ++ .closed s.conn.pcb ::
    .wrote s.conn.pcb bytes :: (if s.conn.boundary <:+: s.conn.pending
      then .found s.conn.pcb :: s.history else s.history)
  written : written s'.history
    = written s.history ++ beforeBoundary s.conn.boundary s.conn.pending

theorem written_savedEffects (d : Device ρ) (past : List Effect) :
    written (savedEffects d ++ past) = written past := by
  unfold savedEffects
  split <;> rfl

theorem closes_savedEffects (d : Device ρ) (past : List Effect) :
    closes (savedEffects d ++ past) = closes past := by
  unfold savedEffects
  split <;> rfl

/-- The context is closed, and the configuration saved when an update is still
    pending. -/
theorem closeUpload_eq (s : Post ρ) :
    (closeUpload hw s).conn = { s.conn with uploadCtx := false } ∧
      (closeUpload hw s).dev.fmType = (if s.conn.postDataLeft ≠ 0 then .none else s.dev.fmType) ∧
      (closeUpload hw s).history
        = savedEffects (closeUpload hw s).dev ++ .closed s.conn.pcb :: s.history := by
  have hclose : ∀ t : Post ρ, (ctxClose hw t).dev.runCfg = t.dev.runCfg ∧
      (ctxClose hw t).history
        = savedEffects (ctxClose hw t).dev ++ .closed t.conn.pcb :: t.history := by
    intro t
    have hcfg : (ctxClose hw t).dev.runCfg = t.dev.runCfg := runCfg_firmwareUpdateEnd hw t.dev
    refine ⟨hcfg, ?_⟩
    have htype : (ctxClose hw t).dev.fmType = t.dev.fmType := by
      rw [Device.fmType, hcfg]
      rfl
    unfold savedEffects
    rw [htype, hcfg]
    by_cases hsaves : t.dev.fmType = .rtos ∨ t.dev.fmType = .fpga
    · rw [if_pos hsaves]
      unfold ctxClose
      dsimp only
      rw [if_pos ((firmwareUpdateEnd_saves hw t.dev).mpr hsaves)]
      rfl
    · rw [if_neg hsaves]
      unfold ctxClose
      dsimp only
      rw [if_neg fun h => hsaves ((firmwareUpdateEnd_saves hw t.dev).mp h)]
      rfl
  unfold closeUpload
  by_cases hleft : s.conn.postDataLeft ≠ 0
  · rw [if_pos hleft, if_pos hleft]
    rcases hclose { s with dev := s.dev.cancel } with ⟨hcfg, hhist⟩
    refine ⟨rfl, ?_, hhist⟩
    change (ctxClose hw { s with dev := s.dev.cancel }).dev.runCfg.firmUpdateInfo.type = .none
    rw [hcfg]
    rfl
  · rw [if_neg hleft, if_neg hleft]
    rcases hclose s with ⟨hcfg, hhist⟩
    refine ⟨rfl, ?_, hhist⟩
    change (ctxClose hw s).dev.runCfg.firmUpdateInfo.type = s.dev.runCfg.firmUpdateInfo.type
    rw [hcfg]

section Finish

variable {s s' : Post ρ}

theorem finishStatus_none (h : memmem s.conn.boundary s.conn.pending = none) :
    finishStatus s = { s with conn := { s.conn with
      uploadStatus := .error
      uri := .noBoundary (s.dev.runCfg.firmUpdateInfo.size + s.conn.dataSendIndex)
        s.conn.filename } } := by
  unfold finishStatus
  rw [findEndingBoundary_none h]
  rfl

theorem finishStatus_some {p : Nat} (h : memmem s.conn.boundary s.conn.pending = some p) :
    ∃ uri, finishStatus s = { s with
      conn := { s.conn with
        uploadStatus := .ended, uri := uri, dataSendIndex := (p + 65536 - 4) % 65536 }
      history := .found s.conn.pcb :: s.history } := by
  unfold finishStatus
  rw [findEndingBoundary_some h]
  exact ⟨_, rfl⟩

/-- The last write and the close behind it. -/
theorem writeClose_eq (hctx : s.conn.uploadCtx = true)
    (hidx : s.conn.dataSendIndex ≤ maxReqLength) :
    ∃ u, ((ctxWrite hw s).map fun w => closeUpload hw w.2) = some u ∧
      u.conn.pcb = s.conn.pcb ∧ u.conn.postDataLeft = s.conn.postDataLeft ∧
      u.conn.dataSendIndex = s.conn.dataSendIndex ∧
      u.conn.uploadStatus = s.conn.uploadStatus ∧
      u.dev.fmType = (if s.conn.postDataLeft ≠ 0 then .none else s.dev.fmType) ∧
      u.history = savedEffects u.dev ++ .closed s.conn.pcb ::
        .wrote s.conn.pcb s.conn.pending :: s.history := by
  rw [ctxWrite_eq hw hctx hidx, Option.map_some]
  generalize hw' : ({ s with
    conn := { s.conn with data := s.conn.data.copy 0 (List.replicate s.conn.dataSendIndex 0) }
    dev := (extUploadWrite hw s.conn.pending s.dev).2
    history := .wrote s.conn.pcb s.conn.pending :: s.history } : Post ρ) = t
  have htype : t.dev.fmType = s.dev.fmType := by
    rw [← hw']
    exact fmType_extUploadWrite hw _ s.dev
  rcases closeUpload_eq hw t with ⟨hconn, hfm, hhist⟩
  refine ⟨closeUpload hw t, rfl, ?_, ?_, ?_, ?_, ?_, ?_⟩
  · rw [hconn, ← hw']
  · rw [hconn, ← hw']
  · rw [hconn, ← hw']
  · rw [hconn, ← hw']
  · rw [hfm, htype, ← hw']
  · rw [hhist, ← hw']

theorem infix_of_memmem {b l : List UInt8} {p : Nat} (h : memmem b l = some p) : b <:+: l := by
  by_contra hnot
  rw [(memmem_eq_none_iff b l).mpr hnot] at h
  exact Option.some_ne_none p h.symm

/-- The end of a body whose boundary, if it is there, leaves room for the four
    bytes in front of it. -/
theorem exists_finished (hnot : ¬ s.conn.Handled) (hctx : s.conn.uploadCtx = true)
    (hidx : s.conn.dataSendIndex ≤ maxReqLength)
    (hfour : ∀ p, memmem s.conn.boundary s.conn.pending = some p → 4 ≤ p) :
    ∃ s', extHttpPostDataFinished hw s = some s' ∧ Finished s s' := by
  rw [extHttpPostDataFinished_open hw hnot]
  cases hp : memmem s.conn.boundary s.conn.pending with
  | none =>
      have hclean : ¬ s.conn.boundary <:+: s.conn.pending := (memmem_eq_none_iff _ _).mp hp
      rw [finishStatus_none hp]
      rcases writeClose_eq hw (s := { s with conn := { s.conn with
        uploadStatus := .error
        uri := .noBoundary (s.dev.runCfg.firmUpdateInfo.size + s.conn.dataSendIndex)
          s.conn.filename } }) hctx hidx with ⟨u, hu, hpcb, hleft, hsend, hstat, hfm, hhist⟩
      refine ⟨u, hu, hpcb, hleft, hsend.le, ?_, hfm, ⟨s.conn.pending, ?_⟩, ?_⟩
      · rw [hstat, if_neg hclean]
      · rw [hhist, if_neg hclean]
        rfl
      · rw [hhist, written_savedEffects, beforeBoundary, hp]
        rfl
  | some p =>
      have hin : s.conn.boundary <:+: s.conn.pending := infix_of_memmem hp
      have hend := memmem_add_length_le hp
      have hpos := hfour p hp
      rw [s.conn.length_pending hidx] at hend
      have hval : (p + 65536 - 4) % 65536 = p - 4 := by
        simp only [maxReqLength] at hidx
        omega
      rcases finishStatus_some hp with ⟨uri, hstatus⟩
      rw [hval] at hstatus
      rw [hstatus]
      rcases writeClose_eq hw (s := { s with
        conn := { s.conn with uploadStatus := .ended, uri := uri, dataSendIndex := p - 4 }
        history := .found s.conn.pcb :: s.history }) hctx
        (Nat.le_trans (by change p - 4 ≤ s.conn.dataSendIndex; omega) hidx)
        with ⟨u, hu, hpcb, hleft, hsend, hstat, hfm, hhist⟩
      -- what is written is the buffer up to four bytes before the boundary
      have hbytes : s.conn.data.bytes.take (p - 4) = s.conn.pending.take (p - 4) := by
        rw [Conn.pending, List.take_take, Nat.min_eq_left (by omega)]
      refine ⟨u, hu, hpcb, hleft, ?_, ?_, hfm, ⟨s.conn.pending.take (p - 4), ?_⟩, ?_⟩
      · rw [hsend]
        change p - 4 ≤ s.conn.dataSendIndex
        omega
      · rw [hstat, if_pos hin]
      · rw [hhist, if_pos hin, ← hbytes]
        rfl
      · rw [hhist, written_savedEffects, beforeBoundary, hp]
        dsimp only
        rw [← hbytes]
        rfl

/-- With the boundary in the first four bytes of the last buffer there is no
    length to write. -/
theorem finished_early {p : Nat} (hnot : ¬ s.conn.Handled)
    (hp : memmem s.conn.boundary s.conn.pending = some p) (hfour : p < 4) :
    extHttpPostDataFinished hw s = none := by
  rcases finishStatus_some hp with ⟨uri, hstatus⟩
  have hidx : ¬ (p + 65536 - 4) % 65536 ≤ maxReqLength := by
    simp only [maxReqLength]
    omega
  rw [extHttpPostDataFinished_open hw hnot, hstatus, ctxWrite, if_neg fun h => hidx h.2,
    Option.map_none]

/-- Without a context the last write has nowhere to go. -/
theorem finished_null (hnot : ¬ s.conn.Handled) (hctx : s.conn.uploadCtx = false) :
    extHttpPostDataFinished hw s = none := by
  have hnull : (finishStatus s).conn.uploadCtx = false := by
    cases hp : memmem s.conn.boundary s.conn.pending with
    | none =>
        rw [finishStatus_none hp]
        exact hctx
    | some p =>
        rcases finishStatus_some hp with ⟨uri, hstatus⟩
        rw [hstatus]
        exact hctx
  rw [extHttpPostDataFinished_open hw hnot, ctxWrite,
    if_neg fun h => absurd h.1 (by rw [hnull]; decide), Option.map_none]

/-- Whatever `extHttpPostDataFinished` returns from has been finished. -/
theorem finished_of_eq_some (hnot : ¬ s.conn.Handled)
    (hidx : s.conn.dataSendIndex ≤ maxReqLength) (h : extHttpPostDataFinished hw s = some s') :
    Finished s s' := by
  have hctx : s.conn.uploadCtx = true := by
    by_contra hctx
    rw [finished_null hw hnot (Bool.eq_false_iff.mpr hctx)] at h
    exact Option.some_ne_none s' h.symm
  have hfour : ∀ p, memmem s.conn.boundary s.conn.pending = some p → 4 ≤ p := by
    intro p hp
    by_contra hlt
    rw [finished_early hw hnot hp (by omega)] at h
    exact Option.some_ne_none s' h.symm
  rcases exists_finished hw hnot hctx hidx hfour with ⟨u, hu, hfin⟩
  rw [h, Option.some.injEq] at hu
  rw [hu]
  exact hfin

end Finish

end Http

end RtosLwip
