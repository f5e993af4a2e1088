import RtosLwip.Http.PartHeader

/-!
# Uploading a File

What the upload context receives of a file that is sent as the one part of a
multipart body, for every way the body is cut into segments.

The receiver keeps its promise only in part. It looks for the part header in
the first segment alone, and for the boundary in one buffer at a time. The file
arrives whole, and the upload is closed, exactly when the part header can be
read from the first segment and the delimiter behind the file lies in the last,
partial buffer; the boundary must also not be made of dashes alone.
`upload_storesFile_iff` is this statement, `Receivable` the condition.

The proof follows the bytes behind the part header. While no block of them
holds the boundary, the state is the one `Collecting` describes. A block that
holds the boundary spoils the upload: its status ends, and
`extHttpPostDataFinished` will not close the context any more.

## Main definitions

* `Segments`: A way to cut a body into segments.
* `upload`: A body is received, and the connection closed.
* `StoresFile`: Exactly the file was written, and the context closed once.
* `Collecting`: So much of the content has arrived, without the boundary.
* `Receivable`: The condition.

## Theorems

* `spoiled_recvRest`: A spoiled upload stays spoiled.
* `final_recvRest`: How the segments behind the part header end.
* `upload_storesFile_iff`: Exactly the receivable uploads store their file.
-/

namespace RtosLwip

namespace Http

open Flash

variable {m : Multipart}

/-- A way to cut a body into segments: what the segments of the request hold
    behind the request header, which may be nothing, and the segments that
    follow. `short` says that the segments of the request have no more bytes and
    pbufs than `extHttpRequestParse` waits with, `MHTTPD_REQ_BUFSIZE` and
    `MHTTPD_REQ_QUEUELEN`. -/
structure Segments (body : List UInt8) where
  first : Pbuf
  short : Bool
  rest : List Pbuf
  rest_ne : ∀ p ∈ rest, p.flatten ≠ []
  flatten_eq : first.flatten ++ (rest.map List.flatten).flatten = body

variable {ρ : Type} (hw : UploadHw)

/-- The segments that follow the request, as `__mhttpRecv` hands them on. -/
def recvRest (rest : List Pbuf) (s : Post ρ) : Option (Post ρ) :=
  rest.foldlM (fun s p => (extHttpPostRxDataPbuf hw p s).map Prod.snd) s

/-- A body is received, and the connection closed. A failure with the request
    closes the connection at once, unless the request was short: then it is taken
    for one that is "not fully received", and the body goes on. -/
def upload (m : Multipart) (cut : Segments m.body) (c : Conn) (dev : Device ρ) :
    Option (Post ρ) :=
  (extHttpPostRequest hw m.body.length cut.first ⟨c, dev, []⟩).bind fun r =>
    (if r.1 || cut.short then recvRest hw cut.rest r.2 else some r.2).bind (mhttpConnClose hw)

/-- The bytes written are exactly those of the file, and the context was closed
    exactly once. -/
def StoresFile (file : List UInt8) (r : Option (Post ρ)) : Prop :=
  ∃ s, r = some s ∧ written s.history = file ∧ closes s.history = 1

theorem mhttpConnClose_handled {s : Post ρ} (h : s.conn.Handled) :
    mhttpConnClose hw s = some s := by
  unfold mhttpConnClose
  split
  · exact extHttpPostDataFinished_handled hw h
  · rfl

/-- A spoiled upload has stored nothing that counts. -/
theorem not_storesFile_of_spoiled {file : List UInt8} {r : Option (Post ρ)}
    (h : ∀ s, r = some s → Spoiled s) : ¬ StoresFile file (r.bind (mhttpConnClose hw)) := by
  rintro ⟨s, hs, -, hcloses⟩
  rcases Option.bind_eq_some_iff.mp hs with ⟨t, ht, hclose⟩
  have hspoiled := h t ht
  rw [mhttpConnClose_handled hw hspoiled.1, Option.some.injEq] at hclose
  rw [← hclose, hspoiled.2.1] at hcloses
  exact absurd hcloses (by decide)

theorem spoiled_extHttpPostData {s : Post ρ} {bytes : List UInt8} {r : Bool × Post ρ}
    (hs : Spoiled s) (h : extHttpPostData hw bytes s = some r) : r.1 = true ∧ Spoiled r.2 := by
  rcases hs with ⟨hhandled, hcloses, hidx⟩
  rcases flushed_extHttpPostData hw hidx h with ⟨hok, hflushed, -, hsend⟩
  rcases hflushed.history with ⟨new, hnew, hstored, -⟩
  refine ⟨hok, ?_, ?_, ?_⟩
  · -- the status stays, or a boundary in a block ends it once more
    unfold Conn.Handled at hhandled ⊢
    rw [hflushed.uploadStatus]
    split
    · exact Or.inr rfl
    · exact hhandled
  · rw [hnew, closes_append_stored hstored, hcloses]
  · rw [hsend]
    exact length_leftover_lt maxReqLength_pos _

/-- A handled upload stays as it is at the end of the body. -/
theorem postRxResult_handled {r : Bool × Post ρ} (hok : r.1 = true) (h : r.2.conn.Handled) :
    postRxResult hw r = some (true, r.2) := by
  unfold postRxResult
  rw [if_neg (by rw [hok]; decide)]
  split
  · rw [extHttpPostDataFinished_handled hw h]
    rfl
  · rfl

/-- Once spoiled, an upload stays spoiled. -/
theorem spoiled_recv {s : Post ρ} {p : Pbuf} {r : Bool × Post ρ} (hs : Spoiled s)
    (h : extHttpPostRxDataPbuf hw p s = some r) : Spoiled r.2 := by
  have hinit : s.conn.uploadStatus ≠ .init := by
    intro hinit
    rcases hs.1 with he | he
    · exact absurd (hinit.symm.trans he) (by decide)
    · exact absurd (hinit.symm.trans he) (by decide)
  unfold extHttpPostRxDataPbuf extHttpPostDataRecv at h
  rw [if_neg (show (countReceived p s).conn.uploadStatus ≠ .init from hinit)] at h
  rcases Option.bind_eq_some_iff.mp h with ⟨q, hq, hr⟩
  rcases spoiled_extHttpPostData hw (s := countReceived p s) hs hq with ⟨hok, hspoiled⟩
  rw [postRxResult_handled hw hok hspoiled.1, Option.some.injEq] at hr
  rw [← hr]
  exact hspoiled

theorem spoiled_recvRest {s s' : Post ρ} {rest : List Pbuf} (hs : Spoiled s)
    (h : recvRest hw rest s = some s') : Spoiled s' := by
  unfold recvRest at h
  induction rest generalizing s with
  | nil =>
      rw [List.foldlM_nil] at h
      rw [← Option.some.inj h]
      exact hs
  | cons p rest ih =>
      rw [List.foldlM_cons] at h
      rcases Option.bind_eq_some_iff.mp h with ⟨t, ht, hrest⟩
      rcases Option.map_eq_some_iff.mp ht with ⟨r, hr, rfl⟩
      exact ih (spoiled_recv hw hs hr) hrest

/-- The part header is behind, `x` of the content has arrived, and no block of
    it holds the boundary. -/
structure Collecting (m : Multipart) (x : List UInt8) (s : Post ρ) : Prop where
  boundary : s.conn.boundary = m.boundary
  uploadStatus : s.conn.uploadStatus = .copy
  uploadCtx : s.conn.uploadCtx = true
  pending : s.conn.pending = leftover maxReqLength x
  dataSendIndex : s.conn.dataSendIndex = (leftover maxReqLength x).length
  written : written s.history = (blocks maxReqLength x).flatten
  closes : closes s.history = 0
  clean : ¬ Marked m.boundary (blocks maxReqLength x)

theorem Collecting.index_lt {x : List UInt8} {s : Post ρ} (h : Collecting m x s) :
    s.conn.dataSendIndex < maxReqLength := by
  rw [h.dataSendIndex]
  exact length_leftover_lt maxReqLength_pos x

/-- More of the content, without the boundary in a block. -/
theorem collecting_extHttpPostData {x y : List UInt8} {s : Post ρ} (h : Collecting m x s)
    (hclean : ¬ Marked m.boundary (blocks maxReqLength (x ++ y))) :
    ∃ s', extHttpPostData hw y s = some (true, s') ∧ Collecting m (x ++ y) s' ∧
      s'.conn.postDataLeft = s.conn.postDataLeft := by
  have hblocks := blocks_append maxReqLength_pos x y
  have hleft : leftover maxReqLength (s.conn.pending ++ y) = leftover maxReqLength (x ++ y) := by
    rw [h.pending, ← leftover_append maxReqLength_pos]
  have hnew : ¬ Marked s.conn.boundary (blocks maxReqLength (s.conn.pending ++ y)) := by
    rw [h.boundary, h.pending]
    intro hm
    rw [hblocks, marked_append] at hclean
    exact hclean (Or.inr hm)
  rcases exists_foldlM hw h.uploadCtx (fun b hb => length_of_mem_blocks hb) hnew with ⟨t, ht⟩
  have hsome := extHttpPostData_eq hw y s h.index_lt
  rw [ht, Option.map_some] at hsome
  rcases flushed_extHttpPostData hw h.index_lt hsome with ⟨-, hflushed, hpend, hsend⟩
  rcases hflushed.history with ⟨new, hhist, hstored, -⟩
  refine ⟨_, hsome, ⟨hflushed.boundary.trans h.boundary, ?_, hflushed.uploadCtx.trans h.uploadCtx,
    hpend.trans hleft, hsend.trans (congrArg List.length hleft), ?_, ?_, hclean⟩,
    hflushed.postDataLeft⟩
  · rw [hflushed.uploadStatus, if_neg hnew]
    exact h.uploadStatus
  · rw [hflushed.written hnew, h.written, hblocks, List.flatten_append, h.pending]
  · rw [hhist, closes_append_stored hstored, h.closes]

/-- More of the content, with the boundary in a block. -/
theorem spoiled_of_marked {x y : List UInt8} {s : Post ρ} {r : Bool × Post ρ}
    (h : Collecting m x s) (hmarked : Marked m.boundary (blocks maxReqLength (x ++ y)))
    (hr : extHttpPostData hw y s = some r) : r.1 = true ∧ Spoiled r.2 := by
  have hnew : Marked s.conn.boundary (blocks maxReqLength (s.conn.pending ++ y)) := by
    rw [h.boundary, h.pending]
    rw [blocks_append maxReqLength_pos, marked_append] at hmarked
    exact hmarked.resolve_left h.clean
  rcases flushed_extHttpPostData hw h.index_lt hr with ⟨hok, hflushed, -, hsend⟩
  rcases hflushed.history with ⟨new, hhist, hstored, -⟩
  refine ⟨hok, Or.inr ?_, ?_, ?_⟩
  · rw [hflushed.uploadStatus, if_pos hnew]
  · rw [hhist, closes_append_stored hstored, h.closes]
  · rw [hsend]
    exact length_leftover_lt maxReqLength_pos _

/-- How an upload ends whose blocks do not hold the boundary. -/
def Ends (m : Multipart) (r : Option (Post ρ)) : Prop :=
  (∃ p, memmem m.boundary (leftover maxReqLength m.content) = some p ∧ p < 4 ∧ r = none) ∨
    (∀ p, memmem m.boundary (leftover maxReqLength m.content) = some p → 4 ≤ p) ∧
      ∃ s, r = some s ∧ s.conn.Handled ∧ closes s.history = 1 ∧
        written s.history = (blocks maxReqLength m.content).flatten
          ++ beforeBoundary m.boundary (leftover maxReqLength m.content)

/-- The end of the content. -/
theorem ends_finished {s : Post ρ} (h : Collecting m m.content s) :
    Ends m (extHttpPostDataFinished hw s) := by
  have hnot : ¬ s.conn.Handled := by
    unfold Conn.Handled
    rw [h.uploadStatus]
    decide
  have hmem : memmem s.conn.boundary s.conn.pending
      = memmem m.boundary (leftover maxReqLength m.content) := by
    rw [h.boundary, h.pending]
  by_cases hearly : ∃ p, memmem m.boundary (leftover maxReqLength m.content) = some p ∧ p < 4
  · rcases hearly with ⟨p, hp, hlt⟩
    exact Or.inl ⟨p, hp, hlt, finished_early hw hnot (hmem.trans hp) hlt⟩
  · have hfour : ∀ p, memmem m.boundary (leftover maxReqLength m.content) = some p → 4 ≤ p := by
      intro p hp
      by_contra hlt
      exact hearly ⟨p, hp, by omega⟩
    rcases exists_finished hw hnot h.uploadCtx h.index_lt.le
      (fun p hp => hfour p (hmem.symm.trans hp)) with ⟨s', hs', hfin⟩
    refine Or.inr ⟨hfour, s', hs', ?_, ?_, ?_⟩
    · unfold Conn.Handled
      rw [hfin.uploadStatus]
      split
      · exact Or.inr rfl
      · exact Or.inl rfl
    · rcases hfin.history with ⟨bytes, hhist⟩
      rw [hhist, closes_savedEffects]
      split
      · exact congrArg (· + 1) h.closes
      · exact congrArg (· + 1) h.closes
    · rw [hfin.written, h.boundary, h.written, h.pending]

/-- One segment of the content that is not its last. -/
theorem collecting_step {x y : List UInt8} {s : Post ρ} (h : Collecting m x s)
    (hleft : s.conn.postDataLeft ≠ 0)
    (hclean : ¬ Marked m.boundary (blocks maxReqLength (x ++ y))) :
    ∃ s', (extHttpPostData hw y s).bind (postRxResult hw) = some (true, s') ∧
      Collecting m (x ++ y) s' ∧ s'.conn.postDataLeft = s.conn.postDataLeft := by
  rcases collecting_extHttpPostData hw h hclean with ⟨s', hs', hcol, hpdl⟩
  refine ⟨s', ?_, hcol, hpdl⟩
  rw [hs', Option.bind_some, postRxResult, if_neg (Bool.noConfusion : ¬ true = false),
    if_neg (by rw [hpdl]; exact hleft)]

/-- The last segment of the content. -/
theorem ends_step {x y : List UInt8} {s : Post ρ} (h : Collecting m x s)
    (hleft : s.conn.postDataLeft = 0) (hall : x ++ y = m.content)
    (hclean : ¬ Marked m.boundary (blocks maxReqLength m.content)) :
    Ends m (((extHttpPostData hw y s).bind (postRxResult hw)).map Prod.snd) := by
  rcases collecting_extHttpPostData hw h (by rw [hall]; exact hclean) with ⟨s', hs', hcol, hpdl⟩
  rw [hall] at hcol
  rw [hs', Option.bind_some, postRxResult, if_neg (Bool.noConfusion : ¬ true = false),
    if_pos (hpdl.trans hleft), Option.map_map]
  have hid : (Prod.snd ∘ fun s : Post ρ => (true, s)) = id := rfl
  rw [hid, Option.map_id_fun, id]
  exact ends_finished hw hcol

/-- How an upload ends from the part header on. -/
def Final (m : Multipart) (r : Option (Post ρ)) : Prop :=
  if Marked m.boundary (blocks maxReqLength m.content) then ∀ s, r = some s → Spoiled s
  else Ends m r

/-- A segment of the content, and the segments behind it, when those behind it
    are known to end well. -/
theorem final_bind {x y z : List UInt8} {rest : List Pbuf} {s : Post ρ} (h : Collecting m x s)
    (hall : x ++ y ++ z = m.content) (hz : (rest.map List.flatten).flatten = z)
    (hne : ∀ p ∈ rest, p.flatten ≠ []) (hleft : s.conn.postDataLeft = z.length)
    (hrest : z ≠ [] → ∀ s' : Post ρ, Collecting m (x ++ y) s' →
      s'.conn.postDataLeft = z.length → Final m (recvRest hw rest s')) :
    Final m ((((extHttpPostData hw y s).bind (postRxResult hw)).map Prod.snd).bind
      (recvRest hw rest)) := by
  by_cases hmarked : Marked m.boundary (blocks maxReqLength (x ++ y))
  · -- this segment spoils the upload, and nothing mends it
    have hcontent : Marked m.boundary (blocks maxReqLength m.content) := by
      rw [← hall, blocks_append maxReqLength_pos, marked_append]
      exact Or.inl hmarked
    unfold Final
    rw [if_pos hcontent]
    intro s' hs'
    rcases Option.bind_eq_some_iff.mp hs' with ⟨t, ht, hrecv⟩
    rcases Option.map_eq_some_iff.mp ht with ⟨r, hr, rfl⟩
    rcases Option.bind_eq_some_iff.mp hr with ⟨q, hq, hres⟩
    rcases spoiled_of_marked hw h hmarked hq with ⟨hok, hspoiled⟩
    rw [postRxResult_handled hw hok hspoiled.1, Option.some.injEq] at hres
    rw [← hres] at hrecv
    exact spoiled_recvRest hw hspoiled hrecv
  · by_cases hlast : z = []
    · -- the last segment: there is nothing behind it
      have hnil : rest = [] := by
        cases rest with
        | nil => rfl
        | cons p rest =>
            rw [hlast, List.map_cons, List.flatten_cons, List.append_eq_nil_iff] at hz
            exact absurd hz.1 (hne p List.mem_cons_self)
      rw [hlast, List.append_nil] at hall
      rw [hlast] at hleft
      rw [hall] at hmarked
      have hends := ends_step hw h hleft hall hmarked
      unfold Final
      rw [if_neg hmarked, hnil]
      have hdone : recvRest hw [] = (some : Post ρ → Option (Post ρ)) := rfl
      rw [hdone, Option.bind_fun_some]
      exact hends
    · have hne0 : s.conn.postDataLeft ≠ 0 := by
        rw [hleft]
        exact (List.length_pos_iff.mpr hlast).ne'
      rcases collecting_step hw h hne0 hmarked with ⟨s', hs', hcol, hpdl⟩
      rw [hs']
      exact hrest hlast s' hcol (hpdl.trans hleft)

/-- The segments behind the part header. -/
theorem final_recvRest {rest : List Pbuf} {x : List UInt8} {s : Post ρ} (h : Collecting m x s)
    (hall : x ++ (rest.map List.flatten).flatten = m.content)
    (hmore : (rest.map List.flatten).flatten ≠ []) (hne : ∀ p ∈ rest, p.flatten ≠ [])
    (hleft : s.conn.postDataLeft = (rest.map List.flatten).flatten.length) :
    Final m (recvRest hw rest s) := by
  induction rest generalizing x s with
  | nil => exact absurd rfl hmore
  | cons p rest ih =>
      rw [List.map_cons, List.flatten_cons] at hall hleft
      have hne' : ∀ q ∈ rest, q.flatten ≠ [] := fun q hq => hne q (List.mem_cons_of_mem p hq)
      -- the state in which the segment is looked at
      have hcol : Collecting m x (countReceived p s) :=
        ⟨h.boundary, h.uploadStatus, h.uploadCtx, h.pending, h.dataSendIndex, h.written, h.closes,
          h.clean⟩
      have hinit : s.conn.uploadStatus ≠ .init := by
        rw [h.uploadStatus]
        decide
      have hfinal := final_bind hw hcol (y := p.flatten) (z := (rest.map List.flatten).flatten)
        (by rw [List.append_assoc]; exact hall) rfl hne'
        (by
          change s.conn.postDataLeft - p.flatten.length = _
          rw [hleft, List.length_append, Nat.add_sub_cancel_left])
        (fun hmore' s' hs' hpdl => ih hs' (by rw [List.append_assoc]; exact hall) hmore' hne' hpdl)
      unfold recvRest
      rw [List.foldlM_cons]
      unfold extHttpPostRxDataPbuf extHttpPostDataRecv
      rw [if_neg (show (countReceived p s).conn.uploadStatus ≠ .init from hinit)]
      exact hfinal

/-! ### Whole uploads -/

/-- The first bytes of the body that arrive. -/
def Segments.head {body : List UInt8} (cut : Segments body) : List UInt8 :=
  if cut.first.flatten ≠ [] then cut.first.flatten else
    match cut.rest with
    | [] => []
    | p :: _ => p.flatten

/-- The uploads that are received as they were sent: the part header comes with
    the first segment, and the delimiter behind the file with the last, partial
    buffer. -/
structure Receivable (m : Multipart) (cut : Segments m.body) : Prop where
  header : ReadsHeader m cut.head
  aligned : m.tail.length ≤ m.content.length % maxReqLength
  boundary : ∃ c ∈ m.boundary, c ≠ dash

/-- The connection when the first bytes of the body arrive. -/
structure Fresh (m : Multipart) (s : Post ρ) : Prop where
  boundary : s.conn.boundary = m.boundary
  uploadStatus : s.conn.uploadStatus = .init
  uploadCtx : s.conn.uploadCtx = true
  dataSendIndex : s.conn.dataSendIndex = 0
  postDataLeft : s.conn.postDataLeft = m.body.length
  written : written s.history = []
  closes : closes s.history = 0

/-- Success is passed on. -/
theorem postRxResult_ok {q r : Bool × Post ρ} (hok : q.1 = true)
    (h : postRxResult hw q = some r) : r.1 = true := by
  unfold postRxResult at h
  rw [if_neg (by rw [hok]; decide)] at h
  split at h
  · rcases Option.map_eq_some_iff.mp h with ⟨s, -, rfl⟩
    rfl
  · rw [← Option.some.inj h]

/-- The first segment is the one with the part header. -/
theorem recv_first {s : Post ρ} {p : Pbuf} {rest : List Pbuf} (hs : Fresh m s)
    (hbody : p.flatten ++ (rest.map List.flatten).flatten = m.body)
    (hne : ∀ q ∈ rest, q.flatten ≠ []) (hread : ReadsHeader m p.flatten) :
    Final m (((extHttpPostRxDataPbuf hw p s).map Prod.snd).bind (recvRest hw rest)) ∧
      ∀ r, extHttpPostRxDataPbuf hw p s = some r → r.1 = true := by
  generalize hz : (rest.map List.flatten).flatten = z at hbody
  rcases recvPartHeader_whole hw (s := countReceived p s) hbody hread with
    ⟨s', hrecv, hbound, hstatus, hctx, hidx, hpdl, hhist⟩
  have hrx : extHttpPostRxDataPbuf hw p s
      = (extHttpPostData hw (p.flatten.drop m.header.length) s').bind (postRxResult hw) := by
    unfold extHttpPostRxDataPbuf extHttpPostDataRecv
    rw [if_pos (show (countReceived p s).conn.uploadStatus = .init from hs.uploadStatus), hrecv,
      Option.bind_some]
  -- behind the part header stands the content
  have hcontent : p.flatten.drop m.header.length ++ z = m.content := by
    have hdrop := congrArg (List.drop m.header.length) hbody
    rw [List.drop_append_of_le_length hread.whole.le, Multipart.body, List.drop_left] at hdrop
    exact hdrop
  have hleft : s'.conn.postDataLeft = z.length := by
    have hl := congrArg List.length hbody
    rw [List.length_append] at hl
    rw [hpdl]
    change s.conn.postDataLeft - p.flatten.length = z.length
    rw [hs.postDataLeft]
    omega
  have hnone : leftover maxReqLength ([] : List UInt8) = [] := leftover_of_lt maxReqLength_pos
  have hnil : blocks maxReqLength ([] : List UInt8) = [] := blocks_of_lt maxReqLength_pos
  have hcol : Collecting m [] s' := by
    refine ⟨hbound.trans hs.boundary, hstatus, hctx.trans hs.uploadCtx, ?_, ?_, ?_, ?_, ?_⟩
    · rw [Conn.pending, hidx, List.take_zero, hnone]
    · rw [hnone]
      exact hidx
    · rw [hhist, hnil]
      exact hs.written
    · rw [hhist]
      exact hs.closes
    · rw [hnil]
      rintro ⟨b, hb, -⟩
      exact List.not_mem_nil hb
  rw [hrx]
  constructor
  · refine final_bind hw hcol (z := z) (by rw [List.nil_append]; exact hcontent) hz hne hleft ?_
    intro hmore s'' hcol'' hpdl''
    exact final_recvRest hw hcol'' (by rw [hz]; exact hcontent) (by rw [hz]; exact hmore) hne
      (by rw [hz]; exact hpdl'')
  · intro r hr
    rcases Option.bind_eq_some_iff.mp hr with ⟨q, hq, hres⟩
    exact postRxResult_ok hw (flushed_extHttpPostData hw hcol.index_lt hq).1 hres

/-- The first segment is not one to read the part header from. -/
theorem spoiled_first {s : Post ρ} {p : Pbuf} {z : List UInt8} {r : Bool × Post ρ}
    (hs : Fresh m s) (hbody : p.flatten ++ z = m.body) (hread : ¬ ReadsHeader m p.flatten)
    (hr : extHttpPostRxDataPbuf hw p s = some r) : Spoiled r.2 := by
  unfold extHttpPostRxDataPbuf extHttpPostDataRecv at hr
  rw [if_pos (show (countReceived p s).conn.uploadStatus = .init from hs.uploadStatus)] at hr
  rcases Option.bind_eq_some_iff.mp hr with ⟨q, hq, hres⟩
  rcases Option.bind_eq_some_iff.mp hq with ⟨t, ht, hret⟩
  have hidx : s.conn.dataSendIndex < maxReqLength := by
    rw [hs.dataSendIndex]
    exact maxReqLength_pos
  rcases recvPartHeader_split hw (s := countReceived p s) hbody hread hidx hs.closes ht with
    ⟨ret, hinl, hspoiled⟩
  rw [hinl] at hret
  rw [← Option.some.inj hret] at hres
  cases ret with
  | true =>
      rw [postRxResult_handled hw rfl hspoiled.1] at hres
      rw [← Option.some.inj hres]
      exact hspoiled
  | false =>
      rw [← Option.some.inj hres]
      exact hspoiled

/-- An upload that ends so stores the file exactly when its blocks do. -/
theorem storesFile_of_final {r : Option (Post ρ)} (h : Final m r) :
    StoresFile m.file (r.bind (mhttpConnClose hw)) ↔ StoredContent m := by
  unfold Final at h
  by_cases hmarked : Marked m.boundary (blocks maxReqLength m.content)
  · rw [if_pos hmarked] at h
    exact iff_of_false (not_storesFile_of_spoiled hw h) fun hstored => hstored.1 hmarked
  · rw [if_neg hmarked] at h
    rcases h with ⟨p, hp, hlt, hnone⟩ | ⟨hfour, s, hs, hhandled, hcloses, hwritten⟩
    · refine iff_of_false ?_ ?_
      · rintro ⟨s, hs, -⟩
        rw [hnone] at hs
        exact Option.some_ne_none s hs.symm
      · rintro ⟨-, q, hq, hle, -⟩
        rw [hp, Option.some.injEq] at hq
        omega
    · have hclose : r.bind (mhttpConnClose hw) = some s := by
        rw [hs, Option.bind_some, mhttpConnClose_handled hw hhandled]
      have hiff : StoresFile m.file (r.bind (mhttpConnClose hw)) ↔ written s.history = m.file := by
        rw [hclose]
        constructor
        · rintro ⟨t, ht, hfile, -⟩
          rw [Option.some.inj ht]
          exact hfile
        · exact fun hfile => ⟨s, rfl, hfile, hcloses⟩
      rw [hiff, hwritten]
      unfold beforeBoundary StoredContent
      cases hp : memmem m.boundary (leftover maxReqLength m.content) with
      | none =>
          -- without the boundary everything is written, the delimiter too
          refine iff_of_false ?_ ?_
          · intro hfile
            have hl := congrArg List.length hfile
            rw [flatten_blocks maxReqLength_pos, m.length_content, m.length_tail] at hl
            omega
          · rintro ⟨-, q, hq, -⟩
            exact Option.some_ne_none q hq.symm
      | some p =>
          constructor
          · exact fun hfile => ⟨hmarked, p, rfl, hfour p hp, hfile⟩
          · rintro ⟨-, q, hq, -, hfile⟩
            rw [Option.some.inj hq]
            exact hfile

/-- For every file, every part header and every way to cut the body into
    segments, whatever the hardware does and whatever the request buffer held:
    exactly the file is written and the context closed exactly once if and only
    if the part header comes with the first segment and the delimiter behind the
    file with the last, partial buffer. -/
theorem upload_storesFile_iff (m : Multipart) (cut : Segments m.body) (pcb : Nat) (page : Page)
    (data : ReqBuf) (dev : Device ρ) :
    StoresFile m.file (upload hw m cut (newConn pcb page m.boundary data) dev) ↔
      Receivable m cut := by
  have hpos : m.body.length ≠ 0 := by
    rw [Multipart.body, List.length_append, m.length_content, m.length_tail]
    omega
  generalize hs : announceContent m.body.length
    ⟨newConn pcb page m.boundary data, dev, []⟩ = s
  have hfresh : Fresh m s := by
    rw [← hs]
    exact ⟨rfl, rfl, rfl, rfl, rfl, rfl, rfl⟩
  -- If the part header comes with the first segment, what is stored decides.
  have hgood : ∀ r : Option (Post ρ), ReadsHeader m cut.head → Final m r →
      (StoresFile m.file (r.bind (mhttpConnClose hw)) ↔ Receivable m cut) := by
    intro r hread hfinal
    rw [storesFile_of_final hw hfinal, storedContent_iff]
    exact ⟨fun h => ⟨hread, h.1, h.2⟩, fun h => ⟨h.aligned, h.boundary⟩⟩
  unfold upload extHttpPostRequest
  rw [hs]
  by_cases hfirst : cut.first.flatten ≠ []
  · -- the first bytes come with the request
    have hhead : cut.head = cut.first.flatten := if_pos hfirst
    rw [if_pos hfirst]
    by_cases hread : ReadsHeader m cut.head
    · rw [hhead] at hread
      rcases recv_first hw hfresh cut.flatten_eq cut.rest_ne hread with ⟨hfinal, hok⟩
      -- The first segment succeeds, so the connection goes on with the others.
      have hsame : (extHttpPostRxDataPbuf hw cut.first s).bind
          (fun r => if r.1 || cut.short then recvRest hw cut.rest r.2 else some r.2)
          = ((extHttpPostRxDataPbuf hw cut.first s).map Prod.snd).bind (recvRest hw cut.rest) := by
        cases hrx : extHttpPostRxDataPbuf hw cut.first s with
        | none => rfl
        | some r =>
            rw [Option.bind_some, if_pos (by rw [hok r hrx, Bool.true_or])]
            rfl
      rw [← Option.bind_assoc, hsame]
      exact hgood _ (by rw [hhead]; exact hread) hfinal
    · -- without its part header the upload is spoiled for good
      refine iff_of_false ?_ fun h => hread h.header
      rw [hhead] at hread
      rw [← Option.bind_assoc]
      refine not_storesFile_of_spoiled hw fun t ht => ?_
      rcases Option.bind_eq_some_iff.mp ht with ⟨r, hr, hrest⟩
      have hspoiled := spoiled_first hw hfresh cut.flatten_eq hread hr
      split at hrest
      · exact spoiled_recvRest hw hspoiled hrest
      · rw [← Option.some.inj hrest]
        exact hspoiled
  · -- the request came without a byte of the body
    rw [if_neg hfirst, if_neg hpos, Option.bind_some, if_pos (Bool.true_or _)]
    have hbody := cut.flatten_eq
    rw [not_not.mp hfirst, List.nil_append] at hbody
    have hhead : cut.head = match cut.rest with | [] => [] | p :: _ => p.flatten := if_neg hfirst
    have hne := cut.rest_ne
    generalize cut.rest = rest at hbody hhead hne ⊢
    cases rest with
    | nil => exact absurd (congrArg List.length hbody).symm hpos
    | cons p rest =>
        rw [List.map_cons, List.flatten_cons] at hbody
        have hne' : ∀ q ∈ rest, q.flatten ≠ [] := fun q hq => hne q (List.mem_cons_of_mem p hq)
        have hcons : recvRest hw (p :: rest) s
            = ((extHttpPostRxDataPbuf hw p s).map Prod.snd).bind (recvRest hw rest) :=
          List.foldlM_cons
        rw [hcons]
        by_cases hread : ReadsHeader m cut.head
        · rw [hhead] at hread
          exact hgood _ (by rw [hhead]; exact hread) (recv_first hw hfresh hbody hne' hread).1
        · refine iff_of_false ?_ fun h => hread h.header
          rw [hhead] at hread
          refine not_storesFile_of_spoiled hw fun t ht => ?_
          rcases Option.bind_eq_some_iff.mp ht with ⟨u, hu, hrest⟩
          rcases Option.map_eq_some_iff.mp hu with ⟨r, hr, rfl⟩
          exact spoiled_recvRest hw (spoiled_first hw hfresh hbody hread hr) hrest

/-- A small body, with the part header
    `Content-Disposition: form-data; name="fileToUpload"; filename="f"` and a
    file of three bytes. -/
def smallBody : Multipart where
  boundary := [98]
  disposition := [67, 111, 110, 116, 101, 110, 116, 45, 68, 105, 115, 112, 111, 115, 105, 116,
    105, 111, 110, 58, 32, 102, 111, 114, 109, 45, 100, 97, 116, 97, 59, 32, 110, 97, 109, 101, 61,
    34, 102, 105, 108, 101, 84, 111, 85, 112, 108, 111, 97, 100, 34, 59, 32]
  filename := [102]
  headers := []
  file := [1, 2, 3]
  epilogue := crlf
  boundary_ne := by decide
  boundary_length := by decide
  boundary_text := by decide +kernel
  filename_ne := by decide
  filename_text := by decide
  header_text := by decide +kernel
  header_end := by decide +kernel
  file_clean := by decide

/-- Its delimiter line comes with the request, the rest in a segment of its own. -/
def smallCut : Segments smallBody.body where
  first := [smallBody.body.take 5]
  short := true
  rest := [[smallBody.body.drop 5]]
  rest_ne := by decide
  flatten_eq := by decide

theorem buffered_idle : Buffered ⟨0, 0, 0, 0, 0, 0, List.replicate bufLength 0, []⟩ :=
  ⟨List.length_replicate, Nat.zero_le _⟩

/-- A device with nothing pending. -/
def idleDevice : Device Unit :=
  ⟨⟨FmUpdate.zero, ()⟩, ⟨0, 0, 0, 0, 0, 0, List.replicate bufLength 0, []⟩, [], buffered_idle⟩

/-- Hardware on which everything succeeds. -/
def sound : UploadHw := ⟨fun _ => true, fun _ => true⟩

/-- With the part header behind the first segment, the upload is given up and
    the context never closed. -/
theorem upload_split_header :
    ¬ StoresFile smallBody.file (upload sound smallBody smallCut
      (newConn 0 .updateMcu smallBody.boundary ReqBuf.zero) idleDevice) := by
  rintro ⟨s, hs, -, hcloses⟩
  have hnever : (upload sound smallBody smallCut
      (newConn 0 .updateMcu smallBody.boundary ReqBuf.zero) idleDevice).map
      (fun s => closes s.history) = some 0 := by
    decide +kernel
  rw [hs, Option.map_some, hcloses] at hnever
  exact absurd hnever (by decide)

end Http

end RtosLwip
