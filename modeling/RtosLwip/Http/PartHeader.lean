import Mathlib.Data.List.TakeWhile
import RtosLwip.Http.Multipart

/-!
# The Part Header

What `extHttpPostDataRecv` makes of the first segment. It is copied into the
request buffer, as far as it fits, and the file name and the end of the part
header are looked for there.

The part header is read when the segment holds all of it, within the buffer,
and at least one byte more, and when the text that is taken for the file name
is not empty. Otherwise the upload is never opened, or it is opened and the end
of the part header is not found, which the source does not provide for.

## Main definitions

* `firstCopy`: The first segment in the request buffer.
* `ReadsHeader`: The part header can be read from the first bytes.

## Theorems

* `recvPartHeader_whole`: The part header is read.
* `recvPartHeader_split`: The part header is not read.
-/

namespace RtosLwip

namespace Http

open Flash

variable {m : Multipart} {ρ : Type} (hw : UploadHw)

/-- The part header is read from the first bytes that arrive. -/
structure ReadsHeader (m : Multipart) (first : List UInt8) : Prop where
  fits : m.header.length ≤ maxReqLength
  whole : m.header.length < first.length
  filename : ∀ q, memmem uploadFormFilename m.header = some q → m.header[q + 10]? ≠ some quote

/-- Hiding bytes of a chain that has more of them. -/
theorem exists_hideHeader {off : Nat} {p : Pbuf} (h : off < p.flatten.length) :
    ∃ q, hideHeader off p = some q ∧ q.flatten = p.flatten.drop off := by
  induction p generalizing off with
  | nil => exact absurd h (Nat.not_lt_zero off)
  | cons b p ih =>
      rw [List.flatten_cons, List.length_append] at h
      unfold hideHeader
      by_cases hle : b.length ≤ off
      · rw [if_pos hle]
        have hlt : off - b.length < p.flatten.length := by omega
        rcases ih hlt with ⟨q, hq, hflat⟩
        refine ⟨q, hq, ?_⟩
        rw [hflat, List.flatten_cons, List.drop_append, List.drop_eq_nil_of_le hle,
          List.nil_append]
      · rw [if_neg hle]
        refine ⟨_, rfl, ?_⟩
        rw [List.flatten_cons, List.flatten_cons, List.drop_append_of_le_length (by omega)]

/-- Hiding all bytes of a chain leaves no pbuf to go on with. -/
theorem hideHeader_none {off : Nat} {p : Pbuf} (h : p.flatten.length ≤ off) :
    hideHeader off p = none := by
  induction p generalizing off with
  | nil => rfl
  | cons b p ih =>
      rw [List.flatten_cons, List.length_append] at h
      unfold hideHeader
      rw [if_pos (by omega)]
      exact ih (by omega)

section PartHeader

variable {p : Pbuf} {z : List UInt8}

theorem ne_zero_of_mem_header {c : UInt8} (hc : c ∈ m.header) : c ≠ 0 := by
  intro h
  rw [h] at hc
  exact m.header_text hc

theorem takeWhile_header (r : List UInt8) :
    (m.header ++ r).takeWhile (· ≠ 0) = m.header ++ r.takeWhile (· ≠ 0) :=
  List.takeWhile_append_of_pos fun _ hc => decide_eq_true (ne_zero_of_mem_header hc)

/-- A search in a segment that holds the whole part header. -/
theorem strnstr_whole {data : ReqBuf} {len : Nat} {r token : List UInt8} {q : Nat}
    (hdata : data.bytes.take len = m.header ++ r) (hq : memmem token m.header = some q) :
    strnstr data.bytes token len = some q := by
  unfold strnstr
  rw [hdata, takeWhile_header]
  exact memmem_append hq _

/-- The end of the part header is not found in a piece of it. -/
theorem strnstr_split {data : ReqBuf} {len n : Nat} (hn : n < m.header.length)
    (hdata : data.bytes.take len = m.header.take n) :
    strnstr data.bytes (crlf ++ crlf) len = none := by
  have hall : (m.header.take n).takeWhile (· ≠ 0) = m.header.take n := by
    rw [List.takeWhile_eq_self_iff]
    exact fun c hc => decide_eq_true (ne_zero_of_mem_header (List.mem_of_mem_take hc))
  unfold strnstr
  rw [hdata, hall]
  refine memmem_take m.memmem_header_end ?_
  change n < m.header.length - 4 + 4
  omega

/-- Where the part header names the file: the first occurrence of "filename" is
    not behind the one in front of the file name. -/
theorem exists_filename (m : Multipart) :
    ∃ q, memmem uploadFormFilename m.header = some q ∧ q + 10 < m.header.length ∧
      quote ∈ m.header.drop (q + 10) := by
  generalize hpre : [dash, dash] ++ m.boundary ++ crlf ++ m.disposition = pre
  generalize hpost : m.headers ++ crlf ++ crlf = post
  have hheader : m.header =
      pre ++ uploadFormFilename ++ ([61, quote] ++ m.filename ++ [quote] ++ post) := by
    rw [← hpre, ← hpost, Multipart.header, partHeader]
    simp only [List.append_assoc]
  rcases exists_memmem_of_infix uploadFormFilename m.header ⟨pre, _, hheader.symm⟩ with ⟨q, hq⟩
  have hqle : q ≤ pre.length := by
    by_contra hlt
    refine ((memmem_eq_some_iff _ _ q).mp hq).2 pre.length (by omega) ?_
    rw [hheader, List.append_assoc, List.drop_left]
    exact List.prefix_append _ _
  have hname := List.length_pos_iff.mpr m.filename_ne
  -- ten characters behind that "filename" the file name begins
  have hten : m.header.drop (pre.length + 10) = m.filename ++ ([quote] ++ post) := by
    rw [hheader, List.append_assoc, List.drop_length_add_append]
    simp only [uploadFormFilename, List.cons_append, List.nil_append, List.append_assoc]
    rfl
  have hsuffix : m.header.drop (pre.length + 10) <:+ m.header.drop (q + 10) := by
    have hsplit : pre.length + 10 = (q + 10) + (pre.length - q) := by omega
    rw [hsplit, ← List.drop_drop]
    exact List.drop_suffix _ _
  refine ⟨q, hq, ?_, ?_⟩
  · have hl := congrArg List.length hten
    rw [List.length_drop, List.length_append] at hl
    omega
  · refine hsuffix.subset ?_
    rw [hten]
    exact List.mem_append_right _ (List.mem_append_left _ (List.mem_singleton_self _))

/-- The copy of the first segment in the request buffer. -/
def firstCopy (data : ReqBuf) (bytes : List UInt8) : ReqBuf :=
  data.copy 0 (bytes.take (min bytes.length maxReqLength))

theorem take_firstCopy (data : ReqBuf) (bytes : List UInt8) :
    (firstCopy data bytes).bytes.take (min bytes.length maxReqLength)
      = bytes.take (min bytes.length maxReqLength) := by
  have hlen :
      (bytes.take (min bytes.length maxReqLength)).length = min bytes.length maxReqLength := by
    rw [List.length_take]
    omega
  have hcopy := data.take_copy (x := bytes.take (min bytes.length maxReqLength)) (by omega)
  rw [hlen] at hcopy
  exact hcopy

/-- A segment that holds the part header and fits the buffer with it. -/
theorem take_firstCopy_whole {bytes : List UInt8} (data : ReqBuf) (hbody : bytes ++ z = m.body)
    (hfits : m.header.length ≤ maxReqLength) (hwhole : m.header.length ≤ bytes.length) :
    ∃ r, (firstCopy data bytes).bytes.take (min bytes.length maxReqLength) = m.header ++ r := by
  have hpre : m.header <+: bytes.take (min bytes.length maxReqLength) := by
    refine List.prefix_of_prefix_length_le (List.prefix_append m.header m.content) ?_ ?_
    · rw [← Multipart.body, ← hbody]
      exact (List.take_prefix _ bytes).trans (List.prefix_append bytes z)
    · rw [List.length_take]
      omega
  rcases hpre with ⟨r, hr⟩
  exact ⟨r, (take_firstCopy data bytes).trans hr.symm⟩

/-- A segment that does not hold the part header, or not within the buffer. -/
theorem take_firstCopy_split {bytes : List UInt8} (data : ReqBuf) (hbody : bytes ++ z = m.body)
    (hsplit : ¬ (m.header.length ≤ maxReqLength ∧ m.header.length ≤ bytes.length)) :
    ∃ n < m.header.length, (firstCopy data bytes).bytes.take (min bytes.length maxReqLength)
      = m.header.take n := by
  refine ⟨min bytes.length maxReqLength, by omega, (take_firstCopy data bytes).trans ?_⟩
  have htake := congrArg (List.take (min bytes.length maxReqLength)) hbody
  rw [List.take_append_of_le_length (by omega), Multipart.body,
    List.take_append_of_le_length (by omega)] at htake
  exact htake

theorem bytes_eq_of_take {data : ReqBuf} {len : Nat} {r : List UInt8}
    (hdata : data.bytes.take len = m.header ++ r) :
    data.bytes = m.header ++ (r ++ data.bytes.drop len) := by
  conv_lhs => rw [← List.take_append_drop len data.bytes, hdata]
  rw [List.append_assoc]

/-- The file name that is read is empty exactly when a quote stands ten
    characters behind the first "filename". -/
theorem filename_eq_nil_iff {data : ReqBuf} {len q : Nat} {r : List UInt8}
    (hdata : data.bytes.take len = m.header ++ r) (hq : q + 10 < m.header.length) :
    ((data.bytes.drop (q + 10)).takeWhile fun c => c ≠ quote ∧ c ≠ 0).take uriBufLen = [] ↔
      m.header[q + 10]? = some quote := by
  rw [bytes_eq_of_take hdata, List.drop_append_of_le_length hq.le, List.drop_eq_getElem_cons hq,
    List.getElem?_eq_getElem hq, List.cons_append, Option.some.injEq]
  have hne : m.header[q + 10] ≠ 0 := ne_zero_of_mem_header (List.getElem_mem hq)
  by_cases hquote : m.header[q + 10] = quote
  · refine iff_of_true ?_ hquote
    rw [List.takeWhile_cons_of_neg (by simp only [hquote, ne_eq, not_true_eq_false, false_and,
      decide_false, Bool.false_eq_true, not_false_eq_true]), List.take_nil]
  · refine iff_of_false ?_ hquote
    rw [List.takeWhile_cons_of_pos (by simp only [hquote, hne, ne_eq, not_false_eq_true, and_self,
      decide_true])]
    exact List.cons_ne_nil _ _

/-- The part header is in the first segment: the upload is opened, and what
    stands behind the part header is left. -/
theorem recvPartHeader_whole {s : Post ρ} (hbody : p.flatten ++ z = m.body)
    (hread : ReadsHeader m p.flatten) :
    ∃ s', recvPartHeader hw p s = some (.inr (p.flatten.drop m.header.length), s') ∧
      s'.conn.boundary = s.conn.boundary ∧ s'.conn.uploadStatus = .copy ∧
      s'.conn.uploadCtx = s.conn.uploadCtx ∧ s'.conn.dataSendIndex = 0 ∧
      s'.conn.postDataLeft = s.conn.postDataLeft ∧
      s'.history = .opened s.conn.pcb :: s.history := by
  rcases take_firstCopy_whole s.conn.data hbody hread.fits hread.whole.le with ⟨r, hr⟩
  rcases exists_filename m with ⟨q, hq, hlt, hquote⟩
  have hpos := strnstr_whole hr hq
  have hend := strnstr_whole hr m.memmem_header_end
  have hnil := (filename_eq_nil_iff hr hlt).not.mpr (hread.filename q hq)
  rcases exists_hideHeader (p := p) hread.whole with ⟨rest, hrest, hflat⟩
  -- the quote behind the file name stops the search for it
  have hfound : ¬ (quote ∉ (firstCopy s.conn.data p.flatten).bytes.drop (q + 10) ∧
      0 ∉ (firstCopy s.conn.data p.flatten).bytes.drop (q + 10)) := by
    intro h
    refine h.1 ?_
    rw [bytes_eq_of_take hr, List.drop_append_of_le_length hlt.le]
    exact List.mem_append_left _ hquote
  have hfour : m.header.length - 4 + 4 = m.header.length := by omega
  unfold recvPartHeader
  dsimp only
  rw [← firstCopy, hpos]
  dsimp only
  rw [if_neg hfound, if_neg hnil, hend]
  dsimp only
  rw [hfour, hrest, Option.map_some, hflat]
  exact ⟨_, rfl, rfl, rfl, rfl, rfl, rfl, rfl⟩

/-- The part header is not in the first segment, or its file name reads as
    empty: the upload is never opened, or there is no way on. -/
theorem recvPartHeader_split {s : Post ρ} {r : (Bool ⊕ List UInt8) × Post ρ}
    (hbody : p.flatten ++ z = m.body) (hsplit : ¬ ReadsHeader m p.flatten)
    (hidx : s.conn.dataSendIndex < maxReqLength) (hcloses : closes s.history = 0)
    (hr : recvPartHeader hw p s = some r) :
    ∃ ret, r.1 = .inl ret ∧ Spoiled r.2 := by
  unfold recvPartHeader at hr
  dsimp only at hr
  rw [← firstCopy] at hr
  cases hpos : strnstr (firstCopy s.conn.data p.flatten).bytes uploadFormFilename
      (min p.flatten.length maxReqLength) with
  | none =>
      rw [hpos] at hr
      rw [← Option.some.inj hr]
      exact ⟨false, rfl, Or.inl rfl, hcloses, hidx⟩
  | some q =>
      rw [hpos] at hr
      dsimp only at hr
      split at hr
      · exact absurd hr (Option.some_ne_none r).symm
      · split at hr
        · rw [← Option.some.inj hr]
          exact ⟨true, rfl, Or.inl rfl, hcloses, maxReqLength_pos⟩
        · -- the upload was opened: then the part header was there
          rename_i hnil
          exfalso
          by_cases hwhole : m.header.length ≤ maxReqLength ∧ m.header.length ≤ p.flatten.length
          · rcases take_firstCopy_whole s.conn.data hbody hwhole.1 hwhole.2 with ⟨t, ht⟩
            have hend := strnstr_whole ht m.memmem_header_end
            have hfour : m.header.length - 4 + 4 = m.header.length := by
              have hle := memmem_add_length_le m.memmem_header_end
              change m.header.length - 4 + 4 ≤ m.header.length at hle
              omega
            rw [hend] at hr
            dsimp only at hr
            rw [hfour] at hr
            by_cases hmore : m.header.length < p.flatten.length
            · rcases exists_filename m with ⟨q', hq', hlt, -⟩
              have hqq : q' = q := by
                have hpos' := strnstr_whole ht hq'
                rw [hpos, Option.some.injEq] at hpos'
                exact hpos'.symm
              rw [hqq] at hq' hlt
              refine hsplit ⟨hwhole.1, hmore, fun q₁ hq₁ hquote => ?_⟩
              rw [hq', Option.some.injEq] at hq₁
              rw [← hq₁] at hquote
              exact hnil ((filename_eq_nil_iff ht hlt).mpr hquote)
            · rw [hideHeader_none (by omega), Option.map_none] at hr
              exact Option.some_ne_none r hr.symm
          · rcases take_firstCopy_split s.conn.data hbody hwhole with ⟨n, hn, ht⟩
            rw [strnstr_split hn ht] at hr
            exact Option.some_ne_none r hr.symm

end PartHeader

end Http

end RtosLwip
