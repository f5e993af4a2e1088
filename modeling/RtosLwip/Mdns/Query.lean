import RtosLwip.Mdns.Client
import Mathlib.Data.Bool.AllAny

/-!
# The Query, and its Name Read Back

A domain name goes out as its labels, each behind a byte with its length. The name as
text has a dot between two labels where the encoded name has a length in front of each, so
the encoded name is one byte longer, and with the byte that ends it two. So the packet
that is allocated for the header, the name, two bytes, the type and the class is filled
to its last byte, and what `_mdnsClientGetFullDomain` makes of the question is the name.

## Main definitions

* `IsLabel`, `dotted`: A label, and labels with dots between them.
* `wire`: The labels with their lengths.
* `Terminated`: The texts of the interfaces end inside their arrays.

## Theorems

* `encodeLabels_dotted`: What the encoder writes for a name.
* `copyLabels_wire`: What the copier writes for encoded labels.
* `query_readBack`: The packet is full, and its question is read back as the name.
-/

namespace RtosLwip

namespace Mdns

/-- One to 63 characters, none of them a NUL or a dot. -/
structure IsLabel (l : List UInt8) : Prop where
  pos : 1 ≤ l.length
  le : l.length ≤ 63
  plain : ∀ c ∈ l, c ≠ 46 ∧ c ≠ 0

/-- Labels with dots between them. -/
def dotted (labels : List (List UInt8)) : List UInt8 := [46].intercalate labels

/-- Labels with their lengths in front. -/
def wire (labels : List (List UInt8)) : List UInt8 :=
  labels.flatMap fun l => l.length.toUInt8 :: l

/-- The host names of both interfaces have their NULs inside the arrays. -/
structure Terminated (c : MdnsClient) : Prop where
  registrationApi : 0 ∈ c.registrationApi.hostname.toList
  queryApi : 0 ∈ c.queryApi.hostname.toList

variable {labels : List (List UInt8)}

theorem dotted_cons_cons (l l' : List UInt8) (ls : List (List UInt8)) :
    dotted (l :: l' :: ls) = l ++ 46 :: dotted (l' :: ls) := by
  rw [dotted, dotted, List.intercalate_cons_cons]
  simp

theorem length_wire (hne : labels ≠ []) : (wire labels).length = (dotted labels).length + 1 := by
  induction labels with
  | nil => exact absurd rfl hne
  | cons l rest ih =>
      cases rest with
      | nil => simp [wire, dotted, List.intercalate]
      | cons l' ls =>
          have hrest := ih (List.cons_ne_nil _ _)
          rw [dotted_cons_cons]
          simp only [wire, List.flatMap_cons, List.length_append, List.length_cons] at hrest ⊢
          omega

/-- A label with the dot behind it, for each label, is the name with one more dot. -/
theorem flatMap_dot (hne : labels ≠ []) : labels.flatMap (· ++ [46]) = dotted labels ++ [46] := by
  induction labels with
  | nil => exact absurd rfl hne
  | cons l rest ih =>
      cases rest with
      | nil => simp [dotted, List.intercalate]
      | cons l' ls =>
          rw [List.flatMap_cons, ih (List.cons_ne_nil _ _), dotted_cons_cons]
          simp

/-- No character of a name is a NUL. -/
theorem ne_zero_of_mem_dotted (h : ∀ l ∈ labels, IsLabel l) {c : UInt8} (hc : c ∈ dotted labels) :
    c ≠ 0 := by
  induction labels with
  | nil => exact absurd hc List.not_mem_nil
  | cons l rest ih =>
      have hl := (h l List.mem_cons_self).plain
      have hrest := List.forall_mem_of_forall_mem_cons h
      cases rest with
      | nil => exact (hl c (by simpa [dotted, List.intercalate] using hc)).2
      | cons l' ls =>
          rw [dotted_cons_cons, List.mem_append, List.mem_cons] at hc
          rcases hc with hc | rfl | hc
          · exact (hl c hc).2
          · decide
          · exact ih hrest hc

section Encode

/-- Over the characters of a label the encoder moves on and counts. -/
theorem encodeLabels_label (p : Fresh) (idx : Nat) (part : List UInt8) {l : List UInt8}
    (h : ∀ c ∈ l, c ≠ 46 ∧ c ≠ 0) (rest : List UInt8) :
    encodeLabels p idx part (l ++ rest) = encodeLabels p idx (part ++ l) rest := by
  induction l generalizing part with
  | nil => rw [List.nil_append, List.append_nil]
  | cons c l ih =>
      rw [List.cons_append, encodeLabels, if_pos (h c List.mem_cons_self),
        ih (part ++ [c]) (List.forall_mem_of_forall_mem_cons h), List.append_assoc]
      rfl

/-- At the end of a label its length and its characters are written. -/
theorem encodeLabels_end (written : List UInt8) {left : Nat} {part : List UInt8}
    (hpart : part.length ≤ 63) (hleft : part.length + 1 ≤ left) {c : UInt8}
    (hc : c = 46 ∨ c = 0) (rest : List UInt8) :
    encodeLabels (written.map some ++ Fresh.alloc left) written.length part (c :: rest) =
      let written' := written ++ part.length.toUInt8 :: part
      let p := written'.map some ++ Fresh.alloc (left - (part.length + 1))
      if c = 0 then some (p, written'.length) else encodeLabels p written'.length [] rest := by
  have hn : part.length.toUInt8.toNat = part.length := by
    rw [Nat.toUInt8, UInt8.toNat_ofNat']
    omega
  have hone : [part.length.toUInt8].length ≤ left := by
    rw [List.length_singleton]
    omega
  have hrest : part.length ≤ left - 1 := by omega
  have hfirst := @Fresh.write_next written _ left hone
  have hsecond := @Fresh.write_next (written ++ [part.length.toUInt8]) part (left - 1) hrest
  have hlen : (written ++ [part.length.toUInt8]).length = written.length + 1 :=
    List.length_append
  have hend : written.length + part.length + 1 =
      (written ++ part.length.toUInt8 :: part).length := by
    rw [List.length_append, List.length_cons]
    omega
  rw [hlen] at hsecond
  rw [encodeLabels, if_neg (by rcases hc with rfl | rfl <;> decide)]
  simp only [hfirst, hsecond, hn, hend, List.length_singleton, Option.bind_eq_bind,
    Option.bind_some, List.append_assoc, List.singleton_append, Nat.sub_sub, Nat.add_comm 1,
    Option.pure_def]

/-- The encoder writes the labels with their lengths behind what has been written. -/
theorem encodeLabels_dotted (hne : labels ≠ []) (h : ∀ l ∈ labels, IsLabel l)
    (written : List UInt8) {left : Nat} (hleft : (wire labels).length ≤ left)
    (rest : List UInt8) :
    encodeLabels (written.map some ++ Fresh.alloc left) written.length []
        (dotted labels ++ 0 :: rest) =
      some ((written ++ wire labels).map some ++ Fresh.alloc (left - (wire labels).length),
        (written ++ wire labels).length) := by
  induction labels generalizing written left with
  | nil => exact absurd rfl hne
  | cons l ls ih =>
      have hl := h l List.mem_cons_self
      have hlen : (wire (l :: ls)).length = l.length + 1 + (wire ls).length := by
        simp only [wire, List.flatMap_cons, List.length_append, List.length_cons]
      cases ls with
      | nil =>
          have hone : dotted [l] = l := by simp [dotted, List.intercalate]
          have hwire : wire [l] = l.length.toUInt8 :: l := by simp [wire]
          rw [hone, encodeLabels_label _ _ _ hl.plain, List.nil_append,
            encodeLabels_end written hl.le (by omega) (.inr rfl), hwire]
          rfl
      | cons l' ls =>
          have hfits : (wire (l' :: ls)).length ≤ left - (l.length + 1) := by omega
          have hrest := ih (List.cons_ne_nil _ _) (List.forall_mem_of_forall_mem_cons h)
            (written ++ l.length.toUInt8 :: l) hfits
          have hwire : wire (l :: l' :: ls) = (l.length.toUInt8 :: l) ++ wire (l' :: ls) :=
            List.flatMap_cons
          rw [dotted_cons_cons, List.append_assoc, List.cons_append,
            encodeLabels_label _ _ _ hl.plain, List.nil_append,
            encodeLabels_end written hl.le (by omega) (.inl rfl)]
          dsimp only
          rw [if_neg (by decide), hrest, hlen, hwire, List.append_assoc, Nat.sub_sub]

end Encode

section Decode

variable {n : Nat}

/-- The bytes of a label are copied, and a dot behind them. -/
theorem copyLabels_label (dest : Buf n) (i : Nat) {l : List UInt8} (hl : l ≠ [])
    (rest : List UInt8) :
    copyLabels dest i l.length (l ++ rest) =
      (dest.write i (l ++ [46])).bind fun dest => copyLabels dest (i + l.length + 1) 0 rest := by
  induction l generalizing dest i with
  | nil => exact absurd rfl hl
  | cons b l ih =>
      rw [← List.singleton_append, List.append_assoc, List.append_assoc, ← Buf.write_append,
        Option.bind_assoc]
      cases l with
      | nil => rfl
      | cons b' l =>
          -- the next byte of the label comes right behind this one
          have hnext : ∀ dest : Buf n, copyLabels dest (i + 1) (b' :: l).length (b' :: l ++ rest) =
              (dest.write (i + 1) (b' :: l ++ [46])).bind fun dest =>
                copyLabels dest (i + 1 + (b' :: l).length + 1) 0 rest :=
            fun dest => ih dest (i + 1) (List.cons_ne_nil _ _)
          have hend : i + ([b] ++ b' :: l).length + 1 = i + 1 + (b' :: l).length + 1 := by
            rw [List.length_append, List.length_singleton]
            omega
          rw [hend]
          exact congrArg (Option.bind (dest.write i [b])) (funext hnext)

/-- The copier writes each label with a dot behind it. -/
theorem copyLabels_wire (dest : Buf n) (i : Nat) (h : ∀ l ∈ labels, IsLabel l)
    (hi : i ≤ n) (rest : List UInt8) :
    copyLabels dest i 0 (wire labels ++ 0 :: rest) =
      (dest.write i (labels.flatMap (· ++ [46]))).map fun dest =>
        (dest, i + (labels.flatMap (· ++ [46])).length) := by
  induction labels generalizing dest i with
  | nil => rw [List.flatMap_nil, Buf.write_nil dest hi]; rfl
  | cons l ls ih =>
      have hl := h l List.mem_cons_self
      have hn : l.length.toUInt8.toNat = l.length := by
        have hle := hl.le
        rw [Nat.toUInt8, UInt8.toNat_ofNat']
        omega
      have hne : l.length.toUInt8 ≠ 0 := by
        intro hzero
        have hpos := hl.pos
        rw [hzero] at hn
        exact absurd hn.symm (by rw [UInt8.toNat_zero]; omega)
      have hnil : l ≠ [] := fun hnil => absurd hl.pos (by rw [hnil]; decide)
      have hwire : wire (l :: ls) ++ 0 :: rest =
          l.length.toUInt8 :: (l ++ (wire ls ++ 0 :: rest)) := by
        simp only [wire, List.flatMap_cons, List.cons_append, List.append_assoc]
      have hlen : (l ++ [(46 : UInt8)]).length = l.length + 1 := List.length_append
      rw [hwire, copyLabels, if_neg hne, hn, copyLabels_label dest i hnil, List.flatMap_cons,
        ← Buf.write_append dest i (l ++ [46]), hlen]
      cases hfirst : dest.write i (l ++ [46]) with
      | none => rfl
      | some dest₁ =>
          have hroom := (Buf.toList_of_write hfirst).1
          rw [Option.bind_some, Option.bind_some,
            ih dest₁ (i + l.length + 1) (List.forall_mem_of_forall_mem_cons h) (by omega),
            List.length_append, hlen]
          simp only [Nat.add_assoc]

/-- What the copier makes of an encoded name is the name. -/
theorem exists_getFullDomain (dest : Buf n) (hne : labels ≠ []) (h : ∀ l ∈ labels, IsLabel l)
    (hfits : (dotted labels).length < n) (rest : List UInt8) :
    ∃ dest', mdnsClientGetFullDomain dest (wire labels ++ 0 :: rest) = some dest' ∧
      IsText dest'.toList (dotted labels) := by
  have hroom : 0 + (dotted labels ++ [46]).length ≤ n := by
    rw [List.length_append, List.length_singleton]
    omega
  have hnul : (dotted labels).length + [(0 : UInt8)].length ≤ n := hfits
  rcases Buf.exists_write dest hroom with ⟨dest₁, hcopy, hlist₁⟩
  rcases Buf.exists_write dest₁ hnul with ⟨dest₂, hcut, hlist₂⟩
  have hend : 0 + (dotted labels ++ [46]).length - 1 = (dotted labels).length := by
    rw [List.length_append, List.length_singleton]
    omega
  refine ⟨dest₂, ?_, ?_⟩
  · rw [mdnsClientGetFullDomain, copyLabels_wire dest 0 h (Nat.zero_le n), flatMap_dot hne, hcopy]
    simp only [Option.map_some, Option.bind_eq_bind, Option.bind_some, hend, hcut]
    exact if_neg (by rw [List.length_append, List.length_singleton]; omega)
  · rw [hlist₂, hlist₁, List.take_zero, List.nil_append, List.append_assoc (dotted labels),
      List.take_left, List.append_assoc]
    exact isText_of_append fun c hc => ne_zero_of_mem_dotted h hc

end Decode

/-- The bytes of the query for a name. -/
def queryBytes (id qType : UInt16) (labels : List (List UInt8)) : List UInt8 :=
  queryHeader id ++ wire labels ++ [0] ++ (netBytes qType ++ netBytes rrClassIn)

theorem length_queryBytes (id qType : UInt16) (hne : labels ≠ []) :
    (queryBytes id qType labels).length = 12 + (dotted labels).length + 2 + 4 := by
  have hwire := length_wire hne
  simp only [queryBytes, List.length_append, queryHeader, netBytes, List.length_cons,
    List.length_nil, hwire]
  omega

/-- The packet is filled, each part of it written behind the one before. -/
theorem buildQuery_dotted (id qType : UInt16) (hne : labels ≠ []) (h : ∀ l ∈ labels, IsLabel l)
    (rest : List UInt8) :
    buildQuery id qType (dotted labels) (dotted labels ++ 0 :: rest) =
      some ((queryBytes id qType labels).map some) := by
  have hwire := length_wire hne
  have hhead : (queryHeader id).length = 12 := rfl
  generalize htotal : 12 + (dotted labels).length + 2 + 4 = total
  have hfirst := @Fresh.write_next [] (queryHeader id) total (by omega)
  have hlabels := encodeLabels_dotted hne h (queryHeader id)
    (show (wire labels).length ≤ total - (queryHeader id).length by omega) rest
  have hend := @Fresh.write_next (queryHeader id ++ wire labels) [0]
    (total - (queryHeader id).length - (wire labels).length)
    (by rw [List.length_singleton]; omega)
  have hlast := @Fresh.write_next (queryHeader id ++ wire labels ++ [0])
    (netBytes qType ++ netBytes rrClassIn)
    (total - (queryHeader id).length - (wire labels).length - [(0 : UInt8)].length)
    (by simp only [List.length_append, netBytes, List.length_cons, List.length_nil]; omega)
  have hfull : total - (queryHeader id).length - (wire labels).length - [(0 : UInt8)].length -
      (netBytes qType ++ netBytes rrClassIn).length = 0 := by
    simp only [List.length_append, netBytes, List.length_cons, List.length_nil]
    omega
  rw [List.map_nil, List.nil_append, List.nil_append, List.length_nil] at hfirst
  rw [hhead] at hlabels
  have hplace : (queryHeader id ++ wire labels ++ [0]).length =
      (queryHeader id ++ wire labels).length + 1 := List.length_append
  rw [hplace] at hlast
  rw [buildQuery, htotal, hfirst, Option.bind_eq_bind, Option.bind_some, hhead, hlabels]
  rw [hhead] at hend hlast hfull
  simp only [Option.bind_eq_bind, Option.bind_some, hend, hlast, hfull]
  exact congrArg some (List.append_nil _)

/-- What `sendQueryOf` does with a name that is made of labels. -/
theorem sendQueryOf_dotted (net : Sending) {c : MdnsClient} {apiIf : NmosApiInterface}
    (hhost : 0 ∈ apiIf.hostname.toList) (hne : labels ≠ []) (hlabels : ∀ l ∈ labels, IsLabel l)
    (hname : IsText c.domainName.toList (dotted labels)) :
    sendQueryOf net c apiIf =
      let qType := if cstr apiIf.hostname.toList = [] then rrTypePtr else rrTypeA
      some (if net.alloc then
          (net.sendto, { c with txId := c.txId + 1 },
            some ((queryBytes c.txId qType labels).map some))
        else
          (errMem, c, none)) := by
  rcases exists_cstr_append hname.1 with ⟨rest, hmem⟩
  rw [hname.2] at hmem
  have htext : apiIf.hostname.text = some (cstr apiIf.hostname.toList) :=
    Buf.text_eq_some_iff.mpr ⟨hhost, rfl⟩
  rw [sendQueryOf, htext, Buf.text_eq_some_iff.mpr hname, hmem]
  simp only [Option.bind_eq_bind, Option.bind_some, buildQuery_dotted _ _ hne hlabels,
    Option.pure_def]
  split
  · rfl
  · rfl

/-- What `mdnsClientSendQuery` sends for the name in `domainName` is filled to its last byte,
    and its question is read back as the name. -/
theorem query_readBack (net : Sending) (halloc : net.alloc) (c : MdnsClient) (hc : Terminated c)
    (apiType : NmosApiType) (htype : apiType = .registration ∨ apiType = .query)
    (labels : List (List UInt8)) (hne : labels ≠ []) (hlabels : ∀ l ∈ labels, IsLabel l)
    (hname : IsText c.domainName.toList (dotted labels)) :
    ∃ packet : List UInt8,
      mdnsClientSendQuery net c apiType =
        some (net.sendto, { c with txId := c.txId + 1 }, some (packet.map some)) ∧
      packet.length = 12 + (dotted labels).length + 2 + 4 ∧
      ∀ dest : Buf domainMaxLen, ∃ dest',
        mdnsClientGetFullDomain dest (packet.drop 12) = some dest' ∧
        IsText dest'.toList (dotted labels) := by
  rcases exists_cstr_append hname.1 with ⟨rest, hmem⟩
  rw [hname.2] at hmem
  have hfits : (dotted labels).length < domainMaxLen := by
    have hlen := congrArg List.length hmem
    rw [Vector.length_toList, List.length_append, List.length_cons] at hlen
    omega
  have hsend : ∀ apiIf : NmosApiInterface, 0 ∈ apiIf.hostname.toList →
      ∃ qType, sendQueryOf net c apiIf =
        some (net.sendto, { c with txId := c.txId + 1 },
          some ((queryBytes c.txId qType labels).map some)) := by
    intro apiIf hhost
    rw [sendQueryOf_dotted net hhost hne hlabels hname, halloc]
    exact ⟨_, rfl⟩
  have hread : ∀ qType, ∀ dest : Buf domainMaxLen, ∃ dest',
      mdnsClientGetFullDomain dest ((queryBytes c.txId qType labels).drop 12) = some dest' ∧
      IsText dest'.toList (dotted labels) := by
    intro qType dest
    have hquestion : (queryBytes c.txId qType labels).drop 12 =
        wire labels ++ 0 :: (netBytes qType ++ netBytes rrClassIn) := by
      rw [queryBytes, List.append_assoc, List.append_assoc]
      rfl
    rw [hquestion]
    exact exists_getFullDomain dest hne hlabels hfits _
  rcases htype with rfl | rfl
  · rcases hsend c.registrationApi hc.registrationApi with ⟨qType, hsent⟩
    exact ⟨_, hsent, length_queryBytes _ _ hne, hread qType⟩
  · rcases hsend c.queryApi hc.queryApi with ⟨qType, hsent⟩
    exact ⟨_, hsent, length_queryBytes _ _ hne, hread qType⟩

/-- A client that is to ask for the name `ab`. -/
def askingClient : MdnsClient where
  txId := 7
  domainName := ((Vector.replicate _ 0).set 0 97 (by decide)).set 1 98 (by decide)
  rdata := Vector.replicate _ 0
  state := .init
  registrationApi := clearedInterface
  queryApi := clearedInterface

theorem query_readBack_ab :
    ∃ packet : List UInt8,
      mdnsClientSendQuery ⟨true, 0⟩ askingClient .query =
        some (0, { askingClient with txId := 8 }, some (packet.map some)) ∧
      packet.length = 12 + (dotted [[97, 98]]).length + 2 + 4 ∧
      ∀ dest : Buf domainMaxLen, ∃ dest',
        mdnsClientGetFullDomain dest (packet.drop 12) = some dest' ∧
        IsText dest'.toList (dotted [[97, 98]]) :=
  query_readBack ⟨true, 0⟩ rfl askingClient ⟨by decide, by decide⟩ .query (.inr rfl) [[97, 98]]
    (List.cons_ne_nil _ _)
    (List.forall_mem_singleton.mpr ⟨by decide, by decide, List.all_iff_forall_prop.mp (by decide)⟩)
    ⟨by decide, by decide⟩

end Mdns

end RtosLwip
