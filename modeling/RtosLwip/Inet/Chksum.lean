import RtosLwip.Base.OnesComplement

/-!
# The Internet Checksum

`inet_chksum.c`: the checksum of what is in memory, and of a packet in a chain of pbufs with the
pseudo header in front, as UDP and TCP have it.

The words are read as they are in memory, with the lower byte first. Data at an odd address is
read from its second byte on, and the bytes of the sum are exchanged at the end. The same is
done with the sum so far behind a pbuf with an odd number of bytes. All of this does not change
the result: it is the sum of the words of the whole packet, wherever its parts are.

## Main definitions

* `lwipStandardChksum`: The sum over one part of memory.
* `inetChksumPseudo`: The checksum of a packet in a chain.

## Theorems

* `lwipStandardChksum_eq`: The sum, at any address.
* `inetChksumPseudo_eq`: The checksum, in any chain.
* `inetChksumPseudo_accepts`: A packet with its checksum filled in is accepted.
* `inetChksumPseudo_rejects`: With one byte changed, it is not.
-/

namespace RtosLwip

namespace Inet

/-- `FOLD_U32T` -/
def foldU32t (u : UInt32) : UInt32 := (u >>> 16) + (u &&& 0x0000ffff)

/-- `SWAP_BYTES_IN_WORD` -/
def swapBytesInWord (w : UInt32) : UInt32 := ((w &&& 0xff) <<< 8) ||| ((w &&& 0xff00) >>> 8)

/-- `lwip_htons` -/
def lwipHtons (n : UInt16) : UInt16 := ((n &&& 0x00ff) <<< 8) ||| ((n &&& 0xff00) >>> 8)

/-- Two bytes in memory, read as a word. -/
def word (b₀ b₁ : UInt8) : UInt32 := UInt32.ofNat (b₀.toNat + 256 * b₁.toNat)

/-- The loop over the bulk of the data: the sum, and a byte that is left over. -/
def addWords (sum : UInt32) : List UInt8 → UInt32 × UInt8
  | b₀ :: b₁ :: rest => addWords (sum + word b₀ b₁) rest
  | [b] => (sum, b)
  | [] => (sum, 0)

/-- `lwip_standard_chksum` behind the first lines, with what they have put into the upper byte of
    `t`. -/
def sumBehind (t₁ : UInt8) (data : List UInt8) : UInt32 :=
  let r := addWords 0 data
  foldU32t (foldU32t (r.1 + word r.2 t₁))

/-- `lwip_standard_chksum` in the version that is built, the second one, with whether the address
    is odd. -/
def lwipStandardChksum (odd : Bool) (data : List UInt8) : UInt16 :=
  if odd then
    match data with
    | [] => (swapBytesInWord (sumBehind 0 [])).toUInt16
    | b :: rest => (swapBytesInWord (sumBehind b rest)).toUInt16
  else
    (sumBehind 0 data).toUInt16

/-- `inet_chksum` -/
def inetChksum (odd : Bool) (data : List UInt8) : UInt16 := ~~~ lwipStandardChksum odd data

/-- A pbuf of a chain, as far as it matters: its payload, with at most 65535 bytes, and whether that
    is at an odd address. -/
structure Pbuf where
  odd : Bool
  payload : List UInt8
  length_lt : payload.length < 65536

/-- The bytes of a chain. -/
def bytes (p : List Pbuf) : List UInt8 := p.flatMap Pbuf.payload

/-- The loop over a chain. -/
def addChain (acc : UInt32) (swapped : Bool) : List Pbuf → UInt32 × Bool
  | [] => (acc, swapped)
  | q :: rest =>
    let acc := foldU32t (acc + (lwipStandardChksum q.odd q.payload).toUInt32)
    if q.payload.length % 2 ≠ 0 then addChain (swapBytesInWord acc) (!swapped) rest
    else addChain acc swapped rest

/-- `inet_chksum_pbuf` -/
def inetChksumPbuf (p : List Pbuf) : UInt16 :=
  let r := addChain 0 false p
  let acc := if r.2 then swapBytesInWord r.1 else r.1
  ~~~ acc.toUInt16

/-- `inet_cksum_pseudo_base` -/
def inetCksumPseudoBase (p : List Pbuf) (proto : UInt8) (protoLen : UInt16) (acc : UInt32) :
    UInt16 :=
  let r := addChain acc false p
  let acc := if r.2 then swapBytesInWord r.1 else r.1
  let acc := acc + (lwipHtons proto.toUInt16).toUInt32
  let acc := acc + (lwipHtons protoLen).toUInt32
  ~~~ (foldU32t (foldU32t acc)).toUInt16

/-- `inet_chksum_pseudo` -/
def inetChksumPseudo (p : List Pbuf) (proto : UInt8) (protoLen : UInt16) (src dest : UInt32) :
    UInt16 :=
  let acc := src &&& 0xffff
  let acc := acc + ((src >>> 16) &&& 0xffff)
  let acc := acc + (dest &&& 0xffff)
  let acc := acc + ((dest >>> 16) &&& 0xffff)
  inetCksumPseudoBase p proto protoLen (foldU32t (foldU32t acc))

/-! ### Words -/

theorem toNat_foldU32t (u : UInt32) :
    (foldU32t u).toNat = u.toNat / 65536 + u.toNat % 65536 := by
  have hu := u.toNat_lt
  have hshift : (u >>> 16).toNat = u.toNat / 65536 := by
    rw [UInt32.toNat_shiftRight]
    exact Nat.shiftRight_eq_div_pow u.toNat 16
  have hand : (u &&& 0x0000ffff).toNat = u.toNat % 65536 := by
    rw [UInt32.toNat_and]
    exact Nat.and_two_pow_sub_one_eq_mod u.toNat 16
  unfold foldU32t
  rw [UInt32.toNat_add, hshift, hand]
  omega

/-- One fold is enough for a sum of two words. -/
theorem foldU32t_once {u : UInt32} (hu : u.toNat ≤ 131070) :
    (foldU32t u).toNat = ones u.toNat := by
  rw [toNat_foldU32t]
  exact (ones_eq_iff.mpr ⟨by omega, by omega, by omega⟩).symm

/-- Two are enough for every sum. -/
theorem foldU32t_twice (u : UInt32) : (foldU32t (foldU32t u)).toNat = ones u.toNat := by
  have hu := u.toNat_lt
  rw [toNat_foldU32t, toNat_foldU32t]
  exact (ones_eq_iff.mpr ⟨by omega, by omega, by omega⟩).symm

theorem toNat_swapBytesInWord {w : UInt32} (hw : w.toNat ≤ 65535) :
    (swapBytesInWord w).toNat = ones (256 * w.toNat) := by
  have hlow : ((w &&& 0xff) <<< 8).toNat = (w.toNat % 256) <<< 8 := by
    rw [UInt32.toNat_shiftLeft, UInt32.toNat_and]
    have hand : w.toNat &&& (0xff : UInt32).toNat = w.toNat % 256 :=
      Nat.and_two_pow_sub_one_eq_mod w.toNat 8
    rw [hand]
    refine Nat.mod_eq_of_lt ?_
    have hshift : (w.toNat % 256) <<< ((8 : UInt32).toNat % 32) = w.toNat % 256 * 256 :=
      Nat.shiftLeft_eq _ 8
    rw [hshift]
    omega
  have hhigh : ((w &&& 0xff00) >>> 8).toNat = w.toNat / 256 := by
    rw [UInt32.toNat_shiftRight, UInt32.toNat_and]
    have hshift : (w.toNat &&& (0xff00 : UInt32).toNat) >>> ((8 : UInt32).toNat % 32) =
        w.toNat >>> 8 &&& 0xff := Nat.shiftRight_and_distrib
    have hand : w.toNat >>> 8 &&& 0xff = w.toNat >>> 8 % 256 :=
      Nat.and_two_pow_sub_one_eq_mod (w.toNat >>> 8) 8
    rw [hshift, hand, Nat.shiftRight_eq_div_pow]
    omega
  have hlt : w.toNat / 256 < 256 := by omega
  unfold swapBytesInWord
  rw [UInt32.toNat_or, hlow, hhigh,
    ← Nat.shiftLeft_add_eq_or_of_lt (i := 8) hlt, Nat.shiftLeft_eq]
  exact (ones_eq_iff.mpr ⟨by omega, by omega, by omega⟩).symm

theorem toNat_word (b₀ b₁ : UInt8) : (word b₀ b₁).toNat = b₀.toNat + 256 * b₁.toNat := by
  have h₀ := b₀.toNat_lt
  have h₁ := b₁.toNat_lt
  have hlt : b₀.toNat + 256 * b₁.toNat < 4294967296 := by omega
  exact UInt32.toNat_ofNat_of_lt' hlt

theorem toNat_lwipHtons (n : UInt16) :
    (lwipHtons n).toNat = 256 * (n.toNat % 256) + n.toNat / 256 := by
  have hn := n.toNat_lt
  have hlow : ((n &&& 0x00ff) <<< 8).toNat = (n.toNat % 256) <<< 8 := by
    rw [UInt16.toNat_shiftLeft, UInt16.toNat_and]
    have hand : n.toNat &&& (0x00ff : UInt16).toNat = n.toNat % 256 :=
      Nat.and_two_pow_sub_one_eq_mod n.toNat 8
    rw [hand]
    refine Nat.mod_eq_of_lt ?_
    have hshift : (n.toNat % 256) <<< ((8 : UInt16).toNat % 16) = n.toNat % 256 * 256 :=
      Nat.shiftLeft_eq _ 8
    rw [hshift]
    omega
  have hhigh : ((n &&& 0xff00) >>> 8).toNat = n.toNat / 256 := by
    rw [UInt16.toNat_shiftRight, UInt16.toNat_and]
    have hshift : (n.toNat &&& (0xff00 : UInt16).toNat) >>> ((8 : UInt16).toNat % 16) =
        n.toNat >>> 8 &&& 0xff := Nat.shiftRight_and_distrib
    have hand : n.toNat >>> 8 &&& 0xff = n.toNat >>> 8 % 256 :=
      Nat.and_two_pow_sub_one_eq_mod (n.toNat >>> 8) 8
    rw [hshift, hand, Nat.shiftRight_eq_div_pow]
    omega
  have hlt : n.toNat / 256 < 256 := by omega
  unfold lwipHtons
  rw [UInt16.toNat_or, hlow, hhigh,
    ← Nat.shiftLeft_add_eq_or_of_lt (i := 8) hlt, Nat.shiftLeft_eq]
  omega

/-! ### One part of memory -/

/-- The loop adds up the words, and nothing is carried out of 32 bits. -/
theorem addWords_spec (sum : UInt32) (data : List UInt8)
    (h : sum.toNat + 65535 * data.length < 4294967296) :
    (addWords sum data).1.toNat + (addWords sum data).2.toNat = sum.toNat + wordSum data ∧
      (addWords sum data).1.toNat ≤ sum.toNat + 65535 * data.length := by
  induction sum, data using addWords.induct with
  | case1 sum b₀ b₁ rest ih =>
      have h₀ := b₀.toNat_lt
      have h₁ := b₁.toNat_lt
      rw [List.length_cons, List.length_cons] at h ⊢
      have hadd : (sum + word b₀ b₁).toNat = sum.toNat + (b₀.toNat + 256 * b₁.toNat) := by
        rw [UInt32.toNat_add, toNat_word]
        omega
      obtain ⟨hsum, hle⟩ := ih (by rw [hadd]; omega)
      rw [addWords, wordSum]
      rw [hadd] at hsum hle
      omega
  | case2 sum b => exact ⟨rfl, Nat.le_add_right _ _⟩
  | case3 sum => exact ⟨rfl, Nat.le_add_right _ _⟩

theorem toNat_sumBehind (t₁ : UInt8) (data : List UInt8) (h : data.length < 65536) :
    (sumBehind t₁ data).toNat = ones (256 * t₁.toNat + wordSum data) := by
  have hzero : (0 : UInt32).toNat = 0 := rfl
  obtain ⟨hsum, hle⟩ := addWords_spec 0 data (by rw [hzero]; omega)
  have h₀ := (addWords 0 data).2.toNat_lt
  have h₁ := t₁.toNat_lt
  rw [hzero] at hsum hle
  unfold sumBehind
  dsimp only
  rw [foldU32t_twice, UInt32.toNat_add, toNat_word]
  exact congrArg ones (by omega)

/-- The sum of the words, at an even or at an odd address. -/
theorem lwipStandardChksum_eq (odd : Bool) {data : List UInt8} (h : data.length < 65536) :
    (lwipStandardChksum odd data).toNat = ones (wordSum data) := by
  unfold lwipStandardChksum
  cases odd with
  | false =>
      have hsum := toNat_sumBehind 0 data h
      have hle := ones_le (256 * (0 : UInt8).toNat + wordSum data)
      rw [if_neg Bool.false_ne_true, UInt32.toNat_toUInt16, hsum, Nat.mod_eq_of_lt (by omega)]
      exact congrArg ones (Nat.zero_add _)
  | true =>
      rw [if_pos rfl]
      cases data with
      | nil => rfl
      | cons b rest =>
          rw [List.length_cons] at h
          have hsum := toNat_sumBehind b rest (by omega)
          have hle := ones_le (256 * b.toNat + wordSum rest)
          have hle' := ones_le (256 * ones (256 * b.toNat + wordSum rest))
          dsimp only
          rw [UInt32.toNat_toUInt16, toNat_swapBytesInWord (by rw [hsum]; exact hle), hsum,
            Nat.mod_eq_of_lt (by omega), ones_mul_ones, ones_wordSum, leValue]
          -- every byte is in the other half of its word
          have hrest := ones_eq_ones.mp (ones_wordSum rest)
          exact ones_congr (by omega) (by omega)

/-- `inet_chksum` is the complement of it. -/
theorem inetChksum_eq (odd : Bool) {data : List UInt8} (h : data.length < 65536) :
    (inetChksum odd data).toNat = 65535 - ones (wordSum data) := by
  unfold inetChksum
  rw [UInt16.toNat_not, lwipStandardChksum_eq odd h]
  rfl

/-! ### Chains -/

/-- A sum with its bytes exchanged. -/
def side (swapped : Bool) (s : Nat) : Nat := if swapped then 256 * s else s

@[simp] theorem side_false (s : Nat) : side false s = s := rfl

@[simp] theorem side_true (s : Nat) : side true s = 256 * s := rfl

theorem ones_side {a b : Nat} (h : ones a = ones b) (swapped : Bool) :
    ones (side swapped a) = ones (side swapped b) := by
  have hab := ones_eq_ones.mp h
  cases swapped with
  | false => exact h
  | true => exact ones_congr (a := 256 * a) (b := 256 * b) (by omega) (by omega)

/-- The loop adds up the words of the chain, and tells whether the bytes of the sum are
    exchanged. -/
theorem addChain_spec (p : List Pbuf) {acc : UInt32} (swapped : Bool) {s : Nat}
    (hacc : acc.toNat = ones (side swapped s)) :
    (addChain acc swapped p).1.toNat =
      ones (side (addChain acc swapped p).2 (s + side swapped (leValue (bytes p)))) := by
  induction p generalizing acc swapped s with
  | nil =>
      have hnil : s + side swapped (leValue (bytes [])) = s := by cases swapped <;> rfl
      rw [hnil]
      exact hacc
  | cons q rest ih =>
      have hbytes : bytes (q :: rest) = q.payload ++ bytes rest := rfl
      have hchk := lwipStandardChksum_eq q.odd q.length_lt
      have hsum : (foldU32t (acc + (lwipStandardChksum q.odd q.payload).toUInt32)).toNat =
          ones (side swapped s + leValue q.payload) := by
        have hle := ones_le (side swapped s)
        have hle' := ones_le (wordSum q.payload)
        have hadd : (acc + (lwipStandardChksum q.odd q.payload).toUInt32).toNat =
            ones (side swapped s) + ones (wordSum q.payload) := by
          rw [UInt32.toNat_add, UInt16.toNat_toUInt32, hchk, hacc]
          omega
        rw [foldU32t_once (by rw [hadd]; omega), hadd, ones_ones_add, Nat.add_comm, ones_wordSum,
          ones_ones_add, Nat.add_comm]
      rw [addChain]
      by_cases hparity : q.payload.length % 2 ≠ 0
      · -- the rest has its bytes on the other side
        rw [if_pos hparity, hbytes]
        have hodd : q.payload.length % 2 = 1 := by omega
        have happend := ones_eq_ones.mp (ones_append_odd hodd (bytes rest))
        have hswap : (swapBytesInWord (foldU32t (acc +
            (lwipStandardChksum q.odd q.payload).toUInt32))).toNat =
            ones (side (!swapped) (s + side swapped (leValue q.payload))) := by
          rw [toNat_swapBytesInWord (by rw [hsum]; exact ones_le _), hsum, ones_mul_ones]
          cases swapped with
          | false => rfl
          | true =>
              simp only [Bool.not_true, side_true, side_false]
              exact ones_congr (by omega) (by omega)
        rw [ih (!swapped) hswap]
        refine ones_side ?_ _
        cases swapped with
        | false =>
            simp only [Bool.not_false, side_true, side_false]
            exact ones_congr (by omega) (by omega)
        | true =>
            simp only [Bool.not_true, side_true, side_false]
            exact ones_congr (by omega) (by omega)
      · rw [if_neg hparity, hbytes]
        have heven : q.payload.length % 2 = 0 := by omega
        have happend := ones_eq_ones.mp (ones_append_even heven (bytes rest))
        have hsame : (foldU32t (acc + (lwipStandardChksum q.odd q.payload).toUInt32)).toNat =
            ones (side swapped (s + side swapped (leValue q.payload))) := by
          rw [hsum]
          cases swapped with
          | false => rfl
          | true =>
              simp only [side_true]
              exact ones_congr (by omega) (by omega)
        rw [ih swapped hsame]
        refine ones_side ?_ _
        cases swapped with
        | false =>
            simp only [side_false]
            exact ones_congr (by omega) (by omega)
        | true =>
            simp only [side_true]
            exact ones_congr (by omega) (by omega)

/-- At the end the bytes of the sum are where they belong. -/
theorem addChain_total (p : List Pbuf) (acc : UInt32) (s : Nat) (hacc : acc.toNat = ones s) :
    (if (addChain acc false p).2 then swapBytesInWord (addChain acc false p).1
      else (addChain acc false p).1).toNat = ones (s + leValue (bytes p)) := by
  have hspec := addChain_spec p false hacc
  cases hswapped : (addChain acc false p).2 with
  | false =>
      rw [if_neg Bool.false_ne_true, hspec, hswapped]
      rfl
  | true =>
      rw [if_pos rfl, toNat_swapBytesInWord (by rw [hspec]; exact ones_le _), hspec, hswapped]
      dsimp only [side]
      rw [if_pos rfl, ones_mul_ones, ones_mul_mul]
      rfl

/-- `inet_chksum_pbuf` is the complement of the sum of the words, in any chain. -/
theorem inetChksumPbuf_eq (p : List Pbuf) :
    (inetChksumPbuf p).toNat = 65535 - ones (wordSum (bytes p)) := by
  have htotal := addChain_total p 0 0 rfl
  have hle := ones_le (0 + leValue (bytes p))
  unfold inetChksumPbuf
  dsimp only
  rw [UInt16.toNat_not, UInt32.toNat_toUInt16, htotal, Nat.mod_eq_of_lt (by omega), Nat.zero_add,
    ones_wordSum]
  rfl

/-! ### Packets with a pseudo header -/

/-- An address in memory. -/
def addressBytes (addr : UInt32) : List UInt8 :=
  [UInt8.ofNat addr.toNat, UInt8.ofNat (addr.toNat / 256), UInt8.ofNat (addr.toNat / 65536),
    UInt8.ofNat (addr.toNat / 16777216)]

/-- The pseudo header, as it would be in memory in front of a packet: the addresses, the protocol,
    and the length with its upper byte first. -/
def pseudoHeader (proto : UInt8) (protoLen : UInt16) (src dest : UInt32) : List UInt8 :=
  addressBytes src ++ addressBytes dest ++
    [0, proto, UInt8.ofNat (protoLen.toNat / 256), UInt8.ofNat protoLen.toNat]

theorem wordSum_addressBytes (addr : UInt32) (rest : List UInt8) :
    wordSum (addressBytes addr ++ rest) =
      addr.toNat % 65536 + addr.toNat / 65536 + wordSum rest := by
  have haddr := addr.toNat_lt
  simp only [addressBytes, List.cons_append, List.nil_append, wordSum, UInt8.toNat_ofNat']
  omega

theorem wordSum_pseudoHeader (proto : UInt8) (protoLen : UInt16) (src dest : UInt32)
    (rest : List UInt8) :
    wordSum (pseudoHeader proto protoLen src dest ++ rest) =
      src.toNat % 65536 + src.toNat / 65536 + (dest.toNat % 65536 + dest.toNat / 65536) +
        256 * proto.toNat + (256 * (protoLen.toNat % 256) + protoLen.toNat / 256) +
        wordSum rest := by
  have hlen := protoLen.toNat_lt
  unfold pseudoHeader
  rw [List.append_assoc, List.append_assoc, wordSum_addressBytes, wordSum_addressBytes]
  simp only [List.cons_append, List.nil_append, wordSum, UInt8.toNat_ofNat', UInt8.toNat_zero]
  omega

/-- The addresses, added up and folded. -/
theorem toNat_addresses (src dest : UInt32) :
    (foldU32t (foldU32t ((src &&& (0xffff : UInt32)) + ((src >>> 16) &&& (0xffff : UInt32)) +
      (dest &&& (0xffff : UInt32)) + ((dest >>> 16) &&& (0xffff : UInt32))))).toNat =
      ones (src.toNat % 65536 + src.toNat / 65536 + (dest.toNat % 65536 + dest.toNat / 65536)) := by
  have hlow : ∀ u : UInt32, (u &&& (0xffff : UInt32)).toNat = u.toNat % 65536 := by
    intro u
    rw [UInt32.toNat_and]
    exact Nat.and_two_pow_sub_one_eq_mod u.toNat 16
  have hhigh : ∀ u : UInt32, ((u >>> 16) &&& (0xffff : UInt32)).toNat = u.toNat / 65536 := by
    intro u
    have hu := u.toNat_lt
    have hshift : (u >>> 16).toNat = u.toNat / 65536 := by
      rw [UInt32.toNat_shiftRight]
      exact Nat.shiftRight_eq_div_pow u.toNat 16
    rw [hlow, hshift]
    omega
  have hsrc := src.toNat_lt
  have hdest := dest.toNat_lt
  rw [foldU32t_twice]
  refine congrArg ones ?_
  rw [UInt32.toNat_add, UInt32.toNat_add, UInt32.toNat_add, hhigh src, hhigh dest, hlow src,
    hlow dest]
  omega

/-- `inet_chksum_pseudo` is the complement of the sum of the words of the pseudo header and the
    packet, however the packet is cut into pbufs, and wherever these are. -/
theorem inetChksumPseudo_eq (p : List Pbuf) (proto : UInt8) (protoLen : UInt16)
    (src dest : UInt32) :
    (inetChksumPseudo p proto protoLen src dest).toNat =
      65535 - ones (wordSum (pseudoHeader proto protoLen src dest ++ bytes p)) := by
  have htotal := addChain_total p _ _ (toNat_addresses src dest)
  have hproto : (lwipHtons proto.toUInt16).toUInt32.toNat = 256 * proto.toNat := by
    have hlt := proto.toNat_lt
    rw [UInt16.toNat_toUInt32, toNat_lwipHtons, UInt8.toNat_toUInt16]
    omega
  have hlen : (lwipHtons protoLen).toUInt32.toNat =
      256 * (protoLen.toNat % 256) + protoLen.toNat / 256 := by
    rw [UInt16.toNat_toUInt32, toNat_lwipHtons]
  have hprotoLt := proto.toNat_lt
  have hlenLt := protoLen.toNat_lt
  rw [wordSum_pseudoHeader]
  unfold inetChksumPseudo inetCksumPseudoBase
  dsimp only
  generalize hA : src.toNat % 65536 + src.toNat / 65536 +
    (dest.toNat % 65536 + dest.toNat / 65536) = A at htotal ⊢
  have hle := ones_le (A + leValue (bytes p))
  rw [UInt16.toNat_not, UInt32.toNat_toUInt16, foldU32t_twice, UInt32.toNat_add, UInt32.toNat_add,
    htotal, hproto, hlen]
  have hbytes := ones_eq_ones.mp (ones_wordSum (bytes p))
  have hones := ones_eq_ones.mp (ones_ones_add (A + leValue (bytes p))
    (256 * proto.toNat + (256 * (protoLen.toNat % 256) + protoLen.toNat / 256)))
  have hnowrap : ((ones (A + leValue (bytes p)) + 256 * proto.toNat) % 4294967296 +
      (256 * (protoLen.toNat % 256) + protoLen.toNat / 256)) % 4294967296 =
      ones (A + leValue (bytes p)) +
        (256 * proto.toNat + (256 * (protoLen.toNat % 256) + protoLen.toNat / 256)) := by
    omega
  have hsum : ones (A + 256 * proto.toNat +
      (256 * (protoLen.toNat % 256) + protoLen.toNat / 256) + wordSum (bytes p)) =
      ones (((ones (A + leValue (bytes p)) + 256 * proto.toNat) % 4294967296 +
        (256 * (protoLen.toNat % 256) + protoLen.toNat / 256)) % 4294967296) :=
    ones_congr (by rw [hnowrap]; omega) (by rw [hnowrap]; omega)
  rw [hsum, Nat.mod_eq_of_lt (Nat.lt_succ_of_le (ones_le _))]
  rfl

/-- A packet in which the checksum stands where it was computed with zeros is accepted, whatever
    chain it comes in: the checksum over all of it is zero. -/
theorem inetChksumPseudo_accepts (xs ys : List UInt8) {p p' : List Pbuf} {proto : UInt8}
    {protoLen : UInt16} {src dest : UInt32} (heven : xs.length % 2 = 0)
    (hsent : bytes p = xs ++ 0 :: 0 :: ys)
    (hreceived : bytes p' = xs ++
      UInt8.ofNat (inetChksumPseudo p proto protoLen src dest).toNat ::
      UInt8.ofNat ((inetChksumPseudo p proto protoLen src dest).toNat / 256) :: ys) :
    inetChksumPseudo p' proto protoLen src dest = 0 := by
  have hfilled := inetChksumPseudo_eq p proto protoLen src dest
  have hcheck := inetChksumPseudo_eq p' proto protoLen src dest
  generalize inetChksumPseudo p proto protoLen src dest = c at hfilled hreceived
  have hc := c.toNat_lt
  rw [hsent, wordSum_pseudoHeader, wordSum_append_even heven, wordSum] at hfilled
  rw [hreceived, wordSum_pseudoHeader, wordSum_append_even heven, wordSum] at hcheck
  simp only [UInt8.toNat_ofNat', UInt8.toNat_zero, Nat.reducePow] at hfilled hcheck
  rw [← UInt16.toNat_inj, hcheck]
  generalize src.toNat % 65536 + src.toNat / 65536 + (dest.toNat % 65536 + dest.toNat / 65536) +
    256 * proto.toNat + (256 * (protoLen.toNat % 256) + protoLen.toNat / 256) = A at hfilled ⊢
  -- the checksum makes up for the rest
  have hcompl := ones_add_compl (A + (wordSum xs + (0 + 256 * 0 + wordSum ys)))
  rw [← hfilled] at hcompl
  have hsum : A + (wordSum xs + (c.toNat % 256 + 256 * (c.toNat / 256 % 256) + wordSum ys)) =
      A + (wordSum xs + (0 + 256 * 0 + wordSum ys)) + c.toNat := by
    omega
  rw [hsum, hcompl]
  rfl

/-- A packet that is accepted, but for one byte, is not accepted. -/
theorem inetChksumPseudo_rejects (xs ys : List UInt8) {p p' : List Pbuf} {proto : UInt8}
    {protoLen : UInt16} {src dest : UInt32} {b b' : UInt8} (hne : b ≠ b')
    (hsent : bytes p = xs ++ b :: ys) (hreceived : bytes p' = xs ++ b' :: ys)
    (hchksum : inetChksumPseudo p proto protoLen src dest = 0) :
    inetChksumPseudo p' proto protoLen src dest ≠ 0 := by
  intro hchksum'
  have hp := inetChksumPseudo_eq p proto protoLen src dest
  have hp' := inetChksumPseudo_eq p' proto protoLen src dest
  have hzero : (0 : UInt16).toNat = 0 := rfl
  rw [hchksum, hsent, hzero] at hp
  rw [hchksum', hreceived, hzero] at hp'
  rw [wordSum_pseudoHeader] at hp hp'
  generalize src.toNat % 65536 + src.toNat / 65536 + (dest.toNat % 65536 + dest.toNat / 65536) +
    256 * proto.toNat + (256 * (protoLen.toNat % 256) + protoLen.toNat / 256) = A at hp hp'
  -- both sums would be multiples of 65535
  have hs := (ones_eq_iff (s := A + wordSum (xs ++ b :: ys))).mp rfl
  have hs' := (ones_eq_iff (s := A + wordSum (xs ++ b' :: ys))).mp rfl
  have hwords := ones_eq_ones.mp (ones_wordSum (xs ++ b :: ys))
  have hwords' := ones_eq_ones.mp (ones_wordSum (xs ++ b' :: ys))
  have hmod := leValue_changed_mod hne xs ys
  omega

/-- A packet of three bytes behind its checksum, in two pbufs, and how it arrives in three. -/
theorem inetChksumPseudo_accepts_cut :
    inetChksumPseudo [⟨true, [0x7a], by decide⟩, ⟨false, [0x93, 1], by decide⟩,
      ⟨true, [2, 3], by decide⟩] 17 5 0x0100a8c0 0x0200a8c0 = 0 :=
  inetChksumPseudo_accepts [] [1, 2, 3]
    (p := [⟨false, [0, 0, 1], by decide⟩, ⟨false, [2, 3], by decide⟩]) rfl rfl (by decide)

/-- One of its bytes has changed. -/
theorem inetChksumPseudo_rejects_changed :
    inetChksumPseudo [⟨false, [0x7a, 0x93, 1, 4, 3], by decide⟩] 17 5 0x0100a8c0 0x0200a8c0 ≠ 0 :=
  inetChksumPseudo_rejects [0x7a, 0x93, 1] [3] (b := 2) (by decide)
    (p := [⟨false, [0x7a, 0x93, 1, 2, 3], by decide⟩]) rfl rfl (by decide)

end Inet

end RtosLwip
