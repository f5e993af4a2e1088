import Mathlib.Algebra.Group.Nat.Defs
import Mathlib.Data.Nat.Bitwise
import Mathlib.Tactic.Ring
import RtosLwip.Mqtt.Segments

/-!
# Packets

What a stream of whole packets makes the parser do. A packet is a type byte, the
length of its body in groups of seven bits, the lowest first, and the body.

The header is taken in byte by byte (`parseLoop_digits`), and then the body in parts:
the first fills the buffer behind the header, and so does every further one but the
last. The handler is told how much is still to come, so it can put the body together.

## Main definitions

* `lengthBytes`, `Packet.encode`: How a packet is sent.
* `Call`, `recorder`: What the handler is called with, and the handler that notes it.
* `Packet.calls`: The calls that a packet makes.

## Theorems

* `Packet.flatMap_chunk`: The parts make up the body.
* `receive_packets`: A stream of packets makes the calls of its packets, in their order.
-/

namespace RtosLwip

namespace Mqtt

/-- The remaining length field. -/
def lengthBytes (n : Nat) : List UInt8 :=
  if n < 128 then [UInt8.ofNat n] else UInt8.ofNat (n % 128 + 128) :: lengthBytes (n / 128)

/-- A control packet: the first byte of its fixed header, and what is behind the header. -/
structure Packet where
  first : UInt8
  body : List UInt8
  deriving DecidableEq

namespace Packet

/-- The fixed header. -/
def header (p : Packet) : List UInt8 := p.first :: lengthBytes p.body.length

/-- The packet as it is sent. -/
def encode (p : Packet) : List UInt8 := p.header ++ p.body

end Packet

/-- What the handler is called with: the header, a part of the body, how much of the body is still
    to come, and how much was received. -/
structure Call where
  header : List UInt8
  chunk : List UInt8
  remaining : Nat
  received : Nat
  deriving DecidableEq

/-- A handler that notes what it is called with. -/
def recorder : Handler (List Call) := fun c hdr len remaining =>
  (c.app ++ [⟨(List.range hdr).map c.rxBuffer, (List.range len).map fun i => c.rxBuffer (hdr + i),
    remaining.toNat, c.msgIdx.toNat⟩], connectAccepted)

/-- The parts in which a body is passed on, of which some was passed on before. -/
def fragments (header : List UInt8) (done : Nat) (body : List UInt8) : List Call :=
  if header.length < varHeaderBufferLen ∧ varHeaderBufferLen < header.length + body.length then
    ⟨header, body.take (varHeaderBufferLen - header.length),
        body.length - (varHeaderBufferLen - header.length), done + varHeaderBufferLen⟩ ::
      fragments header (done + (varHeaderBufferLen - header.length))
        (body.drop (varHeaderBufferLen - header.length))
  else
    [⟨header, body, 0, header.length + done + body.length⟩]
  termination_by body.length
  decreasing_by
    rw [List.length_drop]
    omega

/-- The calls that a packet makes. -/
def Packet.calls (p : Packet) : List Call :=
  if p.body = [] then [⟨p.header, [], 0, p.header.length⟩] else fragments p.header 0 p.body

theorem flatMap_chunk_fragments (header : List UInt8) (done : Nat) (body : List UInt8) :
    (fragments header done body).flatMap Call.chunk = body := by
  fun_induction fragments header done body with
  | case1 done body hmore ih =>
      rw [List.flatMap_cons, ih]
      exact List.take_append_drop _ _
  | case2 done body hlast => simp

/-- The parts make up the body. -/
theorem Packet.flatMap_chunk (p : Packet) : p.calls.flatMap Call.chunk = p.body := by
  unfold Packet.calls
  split
  case isTrue hnil => simp [hnil]
  case isFalse => exact flatMap_chunk_fragments _ _ _

/-! ### The header -/

/-- What is added by a group of seven bits. -/
theorem or_digit {r : UInt32} {d : UInt8} {k : Nat} (hk : k ≤ 3) (hr : r.toNat < 128 ^ k)
    (hd : d.toNat < 128) :
    (r ||| d.toUInt32 <<< UInt32.ofNat (k * 7)).toNat = r.toNat + d.toNat * 128 ^ k := by
  have hpow : (128 : Nat) ^ k = 2 ^ (7 * k) := by
    rw [Nat.pow_mul]
  have hle : (128 : Nat) ^ k ≤ 128 ^ 3 := Nat.pow_le_pow_right (by decide) hk
  have hshift : (UInt32.ofNat (k * 7)).toNat = k * 7 :=
    UInt32.toNat_ofNat_of_lt' (Nat.lt_of_le_of_lt (Nat.mul_le_mul_right 7 hk) (by decide))
  have hprod : d.toNat * 128 ^ k < 2 ^ 32 := by
    calc d.toNat * 128 ^ k ≤ 127 * 128 ^ 3 := Nat.mul_le_mul (Nat.le_of_lt_succ hd) hle
      _ < 2 ^ 32 := by decide
  have hleft : (d.toUInt32 <<< UInt32.ofNat (k * 7)).toNat = d.toNat * 128 ^ k := by
    have hmod : k * 7 % 32 = 7 * k := by omega
    rw [UInt32.toNat_shiftLeft, hshift, UInt8.toNat_toUInt32, hmod, Nat.shiftLeft_eq, ← hpow,
      Nat.mod_eq_of_lt hprod]
  rw [UInt32.toNat_or, hleft, hpow, Nat.mul_comm d.toNat, Nat.or_comm,
    ← Nat.two_pow_add_eq_or_of_lt (by rw [← hpow]; exact hr), Nat.add_comm]

/-- Where the parser waits for a byte of the header, the byte goes into the buffer. -/
theorem iterate_byte {σ : Type} (h : Handler σ) {c : Rx σ} {l : Locals} {k : Nat} (hk : k ≤ 6)
    (hidx : c.msgIdx.toNat = k) (hhdr : l.fixedHdrIdx = k)
    (hmore : l.fixedHdrIdx < 2 ∨ l.b &&& 0x80 ≠ 0) (x : UInt8) (xs : List UInt8) :
    iterate h c l (x :: xs) =
      (headerLength h
        { c with rxBuffer := Function.update c.rxBuffer k x, msgIdx := c.msgIdx + 1 }
        { l with b := x, fixedHdrIdx := k + 1 }).map
          fun s => (s.1, s.2, xs, connectAccepted) := by
  unfold iterate headerByte
  rw [if_pos hmore, if_neg (by omega), if_pos (by rw [varHeaderBufferLen]; omega)]
  simp only [bind, Except.bind, List.headD_cons, hidx, hhdr, List.tail_cons]
  cases headerLength h _ _ with
  | error e => rfl
  | ok s => rfl

theorem toNat_succ {i : UInt32} {k : Nat} (hi : i.toNat = k) (hk : k ≤ 6) :
    (i + 1).toNat = k + 1 := by
  rw [UInt32.toNat_add, hi]
  exact Nat.mod_eq_of_lt (by simp; omega)

/-- One more entry of a function that is read from the start on. -/
theorem map_update_range (f : Nat → UInt8) (k : Nat) (x : UInt8) :
    (List.range (k + 1)).map (Function.update f k x) = (List.range k).map f ++ [x] := by
  rw [List.range_succ, List.map_append, List.map_singleton, Function.update_self]
  congr 1
  refine List.map_congr_left fun i hi => ?_
  exact Function.update_of_ne (Nat.ne_of_lt (List.mem_range.mp hi)) _ _

theorem toNat_ofNat_lt {n : Nat} (hn : n < 256) : (UInt8.ofNat n).toNat = n :=
  UInt8.toNat_ofNat_of_lt' hn

/-- A byte of the length that is the last one. -/
theorem and_last {n : Nat} (hn : n < 128) :
    UInt8.ofNat n &&& 0x80 = 0 ∧ (UInt8.ofNat n &&& 0x7f).toNat = n := by
  have h := toNat_ofNat_lt (Nat.lt_trans hn (by decide : 128 < 256))
  refine ⟨UInt8.toNat_inj.mp ?_, ?_⟩
  · rw [UInt8.toNat_and, h]
    have : (0x80 : UInt8).toNat = 2 ^ 7 := rfl
    rw [this, Nat.and_two_pow, Nat.testBit_lt_two_pow hn]
    rfl
  · rw [UInt8.toNat_and, h]
    exact (Nat.and_two_pow_sub_one_eq_mod n 7).trans (Nat.mod_eq_of_lt hn)

/-- A byte of the length behind which there is another one. -/
theorem and_continued {n : Nat} (hn : n < 128) :
    UInt8.ofNat (n + 128) &&& 0x80 ≠ 0 ∧ (UInt8.ofNat (n + 128) &&& 0x7f).toNat = n := by
  have h := toNat_ofNat_lt (by omega : n + 128 < 256)
  constructor
  · intro h0
    have hbit := congrArg UInt8.toNat h0
    rw [UInt8.toNat_and, h] at hbit
    have h80 : (0x80 : UInt8).toNat = 2 ^ 7 := rfl
    have htest : (n + 128).testBit 7 = true := by
      rw [Nat.testBit_eq_decide_div_mod_eq]
      have : (n + 128) / 2 ^ 7 = 1 := by omega
      rw [this]
      rfl
    rw [h80, Nat.and_two_pow, htest] at hbit
    exact absurd hbit (by decide)
  · rw [UInt8.toNat_and, h]
    refine (Nat.and_two_pow_sub_one_eq_mod (n + 128) 7).trans ?_
    omega

/-- The bytes of the length are taken in, and the parser knows how long the body is. -/
theorem parseLoop_digits {σ : Type} (h : Handler σ) (rest : List UInt8) (fuel : Nat) (n : Nat) :
    ∀ (c : Rx σ) (l : Locals) (k : Nat), k ≤ 3 → n < 128 ^ (4 - k) →
      c.msgIdx.toNat = k + 1 → l.fixedHdrIdx = k + 1 →
      (l.fixedHdrIdx < 2 ∨ l.b &&& 0x80 ≠ 0) → l.msgRemLen.toNat < 128 ^ k →
      l.msgRemLen.toNat + n * 128 ^ k ≠ 0 →
      ∃ (c' : Rx σ) (l' : Locals),
        parseLoop h (fuel + (lengthBytes n).length) c l (lengthBytes n ++ rest) =
          parseLoop h fuel c' l' rest ∧
        c'.app = c.app ∧ c'.msgIdx.toNat = k + 1 + (lengthBytes n).length ∧
        l'.fixedHdrIdx = k + 1 + (lengthBytes n).length ∧
        l'.msgRemLen.toNat = l.msgRemLen.toNat + n * 128 ^ k ∧ l'.b &&& 0x80 = 0 ∧
        (List.range (k + 1 + (lengthBytes n).length)).map c'.rxBuffer =
          (List.range (k + 1)).map c.rxBuffer ++ lengthBytes n := by
  fun_induction lengthBytes n with
  | case1 n hn =>
      intro c l k hk hbound hidx hhdr hmore hrem hne
      -- The last byte: its upper bit is clear, and the length is complete.
      obtain ⟨hlast, hdigit⟩ := and_last hn
      have hval := or_digit hk hrem (d := UInt8.ofNat n &&& 0x7f) (by rw [hdigit]; exact hn)
      rw [hdigit] at hval
      have hnonzero : l.msgRemLen ||| (UInt8.ofNat n &&& 0x7f).toUInt32 <<< UInt32.ofNat (k * 7) ≠
          0 := by
        intro h0
        rw [h0] at hval
        exact hne hval.symm
      have hsucc := toNat_succ hidx (by omega)
      refine ⟨{ c with rxBuffer := Function.update c.rxBuffer (k + 1) (UInt8.ofNat n),
                       msgIdx := c.msgIdx + 1 },
        ⟨l.msgRemLen ||| (UInt8.ofNat n &&& 0x7f).toUInt32 <<< UInt32.ofNat (k * 7), k + 2,
          UInt8.ofNat n⟩, ?_, rfl, hsucc, rfl, hval, hlast, map_update_range _ _ _⟩
      -- A body follows, so the first byte of it is still to come.
      have hcancel : ∀ a : UInt32, a + UInt32.ofNat (k + 2) - (c.msgIdx + 1) = a := by
        intro a
        rw [← UInt32.ofNat_toNat (x := c.msgIdx + 1), hsucc, UInt32.add_sub_cancel]
      rw [List.singleton_append, List.length_singleton, parseLoop, if_neg (by simp),
        iterate_byte h (by omega) hidx hhdr hmore]
      unfold headerLength
      dsimp only
      have hsub : k + 1 + 1 - 2 = k := by omega
      rw [if_pos (by omega), hsub, if_neg (by omega), if_pos hlast, if_neg hnonzero]
      simp only [Except.map, bind, Except.bind]
      rw [if_neg (not_not.mpr rfl), hcancel]
  | case2 n hn ih =>
      intro c l k hk hbound hidx hhdr hmore hrem hne
      -- A byte with its upper bit set, behind which there are more.
      obtain ⟨hcont, hdigit⟩ := and_continued (Nat.mod_lt n (by decide : 128 > 0))
      have hk3 : k < 3 := by
        by_contra hge
        have hk' : k = 3 := by omega
        rw [hk'] at hbound
        omega
      have hval := or_digit hk hrem (d := UInt8.ofNat (n % 128 + 128) &&& 0x7f)
        (by rw [hdigit]; exact Nat.mod_lt n (by decide))
      rw [hdigit] at hval
      have hsucc := toNat_succ hidx (by omega)
      have hpow : (128 : Nat) ^ (k + 1) = 128 ^ k * 128 := pow_succ 128 k
      -- The number is this digit and those that follow, one place further up.
      have hsplit : n % 128 * 128 ^ k + n / 128 * 128 ^ (k + 1) = n * 128 ^ k := by
        have hdiv := Nat.mod_add_div n 128
        calc n % 128 * 128 ^ k + n / 128 * 128 ^ (k + 1)
            = (n % 128 + 128 * (n / 128)) * 128 ^ k := by rw [hpow]; ring
          _ = n * 128 ^ k := by rw [hdiv]
      have hlow : n % 128 * 128 ^ k ≤ 127 * 128 ^ k :=
        Nat.mul_le_mul_right _ (Nat.le_of_lt_succ (Nat.mod_lt n (by decide)))
      have hbound' : n / 128 < 128 ^ (4 - (k + 1)) := by
        have h4 : 4 - k = 4 - (k + 1) + 1 := by omega
        rw [h4, pow_succ] at hbound
        exact Nat.div_lt_of_lt_mul (by rw [Nat.mul_comm]; exact hbound)
      -- One turn of the loop takes this byte in, and goes on with the header.
      have hturn : iterate h c l ((UInt8.ofNat (n % 128 + 128) :: lengthBytes (n / 128)) ++ rest) =
          .ok ({ c with
              rxBuffer := Function.update c.rxBuffer (k + 1) (UInt8.ofNat (n % 128 + 128))
              msgIdx := c.msgIdx + 1 },
            ⟨l.msgRemLen ||| (UInt8.ofNat (n % 128 + 128) &&& 0x7f).toUInt32 <<<
                UInt32.ofNat (k * 7), k + 2, UInt8.ofNat (n % 128 + 128)⟩,
            lengthBytes (n / 128) ++ rest, connectAccepted) := by
        rw [List.cons_append, iterate_byte h (by omega) hidx hhdr hmore]
        unfold headerLength
        dsimp only
        have hsub : k + 1 + 1 - 2 = k := by omega
        rw [if_pos (by omega), hsub, if_neg (by omega), if_neg hcont]
        rfl
      obtain ⟨c', l', h1, h2, h3, h4, h5, h6, h7⟩ := ih
        { c with
          rxBuffer := Function.update c.rxBuffer (k + 1) (UInt8.ofNat (n % 128 + 128))
          msgIdx := c.msgIdx + 1 }
        ⟨l.msgRemLen ||| (UInt8.ofNat (n % 128 + 128) &&& 0x7f).toUInt32 <<< UInt32.ofNat (k * 7),
          k + 2, UInt8.ofNat (n % 128 + 128)⟩ (k + 1) (by omega) hbound' hsucc rfl (.inr hcont)
        (by dsimp only; omega) (by dsimp only; omega)
      refine ⟨c', l', ?_, h2, ?_, ?_, ?_, h6, ?_⟩
      · rw [List.length_cons, ← Nat.add_assoc, parseLoop, if_neg (by simp), hturn]
        simp only [bind, Except.bind]
        rw [if_neg (not_not.mpr rfl)]
        exact h1
      · rw [h3, List.length_cons]
        omega
      · rw [h4, List.length_cons]
        omega
      · rw [h5]
        dsimp only
        omega
      · rw [map_update_range] at h7
        have hlen : k + 1 + (UInt8.ofNat (n % 128 + 128) :: lengthBytes (n / 128)).length =
            k + 1 + 1 + (lengthBytes (n / 128)).length := by
          rw [List.length_cons]
          omega
        rw [hlen, h7, List.append_assoc, List.singleton_append]

/-! ### The body -/

/-- What was copied behind the header is read back. -/
theorem map_copyPartial (buf : Nat → UInt8) (start : Nat) (xs : List UInt8) :
    (List.range xs.length).map (fun i => copyPartial buf start xs (start + i)) = xs := by
  refine List.ext_getElem (by simp) fun i h1 h2 => ?_
  rw [List.getElem_map, List.getElem_range, copyPartial, if_pos (Nat.le_add_right _ _),
    Nat.add_sub_cancel_left, List.getElem?_eq_getElem h2]
  rfl

theorem map_copyPartial_header (buf : Nat → UInt8) (start : Nat) (xs : List UInt8) :
    (List.range start).map (copyPartial buf start xs) = (List.range start).map buf :=
  List.map_congr_left fun _ hi => if_neg (Nat.not_le.mpr (List.mem_range.mp hi))

/-- A turn on a body, of which as much goes into the buffer as there is, or as fits. -/
theorem iterate_body {c : Rx (List Call)} {l : Locals} {header body : List UInt8} {done n : Nat}
    (hn : n = min body.length (varHeaderBufferLen - header.length)) (hlo : 2 ≤ header.length)
    (hhi : header.length ≤ 6) (hhdr : l.fixedHdrIdx = header.length) (hlast : l.b &&& 0x80 = 0)
    (hrem : l.msgRemLen.toNat = body.length) (hidx : c.msgIdx.toNat = header.length + done)
    (hlt : header.length + done + body.length < 2 ^ 32)
    (hmod : done % (varHeaderBufferLen - header.length) = 0)
    (hheader : (List.range header.length).map c.rxBuffer = header) :
    iterate recorder c l body =
      .ok ({ msgIdx := if n = body.length then 0 else c.msgIdx + UInt32.ofNat n
             rxBuffer := copyPartial c.rxBuffer header.length (body.take n)
             app := c.app ++ [⟨header, body.take n, body.length - n, header.length + done + n⟩] },
        { l with
          msgRemLen := l.msgRemLen - UInt32.ofNat n
          fixedHdrIdx := if n = body.length then 0 else l.fixedHdrIdx },
        body.drop n, connectAccepted) := by
  have hmore : ¬ (l.fixedHdrIdx < 2 ∨ l.b &&& 0x80 ≠ 0) := by
    rintro (h1 | h1)
    · omega
    · exact h1 hlast
  have hofNat : ∀ k, k ≤ header.length + done + body.length → (UInt32.ofNat k).toNat = k :=
    fun k hk => UInt32.toNat_ofNat_of_lt' (Nat.lt_of_le_of_lt hk hlt)
  have hbuflen : varHeaderBufferLen = 128 := rfl
  have hle : UInt32.ofNat header.length ≤ c.msgIdx := by
    rw [UInt32.le_iff_toNat_le, hofNat _ (by omega)]
    omega
  have hstart : (c.msgIdx - UInt32.ofNat header.length).toNat %
      (varHeaderBufferLen - header.length) + header.length = header.length := by
    rw [UInt32.toNat_sub_of_le _ _ hle, hofNat _ (by omega), hidx, Nat.add_sub_cancel_left,
      hmod, Nat.zero_add]
  have hcount : min (min body.length l.msgRemLen.toNat) (varHeaderBufferLen - header.length) =
      n := by
    rw [hrem, hn, Nat.min_self]
  have hrem' : (l.msgRemLen - UInt32.ofNat n).toNat = body.length - n := by
    rw [UInt32.toNat_sub_of_le _ _ (by rw [UInt32.le_iff_toNat_le, hofNat _ (by omega)]; omega),
      hofNat _ (by omega), hrem]
  have hidx' : (c.msgIdx + UInt32.ofNat n).toNat = header.length + done + n := by
    rw [UInt32.toNat_add, hofNat _ (by omega), hidx]
    exact Nat.mod_eq_of_lt (by omega)
  have hzero : l.msgRemLen - UInt32.ofNat n = 0 ↔ n = body.length := by
    rw [← UInt32.toNat_inj, hrem']
    have : (0 : UInt32).toNat = 0 := rfl
    omega
  have hlen : (body.take n).length = n := by
    rw [List.length_take]
    omega
  have hpass : n = body.length ∨ n = varHeaderBufferLen - header.length := by omega
  have hread := map_copyPartial c.rxBuffer header.length (body.take n)
  rw [hlen] at hread
  have hread' := (map_copyPartial_header c.rxBuffer header.length (body.take n)).trans hheader
  unfold iterate
  rw [if_neg hmore]
  unfold copyBody
  simp only [hhdr, hstart, hcount, Nat.add_sub_cancel_left, recorder, hread, hread', hrem', hidx',
    hzero]
  rw [if_pos hpass, if_neg (not_not.mpr rfl)]
  by_cases hall : n = body.length
  · rw [if_pos hall, if_pos hall, if_pos hall]
  · rw [if_neg hall, if_neg hall, if_neg hall]

/-- The body is taken in part by part. -/
theorem parseLoop_body (header : List UInt8) (done : Nat) (body : List UInt8) :
    ∀ (fuel : Nat) (c : Rx (List Call)) (l : Locals), body.length < fuel → body ≠ [] →
      2 ≤ header.length → header.length ≤ 6 → l.fixedHdrIdx = header.length →
      l.b &&& 0x80 = 0 → l.msgRemLen.toNat = body.length →
      c.msgIdx.toNat = header.length + done → header.length + done + body.length < 2 ^ 32 →
      done % (varHeaderBufferLen - header.length) = 0 →
      (List.range header.length).map c.rxBuffer = header →
      ∃ c' : Rx (List Call), parseLoop recorder fuel c l body = .ok (c', connectAccepted) ∧
        c'.app = c.app ++ fragments header done body ∧ c'.msgIdx = 0 := by
  fun_induction fragments header done body with
  | case1 done body hmore ih =>
      intro fuel c l hfuel hne hlo hhi hhdr hlast hrem hidx hlt hmod hheader
      obtain ⟨fuel, rfl⟩ : ∃ f, fuel = f + 1 := ⟨fuel - 1, by omega⟩
      -- the buffer is filled
      have hn : varHeaderBufferLen - header.length =
          min body.length (varHeaderBufferLen - header.length) := by omega
      have hall : varHeaderBufferLen - header.length ≠ body.length := by omega
      have hturn := iterate_body hn hlo hhi hhdr hlast hrem hidx hlt hmod hheader
      rw [if_neg hall, if_neg hall] at hturn
      have hofNat : (UInt32.ofNat (varHeaderBufferLen - header.length)).toNat =
          varHeaderBufferLen - header.length := UInt32.toNat_ofNat_of_lt' (by
        rw [varHeaderBufferLen, UInt32.size]
        omega)
      have hlen := List.length_drop (i := varHeaderBufferLen - header.length) (l := body)
      obtain ⟨c', h1, h2, h3⟩ := ih fuel
        { msgIdx := c.msgIdx + UInt32.ofNat (varHeaderBufferLen - header.length)
          rxBuffer := copyPartial c.rxBuffer header.length
            (body.take (varHeaderBufferLen - header.length))
          app := c.app ++ [⟨header, body.take (varHeaderBufferLen - header.length),
            body.length - (varHeaderBufferLen - header.length), done + varHeaderBufferLen⟩] }
        { l with msgRemLen := l.msgRemLen - UInt32.ofNat (varHeaderBufferLen - header.length) }
        (by omega) (by rw [Ne, ← List.length_eq_zero_iff]; omega) hlo hhi hhdr hlast
        (by
          dsimp only
          rw [UInt32.toNat_sub_of_le _ _ (by rw [UInt32.le_iff_toNat_le, hofNat]; omega), hofNat,
            hlen, hrem])
        (by
          dsimp only
          rw [UInt32.toNat_add, hofNat, hidx, Nat.mod_eq_of_lt (by omega), Nat.add_assoc])
        (by omega) (by rw [Nat.add_mod_right]; exact hmod)
        (by
          dsimp only
          rw [map_copyPartial_header]
          exact hheader)
      have hsum : header.length + done + (varHeaderBufferLen - header.length) =
          done + varHeaderBufferLen := by omega
      rw [hsum] at hturn
      refine ⟨c', ?_, ?_, h3⟩
      · rw [parseLoop, if_neg (by simpa using hne), hturn]
        simp only [bind, Except.bind]
        rw [if_neg (not_not.mpr rfl)]
        exact h1
      · rw [h2, List.append_assoc, List.singleton_append]
  | case2 done body hlastpart =>
      intro fuel c l hfuel hne hlo hhi hhdr hlast hrem hidx hlt hmod hheader
      obtain ⟨fuel, rfl⟩ : ∃ f, fuel = f + 2 := by
        have := List.length_pos_iff.mpr hne
        exact ⟨fuel - 2, by omega⟩
      have hbuflen : varHeaderBufferLen = 128 := rfl
      have hn : body.length = min body.length (varHeaderBufferLen - header.length) := by omega
      have hturn := iterate_body hn hlo hhi hhdr hlast hrem hidx hlt hmod hheader
      rw [if_pos rfl, if_pos rfl, List.take_length, List.drop_length, Nat.sub_self] at hturn
      refine ⟨⟨0, copyPartial c.rxBuffer header.length body,
        c.app ++ [⟨header, body, 0, header.length + done + body.length⟩]⟩, ?_, rfl, rfl⟩
      rw [parseLoop, if_neg (by simpa using hne), hturn]
      simp only [bind, Except.bind]
      rw [if_neg (not_not.mpr rfl), parseLoop, if_pos List.isEmpty_nil]

/-! ### Whole packets -/

theorem lengthBytes_ne_nil (n : Nat) : lengthBytes n ≠ [] := by
  rw [lengthBytes]
  split
  · exact List.cons_ne_nil _ _
  · exact List.cons_ne_nil _ _

/-- The length of a short body takes few bytes. -/
theorem length_lengthBytes_le {n k : Nat} (hn : n < 128 ^ (k + 1)) :
    (lengthBytes n).length ≤ k + 1 := by
  induction k generalizing n with
  | zero =>
      rw [lengthBytes, if_pos (by simpa using hn)]
      exact Nat.le_refl 1
  | succ k ih =>
      rw [lengthBytes]
      split
      · exact Nat.le_add_left 1 _
      · rw [pow_succ, Nat.mul_comm] at hn
        have := ih (Nat.div_lt_of_lt_mul hn)
        rw [List.length_cons]
        omega

/-- A packet is taken in: its calls are made, and the next message may begin. -/
theorem parseIncoming_encode (p : Packet) {c : Rx (List Call)} (hstart : c.msgIdx = 0)
    (hlen : p.body.length < 2 ^ 28) :
    ∃ c' : Rx (List Call), parseIncoming recorder c p.encode = .ok (c', connectAccepted) ∧
      c'.app = c.app ++ p.calls ∧ c'.msgIdx = 0 := by
  have hidx0 : c.msgIdx.toNat = 0 := by
    rw [hstart]
    rfl
  have hidx1 : (c.msgIdx + 1).toNat = 0 + 1 := toNat_succ hidx0 (by omega)
  -- The first byte is taken in, which is the type of the packet.
  have hfirst : iterate recorder c ⟨0, 0, 0⟩ p.encode =
      .ok ({ c with rxBuffer := Function.update c.rxBuffer 0 p.first, msgIdx := c.msgIdx + 1 },
        ⟨0, 1, p.first⟩, lengthBytes p.body.length ++ p.body, connectAccepted) := by
    rw [Packet.encode, Packet.header, List.cons_append,
      iterate_byte recorder (by omega) hidx0 rfl (.inl (by decide))]
    rfl
  have hread : (List.range (0 + 1)).map (Function.update c.rxBuffer 0 p.first) = [p.first] := by
    simp
  -- The fuel is enough for a turn on each byte.
  have hfuel : p.encode.length + varHeaderBufferLen =
      p.body.length + varHeaderBufferLen + (lengthBytes p.body.length).length + 1 := by
    rw [Packet.encode, Packet.header, List.length_append, List.length_cons]
    omega
  have hturn : parseIncoming recorder c p.encode =
      parseLoop recorder (p.body.length + varHeaderBufferLen + (lengthBytes p.body.length).length)
        { c with rxBuffer := Function.update c.rxBuffer 0 p.first, msgIdx := c.msgIdx + 1 }
        ⟨0, 1, p.first⟩ (lengthBytes p.body.length ++ p.body) := by
    have hne : ¬ p.encode.isEmpty = true := by simp [Packet.encode, Packet.header]
    unfold parseIncoming
    rw [hfuel, parseLoop, if_neg hne, hfirst]
    simp only [bind, Except.bind]
    rw [if_neg (not_not.mpr rfl)]
  rw [hturn]
  by_cases hbody : p.body = []
  · -- the second byte ends the message
    have hzero : lengthBytes p.body.length = [0] := by
      rw [hbody, lengthBytes]
      rfl
    have hend : iterate recorder
        { c with rxBuffer := Function.update c.rxBuffer 0 p.first, msgIdx := c.msgIdx + 1 }
        ⟨0, 1, p.first⟩ [0] =
          .ok ({ msgIdx := 0
                 rxBuffer := Function.update (Function.update c.rxBuffer 0 p.first) 1 0
                 app := c.app ++ [⟨[p.first, 0], [], 0, 2⟩] }, ⟨0, 0, 0⟩, [], connectAccepted) := by
      rw [iterate_byte recorder (Nat.le_add_left 1 5) hidx1 rfl (.inl (Nat.lt_succ_self 1))]
      have hread : (List.range 2).map
          (Function.update (Function.update c.rxBuffer 0 p.first) 1 0) = [p.first, 0] := by
        simp [List.range_succ]
      have hidx2 : (c.msgIdx + 1 + 1).toNat = 2 := toNat_succ hidx1 (by omega)
      unfold headerLength recorder
      dsimp only [Nat.zero_add, Nat.reduceAdd]
      have hlast : (0 : UInt8) &&& 0x80 = 0 := rfl
      have hempty : (0 : UInt32) ||| ((0 : UInt8) &&& 0x7f).toUInt32 <<<
          UInt32.ofNat ((2 - 2) * 7) = 0 := rfl
      rw [hread, hidx2, if_pos (Nat.le_refl 2), if_neg (by omega), if_pos hlast, if_pos hempty,
        hempty]
      rfl
    refine ⟨⟨0, Function.update (Function.update c.rxBuffer 0 p.first) 1 0,
      c.app ++ [⟨[p.first, 0], [], 0, 2⟩]⟩, ?_, ?_, rfl⟩
    · rw [hzero, hbody, List.append_nil, List.length_singleton, parseLoop,
        if_neg (by simp : ¬ [(0 : UInt8)].isEmpty = true), hend]
      simp only [bind, Except.bind]
      rw [if_neg (not_not.mpr rfl), List.length_nil, Nat.zero_add, varHeaderBufferLen, parseLoop,
        if_pos List.isEmpty_nil]
    · rw [Packet.calls, if_pos hbody, Packet.header, hzero]
      rfl
  · -- the length is taken in, and then the body in parts
    obtain ⟨c₁, l₁, h1, h2, h3, h4, h5, h6, h7⟩ := parseLoop_digits recorder p.body
      (p.body.length + varHeaderBufferLen) p.body.length
      { c with rxBuffer := Function.update c.rxBuffer 0 p.first, msgIdx := c.msgIdx + 1 }
      ⟨0, 1, p.first⟩ 0 (by omega) hlen hidx1 rfl (.inl (Nat.lt_succ_self 1)) (by simp)
      (by
        have := List.length_pos_iff.mpr hbody
        simp only [pow_zero]
        omega)
    have hheader : p.header.length = 0 + 1 + (lengthBytes p.body.length).length := by
      rw [Packet.header, List.length_cons]
      omega
    have hpos := List.length_pos_iff.mpr (lengthBytes_ne_nil p.body.length)
    have hdigits := length_lengthBytes_le (k := 3) hlen
    rw [hread] at h7
    obtain ⟨c₂, g1, g2, g3⟩ := parseLoop_body p.header 0 p.body (p.body.length + varHeaderBufferLen)
      c₁ l₁ (by rw [varHeaderBufferLen]; omega) hbody (by omega) (by omega) (by omega) h6
      (by rw [h5]; simp) (by omega) (by omega) (Nat.zero_mod _) (by rw [hheader, h7]; rfl)
    refine ⟨c₂, h1.trans g1, ?_, g3⟩
    rw [g2, h2, Packet.calls, if_neg hbody]

/-- What the parser is about to do: it is inside a packet, of which `s` is still to come, then come
    other packets, and in the end the calls are `calls`. -/
structure Midway (c : Rx (List Call)) (l : Locals) (s : List UInt8) (ps : List Packet)
    (calls : List Call) : Prop where
  ready : Ready c l
  bound : c.msgIdx.toNat + s.length < 2 ^ 29
  short : ∀ p ∈ ps, p.body.length < 2 ^ 28
  finish : ∃ c' l', byteRun recorder c l s = .ok (c', l', connectAccepted) ∧ c'.msgIdx = 0 ∧
    c'.app ++ ps.flatMap Packet.calls = calls

namespace Midway

variable {c : Rx (List Call)} {l : Locals} {s : List UInt8} {ps : List Packet} {calls : List Call}

/-- Behind a packet, the next one begins. -/
theorem next {p : Packet} (hm : Midway c l [] (p :: ps) calls) : Midway c l p.encode ps calls := by
  obtain ⟨hready, hbound, hshort, c', l', hrun, hidx, happ⟩ := hm
  obtain ⟨rfl, rfl, -⟩ := by simpa only [byteRun, Except.ok.injEq, Prod.mk.injEq] using hrun
  have hp := hshort p (List.mem_cons_self ..)
  have hlen : p.encode.length < 2 ^ 29 := by
    have hdigits := length_lengthBytes_le (k := 3) hp
    rw [Packet.encode, Packet.header, List.length_append, List.length_cons]
    omega
  have hidx0 : c.msgIdx.toNat = 0 := by
    rw [hidx]
    rfl
  obtain ⟨c₂, h1, h2, h3⟩ := parseIncoming_encode p hidx hp
  rw [parseIncoming_eq recorder hready (by omega)] at h1
  cases hbytes : byteRun recorder c l p.encode with
  | error e =>
      rw [hbytes] at h1
      cases h1
  | ok r =>
      obtain ⟨c₃, l₃, st⟩ := r
      rw [hbytes] at h1
      obtain ⟨rfl, rfl⟩ := by
        simpa only [Except.map, Except.ok.injEq, Prod.mk.injEq] using h1
      refine ⟨hready, by omega, fun q hq => hshort q (List.mem_cons_of_mem p hq), c₃, l₃, hbytes,
        h3, ?_⟩
      rw [h2, List.append_assoc]
      exact happ

/-- A byte of the packet is taken in. -/
theorem step_cons {x : UInt8} (hm : Midway c l (x :: s) ps calls) :
    ∃ c' l' rest, iterate recorder c l [x] = .ok (c', l', rest, connectAccepted) ∧
      Midway c' l' s ps calls := by
  obtain ⟨hready, hbound, hshort, c₁, l₁, hrun, hidx, happ⟩ := hm
  rw [List.length_cons] at hbound
  rw [byteRun] at hrun
  cases hone : iterate recorder c l [x] with
  | error e =>
      rw [hone] at hrun
      cases hrun
  | ok r =>
      obtain ⟨c', l', rest, st⟩ := r
      rw [hone] at hrun
      simp only [bind, Except.bind] at hrun
      by_cases hst : st = connectAccepted
      · subst hst
        rw [if_neg (not_not.mpr rfl)] at hrun
        have hle := Ready.msgIdx_iterate hone
        exact ⟨c', l', rest, rfl, hready.step (by omega) hone, by omega, hshort, c₁, l₁, hrun,
          hidx, happ⟩
      · rw [if_pos hst] at hrun
        cases hrun
        exact absurd rfl hst

/-- A byte of the stream is taken in. -/
theorem step {x : UInt8} {r : List UInt8} (hm : Midway c l s ps calls)
    (hstream : s ++ ps.flatMap Packet.encode = x :: r) :
    ∃ c' l' rest s' ps', iterate recorder c l [x] = .ok (c', l', rest, connectAccepted) ∧
      Midway c' l' s' ps' calls ∧ s' ++ ps'.flatMap Packet.encode = r := by
  cases s with
  | nil =>
      cases ps with
      | nil => cases hstream
      | cons p ps =>
          -- another packet begins
          have hm' := hm.next
          rw [List.nil_append, List.flatMap_cons, Packet.encode, Packet.header, List.cons_append,
            List.cons_append] at hstream
          obtain ⟨rfl, rfl⟩ := List.cons.inj hstream
          rw [Packet.encode, Packet.header, List.cons_append] at hm'
          obtain ⟨c', l', rest, hone, hrest⟩ := hm'.step_cons
          exact ⟨c', l', rest, _, ps, hone, hrest, rfl⟩
  | cons y s =>
      rw [List.cons_append] at hstream
      obtain ⟨rfl, rfl⟩ := List.cons.inj hstream
      obtain ⟨c', l', rest, hone, hrest⟩ := hm.step_cons
      exact ⟨c', l', rest, s, ps, hone, hrest, rfl⟩

/-- Some bytes of the stream are taken in. -/
theorem run {p r : List UInt8} (hm : Midway c l s ps calls)
    (hstream : s ++ ps.flatMap Packet.encode = p ++ r) :
    ∃ c' l' s' ps', byteRun recorder c l p = .ok (c', l', connectAccepted) ∧
      Midway c' l' s' ps' calls ∧ s' ++ ps'.flatMap Packet.encode = r := by
  induction p generalizing c l s ps with
  | nil => exact ⟨c, l, s, ps, rfl, hm, hstream⟩
  | cons x p ih =>
      obtain ⟨c₁, l₁, rest, s₁, ps₁, hone, hm₁, hstream₁⟩ := hm.step hstream
      obtain ⟨c', l', s', ps', hrun, hm', hstream'⟩ := ih hm₁ hstream₁
      refine ⟨c', l', s', ps', ?_, hm', hstream'⟩
      rw [byteRun, hone]
      simp only [bind, Except.bind]
      rw [if_neg (not_not.mpr rfl)]
      exact hrun

/-- Where the stream ends, all calls were made. -/
theorem done (hm : Midway c l s ps calls) (hs : s = []) (hps : ps = []) :
    c.msgIdx = 0 ∧ c.app = calls := by
  subst hs hps
  obtain ⟨hready, hbound, hshort, c', l', hrun, hidx, happ⟩ := hm
  obtain ⟨rfl, rfl, -⟩ := by simpa only [byteRun, Except.ok.injEq, Prod.mk.injEq] using hrun
  exact ⟨hidx, by simpa using happ⟩

/-- The pieces of the stream are taken in. -/
theorem receive {pieces : List (List UInt8)} (hm : Midway c l s ps calls)
    (hshort : ∀ p ∈ pieces, p.length < 2 ^ 16)
    (hstream : pieces.flatten = s ++ ps.flatMap Packet.encode) :
    ∃ c', Mqtt.receive recorder c pieces = .ok (c', connectAccepted) ∧ c'.msgIdx = 0 ∧
      c'.app = calls := by
  induction pieces generalizing c l s ps with
  | nil =>
      obtain ⟨hs, hps⟩ := List.append_eq_nil_iff.mp hstream.symm
      refine ⟨c, rfl, hm.done hs ?_⟩
      cases ps with
      | nil => rfl
      | cons p ps => cases hps
  | cons p pieces ih =>
      rw [List.flatten_cons] at hstream
      obtain ⟨c₁, l₁, s₁, ps₁, hrun, hm₁, hstream₁⟩ := hm.run hstream.symm
      obtain ⟨c', h1, h2, h3⟩ := ih hm₁ (fun q hq => hshort q (List.mem_cons_of_mem p hq))
        hstream₁.symm
      refine ⟨c', ?_, h2, h3⟩
      have hp := hshort p (List.mem_cons_self ..)
      have hbound := hm.bound
      rw [Mqtt.receive, parseIncoming_eq recorder hm.ready (by omega), hrun]
      simp only [Except.map, bind, Except.bind]
      rw [if_neg (not_not.mpr rfl)]
      exact h1

end Midway

/-- A stream of packets, cut anywhere into pieces of the lengths that a buffer chain can have, makes
    the calls of its packets, one packet after the other. -/
theorem receive_packets {c : Rx (List Call)} {ps : List Packet} {pieces : List (List UInt8)}
    (hstart : c.msgIdx = 0) (hbody : ∀ p ∈ ps, p.body.length < 2 ^ 28)
    (hpiece : ∀ p ∈ pieces, p.length < 2 ^ 16)
    (hstream : pieces.flatten = ps.flatMap Packet.encode) :
    ∃ c', receive recorder c pieces = .ok (c', connectAccepted) ∧
      c'.app = c.app ++ ps.flatMap Packet.calls ∧ c'.msgIdx = 0 := by
  have hm : Midway c ⟨0, 0, 0⟩ [] ps (c.app ++ ps.flatMap Packet.calls) := by
    refine ⟨.start hstart rfl rfl, ?_, hbody, c, ⟨0, 0, 0⟩, rfl, hstart, rfl⟩
    rw [hstart]
    exact Nat.lt_of_lt_of_eq (Nat.two_pow_pos 29) rfl
  obtain ⟨c', h1, h2, h3⟩ := hm.receive hpiece hstream
  exact ⟨c', h1, h3, h2⟩

/-- A PINGRESP and a PUBLISH, cut behind the type byte of the second. -/
theorem receive_packets_cut :
    ∃ c', receive recorder ⟨0, fun _ => 0, []⟩ [[0xd0, 0, 0x30], [3, 0, 1, 97]] =
        .ok (c', connectAccepted) ∧
      c'.app = [] ++ [⟨0xd0, []⟩, ⟨0x30, [0, 1, 97]⟩].flatMap Packet.calls ∧ c'.msgIdx = 0 :=
  receive_packets rfl (by simp) (by simp) (by simp [Packet.encode, Packet.header, lengthBytes])

end Mqtt

end RtosLwip
