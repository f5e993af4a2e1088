import Mathlib.Algebra.Group.Nat.Defs
import Mathlib.Data.Nat.Basic
import RtosLwip.Mqtt.Parse

/-!
# Pieces of Incoming Data

TCP cuts the stream of messages anywhere, and the parser must not see the cuts.
Between two pieces of data it keeps the buffer and `msg_idx`, and reads the header
once more when the next piece comes. `Ready` says what its variables then are: none at
the start of a message, those behind the bytes of the header that were received, or
those behind the whole header less the part of the body that was received.

A part of the body is copied at once, as long as it may be. `copyBody_cons` takes its
first byte apart: a copy is the same as a copy of one byte and a copy of the rest, for
the handler is called at the same places. So whatever the piece, the parser does what
it would have done with the bytes one by one (`parseLoop_eq`), and from this the cuts
do not matter.

## Main definitions

* `headerLocals`: The variables behind some bytes of the header.
* `Ready`: The variables are what the client keeps makes them.
* `byteRun`: The bytes taken in one by one.

## Theorems

* `parseIncoming_eq`: A piece is taken in as its bytes are.
* `parseIncoming_append`: A piece may be cut in two.
* `receive_congr`: All ways to cut a stream give the same.
-/

namespace RtosLwip

namespace Mqtt

variable {σ : Type}

/-- The variables behind the first bytes of the header. -/
def headerLocals (buf : Nat → UInt8) : Nat → Locals
  | 0 => ⟨0, 0, 0⟩
  | n + 1 =>
    { msgRemLen :=
        if 2 ≤ n + 1 then
          (headerLocals buf n).msgRemLen |||
            (buf n &&& 0x7f).toUInt32 <<< UInt32.ofNat ((n + 1 - 2) * 7)
        else (headerLocals buf n).msgRemLen
      fixedHdrIdx := n + 1
      b := buf n }

@[simp] theorem fixedHdrIdx_headerLocals (buf : Nat → UInt8) (n : Nat) :
    (headerLocals buf n).fixedHdrIdx = n := by
  cases n <;> rfl

/-- Only the bytes that were read matter. -/
theorem headerLocals_congr {buf buf' : Nat → UInt8} {n : Nat} (h : ∀ i < n, buf' i = buf i) :
    headerLocals buf' n = headerLocals buf n := by
  induction n with
  | zero => rfl
  | succ n ih =>
      have hn := ih fun i hi => h i (Nat.lt_succ_of_lt hi)
      simp only [headerLocals, hn, h n (Nat.lt_succ_self n)]

/-- Every byte of the length up to the last one that was read says that there is another one. -/
def Continues (buf : Nat → UInt8) (n : Nat) : Prop := ∀ i, 1 ≤ i → i < n → buf i &&& 0x80 ≠ 0

/-- The variables of the parser are those that the client's data make. -/
inductive Ready (c : Rx σ) (l : Locals) : Prop where
  /-- A message begins. -/
  | start (hidx : c.msgIdx = 0) (hrem : l.msgRemLen = 0) (hhdr : l.fixedHdrIdx = 0)
  /-- Some bytes of the header were received. -/
  | header (hpos : 0 < l.fixedHdrIdx) (hle : l.fixedHdrIdx ≤ 6)
      (hidx : c.msgIdx.toNat = l.fixedHdrIdx) (hcont : Continues c.rxBuffer l.fixedHdrIdx)
      (hl : l = headerLocals c.rxBuffer l.fixedHdrIdx)
  /-- The header was received, and a part of the body. -/
  | body (hpos : 2 ≤ l.fixedHdrIdx) (hle : l.fixedHdrIdx ≤ 6)
      (hidx : l.fixedHdrIdx ≤ c.msgIdx.toNat)
      (hcont : Continues c.rxBuffer (l.fixedHdrIdx - 1))
      (hb : l.b = c.rxBuffer (l.fixedHdrIdx - 1)) (hlast : l.b &&& 0x80 = 0)
      (hlen : (headerLocals c.rxBuffer l.fixedHdrIdx).msgRemLen ≠ 0)
      (hrem : l.msgRemLen = (headerLocals c.rxBuffer l.fixedHdrIdx).msgRemLen +
        UInt32.ofNat l.fixedHdrIdx - c.msgIdx) (hne : l.msgRemLen ≠ 0)

/-- The bytes are taken in one by one. -/
def byteRun (h : Handler σ) (c : Rx σ) (l : Locals) :
    List UInt8 → Except Fault (Rx σ × Locals × Status)
  | [] => .ok (c, l, connectAccepted)
  | x :: xs => do
    let r ← iterate h c l [x]
    if r.2.2.2 ≠ connectAccepted then return (r.1, r.2.1, r.2.2.2)
    else byteRun h r.1 r.2.1 xs

/-! ### The header is read again -/

/-- A byte of the header that is not the last one is read again. -/
theorem iterate_reread (h : Handler σ) (c : Rx σ) {n : Nat} {rest : List UInt8} (hn : n < 6)
    (hidx : n < c.msgIdx.toNat) (hcont : Continues c.rxBuffer (n + 1)) :
    iterate h c (headerLocals c.rxBuffer n) rest =
      .ok (c, headerLocals c.rxBuffer (n + 1), rest, connectAccepted) := by
  have hmore : (headerLocals c.rxBuffer n).fixedHdrIdx < 2 ∨
      (headerLocals c.rxBuffer n).b &&& 0x80 ≠ 0 := by
    rw [fixedHdrIdx_headerLocals]
    cases n with
    | zero => exact .inl (by decide)
    | succ n =>
        cases n with
        | zero => exact .inl (by decide)
        | succ n => exact .inr (hcont (n + 1) (Nat.succ_pos n) (by omega))
  have hbyte : headerByte c (headerLocals c.rxBuffer n) rest =
      .ok (c, { headerLocals c.rxBuffer n with b := c.rxBuffer n, fixedHdrIdx := n + 1 }, rest) := by
    unfold headerByte
    rw [fixedHdrIdx_headerLocals, if_pos hidx]
  have hlength : headerLength h c
      { headerLocals c.rxBuffer n with b := c.rxBuffer n, fixedHdrIdx := n + 1 } =
        .ok (c, headerLocals c.rxBuffer (n + 1)) := by
    unfold headerLength
    dsimp only
    by_cases h2 : 2 ≤ n + 1
    · rw [if_pos h2, if_neg (by omega), if_neg (hcont n (by omega) (Nat.lt_succ_self n)),
        headerLocals, if_pos h2]
    · rw [if_neg h2, headerLocals, if_neg h2]
  unfold iterate
  rw [if_pos hmore, hbyte]
  simp only [bind, Except.bind, hlength]
  rfl

/-- The bytes of the header that were received are read again, and nothing is called. -/
theorem parseLoop_reread (h : Handler σ) (c : Rx σ) {rest : List UInt8} (hrest : rest ≠ [])
    {n : Nat} (hn : n ≤ 6) (hidx : n ≤ c.msgIdx.toNat) (hcont : Continues c.rxBuffer n)
    (fuel : Nat) :
    parseLoop h (n + fuel) c ⟨0, 0, 0⟩ rest =
      parseLoop h fuel c (headerLocals c.rxBuffer n) rest := by
  induction n generalizing fuel with
  | zero => rw [Nat.zero_add, headerLocals]
  | succ n ih =>
      have hnil : ¬ rest.isEmpty = true := by
        rw [List.isEmpty_iff]
        exact hrest
      rw [Nat.add_right_comm, Nat.add_assoc, ih (by omega) (by omega)
        (fun i h1 h2 => hcont i h1 (by omega)), parseLoop, if_neg hnil,
        iterate_reread h c (by omega) (by omega) hcont]
      rfl

/-- From the data that the client keeps, the parser gets to where it was. -/
theorem Ready.reread {c : Rx σ} {l : Locals} (hr : Ready c l) (h : Handler σ)
    {rest : List UInt8} (hrest : rest ≠ []) :
    ∃ n ≤ 6, ∀ fuel, parseLoop h (n + fuel) c ⟨0, 0, 0⟩ rest = parseLoop h fuel c l rest := by
  have hnil : ¬ rest.isEmpty = true := by
    rw [List.isEmpty_iff]
    exact hrest
  cases hr with
  | start hidx hrem hhdr =>
      refine ⟨0, Nat.zero_le _, fun fuel => ?_⟩
      rw [Nat.zero_add]
      cases fuel with
      | zero => rfl
      | succ fuel =>
          obtain ⟨rem, hdr, b⟩ := l
          obtain rfl : rem = 0 := hrem
          obtain rfl : hdr = 0 := hhdr
          rfl
  | header hpos hle hidx hcont hl =>
      refine ⟨l.fixedHdrIdx, hle, fun fuel => ?_⟩
      rw [parseLoop_reread h c hrest hle (by omega) hcont, ← hl]
  | body hpos hle hidx hcont hb hlast hlen hrem hne =>
      refine ⟨l.fixedHdrIdx, hle, fun fuel => ?_⟩
      obtain ⟨n, hn⟩ : ∃ n, l.fixedHdrIdx = n + 1 := ⟨l.fixedHdrIdx - 1, by omega⟩
      rw [hn, Nat.add_sub_cancel] at hcont hb
      rw [hn] at hlen hrem
      rw [hn, Nat.add_right_comm, Nat.add_assoc, parseLoop_reread h c hrest (by omega) (by omega)
        hcont, parseLoop, if_neg hnil]
      -- the last byte of the header ends it
      have hmore : (headerLocals c.rxBuffer n).fixedHdrIdx < 2 ∨
          (headerLocals c.rxBuffer n).b &&& 0x80 ≠ 0 := by
        rw [fixedHdrIdx_headerLocals]
        cases n with
        | zero => omega
        | succ n =>
            cases n with
            | zero => exact .inl (by decide)
            | succ n => exact .inr (hcont (n + 1) (Nat.succ_pos n) (by omega))
      have hbyte : headerByte c (headerLocals c.rxBuffer n) rest = .ok (c,
          { headerLocals c.rxBuffer n with b := c.rxBuffer n, fixedHdrIdx := n + 1 }, rest) := by
        unfold headerByte
        rw [fixedHdrIdx_headerLocals, if_pos (by omega)]
      have h2 : 2 ≤ n + 1 := by omega
      rw [headerLocals, if_pos h2] at hlen hrem
      have hl : l = ⟨l.msgRemLen, n + 1, c.rxBuffer n⟩ := by
        rw [← hn, ← hb]
      have hlength : headerLength h c
          { headerLocals c.rxBuffer n with b := c.rxBuffer n, fixedHdrIdx := n + 1 } =
            .ok (c, l) := by
        unfold headerLength
        dsimp only
        rw [hb] at hlast
        rw [if_pos h2, if_neg (by omega), if_pos hlast, if_neg hlen, hl, hrem]
      unfold iterate
      rw [if_pos hmore, hbyte]
      simp only [bind, Except.bind, hlength]
      rfl

/-! ### A byte of the header -/

/-- Where the parser waits for a byte of the header, it takes one in. -/
theorem iterate_header {c : Rx σ} {l : Locals} (hidx : c.msgIdx.toNat = l.fixedHdrIdx)
    (hmore : l.fixedHdrIdx < 2 ∨ l.b &&& 0x80 ≠ 0) (h : Handler σ) (x : UInt8)
    (xs : List UInt8) :
    iterate h c l (x :: xs) =
      (iterate h c l [x]).map fun r => (r.1, r.2.1, xs, r.2.2.2) := by
  unfold iterate headerByte
  rw [if_pos hmore, if_pos hmore, if_neg (by omega)]
  by_cases hroom : c.msgIdx.toNat < varHeaderBufferLen
  · rw [if_pos hroom, if_neg (by omega), if_pos hroom]
    simp only [bind, Except.bind, List.headD_cons]
    cases headerLength h _ _ with
    | error e => rfl
    | ok r => rfl
  · rw [if_neg hroom, if_neg (by omega), if_neg hroom]
    rfl

/-- Behind a byte of the header the variables are again those that the client's data make. -/
theorem ready_of_header {c c' : Rx σ} {l l' : Locals} {h : Handler σ} {x : UInt8}
    {rest' : List UInt8} {st : Status} (hle : l.fixedHdrIdx ≤ 6)
    (hidx : c.msgIdx.toNat = l.fixedHdrIdx)
    (hcont : Continues c.rxBuffer l.fixedHdrIdx)
    (hmore : l.fixedHdrIdx < 2 ∨ l.b &&& 0x80 ≠ 0)
    (hrem : l.msgRemLen = (headerLocals c.rxBuffer l.fixedHdrIdx).msgRemLen)
    (hstep : iterate h c l [x] = .ok (c', l', rest', st)) : Ready c' l' := by
  have hroom : c.msgIdx.toNat < varHeaderBufferLen := by
    rw [varHeaderBufferLen]
    omega
  generalize hbuf : Function.update c.rxBuffer c.msgIdx.toNat x = buf
  -- The buffer has the byte behind those that were there.
  have hlast : buf l.fixedHdrIdx = x := by
    rw [← hbuf, ← hidx, Function.update_self]
  have hbefore : ∀ i < l.fixedHdrIdx, buf i = c.rxBuffer i := by
    intro i hi
    rw [← hbuf, Function.update_of_ne (by omega)]
  have hnext : (c.msgIdx + 1).toNat = l.fixedHdrIdx + 1 := by
    rw [UInt32.toNat_add, hidx]
    exact Nat.mod_eq_of_lt (by simp; omega)
  have hcont' : Continues buf l.fixedHdrIdx := by
    intro i h1 h2
    rw [hbefore i h2]
    exact hcont i h1 h2
  have hlocals : (headerLocals buf l.fixedHdrIdx).msgRemLen = l.msgRemLen := by
    rw [hrem, headerLocals_congr hbefore]
  unfold iterate headerByte at hstep
  rw [if_pos hmore, if_neg (by omega), if_pos hroom] at hstep
  simp only [bind, Except.bind, List.headD_cons, hbuf] at hstep
  unfold headerLength at hstep
  dsimp only at hstep
  -- From the second byte on they make up the length, up to one with a clear upper bit.
  by_cases h2 : 2 ≤ l.fixedHdrIdx + 1
  · rw [if_pos h2] at hstep
    by_cases hshift : 32 ≤ (l.fixedHdrIdx + 1 - 2) * 7
    · rw [if_pos hshift] at hstep
      cases hstep
    · rw [if_neg hshift] at hstep
      have hlen : (headerLocals buf (l.fixedHdrIdx + 1)).msgRemLen = l.msgRemLen |||
          (x &&& 0x7f).toUInt32 <<< UInt32.ofNat ((l.fixedHdrIdx + 1 - 2) * 7) := by
        rw [headerLocals, if_pos h2, hlocals, hlast]
      rw [← hlen] at hstep
      by_cases hx : x &&& 0x80 = 0
      · rw [if_pos hx] at hstep
        by_cases hzero : (headerLocals buf (l.fixedHdrIdx + 1)).msgRemLen = 0
        · -- a message with no body is complete
          rw [if_pos hzero] at hstep
          cases hstep
          exact .start rfl hzero rfl
        · rw [if_neg hzero] at hstep
          cases hstep
          -- The header is complete, and of the body nothing has arrived.
          have hbody : (headerLocals buf (l.fixedHdrIdx + 1)).msgRemLen +
              UInt32.ofNat (l.fixedHdrIdx + 1) - (c.msgIdx + 1) =
                (headerLocals buf (l.fixedHdrIdx + 1)).msgRemLen := by
            have hone : UInt32.ofNat (l.fixedHdrIdx + 1) = c.msgIdx + 1 := by
              rw [← hnext, UInt32.ofNat_toNat]
            rw [hone, UInt32.add_sub_cancel]
          refine .body h2 (by dsimp only; omega) (by dsimp only; omega) hcont' hlast.symm hx hzero
            rfl ?_
          rw [hbody]
          exact hzero
      · rw [if_neg hx] at hstep
        cases hstep
        -- The length goes on with the next byte.
        refine .header (Nat.succ_pos _) (by dsimp only; omega) hnext ?_ ?_
        · intro i h1 h2'
          by_cases hi : i < l.fixedHdrIdx
          · exact hcont' i h1 hi
          · have : i = l.fixedHdrIdx := by
              dsimp only at h2'
              omega
            rw [this]
            dsimp only
            rw [hlast]
            exact hx
        · rw [headerLocals, if_pos h2, hlocals, hlast]
  · rw [if_neg h2] at hstep
    cases hstep
    -- The first byte is the type of the message.
    have h0 : l.fixedHdrIdx = 0 := by omega
    refine .header (Nat.succ_pos _) (by dsimp only; omega) hnext ?_ ?_
    · intro i h1 h2'
      dsimp only at h2'
      omega
    · rw [headerLocals, if_neg h2, hlocals]
      dsimp only
      rw [hlast]

/-! ### A part of the body -/

/-- A sum is taken away. -/
theorem sub_add_eq (a b c : UInt32) : a - (b + c) = a - b - c := by
  grind

/-- Where the next byte of the body goes. -/
def cpyStart (c : Rx σ) (l : Locals) : Nat :=
  (c.msgIdx - UInt32.ofNat l.fixedHdrIdx).toNat % (varHeaderBufferLen - l.fixedHdrIdx) +
    l.fixedHdrIdx

theorem cpyStart_lt {c : Rx σ} {l : Locals} (hle : l.fixedHdrIdx ≤ 6) :
    cpyStart c l < varHeaderBufferLen := by
  have hmod : (c.msgIdx - UInt32.ofNat l.fixedHdrIdx).toNat %
      (varHeaderBufferLen - l.fixedHdrIdx) < varHeaderBufferLen - l.fixedHdrIdx :=
    Nat.mod_lt _ (by rw [varHeaderBufferLen]; omega)
  unfold cpyStart
  omega

/-- The client behind a byte of the body, if nothing is passed on. -/
def afterByte (c : Rx σ) (l : Locals) (x : UInt8) : Rx σ :=
  { c with rxBuffer := copyPartial c.rxBuffer (cpyStart c l) [x], msgIdx := c.msgIdx + 1 }

/-- The next byte goes behind this one, if there is room. -/
theorem cpyStart_afterByte {c : Rx σ} {l : Locals} {x : UInt8} (l' : Locals)
    (hidx : l.fixedHdrIdx ≤ c.msgIdx.toNat) (hlt : c.msgIdx.toNat + 1 < 2 ^ 32)
    (hhdr : l'.fixedHdrIdx = l.fixedHdrIdx) (hroom : cpyStart c l + 1 < varHeaderBufferLen) :
    cpyStart (afterByte c l x) l' = cpyStart c l + 1 := by
  have hsub : ∀ k : UInt32, l.fixedHdrIdx ≤ k.toNat →
      (k - UInt32.ofNat l.fixedHdrIdx).toNat = k.toNat - l.fixedHdrIdx := by
    intro k hk
    have hkl := k.toNat_lt
    have hofNat : (UInt32.ofNat l.fixedHdrIdx).toNat = l.fixedHdrIdx :=
      UInt32.toNat_ofNat_of_lt' (Nat.lt_of_le_of_lt hk hkl)
    rw [UInt32.toNat_sub_of_le _ _ (by rw [UInt32.le_iff_toNat_le, hofNat]; exact hk), hofNat]
  have hone : (c.msgIdx + 1).toNat = c.msgIdx.toNat + 1 := by
    rw [UInt32.toNat_add]
    exact Nat.mod_eq_of_lt (by simp; omega)
  unfold cpyStart at hroom ⊢
  unfold afterByte
  dsimp only
  rw [hhdr, hsub _ (by rw [hone]; omega), hone]
  rw [hsub _ hidx] at hroom ⊢
  have hsucc : c.msgIdx.toNat + 1 - l.fixedHdrIdx = c.msgIdx.toNat - l.fixedHdrIdx + 1 := by omega
  rw [hsucc, ← Nat.mod_add_mod, Nat.mod_eq_of_lt (by omega), Nat.add_right_comm]

/-- A byte and then others are copied like all of them. -/
theorem copyPartial_cons (buf : Nat → UInt8) (start : Nat) (x : UInt8) (xs : List UInt8) :
    copyPartial (copyPartial buf start [x]) (start + 1) xs = copyPartial buf start (x :: xs) := by
  funext i
  unfold copyPartial
  rcases Nat.lt_trichotomy i start with hlt | rfl | hgt
  · rw [if_neg (by omega), if_neg (by omega), if_neg (by omega)]
  · rw [if_neg (by omega), if_pos (Nat.le_refl _), Nat.sub_self, if_pos (Nat.le_refl _)]
    rfl
  · have hsucc : i - start = i - (start + 1) + 1 := by omega
    rw [if_pos (by omega), if_pos (by omega), if_pos (by omega), hsucc, List.getElem?_cons_succ,
      List.getElem?_cons_succ]
    simp

/-- The first byte of several that are copied at once, and the copy of the others. -/
theorem copyBody_cons {c : Rx σ} {l : Locals} {h : Handler σ} {x : UInt8} {xs : List UInt8}
    (hidx : l.fixedHdrIdx ≤ c.msgIdx.toNat) (hlt : c.msgIdx.toNat + 1 < 2 ^ 32) (hxs : xs ≠ [])
    (hrem : 2 ≤ l.msgRemLen.toNat) (hroom : cpyStart c l + 1 < varHeaderBufferLen) :
    copyBody h c l [x] =
        (afterByte c l x, { l with msgRemLen := l.msgRemLen - 1 }, [], connectAccepted) ∧
      copyBody h c l (x :: xs) =
        copyBody h (afterByte c l x) { l with msgRemLen := l.msgRemLen - 1 } xs := by
  have hxslen : 0 < xs.length := List.length_pos_iff.mpr hxs
  have hone : (l.msgRemLen - 1).toNat = l.msgRemLen.toNat - 1 :=
    UInt32.toNat_sub_of_le _ _ (by rw [UInt32.le_iff_toNat_le]; exact Nat.le_of_succ_le hrem)
  have hne : l.msgRemLen - 1 ≠ 0 := by
    intro h0
    rw [h0] at hone
    have : (0 : UInt32).toNat = 0 := rfl
    omega
  have hstart := cpyStart_afterByte (x := x) { l with msgRemLen := l.msgRemLen - 1 } hidx hlt
    rfl hroom
  have hcpy : (c.msgIdx - UInt32.ofNat l.fixedHdrIdx).toNat % (varHeaderBufferLen - l.fixedHdrIdx) +
      l.fixedHdrIdx = cpyStart c l := rfl
  have hcpy' : ((afterByte c l x).msgIdx - UInt32.ofNat l.fixedHdrIdx).toNat %
      (varHeaderBufferLen - l.fixedHdrIdx) + l.fixedHdrIdx = cpyStart c l + 1 := hstart
  constructor
  · have hlen : min (min ([x] : List UInt8).length l.msgRemLen.toNat)
        (varHeaderBufferLen - cpyStart c l) = 1 := by
      rw [List.length_singleton]
      omega
    unfold copyBody
    simp only [hcpy, hlen]
    rw [if_neg]
    · rfl
    · rintro (h0 | h1)
      · exact hne h0
      · omega
  · have hlen : min (min (x :: xs).length l.msgRemLen.toNat)
        (varHeaderBufferLen - cpyStart c l) =
          min (min xs.length (l.msgRemLen - 1).toNat)
            (varHeaderBufferLen - (cpyStart c l + 1)) + 1 := by
      rw [List.length_cons, hone]
      omega
    unfold copyBody
    simp only [hcpy, hcpy', hlen]
    generalize min (min xs.length (l.msgRemLen - 1).toNat)
      (varHeaderBufferLen - (cpyStart c l + 1)) = n
    have hcount : UInt32.ofNat (n + 1) = 1 + UInt32.ofNat n := by
      rw [Nat.add_comm, UInt32.ofNat_add]
      rfl
    have hidx' : c.msgIdx + UInt32.ofNat (n + 1) = (afterByte c l x).msgIdx + UInt32.ofNat n := by
      rw [hcount, ← UInt32.add_assoc]
      rfl
    have hrem' : l.msgRemLen - UInt32.ofNat (n + 1) = l.msgRemLen - 1 - UInt32.ofNat n := by
      rw [hcount, sub_add_eq]
    have hbuf : copyPartial c.rxBuffer (cpyStart c l) ((x :: xs).take (n + 1)) =
        copyPartial (afterByte c l x).rxBuffer (cpyStart c l + 1) (xs.take n) := by
      rw [List.take_succ_cons]
      exact (copyPartial_cons _ _ x _).symm
    have hspace : n + 1 = varHeaderBufferLen - cpyStart c l ↔
        n = varHeaderBufferLen - (cpyStart c l + 1) := by omega
    have hsum : cpyStart c l + (n + 1) = cpyStart c l + 1 + n := by omega
    rw [hidx', hrem', hbuf, hsum, List.drop_succ_cons]
    simp only [hspace]
    rfl

/-- Where one byte completes the part, the others stay for the next turn. -/
theorem copyBody_single {c : Rx σ} {l : Locals} (h : Handler σ) (x : UInt8) (xs : List UInt8)
    (hle : l.fixedHdrIdx ≤ 6) (hrem : 1 ≤ l.msgRemLen.toNat)
    (hone : xs = [] ∨ l.msgRemLen.toNat = 1 ∨ cpyStart c l + 1 = varHeaderBufferLen) :
    copyBody h c l (x :: xs) = ((copyBody h c l [x]).1, (copyBody h c l [x]).2.1, xs,
      (copyBody h c l [x]).2.2.2) := by
  have hstart := cpyStart_lt (c := c) hle
  have hcpy : (c.msgIdx - UInt32.ofNat l.fixedHdrIdx).toNat % (varHeaderBufferLen - l.fixedHdrIdx) +
      l.fixedHdrIdx = cpyStart c l := rfl
  have hlen : min (min ([x] : List UInt8).length l.msgRemLen.toNat)
      (varHeaderBufferLen - cpyStart c l) = 1 := by
    rw [List.length_singleton]
    omega
  have hlen' : min (min (x :: xs).length l.msgRemLen.toNat)
      (varHeaderBufferLen - cpyStart c l) = 1 := by
    rw [List.length_cons]
    rcases hone with rfl | h1 | h1
    · rw [List.length_nil]
      omega
    · omega
    · omega
  unfold copyBody
  simp only [hcpy, hlen, hlen', List.take_succ_cons, List.take_zero, List.drop_succ_cons,
    List.drop_zero]
  split
  · split
    · rfl
    · split
      · rfl
      · rfl
  · rfl

/-- A byte of the body: what is kept is again what the variables are made of. -/
theorem ready_of_body {c : Rx σ} {l : Locals} {h : Handler σ} {x : UInt8}
    (hpos : 2 ≤ l.fixedHdrIdx) (hle : l.fixedHdrIdx ≤ 6)
    (hidx : l.fixedHdrIdx ≤ c.msgIdx.toNat) (hlt : c.msgIdx.toNat + 1 < 2 ^ 32)
    (hcont : Continues c.rxBuffer (l.fixedHdrIdx - 1))
    (hb : l.b = c.rxBuffer (l.fixedHdrIdx - 1)) (hlast : l.b &&& 0x80 = 0)
    (hlen : (headerLocals c.rxBuffer l.fixedHdrIdx).msgRemLen ≠ 0)
    (hrem : l.msgRemLen = (headerLocals c.rxBuffer l.fixedHdrIdx).msgRemLen +
      UInt32.ofNat l.fixedHdrIdx - c.msgIdx) (hne : l.msgRemLen ≠ 0)
    (hst : (copyBody h c l [x]).2.2.2 = connectAccepted) :
    Ready (copyBody h c l [x]).1 (copyBody h c l [x]).2.1 := by
  have hstart := cpyStart_lt (c := c) hle
  have hstart' : l.fixedHdrIdx ≤ cpyStart c l := Nat.le_add_left _ _
  have hrempos : 1 ≤ l.msgRemLen.toNat := by
    rcases Nat.eq_zero_or_pos l.msgRemLen.toNat with h0 | h0
    · exact absurd (UInt32.toNat_inj.mp h0) hne
    · exact h0
  have hcpy : (c.msgIdx - UInt32.ofNat l.fixedHdrIdx).toNat % (varHeaderBufferLen - l.fixedHdrIdx) +
      l.fixedHdrIdx = cpyStart c l := rfl
  have hcount : min (min ([x] : List UInt8).length l.msgRemLen.toNat)
      (varHeaderBufferLen - cpyStart c l) = 1 := by
    rw [List.length_singleton]
    omega
  -- the header in the buffer stays
  have hbuf : ∀ i < l.fixedHdrIdx, copyPartial c.rxBuffer (cpyStart c l) [x] i = c.rxBuffer i := by
    intro i hi
    exact if_neg (by omega)
  have hheader := headerLocals_congr hbuf
  have hnext : (c.msgIdx + 1).toNat = c.msgIdx.toNat + 1 := by
    rw [UInt32.toNat_add]
    exact Nat.mod_eq_of_lt (by simp; omega)
  have hbody : ∀ app : σ, l.msgRemLen - 1 ≠ 0 → Ready
      { c with rxBuffer := copyPartial c.rxBuffer (cpyStart c l) [x], msgIdx := c.msgIdx + 1,
               app := app }
      { l with msgRemLen := l.msgRemLen - 1 } := by
    intro app hne'
    refine .body hpos hle ?_ ?_ ?_ hlast ?_ ?_ hne'
    · dsimp only
      omega
    · intro i h1 h2
      dsimp only at h2 ⊢
      rw [hbuf i (by omega)]
      exact hcont i h1 h2
    · dsimp only
      rw [hbuf _ (by omega)]
      exact hb
    · dsimp only
      rw [hheader]
      exact hlen
    · dsimp only
      rw [hheader, hrem, sub_add_eq]
  revert hst
  unfold copyBody
  simp only [hcpy, hcount, List.take_succ_cons, List.take_zero]
  split
  case isTrue hfull =>
    split
    case isTrue hstop => exact fun hst => absurd hst hstop
    case isFalse =>
      split
      case isTrue hzero => exact fun _ => .start rfl hzero rfl
      case isFalse hnonzero => exact fun _ => hbody _ hnonzero
  case isFalse hmore => exact fun _ => hbody c.app fun h0 => hmore (.inl h0)

/-! ### Whole pieces -/

namespace Ready

variable {c : Rx σ} {l : Locals} {h : Handler σ}

/-- In the header, the parser waits for another byte of it. -/
theorem more (hcont : Continues c.rxBuffer l.fixedHdrIdx)
    (hl : l = headerLocals c.rxBuffer l.fixedHdrIdx) :
    l.fixedHdrIdx < 2 ∨ l.b &&& 0x80 ≠ 0 := by
  by_cases h2 : l.fixedHdrIdx < 2
  · exact .inl h2
  · obtain ⟨n, hn⟩ : ∃ n, l.fixedHdrIdx = n + 1 := ⟨l.fixedHdrIdx - 1, by omega⟩
    rw [hn] at hl hcont
    have hb : l.b = c.rxBuffer n := congrArg Locals.b hl
    rw [hb]
    exact .inr (hcont n (by omega) (Nat.lt_succ_self n))

/-- No more than the byte is added to what was received. -/
theorem msgIdx_iterate {x : UInt8} {c' : Rx σ} {l' : Locals} {rest : List UInt8} {st : Status}
    (hstep : iterate h c l [x] = .ok (c', l', rest, st)) :
    c'.msgIdx.toNat ≤ c.msgIdx.toNat + 1 := by
  have hnext : ∀ k ≤ 1, (c.msgIdx + UInt32.ofNat k).toNat ≤ c.msgIdx.toNat + 1 := by
    intro k hk
    rw [UInt32.toNat_add, UInt32.toNat_ofNat']
    exact Nat.le_trans (Nat.mod_le _ _) (Nat.add_le_add_left (Nat.le_trans (Nat.mod_le _ _) hk) _)
  have hzero : (0 : UInt32).toNat = 0 := rfl
  unfold iterate at hstep
  split at hstep
  · -- a byte of the header
    have hbyte : ∀ r, headerByte c l [x] = .ok r → r.1.msgIdx.toNat ≤ c.msgIdx.toNat + 1 := by
      intro r hr
      unfold headerByte at hr
      split at hr
      · cases hr
        exact Nat.le_succ _
      · split at hr
        · cases hr
          exact hnext 1 (Nat.le_refl 1)
        · cases hr
    have hlength : ∀ (d : Rx σ) (m : Locals) s, headerLength h d m = .ok s →
        s.1.msgIdx.toNat ≤ d.msgIdx.toNat := by
      intro d m s hs
      unfold headerLength at hs
      dsimp only at hs
      repeat' split at hs
      all_goals cases hs
      · exact Nat.zero_le _
      · exact Nat.le_refl _
      · exact Nat.le_refl _
      · exact Nat.le_refl _
    cases hb : headerByte c l [x] with
    | error e =>
        rw [hb] at hstep
        cases hstep
    | ok r =>
        rw [hb] at hstep
        simp only [bind, Except.bind] at hstep
        cases hh : headerLength h r.1 r.2.1 with
        | error e =>
            rw [hh] at hstep
            cases hstep
        | ok s =>
            rw [hh] at hstep
            cases hstep
            exact Nat.le_trans (hlength _ _ _ hh) (hbyte r hb)
  · -- a byte of the body
    have hcount : ∀ a b : Nat, min (min ([x] : List UInt8).length a) b ≤ 1 := by
      intro a b
      rw [List.length_singleton]
      omega
    have hc' : c' = (copyBody h c l [x]).1 := by
      rw [Except.ok.inj hstep]
    rw [hc']
    unfold copyBody
    dsimp only
    repeat' split
    · exact hnext _ (hcount _ _)
    · exact Nat.zero_le _
    · exact hnext _ (hcount _ _)
    · exact hnext _ (hcount _ _)

/-- One byte leads to where the variables are again what the client's data make them. -/
theorem step (hr : Ready c l) (hlt : c.msgIdx.toNat + 1 < 2 ^ 32) {x : UInt8} {c' : Rx σ}
    {l' : Locals} {rest : List UInt8}
    (hstep : iterate h c l [x] = .ok (c', l', rest, connectAccepted)) : Ready c' l' := by
  cases hr with
  | start hidx hrem hhdr =>
      refine ready_of_header (by omega) (by rw [hidx, hhdr]; rfl) ?_ (.inl (by omega)) ?_ hstep
      · intro i h1 h2
        omega
      · rw [hhdr, hrem]
        rfl
  | header hpos hle hidx hcont hl =>
      exact ready_of_header hle hidx hcont (more hcont hl) (congrArg Locals.msgRemLen hl) hstep
  | body hpos hle hidx hcont hb hlast hlen hrem hne =>
      have hmore : ¬ (l.fixedHdrIdx < 2 ∨ l.b &&& 0x80 ≠ 0) := by
        rintro (h1 | h1)
        · omega
        · exact h1 hlast
      unfold iterate at hstep
      rw [if_neg hmore] at hstep
      obtain ⟨rfl, rfl, -, hst⟩ := by
        simpa only [Prod.ext_iff] using Except.ok.inj hstep
      exact ready_of_body hpos hle hidx hlt hcont hb hlast hlen hrem hne hst

/-- A turn of the loop is a turn on the first byte, or a turn on the others behind it. -/
theorem iterate_cons (hr : Ready c l) (hlt : c.msgIdx.toNat + 1 < 2 ^ 32) (x : UInt8)
    (xs : List UInt8) :
    iterate h c l (x :: xs) = (iterate h c l [x]).map (fun r => (r.1, r.2.1, xs, r.2.2.2)) ∨
      xs ≠ [] ∧ ∃ c' l', iterate h c l [x] = .ok (c', l', [], connectAccepted) ∧
        iterate h c l (x :: xs) = iterate h c' l' xs := by
  cases hr with
  | start hidx hrem hhdr =>
      exact .inl (iterate_header (by rw [hidx, hhdr]; rfl) (.inl (by omega)) h x xs)
  | header hpos hle hidx hcont hl =>
      exact .inl (iterate_header hidx (more hcont hl) h x xs)
  | body hpos hle hidx hcont hb hlast hlen hrem hne =>
      have hmore : ¬ (l.fixedHdrIdx < 2 ∨ l.b &&& 0x80 ≠ 0) := by
        rintro (h1 | h1)
        · omega
        · exact h1 hlast
      have hstart := cpyStart_lt (c := c) hle
      have hrempos : 1 ≤ l.msgRemLen.toNat := by
        rcases Nat.eq_zero_or_pos l.msgRemLen.toNat with h0 | h0
        · exact absurd (UInt32.toNat_inj.mp h0) hne
        · exact h0
      have hturn : ∀ (d : Rx σ) (k : UInt32) (ys : List UInt8),
          iterate h d { l with msgRemLen := k } ys =
            .ok (copyBody h d { l with msgRemLen := k } ys) := fun d k ys => if_neg hmore
      by_cases hone : xs = [] ∨ l.msgRemLen.toNat = 1 ∨ cpyStart c l + 1 = varHeaderBufferLen
      · refine .inl ?_
        rw [hturn c l.msgRemLen, hturn c l.msgRemLen, copyBody_single h x xs hle hrempos hone]
        rfl
      · have hxs : xs ≠ [] := fun h0 => hone (.inl h0)
        have h2 : l.msgRemLen.toNat ≠ 1 := fun h0 => hone (.inr (.inl h0))
        have h3 : cpyStart c l + 1 ≠ varHeaderBufferLen := fun h0 => hone (.inr (.inr h0))
        have hcons := copyBody_cons (h := h) (x := x) hidx hlt hxs (by omega) (by omega)
        refine .inr ⟨hxs, afterByte c l x, { l with msgRemLen := l.msgRemLen - 1 }, ?_, ?_⟩
        · rw [hturn c l.msgRemLen]
          exact congrArg Except.ok hcons.1
        · rw [hturn c l.msgRemLen, hturn (afterByte c l x) (l.msgRemLen - 1)]
          exact congrArg Except.ok hcons.2

end Ready

/-- Whatever is left of a piece is taken in as its bytes are. -/
theorem parseLoop_eq (h : Handler σ) {c : Rx σ} {l : Locals} {rest : List UInt8} {fuel : Nat}
    (hr : Ready c l) (hlt : c.msgIdx.toNat + rest.length < 2 ^ 32) (hfuel : rest.length < fuel) :
    parseLoop h fuel c l rest = (byteRun h c l rest).map fun r => (r.1, r.2.2) := by
  induction rest generalizing c l fuel with
  | nil =>
      cases fuel with
      | zero => exact absurd hfuel (Nat.not_lt_zero _)
      | succ fuel => rfl
  | cons x xs ih =>
      rw [List.length_cons] at hlt hfuel
      cases fuel with
      | zero => exact absurd hfuel (Nat.not_lt_zero _)
      | succ fuel =>
          have hfuel' : xs.length < fuel := by omega
          rw [byteRun]
          rcases hr.iterate_cons (h := h) (by omega) x xs with heq | ⟨hxs, c', l', hone, heq⟩
          · rw [parseLoop, if_neg (by simp), heq]
            cases hone : iterate h c l [x] with
            | error e => rfl
            | ok r =>
                obtain ⟨c', l', rest', st⟩ := r
                simp only [Except.map, bind, Except.bind]
                by_cases hst : st = connectAccepted
                · subst hst
                  have hidx := Ready.msgIdx_iterate hone
                  rw [if_neg (not_not.mpr rfl), if_neg (not_not.mpr rfl)]
                  exact ih (hr.step (by omega) hone) (by omega) hfuel'
                · rw [if_pos hst, if_pos hst]
                  rfl
          · -- the turn on the others is the turn that they take behind the byte
            have hidx := Ready.msgIdx_iterate hone
            have hturn : parseLoop h (fuel + 1) c l (x :: xs) = parseLoop h (fuel + 1) c' l' xs := by
              rw [parseLoop, parseLoop, if_neg (by simp), if_neg (by simp [hxs]), heq]
            rw [hturn, ih (hr.step (by omega) hone) (by omega) (by omega), hone]
            rfl

/-- A piece is taken in as its bytes are. -/
theorem parseIncoming_eq (h : Handler σ) {c : Rx σ} {l : Locals} {p : List UInt8}
    (hr : Ready c l) (hlt : c.msgIdx.toNat + p.length < 2 ^ 32) :
    parseIncoming h c p = (byteRun h c l p).map fun r => (r.1, r.2.2) := by
  by_cases hp : p = []
  · subst hp
    rfl
  · obtain ⟨n, hn, hreread⟩ := hr.reread h hp
    have hfuel : p.length + varHeaderBufferLen = n + (p.length + varHeaderBufferLen - n) := by
      rw [varHeaderBufferLen]
      omega
    unfold parseIncoming
    rw [hfuel, hreread]
    refine parseLoop_eq h hr hlt ?_
    rw [varHeaderBufferLen]
    omega

/-- The loop may begin with the header once more, or with the variables that it had. -/
theorem parseIncoming_eq_parseLoop (h : Handler σ) {c : Rx σ} {l : Locals} {p : List UInt8}
    (hr : Ready c l) (hlt : c.msgIdx.toNat + p.length < 2 ^ 32) :
    parseIncoming h c p = parseLoop h (p.length + 1) c l p := by
  rw [parseIncoming_eq h hr hlt, parseLoop_eq h hr hlt (Nat.lt_succ_self _)]

/-- Where the bytes end, the variables are again what the client's data make them. -/
theorem Ready.byteRun {h : Handler σ} {c c' : Rx σ} {l l' : Locals} {p : List UInt8}
    (hr : Ready c l) (hlt : c.msgIdx.toNat + p.length < 2 ^ 32)
    (hrun : byteRun h c l p = .ok (c', l', connectAccepted)) :
    Ready c' l' ∧ c'.msgIdx.toNat ≤ c.msgIdx.toNat + p.length := by
  induction p generalizing c l with
  | nil =>
      cases hrun
      exact ⟨hr, Nat.le_refl _⟩
  | cons x xs ih =>
      rw [List.length_cons] at hlt ⊢
      rw [Mqtt.byteRun] at hrun
      cases hone : iterate h c l [x] with
      | error e =>
          rw [hone] at hrun
          cases hrun
      | ok r =>
          obtain ⟨c₁, l₁, rest, st⟩ := r
          rw [hone] at hrun
          simp only [bind, Except.bind] at hrun
          by_cases hst : st = connectAccepted
          · subst hst
            rw [if_neg (not_not.mpr rfl)] at hrun
            have hidx := Ready.msgIdx_iterate hone
            have hrest := ih (hr.step (by omega) hone) (by omega) hrun
            exact ⟨hrest.1, by omega⟩
          · rw [if_pos hst] at hrun
            cases hrun
            exact absurd rfl hst

/-- Bytes behind others. -/
theorem byteRun_append (h : Handler σ) (c : Rx σ) (l : Locals) (p q : List UInt8) :
    byteRun h c l (p ++ q) = (byteRun h c l p).bind fun r =>
      if r.2.2 ≠ connectAccepted then .ok r else byteRun h r.1 r.2.1 q := by
  induction p generalizing c l with
  | nil =>
      simp only [List.nil_append, byteRun, Except.bind]
      rw [if_neg (not_not.mpr rfl)]
  | cons x xs ih =>
      rw [List.cons_append, byteRun, byteRun]
      cases iterate h c l [x] with
      | error e => rfl
      | ok r =>
          simp only [bind, Except.bind]
          by_cases hst : r.2.2.2 = connectAccepted
          · rw [if_neg (not_not.mpr hst), if_neg (not_not.mpr hst), ih]
            rfl
          · rw [if_pos hst, if_pos hst]
            exact (if_pos hst).symm

/-- A piece may be cut in two: the second part is taken in, unless the connection was closed. -/
theorem parseIncoming_append (h : Handler σ) {c : Rx σ} {l : Locals} {p q : List UInt8}
    (hr : Ready c l) (hlt : c.msgIdx.toNat + (p ++ q).length < 2 ^ 32) :
    parseIncoming h c (p ++ q) = (parseIncoming h c p).bind fun r =>
      if r.2 ≠ connectAccepted then .ok r else parseIncoming h r.1 q := by
  rw [List.length_append] at hlt
  rw [parseIncoming_eq h hr (by rw [List.length_append]; omega), byteRun_append,
    parseIncoming_eq h hr (by omega)]
  cases hrun : byteRun h c l p with
  | error e => rfl
  | ok r =>
      obtain ⟨c', l', st⟩ := r
      simp only [Except.map, Except.bind]
      by_cases hst : st = connectAccepted
      · subst hst
        obtain ⟨hr', hidx⟩ := hr.byteRun (by omega) hrun
        rw [if_neg (not_not.mpr rfl), if_neg (not_not.mpr rfl),
          parseIncoming_eq h hr' (by omega)]
        rfl
      · rw [if_pos hst, if_pos hst]

/-- The pieces are taken in as the stream is that they were cut from. -/
theorem receive_flatten (h : Handler σ) {c : Rx σ} {l : Locals} {ps : List (List UInt8)}
    (hr : Ready c l) (hlt : c.msgIdx.toNat + ps.flatten.length < 2 ^ 32) :
    receive h c ps = parseIncoming h c ps.flatten := by
  induction ps generalizing c l with
  | nil => rfl
  | cons p ps ih =>
      rw [List.flatten_cons] at hlt ⊢
      rw [receive, parseIncoming_append h hr hlt]
      rw [List.length_append] at hlt
      cases hp : parseIncoming h c p with
      | error e => rfl
      | ok r =>
          simp only [bind, Except.bind]
          by_cases hst : r.2 = connectAccepted
          · rw [if_neg (not_not.mpr hst), if_neg (not_not.mpr hst)]
            rw [parseIncoming_eq h hr (by omega)] at hp
            cases hrun : byteRun h c l p with
            | error e =>
                rw [hrun] at hp
                cases hp
            | ok s =>
                obtain ⟨c', l', st⟩ := s
                rw [hrun] at hp
                obtain rfl := Except.ok.inj hp
                obtain rfl : st = connectAccepted := hst
                obtain ⟨hr', hidx⟩ := hr.byteRun (by omega) hrun
                exact ih hr' (by dsimp only; omega)
          · rw [if_pos hst, if_pos hst]
            rfl

/-- No byte keeps the loop from going on. -/
theorem byteRun_ne_hang (h : Handler σ) (c : Rx σ) (l : Locals) (p : List UInt8) :
    byteRun h c l p ≠ .error .hang := by
  induction p generalizing c l with
  | nil => exact fun h0 => by cases h0
  | cons x xs ih =>
      intro hrun
      rw [byteRun] at hrun
      cases hone : iterate h c l [x] with
      | error e =>
          rw [hone] at hrun
          obtain rfl : e = .hang := Except.error.inj hrun
          -- a turn has a result, or ends with one of the other two faults
          unfold iterate at hone
          split at hone
          · cases hb : headerByte c l [x] with
            | error e =>
                rw [hb] at hone
                obtain rfl : e = .hang := Except.error.inj hone
                unfold headerByte at hb
                repeat' split at hb
                all_goals cases hb
            | ok r =>
                rw [hb] at hone
                simp only [bind, Except.bind] at hone
                cases hh : headerLength h r.1 r.2.1 with
                | error e =>
                    rw [hh] at hone
                    obtain rfl : e = .hang := Except.error.inj hone
                    unfold headerLength at hh
                    dsimp only at hh
                    repeat' split at hh
                    all_goals cases hh
                | ok s =>
                    rw [hh] at hone
                    cases hone
          · cases hone
      | ok r =>
          rw [hone] at hrun
          simp only [bind, Except.bind] at hrun
          split at hrun
          · cases hrun
          · exact ih _ _ hrun

/-- However TCP cuts the stream, the client takes in the same: the handler is called with the same
    parts of messages, and the same is kept. The loop always comes to its end. -/
theorem receive_congr (h : Handler σ) {c : Rx σ} {ps qs : List (List UInt8)}
    (hstart : c.msgIdx = 0) (hsame : ps.flatten = qs.flatten) (hlt : ps.flatten.length < 2 ^ 32) :
    receive h c ps = receive h c qs ∧ receive h c ps ≠ .error .hang := by
  have hr : Ready c ⟨0, 0, 0⟩ := .start hstart rfl rfl
  have hidx : c.msgIdx.toNat = 0 := by
    rw [hstart]
    rfl
  constructor
  · rw [receive_flatten h hr (by omega), receive_flatten h hr (by rw [← hsame]; omega), hsame]
  · rw [receive_flatten h hr (by omega), parseIncoming_eq h hr (by omega)]
    intro hhang
    cases hrun : byteRun h c ⟨0, 0, 0⟩ ps.flatten with
    | error e =>
        rw [hrun] at hhang
        obtain rfl : e = .hang := Except.error.inj hhang
        exact byteRun_ne_hang h c _ _ hrun
    | ok r =>
        rw [hrun] at hhang
        cases hhang

/-- A message in two pieces, cut behind its first byte. -/
theorem receive_congr_cut :
    receive (fun (c : Rx Nat) _ len _ => (c.app + len, connectAccepted)) ⟨0, fun _ => 0, 0⟩
        [[0x30], [3, 1, 2, 3]] =
      receive (fun (c : Rx Nat) _ len _ => (c.app + len, connectAccepted)) ⟨0, fun _ => 0, 0⟩
        [[0x30, 3, 1, 2, 3]] :=
  (receive_congr _ rfl rfl (by decide)).1

end Mqtt

end RtosLwip
