import Mathlib.Data.List.GetD

/-!
# Frames of a WebSocket

The frames that a client reads from a server: final, not masked, with a length of
seven or of sixteen bits before the payload. Reading a stream of bytes gives the
frames in it, and nothing where the bytes are not frames up to the end. What
follows a frame does not change how it is read, so a stream that grows by a frame
is read as the frames before and that one.

A client masks its payload with four bytes that it repeats; masking twice gives
the payload back.

## Main definitions

* `Frame`: The code of a frame and its payload.
* `header`, `decode`: The first frame of a stream, and what follows it.
* `frames`: The frames of a whole stream.
* `mask`: The payload under a mask.

## Theorems

* `decode_append`: What follows a frame does not change it.
* `frames_append`: A stream that grows by a frame.
* `mask_mask`: Masking twice.
-/

namespace RtosLwip

namespace WsFrame

/-- A final frame. -/
structure Frame where
  opcode : UInt8
  payload : List UInt8
  deriving DecidableEq

/-- A length of sixteen bits, and what follows it. -/
def longLength : List UInt8 → Option (Nat × List UInt8)
  | high :: low :: rest => some (high.toNat * 256 + low.toNat, rest)
  | _ => none

/-- The code of the first frame of a stream, its length, and what follows them. A length of
    64 bits is not read. -/
def header : List UInt8 → Option (UInt8 × Nat × List UInt8)
  | b0 :: b1 :: rest =>
      if b0 &&& 0x80 = 0 ∨ b1 &&& 0x80 ≠ 0 then none
      else if b1 < 126 then some (b0 &&& 0x0F, b1.toNat, rest)
      else if b1 = 126 then (longLength rest).map fun r => (b0 &&& 0x0F, r.1, r.2)
      else none
  | _ => none

/-- The first frame of a stream, and what follows it. -/
def decode (bytes : List UInt8) : Option (Frame × List UInt8) :=
  match header bytes with
  | none => none
  | some (opcode, n, rest) =>
      if rest.length < n then none else some (⟨opcode, rest.take n⟩, rest.drop n)

/-- The frames of a stream, at most as many as `fuel`. -/
def decodeAll : Nat → List UInt8 → Option (List Frame)
  | _, [] => some []
  | 0, _ :: _ => none
  | fuel + 1, b :: bytes =>
      match decode (b :: bytes) with
      | none => none
      | some (f, rest) => (decodeAll fuel rest).map (f :: ·)

/-- The frames of a stream. -/
def frames (bytes : List UInt8) : Option (List Frame) := decodeAll bytes.length bytes

theorem longLength_append {bytes rest : List UInt8} {n : Nat}
    (h : longLength bytes = some (n, rest)) (more : List UInt8) :
    longLength (bytes ++ more) = some (n, rest ++ more) := by
  match bytes with
  | [] => exact nomatch h
  | [_] => exact nomatch h
  | high :: low :: tail =>
      simp only [longLength, Option.some.injEq, Prod.mk.injEq] at h
      simp only [List.cons_append, longLength, h.1, h.2]

theorem header_append {bytes rest : List UInt8} {opcode : UInt8} {n : Nat}
    (h : header bytes = some (opcode, n, rest)) (more : List UInt8) :
    header (bytes ++ more) = some (opcode, n, rest ++ more) := by
  match bytes with
  | [] => exact nomatch h
  | [_] => exact nomatch h
  | b0 :: b1 :: tail =>
      rw [header] at h
      rw [List.cons_append, List.cons_append, header]
      by_cases hbad : b0 &&& 0x80 = 0 ∨ b1 &&& 0x80 ≠ 0
      · rw [if_pos hbad] at h
        exact nomatch h
      rw [if_neg hbad] at h ⊢
      by_cases hshort : b1 < 126
      · rw [if_pos hshort, Option.some.injEq, Prod.mk.injEq, Prod.mk.injEq] at h
        rw [if_pos hshort, h.1, h.2.1, h.2.2]
      rw [if_neg hshort] at h ⊢
      by_cases hlong : b1 = 126
      · rw [if_pos hlong] at h ⊢
        rcases Option.map_eq_some_iff.mp h with ⟨⟨n', rest'⟩, hlen, heq⟩
        rw [longLength_append hlen, Option.map_some]
        simp only [Prod.mk.injEq] at heq
        simp only [heq]
      · rw [if_neg hlong] at h
        exact nomatch h

/-- What follows a frame does not change it. -/
theorem decode_append {bytes rest : List UInt8} {f : Frame} (h : decode bytes = some (f, rest))
    (more : List UInt8) : decode (bytes ++ more) = some (f, rest ++ more) := by
  unfold decode at h ⊢
  rcases hheader : header bytes with _ | ⟨opcode, n, tail⟩
  · rw [hheader] at h
    exact nomatch h
  · rw [hheader] at h
    rw [header_append hheader]
    simp only [] at h ⊢
    by_cases hlen : tail.length < n
    · rw [if_pos hlen] at h
      exact nomatch h
    · rw [if_neg hlen, Option.some.injEq, Prod.mk.injEq] at h
      rw [if_neg (by rw [List.length_append]; omega), List.take_append_of_le_length (by omega),
        List.drop_append_of_le_length (by omega), h.1, h.2]

/-- A stream that grows by a frame, with the fuel that was enough for it before. -/
theorem decodeAll_append {fuel k : Nat} {bytes frame : List UInt8} {fs : List Frame} {f : Frame}
    (hbytes : decodeAll fuel bytes = some fs) (hframe : decode frame = some (f, [])) (hk : 0 < k) :
    decodeAll (fuel + k) (bytes ++ frame) = some (fs ++ [f]) := by
  -- The frame alone.
  have hlast (j : Nat) (hj : 0 < j) : decodeAll j frame = some [f] := by
    rcases frame with _ | ⟨b, tail⟩
    · exact nomatch hframe
    · rcases Nat.exists_eq_succ_of_ne_zero (by omega : j ≠ 0) with ⟨j, rfl⟩
      rw [decodeAll, hframe]
      cases j <;> rfl
  induction fuel generalizing bytes fs with
  | zero =>
      rcases bytes with _ | ⟨b, tail⟩
      · rw [Option.some.inj hbytes.symm]
        exact hlast _ (by omega)
      · exact nomatch hbytes
  | succ fuel ih =>
      rcases bytes with _ | ⟨b, tail⟩
      · rw [Option.some.inj hbytes.symm]
        exact hlast _ (by omega)
      · rw [decodeAll] at hbytes
        rcases hfirst : decode (b :: tail) with _ | ⟨g, rest⟩
        · rw [hfirst] at hbytes
          exact nomatch hbytes
        · rw [hfirst] at hbytes
          rcases Option.map_eq_some_iff.mp hbytes with ⟨gs, hrest, rfl⟩
          have happend : decode (b :: (tail ++ frame)) = some (g, rest ++ frame) :=
            decode_append hfirst frame
          rw [List.cons_append, Nat.add_right_comm, decodeAll, happend]
          simp only [ih hrest, Option.map_some, List.cons_append]

/-- A stream that grows by a frame. -/
theorem frames_append {bytes frame : List UInt8} {fs : List Frame} {f : Frame}
    (hbytes : frames bytes = some fs) (hframe : decode frame = some (f, [])) :
    frames (bytes ++ frame) = some (fs ++ [f]) := by
  have hne : frame ≠ [] := by
    rintro rfl
    exact nomatch hframe
  rw [frames, List.length_append]
  exact decodeAll_append hbytes hframe (List.length_pos_iff.mpr hne)

/-- The payload under a mask, from the byte of the mask on that `i` stands for. -/
def mask (key : Nat → UInt8) : Nat → List UInt8 → List UInt8
  | _, [] => []
  | i, b :: bytes => (b ^^^ key (i % 4)) :: mask key (i + 1) bytes

@[simp] theorem length_mask (key : Nat → UInt8) (i : Nat) (bytes : List UInt8) :
    (mask key i bytes).length = bytes.length := by
  induction bytes generalizing i with
  | nil => rfl
  | cons b bytes ih => rw [mask, List.length_cons, List.length_cons, ih]

/-- Only four bytes of the mask are used. -/
theorem mask_congr {key key' : Nat → UInt8} (h : ∀ j < 4, key j = key' j) (i : Nat)
    (bytes : List UInt8) : mask key i bytes = mask key' i bytes := by
  induction bytes generalizing i with
  | nil => rfl
  | cons b bytes ih => rw [mask, mask, ih, h _ (Nat.mod_lt i (by decide))]

/-- Masking twice gives the payload back. -/
theorem mask_mask (key : Nat → UInt8) (i : Nat) (bytes : List UInt8) :
    mask key i (mask key i bytes) = bytes := by
  induction bytes generalizing i with
  | nil => rfl
  | cons b bytes ih =>
      rw [mask, mask, ih, UInt8.xor_assoc, UInt8.xor_self, UInt8.xor_zero]

end WsFrame

end RtosLwip
