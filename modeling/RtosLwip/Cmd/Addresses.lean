import RtosLwip.Base.Hex
import RtosLwip.Base.Numerals
import RtosLwip.Cmd.Responses

/-!
# Reading Addresses Back

An address that is printed is read back: an IP address by `ipaddr_addr`, and a MAC
address by `extMacAddressParse`. The broadcast address stands for a failure as well,
and is still what is read.

## Theorems

* `ipaddrAddr_ip4addrNtoa`: An IP address that is printed is read back.
* `extMacAddressParse_macPrint`: So is a MAC address.
-/

namespace RtosLwip

namespace Cmd

section Ip

/-- The digits of a part are taken as far as they go. -/
theorem atonDigits_append (ds rest : List UInt8) (hds : ∀ c ∈ ds, isDigit c = true)
    (h : EndsNumber rest) (acc : Nat) :
    atonDigits 10 (ds ++ rest) (UInt32.ofNat acc) = (UInt32.ofNat (digitsValue acc ds), rest) := by
  induction ds generalizing acc with
  | nil =>
      cases rest with
      | nil => rfl
      | cons c rest =>
          rw [List.nil_append, atonDigits, h c rfl, if_neg Bool.false_ne_true, if_neg (by decide)]
          rfl
  | cons c ds ih =>
      have hc : isDigit c = true := hds c List.mem_cons_self
      have hval : UInt32.ofNat acc * 10 + (c - 48).toUInt32 =
          UInt32.ofNat (acc * 10 + (c.toNat - 48)) := by
        have hle : (48 : UInt8) ≤ c := by
          unfold isDigit at hc
          rw [Bool.and_eq_true, decide_eq_true_iff] at hc
          exact hc.1
        have hsub : (c - 48).toUInt32 = UInt32.ofNat (c.toNat - 48) := by
          apply UInt32.toNat_inj.mp
          have h48 : UInt8.toNat 48 = 48 := rfl
          have hlt := c.toNat_lt
          rw [UInt8.toNat_toUInt32, UInt8.toNat_sub_of_le _ _ hle, h48, UInt32.toNat_ofNat']
          omega
        rw [hsub, UInt32.ofNat_add, UInt32.ofNat_mul]
        rfl
      rw [List.cons_append, atonDigits, if_pos hc, hval,
        ih fun x hx => hds x (List.mem_cons_of_mem c hx)]
      rfl

/-- What follows a part of an address. -/
def EndsPart (rest : List UInt8) : Prop := rest = [] ∨ ∃ t, rest = 46 :: t

theorem EndsPart.endsNumber {rest : List UInt8} (h : EndsPart rest) : EndsNumber rest := by
  rcases h with rfl | ⟨t, rfl⟩
  · exact nofun
  · intro c hc
    cases hc
    rfl

/-- Only zero begins with a zero, so no part is taken for an octal number. -/
theorem head_dec_byte : ∀ n < 256, n ≠ 0 → (dec n).head? ≠ some 48 := by decide +kernel

theorem atonPart_dec (b : UInt8) {rest : List UInt8} (h : EndsPart rest) :
    atonPart (dec b.toNat ++ rest) = some (b.toUInt32, rest) := by
  by_cases hzero : b = 0
  · subst hzero
    have hdec : dec (UInt8.toNat 0) = [48] := rfl
    rw [hdec]
    rcases h with rfl | ⟨t, rfl⟩ <;> rfl
  · have hne : b.toNat ≠ 0 := fun h0 => hzero (UInt8.toNat_inj.mp h0)
    have hhead := head_dec_byte b.toNat b.toNat_lt hne
    have hdigits := atonDigits_append (dec b.toNat) rest (fun c hc => isDigit_of_mem_dec hc)
      h.endsNumber 0
    have hval : UInt32.ofNat b.toNat = b.toUInt32 := by
      apply UInt32.toNat_inj.mp
      have hlt := b.toNat_lt
      rw [UInt32.toNat_ofNat', UInt8.toNat_toUInt32]
      omega
    rw [digitsValue_dec, hval] at hdigits
    cases hd : dec b.toNat with
    | nil => exact absurd hd (dec_ne_nil _)
    | cons c ds =>
        have hc : isDigit c = true := isDigit_of_mem_dec (hd ▸ List.mem_cons_self)
        rw [hd] at hhead hdigits
        have h48 : c ≠ 48 := fun heq => hhead (congrArg some heq)
        unfold atonPart
        rw [List.cons_append]
        dsimp only
        rw [if_neg (not_not.mpr hc), if_neg h48, ← List.cons_append]
        exact congrArg some hdigits

/-- A part that is followed by another one. -/
theorem atonParts_dot (dots : Nat) (b : UInt8) (t : List UInt8) :
    atonParts (dots + 1) (dec b.toNat ++ 46 :: t) =
      (atonParts dots t).map fun r => (b.toUInt32 :: r.1, r.2) := by
  conv_lhs => unfold atonParts
  rw [atonPart_dec b (Or.inr ⟨t, rfl⟩)]
  rfl

theorem atonParts_last (b : UInt8) : atonParts 0 (dec b.toNat) = some ([b.toUInt32], []) := by
  have hlast := atonPart_dec b (Or.inl rfl)
  rw [List.append_nil] at hlast
  unfold atonParts
  rw [hlast]

theorem joinParts (ip : UInt32) : (ipPart ip 3).toUInt32 ||| ((ipPart ip 0).toUInt32 <<< 24 |||
    (ipPart ip 1).toUInt32 <<< 16 ||| (ipPart ip 2).toUInt32 <<< 8) = ip := by
  have h24 : (24 - 8 * 0 : Nat).toUInt32 = 24 := rfl
  have h16 : (24 - 8 * 1 : Nat).toUInt32 = 16 := rfl
  have h8 : (24 - 8 * 2 : Nat).toUInt32 = 8 := rfl
  have h0 : (24 - 8 * 3 : Nat).toUInt32 = 0 := rfl
  apply UInt32.eq_of_toBitVec_eq
  unfold ipPart
  rw [h24, h16, h8, h0]
  simp only [UInt32.toBitVec_or, UInt32.toBitVec_shiftLeft, UInt8.toBitVec_toUInt32,
    UInt32.toBitVec_toUInt8, UInt32.toBitVec_shiftRight]
  ext i hi
  simp
  grind

theorem not_part_overflow (b : UInt8) : ¬ b.toUInt32 > 0xFF := by
  have hlt := b.toNat_lt
  have h255 : UInt32.toNat 0xFF = 255 := rfl
  rw [gt_iff_lt, UInt32.lt_iff_toNat_lt, UInt8.toNat_toUInt32, h255]
  omega

/-- An IP address that is printed is read back. -/
theorem ipaddrAddr_ip4addrNtoa (ip : UInt32) : ipaddrAddr (ip4addrNtoa ip) = ip := by
  have hparts : atonParts 3 (ip4addrNtoa ip) = some ([(ipPart ip 0).toUInt32,
      (ipPart ip 1).toUInt32, (ipPart ip 2).toUInt32, (ipPart ip 3).toUInt32], []) := by
    unfold ip4addrNtoa
    simp only [List.append_assoc, List.cons_append, List.nil_append]
    rw [atonParts_dot, atonParts_dot, atonParts_dot, atonParts_last]
    rfl
  have hrange : ¬ ((ipPart ip 3).toUInt32 > 0xFF ∨ (ipPart ip 0).toUInt32 > 0xFF ∨
      (ipPart ip 1).toUInt32 > 0xFF ∨ (ipPart ip 2).toUInt32 > 0xFF) := by
    rintro (h | h | h | h) <;> exact not_part_overflow _ h
  have haton : ip4addrAton (ip4addrNtoa ip) = some ip := by
    unfold ip4addrAton
    rw [hparts]
    dsimp only
    rw [if_neg (by decide), if_neg hrange, joinParts]
  rw [ipaddrAddr, haton, Option.getD_some]

end Ip

section Mac

/-- `extSysAtoInt8` reads a byte where two digits stand for one. -/
theorem extSysAtoInt8_of_hexByte {a b v : UInt8} (h : hexByte a b = some v)
    (rest : List UInt8) : extSysAtoInt8 (a :: b :: rest) = (v, true) := by
  unfold hexByte at h
  unfold extSysAtoInt8
  simp only [List.head?_cons, Option.bind_some, List.drop_succ_cons, List.drop_zero]
  cases ha : hexDigit a with
  | none =>
      rw [ha] at h
      exact absurd h nofun
  | some x =>
      cases hb : hexDigit b with
      | none =>
          rw [ha, hb] at h
          exact absurd h nofun
      | some y =>
          rw [ha, hb] at h
          exact congrArg (·, true) (Option.some.inj h)

theorem extSysAtoInt8_hex2 (b : UInt8) (rest : List UInt8) :
    extSysAtoInt8 (hex2 b ++ rest) = (b, true) := extSysAtoInt8_of_hexByte (hexByte_hexChar b) rest

theorem dropWhile_hex2 (b : UInt8) (rest : List UInt8) :
    (hex2 b ++ 58 :: rest).dropWhile (· ≠ 58) = 58 :: rest := by
  have hlt := b.toNat_lt
  have hhigh := (hexDigit_hexChar (b.toNat / 16) (by omega)).2
  have hlow := (hexDigit_hexChar (b.toNat % 16) (by omega)).2
  unfold hex2
  simp [List.dropWhile, hhigh, hlow]

/-- A byte is read, and the rest of the address behind the colon. -/
theorem macAddressLoop_hex2 (n : Nat) (b : UInt8) (rest : List UInt8) (mac : MacAddress) :
    macAddressLoop (n + 2) (hex2 b ++ 58 :: rest) mac =
      macAddressLoop (n + 1) rest (mac.setIfInBounds (5 - (n + 1)) b) := by
  rw [macAddressLoop, extSysAtoInt8_hex2, dropWhile_hex2]
  simp

theorem macAddressLoop_last (b : UInt8) (mac : MacAddress) :
    macAddressLoop 1 (hex2 b) mac = (mac.setIfInBounds 5 b, true) := by
  have hbyte := extSysAtoInt8_hex2 b []
  rw [List.append_nil] at hbyte
  rw [macAddressLoop, hbyte]
  simp

/-- A MAC address that is printed is read back. -/
theorem extMacAddressParse_macPrint (mac m : MacAddress) :
    extMacAddressParse mac (macPrint m) = (m, true) := by
  unfold extMacAddressParse macPrint
  simp only [List.append_assoc, List.cons_append]
  rw [macAddressLoop_hex2, macAddressLoop_hex2, macAddressLoop_hex2, macAddressLoop_hex2,
    macAddressLoop_hex2, macAddressLoop_last]
  refine Prod.ext (Vector.ext fun i hi => ?_) rfl
  simp only [Vector.getElem_setIfInBounds]
  rcases i with _ | _ | _ | _ | _ | _ | i
  all_goals first | rfl | omega

end Mac

end Cmd

end RtosLwip
