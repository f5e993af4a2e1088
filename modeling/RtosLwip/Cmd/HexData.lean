import RtosLwip.Cmd.Addresses
import RtosLwip.Cmd.ReplyStatus

/-!
# Hexadecimal Data for the Serial Line

The command `send_data_rs232` takes a text of hexadecimal digits and writes the
bytes to the serial line while it reads them. The text is first copied into an
array for 127 characters, and the loop counts pairs: a digit that is left over at
the end is not looked at. So a text of odd length, or one that does not fit, is
sent in part, and the reply says `OK`.

A pair that is no byte ends the loop with an error, but the bytes before it have
been written by then. Nothing is written only if it is the first pair.

## Main definitions

* `rs232Written`: The bytes that are written.
* `SendsDecoded`: What is sent is what the text stands for, or nothing.
* `Doc.rs232Hex`: The text, all of it, when the other values are there.

## Theorems

* `rs232SendHexStr_of_hexDecode`: A text that stands for bytes is sent as these.
* `sendsDecoded_iff`: When the answer says what has been sent.
-/

namespace RtosLwip

namespace Cmd

/-- The bytes that are written to the serial line. -/
def rs232Written (effects : List Effect) : List UInt8 :=
  effects.filterMap fun
    | .rs232Write value => some value
    | _ => none

/-- The text of `send_data_rs232`, all of it, when the other values are there. -/
def Doc.rs232Hex (d : Doc) : Option (List UInt8) :=
  if d.hasDataArray = true ∧ (d.unsignedShort .rs232WaitTime).isSome = true ∧
      (d.unsignedChar .rs232Feedback).isSome = true then
    d.string Key.rs232DataHex.text
  else none

/-! ### What is sent -/

/-- A text that stands for bytes is sent as these. -/
theorem rs232SendHexStr_of_hexDecode {text bytes : List UInt8}
    (h : hexDecode text = some bytes) : rs232SendHexStr text = (bytes, true) := by
  induction text using hexDecode.induct generalizing bytes with
  | case1 =>
      cases h
      rfl
  | case2 c => exact absurd h (Option.some_ne_none _).symm
  | case3 a b rest ih =>
      rcases (hexDecode_cons_cons a b rest bytes).mp h with ⟨v, tail, hbyte, htail, rfl⟩
      rw [rs232SendHexStr, extSysAtoInt8_of_hexByte hbyte, ih htail]
      rfl

/-- No more bytes are sent than there are pairs of characters. -/
theorem length_rs232SendHexStr (text : List UInt8) :
    2 * (rs232SendHexStr text).1.length ≤ text.length := by
  induction text using hexDecode.induct with
  | case1 => exact Nat.zero_le _
  | case2 c => exact Nat.zero_le _
  | case3 a b rest ih =>
      rw [rs232SendHexStr]
      split
      · exact Nat.zero_le _
      · simp only [List.length_cons]
        omega

/-- The first pair of characters is in the array. -/
theorem startsBadly_take (text : List UInt8) :
    startsBadly (text.take 127) = startsBadly text := by
  rcases text with _ | ⟨a, _ | ⟨b, rest⟩⟩ <;> rfl

/-- What is sent is what the text stands for, if and only if the text fits and stands for
    something. -/
theorem hexDecode_eq_sent_iff (text : List UInt8) :
    hexDecode text = some (rs232SendHexStr (text.take 127)).1 ↔
      text.length ≤ 127 ∧ (hexDecode text).isSome = true := by
  constructor
  · intro hdecode
    have hlen := length_of_hexDecode hdecode
    have hsent := length_rs232SendHexStr (text.take 127)
    have htake : (text.take 127).length ≤ 127 := List.length_take_le _ _
    exact ⟨by omega, by rw [hdecode]; rfl⟩
  · rintro ⟨hfits, hsome⟩
    rcases Option.isSome_iff_exists.mp hsome with ⟨bytes, hbytes⟩
    rw [List.take_of_length_le hfits, rs232SendHexStr_of_hexDecode hbytes, hbytes]

theorem rs232Written_map (bytes : List UInt8) :
    rs232Written (bytes.map .rs232Write) = bytes := by
  unfold rs232Written
  rw [List.filterMap_map]
  exact List.filterMap_some

/-- A reply writes nothing to the serial line. -/
theorem rs232Written_append_reply (effects : List Effect) (out : List UInt8) (ip : UInt32)
    (port : UInt16) :
    rs232Written (effects ++ if out = [] then [] else [.sendto out ip port]) =
      rs232Written effects := by
  unfold rs232Written
  rw [List.filterMap_append]
  split <;> exact List.append_nil _

section Answer

variable {cfg : RuntimeCfg} {p : Parser}

/-- What the handler sends, when it has a text, is cut off at the end of the array. -/
theorem Doc.rs232Text_eq (d : Doc) : d.rs232Text = d.rs232Hex.map (·.take 127) := by
  unfold Doc.rs232Text Doc.rs232Hex
  split
  · rfl
  · rfl

/-- The command table takes the outcome of the handler. -/
theorem extJsonHandle_sendRs232 (hc : commandOf p.cmd.val = some .sendRs232)
    (hlogin : p.doc.authenticated cfg = true) (htarget : p.target = cfg.local.mac) :
    ∃ q, extJsonHandle cfg p = (rs232Outcome cfg q p.doc.rs232Text).settle := by
  rcases extIpCmdSendRsData_eq cfg p hlogin htarget with ⟨q, -, heq⟩
  refine ⟨q, ?_⟩
  rw [← heq]
  unfold extJsonHandle
  rw [hc]
  rfl

theorem Outcome.settle_ret (o : Outcome) : o.settle.ret = o.ret := by
  unfold Outcome.settle
  split <;> rfl

theorem Outcome.settle_effects (o : Outcome) : o.settle.effects = o.effects := by
  unfold Outcome.settle
  split <;> rfl

/-- The handler writes what it sends, and returns whether all of it was read. -/
theorem sendRs232_sends (hc : commandOf p.cmd.val = some .sendRs232)
    (hlogin : p.doc.authenticated cfg = true) (htarget : p.target = cfg.local.mac) :
    match p.doc.rs232Hex with
    | none => (extJsonHandle cfg p).ret = false ∧
        rs232Written (extJsonHandle cfg p).effects = []
    | some text =>
        (extJsonHandle cfg p).ret = (rs232SendHexStr (text.take 127)).2 ∧
          rs232Written (extJsonHandle cfg p).effects = (rs232SendHexStr (text.take 127)).1 := by
  rcases extJsonHandle_sendRs232 hc hlogin htarget with ⟨q, heq⟩
  rw [heq, Outcome.settle_ret, Outcome.settle_effects, Doc.rs232Text_eq]
  cases p.doc.rs232Hex with
  | none => exact ⟨rfl, rfl⟩
  | some text => exact ⟨rfl, rs232Written_map _⟩

/-- When it succeeds there is a reply. -/
theorem sendRs232_out (hc : commandOf p.cmd.val = some .sendRs232)
    (hlogin : p.doc.authenticated cfg = true) (htarget : p.target = cfg.local.mac)
    (hret : (extJsonHandle cfg p).ret = true) : (extJsonHandle cfg p).parser.out ≠ [] := by
  rcases extJsonHandle_sendRs232 hc hlogin htarget with ⟨q, heq⟩
  rw [heq, Outcome.settle_ret] at hret
  rw [heq]
  cases htext : p.doc.rs232Text with
  | none =>
      rw [htext] at hret
      exact absurd hret nofun
  | some hexData =>
      rw [htext] at hret
      have hall : (rs232SendHexStr hexData).2 = true := hret
      simp only [rs232Outcome, hall, Outcome.settle, if_true, extIpCmdResponseReply_out]
      exact tail_ne_nil _ _

/-- The text fits and stands for bytes, or its first pair is no byte. -/
def Sendable (text : List UInt8) : Prop :=
  startsBadly text = true ∨ (text.length ≤ 127 ∧ (hexDecode text).isSome = true)

instance (text : List UInt8) : Decidable (Sendable text) := inferInstanceAs (Decidable (_ ∨ _))

/-- What is sent of a text fits the answer if and only if it can be sent at all, or is
    refused from the start. -/
theorem sent_fits_iff (text : List UInt8) :
    (((rs232SendHexStr (text.take 127)).2 = true →
        hexDecode text = some (rs232SendHexStr (text.take 127)).1) ∧
      ((rs232SendHexStr (text.take 127)).2 = false →
        (rs232SendHexStr (text.take 127)).1 = [])) ↔ Sendable text := by
  have hdecode := hexDecode_eq_sent_iff text
  have hbad : startsBadly text = true ↔ rs232SendHexStr (text.take 127) = ([], false) := by
    rw [rs232SendHexStr_eq_nil_iff, startsBadly_take]
  unfold Sendable
  rw [hbad, ← hdecode]
  cases hret : (rs232SendHexStr (text.take 127)).2 with
  | true =>
      constructor
      · exact fun h => Or.inr (h.1 rfl)
      · rintro (hnone | hall)
        · rw [hnone] at hret
          exact absurd hret nofun
        · exact ⟨fun _ => hall, nofun⟩
  | false =>
      constructor
      · exact fun h => Or.inl (Prod.ext (h.2 rfl) hret)
      · rintro (hnone | hall)
        · exact ⟨nofun, fun _ => by rw [hnone]⟩
        · -- a text that stands for bytes is sent without an error
          rcases hdecode.mp hall with ⟨hfits, -⟩
          have hsent := rs232SendHexStr_of_hexDecode hall
          rw [List.take_of_length_le hfits] at hret
          rw [hsent] at hret
          exact absurd hret nofun

end Answer

/-- When `send_data_rs232`, authenticated and addressed to this device, is answered with
    `OK`, the bytes that have been written are those that all of the text stands for. When
    it is answered with an error, no byte has been written. -/
def SendsDecoded (dev : Device) (datagram : List UInt8) (ip : UInt32) (port : UInt16) : Prop :=
  let p := (parseDatagram dev datagram).2
  let r := extUdpCmdThread dev datagram ip port
  (parseDatagram dev datagram).1 = true → p.doc.authenticated dev.cfg = true →
    p.target = dev.cfg.local.mac → commandOf p.cmd.val = some .sendRs232 →
      (AckIs p.cmd.val (ascii "OK") r.1.parser.out →
        ∃ text, p.doc.string Key.rs232DataHex.text = some text ∧
          hexDecode text = some (rs232Written r.2)) ∧
      (AckIs p.cmd.val (ascii "NOK") r.1.parser.out → rs232Written r.2 = [])

/-- The command is answered, and with what the handler has returned. -/
theorem acks_sendRs232 {dev : Device} {datagram : List UInt8} (ip : UInt32) (port : UInt16)
    (hparsed : (parseDatagram dev datagram).1 = true)
    (hlogin : (parseDatagram dev datagram).2.doc.authenticated dev.cfg = true)
    (htarget : (parseDatagram dev datagram).2.target = dev.cfg.local.mac)
    (hc : commandOf (parseDatagram dev datagram).2.cmd.val = some .sendRs232) :
    let p := (parseDatagram dev datagram).2
    let o := extJsonHandle dev.cfg p
    let r := extUdpCmdThread dev datagram ip port
    (AckIs p.cmd.val (ascii "OK") r.1.parser.out ↔ o.ret = true) ∧
      (AckIs p.cmd.val (ascii "NOK") r.1.parser.out ↔ o.ret = false) ∧
      rs232Written r.2 = rs232Written o.effects := by
  have haddressed : isAddressed dev.cfg (parseDatagram dev datagram).2 = true := by
    simp [isAddressed, htarget]
  have hgiven : OptionalGiven (parseDatagram dev datagram).2 := by
    intro hget
    rw [hc] at hget
    cases hget
  rcases extUdpCmdThread_of_parsed ip port hparsed with ⟨q, hok, hfail, -, hparser, heff⟩
  have hacks := (acks_iff ip port hparsed hlogin haddressed).mpr hgiven
  dsimp only at hacks ⊢
  have hout : (extUdpCmdThread dev datagram ip port).1.parser.out ≠ [] := by
    rw [hparser]
    cases hret : (extJsonHandle dev.cfg (parseDatagram dev datagram).2).ret with
    | true =>
        rw [hok hret]
        exact sendRs232_out hc hlogin htarget hret
    | false =>
        rw [hfail hret, extIpCmdResponseReply_out]
        exact tail_ne_nil _ _
  rw [heff]
  exact ⟨(hacks hout).1, (hacks hout).2, rs232Written_append_reply _ _ _ _⟩

theorem decoded_iff {dev : Device} {datagram : List UInt8} (ip : UInt32) (port : UInt16)
    (hparsed : (parseDatagram dev datagram).1 = true)
    (hlogin : (parseDatagram dev datagram).2.doc.authenticated dev.cfg = true)
    (htarget : (parseDatagram dev datagram).2.target = dev.cfg.local.mac)
    (hc : commandOf (parseDatagram dev datagram).2.cmd.val = some .sendRs232) :
    let p := (parseDatagram dev datagram).2
    let r := extUdpCmdThread dev datagram ip port
    ((AckIs p.cmd.val (ascii "OK") r.1.parser.out →
        ∃ text, p.doc.string Key.rs232DataHex.text = some text ∧
          hexDecode text = some (rs232Written r.2)) ∧
      (AckIs p.cmd.val (ascii "NOK") r.1.parser.out → rs232Written r.2 = [])) ↔
      ∀ text, p.doc.rs232Hex = some text → Sendable text := by
  rcases acks_sendRs232 ip port hparsed hlogin htarget hc with ⟨hok, hnok, hwritten⟩
  have hsends := sendRs232_sends hc hlogin htarget
  dsimp only at hok hnok hwritten ⊢
  rw [hok, hnok, hwritten]
  cases hhex : (parseDatagram dev datagram).2.doc.rs232Hex with
  | none =>
      rw [hhex] at hsends
      rw [hsends.1, hsends.2]
      exact iff_of_true ⟨nofun, fun _ => rfl⟩ nofun
  | some text =>
      have hstring : (parseDatagram dev datagram).2.doc.string Key.rs232DataHex.text =
          some text := by
        unfold Doc.rs232Hex at hhex
        split at hhex
        · exact hhex
        · exact absurd hhex nofun
      rw [hhex] at hsends
      rw [hsends.1, hsends.2, hstring]
      have hfits := sent_fits_iff text
      constructor
      · rintro ⟨hall, hnone⟩ s hs
        rw [← Option.some.inj hs]
        refine hfits.mp ⟨fun hret => ?_, hnone⟩
        rcases hall hret with ⟨t, ht, hdecode⟩
        rw [← Option.some.inj ht] at hdecode
        exact hdecode
      · intro hsendable
        rcases hfits.mpr (hsendable text rfl) with ⟨hall, hnone⟩
        exact ⟨fun hret => ⟨text, rfl, hall hret⟩, hnone⟩

/-- What is sent is what the answer says, if and only if the text is at most 127 characters
    long and stands for bytes, or begins with a pair that is no byte. -/
theorem sendsDecoded_iff (dev : Device) (datagram : List UInt8) (ip : UInt32) (port : UInt16) :
    SendsDecoded dev datagram ip port ↔
      ((parseDatagram dev datagram).1 = true →
        (parseDatagram dev datagram).2.doc.authenticated dev.cfg = true →
          (parseDatagram dev datagram).2.target = dev.cfg.local.mac →
            commandOf (parseDatagram dev datagram).2.cmd.val = some .sendRs232 →
              ∀ text, (parseDatagram dev datagram).2.doc.rs232Hex = some text →
                Sendable text) :=
  forall_congr' fun hparsed => forall_congr' fun hlogin => forall_congr' fun htarget =>
    forall_congr' fun hc => decoded_iff ip port hparsed hlogin htarget hc

/-- A text of the byte 0x12 and of a pair that is no byte. -/
def badSecondByte : List UInt8 := extIpCmdResponseTailCalculate
  (ascii "\x7b\"targ\":\"00:04:25:1c:10:02\",\"cmd\":\"send_data_rs232\"," ++
    ascii "\"login-ack\":\"admin\",\"pwd-msg\":\"admin\"," ++
    ascii "\"data\":[\x7b\"hexdata\":\"12zz\",\"waitTime\":10,\"isFeedback\":0\x7d]") true

/-- The reply to it is an error, and the first byte has been written. -/
theorem not_sendsDecoded_badSecondByte :
    ¬ SendsDecoded (Device.factory 1) badSecondByte 0xC0A8A80A 5000 := by
  have hread : (parseDatagram (Device.factory 1) badSecondByte).1 = true ∧
      (parseDatagram (Device.factory 1) badSecondByte).2.doc.authenticated
        (Device.factory 1).cfg = true ∧
      (parseDatagram (Device.factory 1) badSecondByte).2.target =
        (Device.factory 1).cfg.local.mac ∧
      commandOf (parseDatagram (Device.factory 1) badSecondByte).2.cmd.val =
        some .sendRs232 ∧
      (parseDatagram (Device.factory 1) badSecondByte).2.doc.rs232Hex =
        some (ascii "12zz") := by
    unfold badSecondByte
    repeat rw [ascii_ofList]
    decide +kernel
  intro h
  rcases hread with ⟨hparsed, hlogin, htarget, hc, hhex⟩
  have hunfit : ¬ Sendable (ascii "12zz") := by decide
  exact hunfit ((decoded_iff 0xC0A8A80A 5000 hparsed hlogin htarget hc).mp
    (h hparsed hlogin htarget hc) _ hhex)

end Cmd

end RtosLwip
