import RtosLwip.Cmd.Values

/-!
# Commands without a Valid Login

What a datagram can do whose login and password are not the configured ones.
A refused command only causes a reply with an error. But the comparison ends
with the configured texts, so a login that merely begins with the configured one
is taken, and so is one that an earlier message has left in the token array. And
`security_check` sends the media parameters, with the user and the password in
them, before it looks at the login at all.

## Main definitions

* `ExactLogin`: The login and the password of a datagram are the configured ones.
* `Unaffected`: The datagram causes at most a reply with an error, or the event
  of a reply.
* `Acts`: The command is carried out, at least in part.
* `CarriedOut`: The datagram holds such a command.

## Theorems

* `extJsonHandle_cases`: A command is refused, or a reply, or carried out.
* `unaffected_iff`: A datagram has no effect if and only if its command is not
  carried out.
* `login_needed_iff`: When the login protects the device.
-/

namespace RtosLwip

namespace Cmd

/-- The text begins with two characters that are no byte. -/
def startsBadly : List UInt8 → Bool
  | a :: b :: _ => !((hexDigit a).isSome && (hexDigit b).isSome)
  | _ => false

/-- The values of `send_data_rs232` are there, and the first byte can be sent, or
    there is none to send. -/
def Doc.sendsRs232 (d : Doc) : Prop :=
  d.hasDataArray = true ∧ (d.unsignedShort .rs232WaitTime).isSome = true ∧
    (d.unsignedChar .rs232Feedback).isSome = true ∧
    ∃ hexData, d.stringIn .rs232DataHex 128 = some hexData ∧ startsBadly hexData = false

/-- The command is carried out, at least in part. -/
def Acts (cfg : RuntimeCfg) (p : Parser) : Prop :=
  match commandOf p.cmd.val with
  | none => False
  | some .getParams => p.doc.authenticated cfg = true ∧ isAddressed cfg p = true
  | some .setParams =>
      p.doc.isReply = false ∧ p.doc.authenticated cfg = true ∧ p.target = cfg.local.mac ∧
        p.doc.acceptable cfg = true
  | some .sendRs232 =>
      p.doc.authenticated cfg = true ∧ p.target = cfg.local.mac ∧ p.doc.sendsRs232
  | some .securityCheck => True

/-- The outcome of a command that was refused. -/
def Outcome.Refused (cfg : RuntimeCfg) (o : Outcome) : Prop :=
  o.ret = false ∧ o.cfg = cfg ∧ o.effects = []

theorem and_decide_eq_false {a : Bool} {q : Prop} [Decidable q] (h : ¬ (a = true ∧ q)) :
    (a && decide q) = false := by
  rw [Bool.eq_false_iff, Ne, Bool.and_eq_true, decide_eq_true_iff]
  exact h

section Handlers

variable (cfg : RuntimeCfg) (p : Parser)

theorem isAddressed_congr {p q : Parser} (h : q.input = p.input) :
    isAddressed cfg q = isAddressed cfg p := by
  rw [isAddressed, isAddressed, Parser.target_eq h]

/-- `get_param` is refused, or it is answered with the configuration. -/
theorem extCmdGetParams_cases :
    (¬ (p.doc.authenticated cfg = true ∧ isAddressed cfg p = true) ∧
      (extCmdGetParams cfg p).Refused cfg) ∨
    ((p.doc.authenticated cfg = true ∧ isAddressed cfg p = true) ∧
      ∃ q, extCmdGetParams cfg p =
        let cfg' := {
          cfg with
          ipSvr811 := (p.doc.ipAddress .svr811Ip).1
          portSvr811 := (p.doc.unsignedShort .svr811Port).getD cfg.portSvr811 }
        ⟨true, cfg', extJsonResponsePrintConfig cfg' q, []⟩) := by
  obtain ⟨q, hq, hin⟩ := delivers_userValidate cfg p
  unfold extCmdGetParams
  rw [hq]
  cases p.doc.authenticated cfg with
  | false => exact Or.inl ⟨fun h => absurd h.1 nofun, rfl, rfl, rfl⟩
  | true =>
      simp only [isAddressed_congr cfg hin]
      cases isAddressed cfg p with
      | false => exact Or.inl ⟨fun h => absurd h.2 nofun, rfl, rfl, rfl⟩
      | true =>
          obtain ⟨r, hr, hrin⟩ := delivers_ipAddress .svr811Ip q
          obtain ⟨t, ht, htin⟩ := delivers_unsignedShort .svr811Port r
          rw [Parser.doc_eq hrin, Parser.doc_eq hin] at ht
          rw [Parser.doc_eq hin] at hr
          simp only [hr, ht, not_true_eq_false, if_false]
          exact Or.inr ⟨⟨trivial, trivial⟩, t, rfl⟩

/-- `set_param` is taken for a reply, or refused, or carried out. -/
theorem extIpCmdSetupParams_cases :
    (p.doc.isReply = true ∧ ∃ q, extIpCmdSetupParams cfg p = ⟨true, cfg, q, [.mediaAck]⟩ ∧
      q.out = []) ∨
    (p.doc.isReply = false ∧ ¬ (p.doc.authenticated cfg = true ∧ p.target = cfg.local.mac ∧
      p.doc.acceptable cfg = true) ∧ (extIpCmdSetupParams cfg p).Refused cfg) ∨
    (p.doc.isReply = false ∧ (p.doc.authenticated cfg = true ∧ p.target = cfg.local.mac ∧
      p.doc.acceptable cfg = true) ∧ ∃ q, extIpCmdSetupParams cfg p =
        let s := compareAll p.doc.scratch cfg
        ⟨true, s.cfg, extJsonResponsePrintConfig s.cfg q,
          s.effects ++ setupEffects p.doc.scratch s⟩) := by
  obtain ⟨q, hq, hin, hout⟩ := extJsonIsResponse_eq p
  unfold extIpCmdSetupParams
  rw [hq]
  cases hreply : p.doc.isReply with
  | true => exact Or.inl ⟨rfl, q, rfl, hout hreply⟩
  | false =>
      refine Or.inr ?_
      obtain ⟨r, hr, hrin⟩ := extIpCmdIsLocal_eq cfg q
      rw [Parser.doc_eq hin, Parser.target_eq hin] at hr
      simp only [hr]
      by_cases hlocal : p.doc.authenticated cfg = true ∧ p.target = cfg.local.mac
      · have hdoc : r.doc = p.doc := Parser.doc_eq (hrin.trans hin)
        have hparse := extJsonRequestParse_eq cfg r
        rw [hdoc] at hparse
        simp only [hlocal.1, hlocal.2, decide_true, Bool.and_self]
        cases hacc : p.doc.acceptable cfg with
        | false =>
            obtain ⟨t, ht, -⟩ := hparse.2 hacc
            rw [ht]
            exact Or.inl ⟨trivial, fun h => absurd h.2.2 nofun, rfl, rfl, rfl⟩
        | true =>
            obtain ⟨t, ht, -⟩ := hparse.1 hacc
            rw [ht]
            exact Or.inr ⟨trivial, ⟨trivial, trivial, rfl⟩, t, rfl⟩
      · rw [and_decide_eq_false hlocal]
        exact Or.inl ⟨trivial, fun h => hlocal ⟨h.1, h.2.1⟩, rfl, rfl, rfl⟩

theorem rs232SendHexStr_eq_nil_iff (str : List UInt8) :
    rs232SendHexStr str = ([], false) ↔ startsBadly str = true := by
  rcases str with _ | ⟨a, _ | ⟨b, rest⟩⟩
  · exact ⟨nofun, nofun⟩
  · exact ⟨nofun, nofun⟩
  · unfold rs232SendHexStr startsBadly extSysAtoInt8
    cases ha : hexDigit a with
    | none => simp [ha]
    | some x =>
        cases hb : hexDigit b with
        | none => simp [ha, hb]
        | some y => simp [ha, hb]

/-- The text that `send_data_rs232` sends, if its values are there. -/
def Doc.rs232Text (d : Doc) : Option (List UInt8) :=
  if d.hasDataArray = true ∧ (d.unsignedShort .rs232WaitTime).isSome = true ∧
      (d.unsignedChar .rs232Feedback).isSome = true then
    d.stringIn .rs232DataHex 128
  else none

/-- What `send_data_rs232` leaves when it sends a text, and when it has none. -/
def rs232Outcome (cfg : RuntimeCfg) (q : Parser) : Option (List UInt8) → Outcome
  | none => ⟨false, cfg, q, []⟩
  | some hexData =>
      let r := rs232SendHexStr hexData
      ⟨r.2, cfg, if r.2 then extIpCmdResponseReply cfg { q with status := .ok } else q,
        r.1.map .rs232Write⟩

/-- `send_data_rs232` sends its text when all of its values are there. -/
theorem extIpCmdSendRsData_eq (hlogin : p.doc.authenticated cfg = true)
    (htarget : p.target = cfg.local.mac) :
    ∃ q, q.input = p.input ∧ extIpCmdSendRsData cfg p = rs232Outcome cfg q p.doc.rs232Text := by
  rcases extIpCmdIsLocal_eq cfg p with ⟨q, hq, hin⟩
  rcases delivers_dataArray q with ⟨r, hr, hrin⟩
  rcases delivers_string .rs232DataHex 128 r with ⟨t, ht, htin⟩
  rcases delivers_unsignedShort .rs232WaitTime t with ⟨u, hu, huin⟩
  rcases delivers_unsignedChar .rs232Feedback u with ⟨v, hv, hvin⟩
  have hrin' := hrin.trans hin
  have htin' := htin.trans hrin'
  have huin' := huin.trans htin'
  rw [Parser.doc_eq hin] at hr
  rw [Parser.doc_eq hrin'] at ht
  rw [Parser.doc_eq htin'] at hu
  rw [Parser.doc_eq huin'] at hv
  have hlocal : (p.doc.authenticated cfg && decide (p.target = cfg.local.mac)) = true := by
    rw [hlogin, decide_eq_true htarget, Bool.and_self]
  unfold extIpCmdSendRsData Doc.rs232Text
  rw [hq, hlocal]
  dsimp only
  rw [hr]
  cases p.doc.hasDataArray with
  | false =>
      rw [if_neg fun h => absurd h.1 nofun]
      refine ⟨_, ?_, rfl⟩
      exact hrin'
  | true =>
      dsimp only
      rw [ht]
      cases p.doc.stringIn .rs232DataHex 128 with
      | none =>
          rw [ite_self]
          refine ⟨_, ?_, rfl⟩
          exact htin'
      | some hexData =>
          dsimp only
          rw [hu]
          cases p.doc.unsignedShort .rs232WaitTime with
          | none =>
              rw [if_neg fun h => absurd h.2.1 nofun]
              refine ⟨_, ?_, rfl⟩
              exact huin'
          | some waitMs =>
              dsimp only
              rw [hv]
              cases p.doc.unsignedChar .rs232Feedback with
              | none =>
                  rw [if_neg fun h => absurd h.2.2 nofun]
                  refine ⟨_, ?_, rfl⟩
                  exact hvin.trans huin'
              | some isFeedBack =>
                  rw [if_pos ⟨rfl, rfl, rfl⟩]
                  simp only [rs232Outcome]
                  cases hsent : (rs232SendHexStr hexData).2 with
                  | false =>
                      refine ⟨_, ?_, rfl⟩
                      exact hvin.trans huin'
                  | true => exact ⟨v, hvin.trans huin', rfl⟩

/-- The values of `send_data_rs232` are there when it has a text to send. -/
theorem Doc.sendsRs232_iff (d : Doc) :
    d.sendsRs232 ↔ ∃ hexData, d.rs232Text = some hexData ∧ startsBadly hexData = false := by
  unfold Doc.sendsRs232 Doc.rs232Text
  constructor
  · rintro ⟨hdata, hwait, hfeedback, hexData, hs, hbad⟩
    exact ⟨hexData, by rw [if_pos ⟨hdata, hwait, hfeedback⟩, hs], hbad⟩
  · rintro ⟨hexData, hs, hbad⟩
    split at hs
    · rename_i hgiven
      exact ⟨hgiven.1, hgiven.2.1, hgiven.2.2, hexData, hs, hbad⟩
    · exact absurd hs nofun

/-- `send_data_rs232` is refused, or something is sent to the serial line, or
    the reply says that all of it was sent. -/
theorem extIpCmdSendRsData_cases :
    (¬ (p.doc.authenticated cfg = true ∧ p.target = cfg.local.mac ∧ p.doc.sendsRs232) ∧
      (extIpCmdSendRsData cfg p).Refused cfg) ∨
    ((p.doc.authenticated cfg = true ∧ p.target = cfg.local.mac ∧ p.doc.sendsRs232) ∧
      (extIpCmdSendRsData cfg p).cfg = cfg ∧
      (((extIpCmdSendRsData cfg p).ret = false ∧ (extIpCmdSendRsData cfg p).effects ≠ []) ∨
        ((extIpCmdSendRsData cfg p).ret = true ∧
          ∃ q, q.status = .ok ∧
            (extIpCmdSendRsData cfg p).parser = extIpCmdResponseReply cfg q))) := by
  by_cases hlocal : p.doc.authenticated cfg = true ∧ p.target = cfg.local.mac
  · rcases extIpCmdSendRsData_eq cfg p hlocal.1 hlocal.2 with ⟨q, -, heq⟩
    rw [heq, Doc.sendsRs232_iff]
    cases p.doc.rs232Text with
    | none => exact Or.inl ⟨fun ⟨_, _, _, h, _⟩ => absurd h nofun, rfl, rfl, rfl⟩
    | some hexData =>
        by_cases hbad : startsBadly hexData = true
        · -- the first pair of characters is no byte
          have hsent := (rs232SendHexStr_eq_nil_iff hexData).mpr hbad
          simp only [rs232Outcome, hsent]
          refine Or.inl ⟨?_, rfl, rfl, rfl⟩
          rintro ⟨_, _, s, hs, hs'⟩
          cases hs
          rw [hbad] at hs'
          exact absurd hs' nofun
        · refine Or.inr ⟨⟨hlocal.1, hlocal.2, hexData, rfl, by simpa using hbad⟩, ?_⟩
          have hsent := mt (rs232SendHexStr_eq_nil_iff hexData).mp hbad
          dsimp only [rs232Outcome]
          generalize rs232SendHexStr hexData = sent at hsent ⊢
          rcases sent with ⟨bytes, _ | _⟩
          · refine ⟨rfl, Or.inl ⟨rfl, fun hnil => hsent ?_⟩⟩
            have hnone : bytes = [] := List.map_eq_nil_iff.mp hnil
            rw [hnone]
          · exact ⟨rfl, Or.inr ⟨rfl, _, rfl, rfl⟩⟩
  · rcases extIpCmdIsLocal_eq cfg p with ⟨q, hq, -⟩
    unfold extIpCmdSendRsData
    rw [hq, and_decide_eq_false hlocal]
    exact Or.inl ⟨fun h => hlocal ⟨h.1, h.2.1⟩, rfl, rfl, rfl⟩

/-- `security_check` sends the media parameters whatever the message says. -/
theorem extIpCmdSecurityCheck_effects : (extIpCmdSecurityCheck cfg p).effects =
    [.sendto (mediaFrame cfg false) cfg.ipSvr811 cfg.portSvr811] := by
  unfold extIpCmdSecurityCheck
  dsimp only
  repeat' split
  all_goals rfl

theorem tail_ne_nil (json : List UInt8) (isRequest : Bool) :
    extIpCmdResponseTailCalculate json isRequest ≠ [] := List.cons_ne_nil _ _

/-- `security_check` answers when it succeeds. -/
theorem extIpCmdSecurityCheck_out :
    (extIpCmdSecurityCheck cfg p).ret = false ∨ (extIpCmdSecurityCheck cfg p).parser.out ≠ [] := by
  unfold extIpCmdSecurityCheck
  dsimp only
  repeat' split
  all_goals first | exact Or.inl rfl | exact Or.inr (tail_ne_nil _ _)

end Handlers

section Frames

/-- A frame determines its text. -/
theorem tail_injective {a b : List UInt8} {r : Bool}
    (h : extIpCmdResponseTailCalculate a r = extIpCmdResponseTailCalculate b r) : a = b := by
  unfold extIpCmdResponseTailCalculate at h
  have hcrc : ∀ v : UInt32, (bytes32 v).length = 4 := fun _ => rfl
  have hfront := (List.append_inj' h (by rw [hcrc, hcrc])).1
  rw [List.append_assoc, List.append_assoc] at hfront
  have htag : ∀ v : UInt16, (bytes16 v).length = 2 := fun _ => rfl
  have hlength := (List.append_inj hfront (by rw [htag])).2
  exact List.append_cancel_right (List.append_inj hlength (by rw [htag, htag])).2

theorem getLast_headerPrint (cfg : RuntimeCfg) (p : Parser) :
    (extIpCmdResponseHeaderPrint cfg p).getLast? = some 34 := by
  unfold extIpCmdResponseHeaderPrint
  simp only [stringField, quoted, List.getLast?_append, List.getLast?_singleton, Option.some_or]

theorem getLast_responseConfig (cfg : RuntimeCfg) (p : Parser) :
    (responseConfig cfg p).getLast? = some 93 := by
  unfold responseConfig
  simp only [List.getLast?_append, List.getLast?_cons_cons, List.getLast?_singleton,
    Option.some_or]

/-- A reply with the configuration ends otherwise than a reply without data. -/
theorem printConfig_out_ne (cfg : RuntimeCfg) (p q : Parser) :
    (extJsonResponsePrintConfig cfg p).out ≠ (extIpCmdResponseReply cfg q).out := by
  rw [extJsonResponsePrintConfig_out, extIpCmdResponseReply_out]
  intro h
  have hlast := congrArg List.getLast? (tail_injective h)
  rw [getLast_responseConfig, getLast_headerPrint] at hlast
  exact absurd hlast (by decide)

end Frames

/-- The last output is the reply with an error. -/
def IsErrorReply (cfg : RuntimeCfg) (p : Parser) : Prop :=
  p.status ≠ .ok ∧ p.out = (extIpCmdResponseReply cfg p).out

/-- The outcome of a command that has an effect beyond a reply with an error. -/
def Outcome.Visible (o : Outcome) : Prop :=
  (o.ret = false ∧ o.effects ≠ []) ∨
    (o.ret = true ∧ o.parser.out ≠ [] ∧ (o.effects ≠ [] ∨ ¬ IsErrorReply o.cfg o.parser))

theorem settle_refused {cfg : RuntimeCfg} {o : Outcome} (h : o.Refused cfg) :
    o.settle.Refused cfg ∧ o.settle.parser.status ≠ .ok := by
  obtain ⟨hret, hcfg, heff⟩ := h
  rw [Outcome.settle, if_neg (by rw [hret]; exact nofun)]
  exact ⟨⟨hret, hcfg, heff⟩, nofun⟩

theorem settle_visible {o : Outcome} (h : o.Visible) : o.settle.Visible := by
  rcases h with ⟨hret, heff⟩ | hsuccess
  · rw [Outcome.settle, if_neg (by rw [hret]; exact nofun)]
    exact Or.inl ⟨hret, heff⟩
  · rw [Outcome.settle, if_pos hsuccess.1]
    exact Or.inr hsuccess

/-- A command is refused, or it is the reply to an earlier command, or it is
    carried out. -/
theorem extJsonHandle_cases (cfg : RuntimeCfg) (p : Parser) :
    (¬ Acts cfg p ∧ (extJsonHandle cfg p).Refused cfg ∧
      (extJsonHandle cfg p).parser.status ≠ .ok) ∨
    (¬ Acts cfg p ∧ (commandOf p.cmd.val = some .setParams ∧ p.doc.isReply = true) ∧
      ∃ q, extJsonHandle cfg p = ⟨true, cfg, q, [.mediaAck]⟩ ∧ q.out = []) ∨
    (Acts cfg p ∧ (extJsonHandle cfg p).Visible) := by
  unfold extJsonHandle Acts
  cases hcmd : commandOf p.cmd.val with
  | none => exact Or.inl ⟨id, ⟨rfl, rfl, rfl⟩, nofun⟩
  | some c =>
      cases c with
      | getParams =>
          dsimp only [Command.handler]
          rcases extCmdGetParams_cases cfg p with ⟨hno, h⟩ | ⟨hyes, q, h⟩
          · exact Or.inl ⟨hno, settle_refused h⟩
          · rw [h]
            refine Or.inr (Or.inr ⟨hyes, Or.inr ⟨rfl, tail_ne_nil _ _, Or.inr fun herr => ?_⟩⟩)
            exact printConfig_out_ne _ _ _ herr.2
      | setParams =>
          dsimp only [Command.handler]
          rcases extIpCmdSetupParams_cases cfg p with ⟨hreply, q, h, hout⟩ | ⟨_, hno, h⟩ |
            ⟨hreply, hyes, q, h⟩
          · rw [h]
            refine Or.inr (Or.inl ⟨fun hn => ?_, ⟨rfl, hreply⟩, q, rfl, hout⟩)
            exact absurd hreply (by rw [hn.1]; exact nofun)
          · exact Or.inl ⟨fun hn => hno hn.2, settle_refused h⟩
          · rw [h]
            refine Or.inr (Or.inr ⟨⟨hreply, hyes⟩,
              Or.inr ⟨rfl, tail_ne_nil _ _, Or.inr fun herr => ?_⟩⟩)
            exact printConfig_out_ne _ _ _ herr.2
      | sendRs232 =>
          dsimp only [Command.handler]
          rcases extIpCmdSendRsData_cases cfg p with ⟨hno, h⟩ | ⟨hyes, _, ⟨hret, heff⟩ |
            ⟨hret, q, hstatus, hq⟩⟩
          · exact Or.inl ⟨hno, settle_refused h⟩
          · refine Or.inr (Or.inr ⟨hyes, settle_visible (Or.inl ⟨hret, heff⟩)⟩)
          · refine Or.inr (Or.inr ⟨hyes, settle_visible (Or.inr ⟨hret, ?_, Or.inr ?_⟩)⟩)
            · rw [hq]
              exact tail_ne_nil _ _
            · rw [hq]
              exact fun herr => herr.1 hstatus
      | securityCheck =>
          dsimp only [Command.handler]
          refine Or.inr (Or.inr ⟨trivial, settle_visible ?_⟩)
          have heff : (extIpCmdSecurityCheck cfg p).effects ≠ [] := by
            rw [extIpCmdSecurityCheck_effects]
            exact nofun
          cases hret : (extIpCmdSecurityCheck cfg p).ret with
          | false => exact Or.inl ⟨hret, heff⟩
          | true =>
              rcases extIpCmdSecurityCheck_out cfg p with hfail | hout
              · exact absurd hret (by rw [hfail]; exact nofun)
              · exact Or.inr ⟨hret, hout, Or.inl heff⟩

/-- The parser that a datagram leaves, and whether it holds a command for a
    handler. -/
def parseDatagram (dev : Device) (datagram : List UInt8) : Bool × Parser :=
  parseFrame (receive dev datagram) (datagram.take bufLength).length

/-- The login and the password of a datagram are the configured ones. Tokens of
    earlier messages do not count. -/
def ExactLogin (dev : Device) (datagram : List UInt8) : Prop :=
  (parseDatagram dev datagram).1 = true ∧
    (parseDatagram dev datagram).2.doc.own.string Key.loginAck.text = some dev.cfg.user.val ∧
    (parseDatagram dev datagram).2.doc.own.string Key.pwdMsg.text = some dev.cfg.password.val

/-- The datagram is a reply to an earlier `set_param` command. -/
def IsSetParamReply (dev : Device) (datagram : List UInt8) : Prop :=
  (parseDatagram dev datagram).1 = true ∧
    commandOf (parseDatagram dev datagram).2.cmd.val = some .setParams ∧
    (parseDatagram dev datagram).2.doc.isReply = true

/-- The configuration is unchanged, and there is no effect but a reply with an
    error to the sender, or the event of a reply. -/
def Unaffected (dev : Device) (datagram : List UInt8) (ip : UInt32) (port : UInt16) : Prop :=
  let r := extUdpCmdThread dev datagram ip port
  r.1.cfg = dev.cfg ∧
    (r.2 = [] ∨ (r.2 = [.mediaAck] ∧ IsSetParamReply dev datagram) ∨
      (r.2 = [.sendto r.1.parser.out ip port] ∧ IsErrorReply r.1.cfg r.1.parser))

/-- The datagram holds a command that is carried out, at least in part. -/
def CarriedOut (dev : Device) (datagram : List UInt8) : Prop :=
  (parseDatagram dev datagram).1 = true ∧ Acts dev.cfg (parseDatagram dev datagram).2

/-- A text that is not accepted leaves an error status. -/
theorem extJsonRequestParseCommand_status (text : List UInt8) (size : Nat) (p : Parser)
    (h : (extJsonRequestParseCommand text size p).1 = false) :
    (extJsonRequestParseCommand text size p).2.status ≠ .ok := by
  unfold extJsonRequestParseCommand at h ⊢
  dsimp only at h ⊢
  cases hparse : (jsmnParse ((text ++ [0]).take size) p.doc.tokens).2 with
  | some e =>
      exact nofun
  | none =>
      simp only [hparse] at h ⊢
      split at h
      · rename_i hmac
        rw [if_pos hmac]
        exact nofun
      · rename_i hmac
        rw [if_neg hmac]
        split at h
        · rename_i hcmd
          exact nofun
        · exact absurd h nofun

/-- A frame or a text that is not accepted leaves an error status. -/
theorem parseDatagram_status (dev : Device) (datagram : List UInt8)
    (h : (parseDatagram dev datagram).1 = false) :
    (parseDatagram dev datagram).2.status ≠ .ok := by
  unfold parseDatagram parseFrame at h ⊢
  cases hframe : (checkFrame (receive dev datagram).bufRead
      (datagram.take bufLength).length []).1 with
  | tagError tag => exact nofun
  | crcError received decoded => exact nofun
  | json len =>
      simp only [hframe] at h ⊢
      exact extJsonRequestParseCommand_status _ _ _ h

/-- What a round of the thread does with a datagram whose command is handled. -/
theorem extUdpCmdThread_of_parsed {dev : Device} {datagram : List UInt8} (ip : UInt32)
    (port : UInt16) (h : (parseDatagram dev datagram).1 = true) :
    let o := extJsonHandle dev.cfg (parseDatagram dev datagram).2
    ∃ p, (o.ret = true → p = o.parser) ∧
      (o.ret = false → p = extIpCmdResponseReply o.cfg o.parser) ∧
      (extUdpCmdThread dev datagram ip port).1.cfg = o.cfg ∧
      (extUdpCmdThread dev datagram ip port).1.parser = p ∧
      (extUdpCmdThread dev datagram ip port).2 =
        o.effects ++ if p.out = [] then [] else [.sendto p.out ip port] := by
  unfold extUdpCmdThread extCmdPaserHandler
  rw [parseDatagram] at h ⊢
  rcases hparse : parseFrame (receive dev datagram) (datagram.take bufLength).length with
    ⟨_ | _, q⟩
  · rw [hparse] at h
    exact absurd h nofun
  · dsimp only
    have hcfg : (receive dev datagram).cfg = dev.cfg := rfl
    rw [hcfg]
    cases hret : (extJsonHandle dev.cfg q).ret with
    | true => exact ⟨_, fun _ => rfl, nofun, rfl, rfl, rfl⟩
    | false => exact ⟨_, nofun, fun _ => rfl, rfl, rfl, rfl⟩

theorem unaffected_of_not_parsed {dev : Device} {datagram : List UInt8} (ip : UInt32)
    (port : UInt16) (h : (parseDatagram dev datagram).1 = false) :
    Unaffected dev datagram ip port := by
  have hstatus := parseDatagram_status dev datagram h
  unfold Unaffected extUdpCmdThread extCmdPaserHandler
  rw [parseDatagram] at h hstatus
  rcases hparse : parseFrame (receive dev datagram) (datagram.take bufLength).length with
    ⟨_ | _, q⟩
  · rw [hparse] at hstatus
    have hout : (extIpCmdResponseReply (receive dev datagram).cfg q).out ≠ [] := tail_ne_nil _ _
    simp only [if_neg hout, List.nil_append]
    exact ⟨rfl, Or.inr (Or.inr ⟨trivial, hstatus, rfl⟩)⟩
  · rw [hparse] at h
    exact absurd h nofun

/-- A refused command is answered with an error, and that is all. -/
theorem answered_of_refused {dev : Device} {datagram : List UInt8} (ip : UInt32) (port : UInt16)
    (hparsed : (parseDatagram dev datagram).1 = true)
    (hrefused : (extJsonHandle dev.cfg (parseDatagram dev datagram).2).Refused dev.cfg)
    (hstatus : (extJsonHandle dev.cfg (parseDatagram dev datagram).2).parser.status ≠ .ok) :
    let r := extUdpCmdThread dev datagram ip port
    r.1.cfg = dev.cfg ∧ r.2 = [.sendto r.1.parser.out ip port] ∧
      IsErrorReply r.1.cfg r.1.parser := by
  obtain ⟨p, -, hfail, hcfg, hparser, heff⟩ := extUdpCmdThread_of_parsed ip port hparsed
  obtain ⟨hret, hsame, hnone⟩ := hrefused
  have hp := hfail hret
  have hout : p.out ≠ [] := by
    rw [hp]
    exact tail_ne_nil _ _
  rw [hnone, List.nil_append, if_neg hout] at heff
  refine ⟨hcfg.trans hsame, ?_, ?_, ?_⟩
  · rw [heff, hparser]
  · rw [hparser, hp]
    exact hstatus
  · rw [hparser, hcfg, hp]
    rfl

/-- A datagram has no effect if and only if its command is not carried out. -/
theorem unaffected_iff (dev : Device) (datagram : List UInt8) (ip : UInt32) (port : UInt16) :
    Unaffected dev datagram ip port ↔ ¬ CarriedOut dev datagram := by
  cases hparsed : (parseDatagram dev datagram).1 with
  | false =>
      exact iff_of_true (unaffected_of_not_parsed ip port hparsed)
        fun h => absurd h.1 (by rw [hparsed]; exact nofun)
  | true =>
      obtain ⟨p, hok, hfail, hcfg, hparser, heff⟩ := extUdpCmdThread_of_parsed ip port hparsed
      rcases extJsonHandle_cases dev.cfg (parseDatagram dev datagram).2 with
        ⟨hno, hrefused, hstatus⟩ | ⟨hno, ⟨hcmd, hreply⟩, q, ho, hout⟩ | ⟨hyes, hvis⟩
      · -- a refused command is answered with an error
        refine iff_of_true ?_ fun h => hno h.2
        obtain ⟨hsame, hsent⟩ := answered_of_refused ip port hparsed hrefused hstatus
        exact ⟨hsame, Or.inr (Or.inr hsent)⟩
      · -- the reply to an earlier command posts its event
        refine iff_of_true ?_ fun h => hno h.2
        rw [ho] at hok hcfg heff
        have hp : p.out = [] := by rw [hok rfl, hout]
        rw [if_pos hp, List.append_nil] at heff
        exact ⟨hcfg, Or.inr (Or.inl ⟨heff, hparsed, hcmd, hreply⟩)⟩
      · refine iff_of_false ?_ fun h => h ⟨hparsed, hyes⟩
        rintro ⟨-, hsent⟩
        have hout : p.out ≠ [] := by
          rcases hvis with ⟨hret, -⟩ | ⟨hret, hout, -⟩
          · rw [hfail hret]
            exact tail_ne_nil _ _
          · rwa [hok hret]
        rw [if_neg hout] at heff
        rw [heff, hparser, hcfg] at hsent
        by_cases hnone : (extJsonHandle dev.cfg (parseDatagram dev datagram).2).effects = []
        · -- nothing but a reply, and it reports no error
          rcases hvis with ⟨-, hsome⟩ | ⟨hret, -, hsome | hdata⟩
          · exact hsome hnone
          · exact hsome hnone
          · rw [hok hret] at hsent
            rw [hnone] at hsent
            rcases hsent with h | ⟨h, -⟩ | ⟨-, herr⟩
            · exact absurd h nofun
            · exact absurd h (by simp)
            · exact hdata herr
        · -- the reply is not all that is sent
          have hlen := List.length_pos_iff.mpr hnone
          rcases hsent with h | ⟨h, -⟩ | ⟨h, -⟩
          all_goals
            have := congrArg List.length h
            simp only [List.length_append, List.length_cons, List.length_nil] at this
            omega

/-- Without the exact login and password a datagram has no effect, if and only if
    its command is not carried out. -/
theorem login_needed_iff (dev : Device) (datagram : List UInt8) (ip : UInt32) (port : UInt16) :
    (¬ ExactLogin dev datagram → Unaffected dev datagram ip port) ↔
      ExactLogin dev datagram ∨ ¬ CarriedOut dev datagram := by
  rw [unaffected_iff]
  constructor
  · intro h
    by_cases hlogin : ExactLogin dev datagram
    · exact Or.inl hlogin
    · exact Or.inr (h hlogin)
  · rintro (hlogin | hno) hwrong
    · exact absurd hlogin hwrong
    · exact hno

/-- A `set_param` command with the login "admin2". -/
def longLogin : List UInt8 := extIpCmdResponseTailCalculate
  (ascii "\x7b\"targ\":\"00:04:25:1c:10:02\",\"cmd\":\"set_param\",\"login-ack\":\"admin2\"," ++
    ascii "\"pwd-msg\":\"admin\",\"data\":[\x7b\"vidPort\":50000\x7d]") true

/-- The user of a new device is "admin", and "admin2" is taken for it. -/
theorem not_login_needed_longLogin :
    ¬ (¬ ExactLogin (Device.factory 1) longLogin →
      Unaffected (Device.factory 1) longLogin 0xC0A8A80A 5000) := by
  intro h
  have hlogin : (parseDatagram (Device.factory 1) longLogin).2.doc.own.string Key.loginAck.text ≠
      some (Device.factory 1).cfg.user.val := by decide +kernel
  have hcfg := (h fun hexact => hlogin hexact.2.1).1
  have hport : (extUdpCmdThread (Device.factory 1) longLogin 0xC0A8A80A 5000).1.cfg.dest.vport =
      50000 := by decide +kernel
  rw [hcfg] at hport
  exact absurd hport (by decide +kernel)

end Cmd

end RtosLwip
