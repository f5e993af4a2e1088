import RtosLwip.Cmd.Unchanged

/-!
# The Status of a Reply

Every reply says `OK` or `NOK` in its field `login-ack`. What is printed is not
what the handler returns but the status of the parser, and this status is also
where each reading function notes that a key is missing. A handler that fails has
its status set once more by `extJsonHandle`, before the reply is printed. A handler
that succeeds prints its reply itself, and all of them but one set the status
before they do: `set_param` when it has counted its values, the others when they
have done what they were asked to.

The exception is `get_param`. It asks for the address and the port of the server,
which need not be given, and prints what the two lookups have left.

## Main definitions

* `AckIs`: What the field `login-ack` of a reply says.
* `Reports`: A handler that succeeds prints one status, and keeps the command.
* `Acknowledges`: The reply says what the handler has returned.

## Theorems

* `ackIs_unique`: A reply does not say both.
* `reports_handler`: What the handlers print.
* `acknowledges_iff`: When the reply says what the handler has returned.
-/

namespace RtosLwip

namespace Cmd

/-- The reply to a command says `ack` in its field `login-ack`. -/
def AckIs (cmd ack out : List UInt8) : Prop :=
  ∃ header mac rest, header.length = ipcmdHeaderLength ∧
    out = header ++ (123 :: stringField .target (macPrint mac) ++ [44] ++
      stringField .command cmd ++ [44] ++ stringField .loginAck ack ++ rest)

/-- What is printed for a status. -/
def ackText (ok : Bool) : List UInt8 := if ok then ascii "OK" else ascii "NOK"

/-- A reply does not say both. -/
theorem ackIs_unique {cmd out : List UInt8} {a b : Bool} (ha : AckIs cmd (ackText a) out)
    (hb : AckIs cmd (ackText b) out) : a = b := by
  rcases ha with ⟨header, mac, rest, hlen, rfl⟩
  rcases hb with ⟨header', mac', rest', hlen', heq⟩
  have htext := (List.append_inj heq (hlen.trans hlen'.symm)).2
  simp only [List.append_assoc, List.cons_append] at htext
  -- everything before the status has the same length
  have hfront : (stringField .target (macPrint mac)).length =
      (stringField .target (macPrint mac')).length := by
    simp only [stringField, quoted, List.length_append, List.length_cons, length_macPrint]
  have hrest := (List.append_inj (List.cons.inj htext).2 hfront).2
  have hack := (List.append_inj (@List.append_cancel_left _ [44] _ _ hrest) rfl).2
  have hstatus := @List.append_cancel_left _ [44] _ _ hack
  have hquoted := @List.append_cancel_left _ (keyPrint .loginAck) _ _
    (by simpa only [stringField, List.append_assoc] using hstatus)
  have hfirst : ∀ (ok : Bool) (rest : List UInt8),
      (quoted (ackText ok) ++ rest)[1]? = some (if ok then 79 else 78) := by
    intro ok rest
    cases ok <;> rfl
  have hletter := congrArg (·[1]?) hquoted
  rw [hfirst, hfirst] at hletter
  cases a <;> cases b <;> first | rfl | exact absurd hletter (by decide)

/-- A frame is its text between a header and a checksum. -/
theorem tail_eq (json : List UInt8) (isRequest : Bool) :
    ∃ header crc, header.length = ipcmdHeaderLength ∧
      extIpCmdResponseTailCalculate json isRequest = header ++ (json ++ 125 :: crc) := by
  refine ⟨bytes16 (if isRequest then cmdTagRequest else cmdTagResponse) ++
    bytes16 (htons ((json ++ [125]).length + ipcmdHeaderLength).toUInt16),
    bytes32 (htonl (cmnMuxCRC32b (json ++ [125]))), rfl, ?_⟩
  simp only [extIpCmdResponseTailCalculate, List.append_assoc, List.cons_append, List.nil_append]

/-- A reply says what the status of the parser is. -/
theorem ackIs_headerPrint (cfg : RuntimeCfg) (p : Parser) (rest : List UInt8) :
    AckIs p.cmd.val (ackText (decide (p.status = .ok)))
      (extIpCmdResponseTailCalculate (extIpCmdResponseHeaderPrint cfg p ++ rest) false) := by
  have hack : ackText (decide (p.status = .ok)) =
      if p.status = .ok then ascii "OK" else ascii "NOK" := by
    by_cases hok : p.status = .ok <;> simp [ackText, hok]
  rcases tail_eq (extIpCmdResponseHeaderPrint cfg p ++ rest) false with
    ⟨header, crc, hlength, heq⟩
  refine ⟨header, cfg.local.mac,
    44 :: stringField .pwdMsg (if p.status = .ok then ascii "OK" else cstr p.msg) ++ rest ++
      125 :: crc, hlength, ?_⟩
  rw [heq, hack, extIpCmdResponseHeaderPrint]
  simp only [List.append_assoc, List.cons_append, List.nil_append]

theorem ackIs_reply (cfg : RuntimeCfg) (p : Parser) :
    AckIs p.cmd.val (ackText (decide (p.status = .ok))) (extIpCmdResponseReply cfg p).out := by
  have hack := ackIs_headerPrint cfg p []
  rw [List.append_nil] at hack
  rw [extIpCmdResponseReply_out]
  exact hack

theorem ackIs_responseConfig (cfg : RuntimeCfg) (p : Parser) :
    AckIs p.cmd.val (ackText (decide (p.status = .ok)))
      (extIpCmdResponseTailCalculate (responseConfig cfg p) false) := by
  unfold responseConfig
  simp only [List.append_assoc]
  exact ackIs_headerPrint cfg p _

theorem ackIs_printConfig (cfg : RuntimeCfg) (p : Parser) :
    AckIs p.cmd.val (ackText (decide (p.status = .ok))) (extJsonResponsePrintConfig cfg p).out := by
  rw [extJsonResponsePrintConfig_out]
  exact ackIs_responseConfig cfg p

theorem ackIs_securityCheckId (cfg : RuntimeCfg) (p : Parser) :
    AckIs p.cmd.val (ackText true) (securityCheckId cfg p).out := by
  unfold securityCheckId
  simp only [List.append_assoc]
  exact ackIs_headerPrint cfg { p with status := .ok } _

/-! ### The handlers -/

/-- A handler keeps the command, and when it succeeds it leaves no reply, or one that says
    `OK` or `NOK`. -/
def Reports (p : Parser) (ok : Bool) (o : Outcome) : Prop :=
  o.parser.cmd = p.cmd ∧
    (o.ret = true → o.parser.out = [] ∨ AckIs p.cmd.val (ackText ok) o.parser.out)

section Handlers

variable (cfg : RuntimeCfg) (p : Parser)

theorem Parser.cmd_eq {p q : Parser} (h : q.input = p.input) : q.cmd = p.cmd :=
  congrArg (fun i => i.2.2) h

theorem Reports.failed {ok : Bool} {o : Outcome} (hcmd : o.parser.cmd = p.cmd)
    (hret : o.ret = false) : Reports p ok o := by
  refine ⟨hcmd, fun h => ?_⟩
  rw [hret] at h
  exact absurd h nofun

/-- A handler that has set the status ends with a reply that says `OK`. -/
theorem reports_reply {q : Parser} (hcmd : q.cmd = p.cmd) (effects : List Effect) :
    Reports p true ⟨true, cfg, extIpCmdResponseReply cfg { q with status := .ok }, effects⟩ := by
  have hack : AckIs p.cmd.val (ackText true)
      (extIpCmdResponseReply cfg { q with status := .ok }).out := by
    rw [← hcmd]
    exact ackIs_reply cfg { q with status := .ok }
  exact ⟨hcmd, fun _ => .inr hack⟩

/-- `set_param` sets the status when it has counted its values. -/
theorem reports_setParams : Reports p true (extIpCmdSetupParams cfg p) := by
  rcases extJsonIsResponse_eq p with ⟨q, hq, hin, hout⟩
  unfold extIpCmdSetupParams
  rw [hq]
  cases hreply : p.doc.isReply with
  | true => exact ⟨Parser.cmd_eq hin, fun _ => .inl (hout hreply)⟩
  | false =>
      rcases extIpCmdIsLocal_eq cfg q with ⟨r, hr, hrin⟩
      have hcmd : r.cmd = p.cmd := Parser.cmd_eq (hrin.trans hin)
      dsimp only
      rw [hr]
      cases q.doc.authenticated cfg && decide (q.target = cfg.local.mac) with
      | false => exact Reports.failed p hcmd rfl
      | true =>
          dsimp only
          cases hacc : r.doc.acceptable cfg with
          | false =>
              rcases (extJsonRequestParse_eq cfg r).2 hacc with ⟨t, ht, htin⟩
              rw [ht]
              exact Reports.failed p ((Parser.cmd_eq htin).trans hcmd) rfl
          | true =>
              rcases (extJsonRequestParse_eq cfg r).1 hacc with ⟨t, ht, htin⟩
              have hcmd' : t.cmd = p.cmd := (Parser.cmd_eq htin).trans hcmd
              have hok := endsOk_extJsonRequestParse cfg r _ _ ht
              have hack := ackIs_printConfig (compareAll r.doc.scratch cfg).cfg t
              rw [hcmd', decide_eq_true hok] at hack
              rw [ht]
              exact ⟨hcmd', fun _ => .inr hack⟩

/-- `send_data_rs232` sets the status when everything was sent. -/
theorem reports_sendRs232 : Reports p true (extIpCmdSendRsData cfg p) := by
  by_cases hlocal : p.doc.authenticated cfg = true ∧ p.target = cfg.local.mac
  · rcases extIpCmdSendRsData_eq cfg p hlocal.1 hlocal.2 with ⟨q, hin, heq⟩
    have hcmd : q.cmd = p.cmd := Parser.cmd_eq hin
    rw [heq]
    cases p.doc.rs232Text with
    | none => exact Reports.failed p hcmd rfl
    | some hexData =>
        simp only [rs232Outcome]
        cases (rs232SendHexStr hexData).2 with
        | false => exact Reports.failed p hcmd rfl
        | true => exact reports_reply cfg p hcmd _
  · rcases extIpCmdIsLocal_eq cfg p with ⟨q, hq, hin⟩
    unfold extIpCmdSendRsData
    rw [hq, and_decide_eq_false hlocal]
    exact Reports.failed p (Parser.cmd_eq hin) rfl

/-- `security_check` sets the status when it has found a sub-command. -/
theorem reports_securityCheck : Reports p true (extIpCmdSecurityCheck cfg p) := by
  unfold extIpCmdSecurityCheck
  dsimp only
  rcases extIpCmdIsLocal_eq cfg { p with status := .ok, out := mediaFrame cfg false } with
    ⟨q, hq, hin⟩
  have hqcmd : q.cmd = p.cmd := Parser.cmd_eq hin
  rw [hq]
  dsimp only
  cases p.doc.authenticated cfg && decide (p.target = cfg.local.mac) with
  | false => exact Reports.failed p hqcmd rfl
  | true =>
      rcases delivers_dataArray q with ⟨r, hr, hrin⟩
      have hrcmd : r.cmd = p.cmd := (Parser.cmd_eq hrin).trans hqcmd
      dsimp only
      rw [hr]
      cases q.doc.hasDataArray with
      | false => exact Reports.failed p hrcmd rfl
      | true =>
          rcases delivers_string .scSetKey 32 r with ⟨t, ht, htin⟩
          have htcmd : t.cmd = p.cmd := (Parser.cmd_eq htin).trans hrcmd
          dsimp only
          rw [ht]
          cases r.doc.stringIn .scSetKey 32 with
          | some key => exact reports_reply cfg p htcmd _
          | none =>
              rcases delivers_string .scGetStatus 32 t with ⟨u, hu, huin⟩
              have hucmd : u.cmd = p.cmd := (Parser.cmd_eq huin).trans htcmd
              dsimp only
              rw [hu]
              cases t.doc.stringIn .scGetStatus 32 with
              | some key => exact reports_reply cfg p hucmd _
              | none =>
                  rcases delivers_string .scGetId 32 u with ⟨v, hv, hvin⟩
                  have hvcmd : v.cmd = p.cmd := (Parser.cmd_eq hvin).trans hucmd
                  dsimp only
                  rw [hv]
                  cases u.doc.stringIn .scGetId 32 with
                  | none => exact Reports.failed p hvcmd rfl
                  | some key =>
                      have hack := ackIs_securityCheckId cfg v
                      rw [hvcmd] at hack
                      exact ⟨hvcmd, fun _ => .inr hack⟩

theorem cmd_getParams : (extCmdGetParams cfg p).parser.cmd = p.cmd := by
  rcases delivers_userValidate cfg p with ⟨q, hq, hin⟩
  rcases delivers_ipAddress .svr811Ip q with ⟨r, hr, hrin⟩
  rcases delivers_unsignedShort .svr811Port r with ⟨t, ht, htin⟩
  unfold extCmdGetParams
  rw [hq]
  cases p.doc.authenticated cfg with
  | false => exact Parser.cmd_eq hin
  | true =>
      dsimp only
      split
      · exact Parser.cmd_eq hin
      · rw [hr, ht]
        exact Parser.cmd_eq (htin.trans (hrin.trans hin))

/-- The address and the port of the server are given, each as a value of its type. -/
def Doc.serverGiven (d : Doc) : Prop :=
  (d.stringIn .svr811Ip 64).isSome ∧ d.hasPrimitive .svr811Port

instance (d : Doc) : Decidable d.serverGiven := inferInstanceAs (Decidable (_ ∧ _))

variable {cfg p}

/-- `get_param` prints what its two lookups have left. -/
theorem reports_getParams (hstatus : p.status = .ok) (hlogin : p.doc.authenticated cfg = true)
    (htarget : isAddressed cfg p = true) :
    Reports p (decide p.doc.serverGiven) (extCmdGetParams cfg p) := by
  have hcmd := cmd_getParams cfg p
  have hprinted := extCmdGetParams_status hlogin htarget
  rcases extCmdGetParams_cases cfg p with ⟨hno, -⟩ | ⟨-, q, hq⟩
  · exact absurd ⟨hlogin, htarget⟩ hno
  · refine ⟨hcmd, fun _ => .inr ?_⟩
    rw [hq] at hcmd hprinted ⊢
    have hok : decide p.doc.serverGiven = decide (q.status = .ok) := by
      have hsame : q.status = if p.doc.serverGiven then p.status else .parseParamError := hprinted
      rw [hsame, hstatus]
      by_cases hgiven : p.doc.serverGiven <;> simp [hgiven]
    have hack := ackIs_printConfig { cfg with
      ipSvr811 := (p.doc.ipAddress .svr811Ip).1
      portSvr811 := (p.doc.unsignedShort .svr811Port).getD cfg.portSvr811 } q
    rw [hok, ← hcmd]
    exact hack

/-- The keys that the command asks for, though they need not be there, are there. -/
def OptionalGiven (p : Parser) : Prop :=
  commandOf p.cmd.val = some .getParams → p.doc.serverGiven

instance (p : Parser) : Decidable (OptionalGiven p) := inferInstanceAs (Decidable (_ → _))

theorem reports_handler (hstatus : p.status = .ok) (hlogin : p.doc.authenticated cfg = true)
    (htarget : isAddressed cfg p = true) {c : Command} (hc : commandOf p.cmd.val = some c) :
    Reports p (decide (OptionalGiven p)) (c.handler cfg p) := by
  have hgiven : c ≠ .getParams → decide (OptionalGiven p) = true := by
    intro hne
    refine decide_eq_true fun hget => absurd ?_ hne
    exact Option.some.inj (hc.symm.trans hget)
  cases c with
  | getParams =>
      have hsame : decide (OptionalGiven p) = decide p.doc.serverGiven :=
        decide_eq_decide.mpr ⟨fun h => h hc, fun h _ => h⟩
      rw [hsame]
      exact reports_getParams hstatus hlogin htarget
  | setParams =>
      rw [hgiven nofun]
      exact reports_setParams cfg p
  | sendRs232 =>
      rw [hgiven nofun]
      exact reports_sendRs232 cfg p
  | securityCheck =>
      rw [hgiven nofun]
      exact reports_securityCheck cfg p

/-- A failure leaves the status of a failure, and a success what the handler has printed. -/
theorem extJsonHandle_reports (hstatus : p.status = .ok)
    (hlogin : p.doc.authenticated cfg = true) (htarget : isAddressed cfg p = true) :
    Reports p (decide (OptionalGiven p)) (extJsonHandle cfg p) ∧
      ((extJsonHandle cfg p).ret = false → (extJsonHandle cfg p).parser.status ≠ .ok) := by
  unfold extJsonHandle
  cases hc : commandOf p.cmd.val with
  | none => exact ⟨Reports.failed p rfl rfl, fun _ h => JsonStatus.noConfusion h⟩
  | some c =>
      have hreports := reports_handler hstatus hlogin htarget hc
      dsimp only
      cases hret : (c.handler cfg p).ret with
      | true =>
          rw [Outcome.settle, if_pos hret]
          exact ⟨hreports, fun h => absurd (hret.symm.trans h) Bool.false_ne_true.symm⟩
      | false =>
          rw [Outcome.settle, if_neg (by rw [hret]; exact Bool.false_ne_true)]
          exact ⟨Reports.failed p hreports.1 hret, fun _ h => JsonStatus.noConfusion h⟩

/-- `get_param` succeeds whenever it is authenticated and addressed. -/
theorem ret_of_not_optionalGiven (hlogin : p.doc.authenticated cfg = true)
    (htarget : isAddressed cfg p = true) (h : ¬ OptionalGiven p) :
    (extJsonHandle cfg p).ret = true ∧ (extJsonHandle cfg p).parser.out ≠ [] := by
  have hget : commandOf p.cmd.val = some .getParams := by
    by_contra hne
    exact h fun hget => absurd hget hne
  rw [extJsonHandle_getParams hget hlogin htarget]
  exact extCmdGetParams_ret hlogin htarget

end Handlers

/-- The reply to a command that is authenticated and addressed to this device says `OK`
    exactly if the handler returns success, and `NOK` exactly if it fails. -/
def Acknowledges (dev : Device) (datagram : List UInt8) (ip : UInt32) (port : UInt16) : Prop :=
  let p := (parseDatagram dev datagram).2
  let o := extJsonHandle dev.cfg p
  let out := (extUdpCmdThread dev datagram ip port).1.parser.out
  (parseDatagram dev datagram).1 = true → p.doc.authenticated dev.cfg = true →
    isAddressed dev.cfg p = true → out ≠ [] →
      (AckIs p.cmd.val (ascii "OK") out ↔ o.ret = true) ∧
        (AckIs p.cmd.val (ascii "NOK") out ↔ o.ret = false)

/-- A reply that says the one thing does not say the other. -/
theorem ackIs_iff {cmd out : List UInt8} {ok : Bool} (h : AckIs cmd (ackText ok) out) :
    (AckIs cmd (ascii "OK") out ↔ ok = true) ∧ (AckIs cmd (ascii "NOK") out ↔ ok = false) := by
  have hsame : ∀ b, AckIs cmd (ackText b) out ↔ ok = b := by
    intro b
    constructor
    · exact fun hb => ackIs_unique h hb
    · rintro rfl
      exact h
  exact ⟨hsame true, hsame false⟩

theorem acks_iff {dev : Device} {datagram : List UInt8} (ip : UInt32) (port : UInt16)
    (hparsed : (parseDatagram dev datagram).1 = true)
    (hlogin : (parseDatagram dev datagram).2.doc.authenticated dev.cfg = true)
    (htarget : isAddressed dev.cfg (parseDatagram dev datagram).2 = true) :
    let p := (parseDatagram dev datagram).2
    let o := extJsonHandle dev.cfg p
    let out := (extUdpCmdThread dev datagram ip port).1.parser.out
    (out ≠ [] → (AckIs p.cmd.val (ascii "OK") out ↔ o.ret = true) ∧
      (AckIs p.cmd.val (ascii "NOK") out ↔ o.ret = false)) ↔ OptionalGiven p := by
  rcases extUdpCmdThread_of_parsed ip port hparsed with ⟨q, hok, hfail, -, hparser, -⟩
  have hstatus := parseDatagram_ok hparsed
  rw [hparser]
  generalize (parseDatagram dev datagram).2 = p at hlogin htarget hok hfail hstatus ⊢
  rcases extJsonHandle_reports hstatus hlogin htarget with ⟨⟨hcmd, hprinted⟩, hset⟩
  by_cases hgiven : OptionalGiven p
  · refine iff_of_true (fun hout => ?_) hgiven
    cases hret : (extJsonHandle dev.cfg p).ret with
    | true =>
        rw [hok hret] at hout ⊢
        rcases hprinted hret with hnone | hack
        · exact absurd hnone hout
        · rw [decide_eq_true hgiven] at hack
          exact ackIs_iff hack
    | false =>
        rw [hfail hret]
        have hack := ackIs_reply (extJsonHandle dev.cfg p).cfg (extJsonHandle dev.cfg p).parser
        rw [hcmd, decide_eq_false (hset hret)] at hack
        exact ackIs_iff hack
  · -- the command succeeds, and says that it has failed
    refine iff_of_false (fun h => ?_) hgiven
    rcases ret_of_not_optionalGiven hlogin htarget hgiven with ⟨hret, hout⟩
    rw [hok hret] at h
    rcases hprinted hret with hnone | hack
    · exact absurd hnone hout
    · rw [decide_eq_false hgiven] at hack
      exact absurd ((ackIs_iff hack).1.mp ((h hout).1.mpr hret)) nofun

/-- The reply says what the handler has returned, if and only if the command is not
    `get_param` or the address and the port of the server are given. -/
theorem acknowledges_iff (dev : Device) (datagram : List UInt8) (ip : UInt32) (port : UInt16) :
    Acknowledges dev datagram ip port ↔
      ((parseDatagram dev datagram).1 = true →
        (parseDatagram dev datagram).2.doc.authenticated dev.cfg = true →
          isAddressed dev.cfg (parseDatagram dev datagram).2 = true →
            OptionalGiven (parseDatagram dev datagram).2) :=
  forall_congr' fun hparsed => forall_congr' fun hlogin => forall_congr' fun htarget =>
    acks_iff ip port hparsed hlogin htarget

/-- A `get_param` command that says nothing about the server is answered with the
    configuration, and with `NOK`. -/
theorem not_acknowledges_bareGetParam :
    ¬ Acknowledges (Device.factory 1) bareGetParam 0xC0A8A80A 5000 := by
  intro h
  have hparsed : (parseDatagram (Device.factory 1) bareGetParam).1 = true := by decide +kernel
  have hlogin : (parseDatagram (Device.factory 1) bareGetParam).2.doc.authenticated
      (Device.factory 1).cfg = true := by decide +kernel
  have htarget : isAddressed (Device.factory 1).cfg
      (parseDatagram (Device.factory 1) bareGetParam).2 = true := by decide +kernel
  have hgiven : ¬ OptionalGiven (parseDatagram (Device.factory 1) bareGetParam).2 := by
    decide +kernel
  exact hgiven ((acks_iff 0xC0A8A80A 5000 hparsed hlogin htarget).mp (h hparsed hlogin htarget))

end Cmd

end RtosLwip
