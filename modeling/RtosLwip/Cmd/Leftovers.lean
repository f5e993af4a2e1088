import RtosLwip.Base.Run
import RtosLwip.Cmd.Auth
import RtosLwip.Cmd.Frame
import RtosLwip.Cmd.Lookups

/-!
# What Earlier Datagrams Leave

Most of the parser is set anew for each datagram, but not all of it. The token array is
not cleared, and the lookups look at one token behind the message and take the one
behind that for its value. The buffer is not cleared, and what was not received is read
as well if the frame says so, or if a number goes on where the datagram ends. And the
name of the command is only written once there is one, while every reply prints it.

Two devices that have been through different datagrams therefore handle the next one in
the same way if it is read from what was received, if its lookups find what they find
in the datagram alone, and if one that holds no command meets the same name.

## Main definitions

* `FrameReceived`: The check of the frame reads nothing else.
* `docAlone`, `docIn`: The tokens of a datagram by itself, and in a device.
* `Undisturbed`: What earlier datagrams have left is not looked at.
* `verdict`: What the text of a datagram comes to.
* `ServiceEvent`, `serve`: The service.

## Theorems

* `extJsonRequestParseCommand_eq`: The text of a datagram, by its verdict.
* `parseDatagram_alike`: Two devices that read the same datagram.
* `sameHandling_of_undisturbed`: Two runs that handle a datagram in the same way.
-/

namespace RtosLwip

namespace Cmd

/-- The check of the frame, and the tokenizer behind it, read nothing but what was
    received. -/
def FrameReceived (received : List UInt8) : Prop :=
  2 ≤ received.length ∧
    (le16 received = cmdTagRequest →
      frameLength received + ipcmdHeaderLength ≤ received.length ∧
        ipcmdHeaderLength ≤ received.length ∧
        (CrcMatches received → ipcmdHeaderLength * 2 ≤ received.length))

instance (received : List UInt8) : Decidable (FrameReceived received) :=
  inferInstanceAs (Decidable (_ ∧ (_ → _ ∧ _ ∧ (_ → _))))

/-- The text that the tokenizer is given. -/
def jsonText (received : List UInt8) : List UInt8 :=
  (received.drop ipcmdHeaderLength).take (received.length - ipcmdHeaderLength * 2)

/-- A token array that nothing was written into. -/
def freshTokens : List Jsmntok := List.replicate 100 .zero

/-- The tokens of a datagram by itself. -/
def docAlone (received : List UInt8) : Doc :=
  ⟨(jsmnParse (jsonText received) freshTokens).1, received.drop ipcmdHeaderLength⟩

/-- The tokens of a datagram in a device, with what is left of earlier ones. -/
def docIn (dev : Device) (received : List UInt8) : Doc :=
  ⟨(jsmnParse (jsonText received) dev.parser.doc.tokens).1,
    received.drop ipcmdHeaderLength ++ dev.bufRead.drop received.length⟩

/-- The name of a command, as it is copied. -/
def commandName (s : List UInt8) : CString 31 := .copy 31 (s.take 31)

/-- The keys that are looked up for a message. -/
def lookedUp (d : Doc) : List Key :=
  .target :: .command ::
    match d.value .command with
    | some (.string s) => (commandOf (commandName s).val).elim [] Command.keys
    | _ => []

/-- What earlier datagrams have left in a device is not looked at. -/
def Undisturbed (dev : Device) (received : List UInt8) : Prop :=
  FrameReceived received ∧
    (le16 received = cmdTagRequest → CrcMatches received →
      (jsmnParse (jsonText received) freshTokens).2 = none →
        SameValues (lookedUp (docAlone received)) (docAlone received) (docIn dev received))

/-- What a text comes to: a message about what is wrong, or what goes to the handler. -/
def verdict (err : Option JsmnErr) (target command : Option Value) :
    Except (List UInt8) (List UInt8 × MacAddress × CString 31) :=
  match err, target, command with
  | some _, _, _ => .error (ascii "ERROR: JSON library parsing failed")
  | none, some (.string s), command =>
      let mac := extMacAddressParse .zero (s.take 63)
      if ¬ mac.2 then
        .error (ascii "ERROR: can't find or invalidate '" ++ Key.target.text ++ ascii "' object")
      else
        match command with
        | some (.string c) => .ok (s.take 63, mac.1, commandName c)
        | _ => .error (ascii "ERROR can't find '" ++ Key.command.text ++ ascii "' object")
  | none, _, _ =>
      .error (ascii "ERROR: can't find or invalidate '" ++ Key.target.text ++ ascii "' object")

section Verdict

/-- Every byte of an address is written if all can be read. -/
theorem macAddressLoop_congr (n : Nat) (hn : n ≤ 6) (text : List UInt8) (mac mac' : MacAddress)
    (h : ∀ i < 6 - n, mac'[i]? = mac[i]?) :
    (macAddressLoop n text mac').2 = (macAddressLoop n text mac).2 ∧
      ((macAddressLoop n text mac).2 = true →
        (macAddressLoop n text mac').1 = (macAddressLoop n text mac).1) := by
  have hall : ∀ mac mac' : MacAddress, (∀ i < 6, mac'[i]? = mac[i]?) → mac' = mac := by
    intro mac mac' h
    refine Vector.ext fun i hi => ?_
    have hi' := h i hi
    rwa [Vector.getElem?_eq_getElem hi, Vector.getElem?_eq_getElem hi, Option.some.injEq] at hi'
  induction n generalizing text mac mac' with
  | zero => exact ⟨rfl, fun _ => hall mac mac' h⟩
  | succ n ih =>
      have hset : ∀ i < 6 - n, (mac'.setIfInBounds (5 - n) (extSysAtoInt8 text).1)[i]? =
          (mac.setIfInBounds (5 - n) (extSysAtoInt8 text).1)[i]? := by
        intro i hi
        rw [Vector.getElem?_setIfInBounds, Vector.getElem?_setIfInBounds]
        by_cases hlast : 5 - n = i
        · rw [if_pos hlast, if_pos hlast]
        · rw [if_neg hlast, if_neg hlast]
          exact h i (by omega)
      unfold macAddressLoop
      dsimp only
      generalize extSysAtoInt8 text = r at hset
      obtain ⟨byte, _ | _⟩ := r
      · exact ⟨rfl, nofun⟩
      · dsimp only at hset ⊢
        by_cases hlast : n = 0
        · subst hlast
          exact ⟨rfl, fun _ => hall _ _ hset⟩
        · simp only [hlast, not_true_eq_false, if_false]
          cases text.dropWhile (· ≠ 58) with
          | nil => exact ⟨rfl, nofun⟩
          | cons c rest => exact ih (by omega) rest _ _ hset

theorem extMacAddressParse_congr (mac : MacAddress) (text : List UInt8) :
    (extMacAddressParse mac text).2 = (extMacAddressParse .zero text).2 ∧
      ((extMacAddressParse .zero text).2 = true →
        (extMacAddressParse mac text).1 = (extMacAddressParse .zero text).1) :=
  macAddressLoop_congr 6 (Nat.le_refl 6) text .zero mac nofun

/-- A text is handed on with all that the parser holds apart from its tokens, or it
    leaves an error, and the name of the command as it was. -/
theorem extJsonRequestParseCommand_eq (text : List UInt8) (size : Nat) (p : Parser) :
    let r := jsmnParse ((text ++ [0]).take size) p.doc.tokens
    let d : Doc := ⟨r.1, text⟩
    match verdict r.2 (d.value .target) (d.value .command) with
    | .error msg => ∃ q, extJsonRequestParseCommand text size p = (false, q) ∧
        q.status = .parseError ∧ q.msg = msg.take 63 ∧ q.cmd = p.cmd ∧ q.doc = d
    | .ok (msg, target, cmd) =>
        extJsonRequestParseCommand text size p = (true, ⟨d, .ok, msg, target, cmd, []⟩) := by
  dsimp only
  unfold extJsonRequestParseCommand verdict
  generalize jsmnParse ((text ++ [0]).take size) p.doc.tokens = r
  obtain ⟨tokens, _ | e⟩ := r
  · dsimp only
    unfold extJsonParseMacAddress
    rw [extJsonParseString_value]
    dsimp only
    rcases htarget : Doc.value ⟨tokens, text⟩ .target with _ | s | z | _ | _
    · exact ⟨_, rfl, rfl, rfl, rfl, rfl⟩
    · dsimp only
      obtain ⟨hvalid, hmac⟩ := extMacAddressParse_congr p.target (s.take 63)
      rw [hvalid]
      cases hok : (extMacAddressParse .zero (s.take 63)).2 with
      | false => exact ⟨_, rfl, rfl, rfl, rfl, rfl⟩
      | true =>
          simp only [not_true_eq_false, if_false]
          rw [extJsonParseString_value, hmac hok]
          dsimp only
          rcases Doc.value ⟨tokens, text⟩ .command with _ | c | z | _ | _
          · exact ⟨_, rfl, rfl, rfl, rfl, rfl⟩
          · rfl
          all_goals exact ⟨_, rfl, rfl, rfl, rfl, rfl⟩
    all_goals exact ⟨_, rfl, rfl, rfl, rfl, rfl⟩
  · exact ⟨_, rfl, rfl, rfl, rfl, rfl⟩

end Verdict

section Frame

variable {received : List UInt8} (stale : List UInt8)

theorem le16_bytesAt_received (h : 2 ≤ received.length) :
    le16 (bytesAt (received ++ stale) 0 2) = le16 received := by
  rcases received with _ | ⟨a, _ | ⟨b, rest⟩⟩
  · exact absurd h (by decide)
  · exact absurd h (by simp)
  · rfl

/-- What the check of the frame comes to, without what it does for it. -/
theorem checkFrame_fst (buf : List UInt8) (size : Nat) :
    (checkFrame buf size []).1 =
      if le16 (bytesAt buf 0 2) ≠ cmdTagRequest then .tagError (le16 (bytesAt buf 0 2))
      else if ¬ CrcMatches buf then
        .crcError (le32 (bytesAt (swapLength buf) (frameLength buf) 4))
          (htonl (cmnMuxCRC32b
            (bytesAt buf ipcmdHeaderLength (frameLength buf - ipcmdHeaderLength))))
      else .json (UInt16.ofInt ((size : Int) - (ipcmdHeaderLength * 2 : Nat))) := by
  by_cases htag : le16 (bytesAt buf 0 2) = cmdTagRequest
  · rw [if_neg (not_not.mpr htag)]
    by_cases hcrc : CrcMatches buf
    · rw [if_neg (not_not.mpr hcrc)]
      exact (checkFrame_eq size htag).2.1 hcrc
    · rw [if_pos hcrc]
      have hpos := (toNat_dataLen (frameLength buf)).1
      have hlen := (toNat_dataLen (frameLength buf)).2
      have hne := hcrc
      rw [CrcMatches] at hne
      unfold frameLength at hpos hlen hne ⊢
      simp only [checkFrame, fetch, minus, bind, StateT.bind, List.nil_append, List.cons_append,
        ne_eq, htag, not_true_eq_false, if_false, hpos, hlen, hne, not_false_eq_true, if_true]
      rfl
  · rw [if_pos htag, checkFrame_of_tag_ne size htag]

/-- The check of a frame that was received does not depend on what is behind it. -/
theorem checkFrame_append (h : FrameReceived received) (size : Nat) :
    (checkFrame (received ++ stale) size []).1 = (checkFrame received size []).1 := by
  obtain ⟨hshort, hrequest⟩ := h
  have hown := le16_bytesAt_received [] hshort
  rw [List.append_nil] at hown
  rw [checkFrame_fst, checkFrame_fst, le16_bytesAt_received stale hshort, hown]
  by_cases htag : le16 received = cmdTagRequest
  · obtain ⟨hlen, hheader, -⟩ := hrequest htag
    have htext : ipcmdHeaderLength + (frameLength received - ipcmdHeaderLength) ≤
        received.length := by
      unfold ipcmdHeaderLength at hheader ⊢
      omega
    have hmatches := crcMatches_append stale hheader hlen
    have hswapped : frameLength received + 4 ≤ (swapLength received).length := by
      rw [swapLength, length_store16]
      exact hlen
    rw [if_neg (not_not.mpr htag), if_neg (not_not.mpr htag), frameLength_append stale hheader,
      swapLength_append stale hheader, bytesAt_append stale hswapped, bytesAt_append stale htext]
    by_cases hm : CrcMatches received
    · rw [if_neg (not_not.mpr hm), if_neg (not_not.mpr (hmatches.mpr hm))]
    · rw [if_pos hm, if_pos fun hn => hm (hmatches.mp hn)]
  · rw [if_pos htag, if_pos htag]

/-- The text of a request that was received. -/
theorem take_jsonText (h : ipcmdHeaderLength * 2 ≤ received.length) :
    ((received ++ stale).drop ipcmdHeaderLength ++ [0]).take
      (received.length - ipcmdHeaderLength * 2) = jsonText received := by
  have hheader : ipcmdHeaderLength ≤ received.length := by
    unfold ipcmdHeaderLength at h ⊢
    omega
  rw [List.drop_append_of_le_length hheader, List.append_assoc, jsonText,
    List.take_append_of_le_length]
  rw [List.length_drop]
  unfold ipcmdHeaderLength
  omega

end Frame

theorem verdict_ok {err : Option JsmnErr} {target command : Option Value} {msg : List UInt8}
    {mac : MacAddress} {cmd : CString 31} (h : verdict err target command = .ok (msg, mac, cmd)) :
    err = none ∧ ∃ c, command = some (.string c) ∧ cmd = commandName c := by
  unfold verdict at h
  split at h
  · cases h
  · dsimp only at h
    split at h
    · cases h
    · split at h
      · cases h
        exact ⟨rfl, _, rfl, rfl⟩
      · cases h
  · cases h

/-- What a device makes of a text whose lookups find what they find in the datagram
    alone. -/
theorem requestParse_docAlone {dev : Device} {received : List UInt8}
    (hsize : dev.parser.doc.tokens.length = 100) (h8 : ipcmdHeaderLength * 2 ≤ received.length)
    (hvalues : (jsmnParse (jsonText received) freshTokens).2 = none →
      SameValues (lookedUp (docAlone received)) (docAlone received) (docIn dev received)) :
    let r := extJsonRequestParseCommand
      ((received ++ dev.bufRead.drop received.length).drop ipcmdHeaderLength)
      (received.length - ipcmdHeaderLength * 2) { dev.parser with msg := [] }
    match verdict (jsmnParse (jsonText received) freshTokens).2
      ((docAlone received).value .target) ((docAlone received).value .command) with
    | .error msg => ∃ q, r = (false, q) ∧ q.status = .parseError ∧ q.msg = msg.take 63 ∧
        q.cmd = dev.parser.cmd
    | .ok (msg, target, cmd) => r = (true, ⟨docIn dev received, .ok, msg, target, cmd, []⟩) := by
  have hheader : ipcmdHeaderLength ≤ received.length := by
    unfold ipcmdHeaderLength at h8 ⊢
    omega
  have htext : (received ++ dev.bufRead.drop received.length).drop ipcmdHeaderLength =
      received.drop ipcmdHeaderLength ++ dev.bufRead.drop received.length :=
    List.drop_append_of_le_length hheader
  have hfresh : dev.parser.doc.tokens.length = freshTokens.length := hsize
  have herr := (sameTokens_jsmnParse (jsonText received) hfresh).2.1
  have hspec := extJsonRequestParseCommand_eq
    ((received ++ dev.bufRead.drop received.length).drop ipcmdHeaderLength)
    (received.length - ipcmdHeaderLength * 2) { dev.parser with msg := [] }
  dsimp only at hspec ⊢
  rw [take_jsonText _ h8, herr] at hspec
  have hdoc : Doc.mk (jsmnParse (jsonText received) dev.parser.doc.tokens).1
      ((received ++ dev.bufRead.drop received.length).drop ipcmdHeaderLength) =
        docIn dev received := by
    rw [htext]
    rfl
  rw [hdoc] at hspec
  have hverdict : verdict (jsmnParse (jsonText received) freshTokens).2
      ((docIn dev received).value .target) ((docIn dev received).value .command) =
        verdict (jsmnParse (jsonText received) freshTokens).2
          ((docAlone received).value .target) ((docAlone received).value .command) := by
    cases hnone : (jsmnParse (jsonText received) freshTokens).2 with
    | some e => rfl
    | none =>
        have hsame := hvalues hnone
        rw [hsame .target List.mem_cons_self,
          hsame .command (List.mem_cons_of_mem _ List.mem_cons_self)]
  rw [hverdict] at hspec
  generalize verdict _ _ _ = v at hspec ⊢
  rcases v with msg | ⟨msg, target, cmd⟩
  · obtain ⟨q, hq, hstatus, hmsg, hcmd, -⟩ := hspec
    exact ⟨q, hq, hstatus, hmsg, hcmd⟩
  · exact hspec

section Parse

variable {dev : Device} {datagram received : List UInt8}

/-- What the check of a datagram comes to, if it reads nothing but what was received. -/
theorem checkFrame_receive (hreceived : datagram.take bufLength = received)
    (h : FrameReceived received) :
    (checkFrame (receive dev datagram).bufRead received.length []).1 =
      (checkFrame received received.length []).1 := by
  rw [bufRead_receive, hreceived, checkFrame_append _ h]

/-- The text of a request is handed on with its length, which is that of the datagram
    without the header and the checksum. -/
theorem parseDatagram_of_crcMatches (hreceived : datagram.take bufLength = received)
    (h : FrameReceived received) (htag : le16 received = cmdTagRequest)
    (hcrc : CrcMatches received) :
    parseDatagram dev datagram = extJsonRequestParseCommand
      ((received ++ dev.bufRead.drop received.length).drop ipcmdHeaderLength)
      (received.length - ipcmdHeaderLength * 2) { dev.parser with msg := [] } := by
  have hlong : received.length ≤ bufLength := hreceived ▸ List.length_take_le _ _
  have h8 := (h.2 htag).2.2 hcrc
  have hown := le16_bytesAt_received [] h.1
  have hparser : (receive dev datagram).parser = dev.parser := rfl
  rw [List.append_nil] at hown
  unfold parseDatagram parseFrame
  rw [hreceived, checkFrame_receive hreceived h, checkFrame_fst, hown,
    if_neg (not_not.mpr htag), if_neg (not_not.mpr hcrc)]
  dsimp only
  rw [toNat_jsonLen h8 hlong, bufRead_receive, hreceived, hparser]

end Parse

/-- Two devices that read the same datagram: both find something wrong with it, and keep
    the name of the command, or both come to the same parser but for its tokens. -/
theorem parseDatagram_alike {dev dev' : Device} {datagram : List UInt8}
    (hsize : dev.parser.doc.tokens.length = 100) (hsize' : dev'.parser.doc.tokens.length = 100)
    (h : Undisturbed dev (datagram.take bufLength))
    (h' : Undisturbed dev' (datagram.take bufLength)) :
    ((parseDatagram dev datagram).1 = false ∧ (parseDatagram dev' datagram).1 = false ∧
      (parseDatagram dev' datagram).2.status = (parseDatagram dev datagram).2.status ∧
      (parseDatagram dev' datagram).2.msg = (parseDatagram dev datagram).2.msg ∧
      (parseDatagram dev datagram).2.cmd = dev.parser.cmd ∧
      (parseDatagram dev' datagram).2.cmd = dev'.parser.cmd) ∨
    ((parseDatagram dev datagram).1 = true ∧ ∃ d,
      parseDatagram dev' datagram = (true, (parseDatagram dev datagram).2.withDoc d) ∧
      ∀ c, commandOf (parseDatagram dev datagram).2.cmd.val = some c →
        SameValues c.keys (parseDatagram dev datagram).2.doc d) := by
  generalize hreceived : datagram.take bufLength = received at h h'
  obtain ⟨hframe, hvalues⟩ := h
  obtain ⟨-, hvalues'⟩ := h'
  by_cases hrequest : le16 received = cmdTagRequest ∧ CrcMatches received
  · obtain ⟨htag, hcrc⟩ := hrequest
    have h8 := (hframe.2 htag).2.2 hcrc
    have hread := requestParse_docAlone hsize h8 (hvalues htag hcrc)
    have hread' := requestParse_docAlone hsize' h8 (hvalues' htag hcrc)
    rw [parseDatagram_of_crcMatches hreceived hframe htag hcrc,
      parseDatagram_of_crcMatches hreceived hframe htag hcrc]
    dsimp only at hread hread'
    cases hverdict : verdict (jsmnParse (jsonText received) freshTokens).2
        ((docAlone received).value .target) ((docAlone received).value .command) with
    | error msg =>
        rw [hverdict] at hread hread'
        obtain ⟨q, hq, hstatus, hmsg, hcmd⟩ := hread
        obtain ⟨q', hq', hstatus', hmsg', hcmd'⟩ := hread'
        rw [hq, hq']
        exact Or.inl
          ⟨rfl, rfl, hstatus'.trans hstatus.symm, hmsg'.trans hmsg.symm, hcmd, hcmd'⟩
    | ok v =>
        obtain ⟨msg, target, cmd⟩ := v
        rw [hverdict] at hread hread'
        obtain ⟨hnone, name, hname, rfl⟩ := verdict_ok hverdict
        dsimp only at hread hread'
        rw [hread, hread']
        refine Or.inr ⟨rfl, docIn dev' received, rfl, fun c hc key hkey => ?_⟩
        have hmem : key ∈ lookedUp (docAlone received) := by
          unfold lookedUp
          rw [hname]
          dsimp only at hc ⊢
          rw [hc]
          exact List.mem_cons_of_mem _ (List.mem_cons_of_mem _ hkey)
        exact (hvalues' htag hcrc hnone key hmem).trans (hvalues htag hcrc hnone key hmem).symm
  · have hparser : ∀ dev : Device, (receive dev datagram).parser = dev.parser := fun _ => rfl
    have hown := le16_bytesAt_received [] hframe.1
    rw [List.append_nil] at hown
    unfold parseDatagram parseFrame
    rw [hreceived, checkFrame_receive hreceived hframe, checkFrame_receive hreceived hframe,
      hparser, hparser, checkFrame_fst, hown]
    by_cases htag : le16 received = cmdTagRequest
    · rw [if_neg (not_not.mpr htag), if_pos fun hcrc => hrequest ⟨htag, hcrc⟩]
      exact Or.inl ⟨rfl, rfl, rfl, rfl, rfl, rfl⟩
    · rw [if_pos htag]
      exact Or.inl ⟨rfl, rfl, rfl, rfl, rfl, rfl⟩

/-- A datagram for the service, or another configuration from the rest of the firmware. -/
inductive ServiceEvent where
  | datagram (datagram : List UInt8) (ip : UInt32) (port : UInt16)
  | config (cfg : RuntimeCfg)

def serve (dev : Device) : ServiceEvent → Device
  | .datagram datagram ip port => (extUdpCmdThread dev datagram ip port).1
  | .config cfg => { dev with cfg }

/-- The service when it starts. -/
def started (cfg : RuntimeCfg) : Device := { Device.factory cfg.isTx with cfg }

/-- A datagram has the same effects in two devices, the reply included, and leaves the same
    configuration. -/
def SameHandling (dev dev' : Device) (datagram : List UInt8) (ip : UInt32) (port : UInt16) : Prop :=
  (extUdpCmdThread dev' datagram ip port).2 = (extUdpCmdThread dev datagram ip port).2 ∧
    (extUdpCmdThread dev' datagram ip port).1.cfg = (extUdpCmdThread dev datagram ip port).1.cfg

theorem extUdpCmdThread_of_not_parsed {dev : Device} {datagram : List UInt8} (ip : UInt32)
    (port : UInt16) (h : (parseDatagram dev datagram).1 = false) :
    let p := extIpCmdResponseReply dev.cfg (parseDatagram dev datagram).2
    (extUdpCmdThread dev datagram ip port).1.cfg = dev.cfg ∧
      (extUdpCmdThread dev datagram ip port).1.parser = p ∧
      (extUdpCmdThread dev datagram ip port).2 = [.sendto p.out ip port] := by
  unfold extUdpCmdThread extCmdPaserHandler
  rw [parseDatagram] at h ⊢
  rcases hparse : parseFrame (receive dev datagram) (datagram.take bufLength).length with
    ⟨_ | _, q⟩
  · have hout : (extIpCmdResponseReply (receive dev datagram).cfg q).out ≠ [] := tail_ne_nil _ _
    simp only [if_neg hout, List.nil_append]
    exact ⟨rfl, rfl, rfl⟩
  · rw [hparse] at h
    exact absurd h Bool.false_ne_true.symm

theorem size_extJsonRequestParseCommand (text : List UInt8) (size : Nat) (p : Parser) :
    (extJsonRequestParseCommand text size p).2.doc.tokens.length = p.doc.tokens.length := by
  have hsize := (sameTokens_jsmnParse ((text ++ [0]).take size) (rfl : p.doc.tokens.length = _)).2.2
  have hspec := extJsonRequestParseCommand_eq text size p
  dsimp only at hspec
  split at hspec
  · obtain ⟨q, hq, -, -, -, hdoc⟩ := hspec
    rw [hq, hdoc]
    exact hsize
  · rw [hspec]
    exact hsize

theorem size_parseDatagram (dev : Device) (datagram : List UInt8) :
    (parseDatagram dev datagram).2.doc.tokens.length = dev.parser.doc.tokens.length := by
  unfold parseDatagram parseFrame
  cases (checkFrame (receive dev datagram).bufRead (datagram.take bufLength).length []).1 with
  | tagError tag => rfl
  | crcError received decoded => rfl
  | json len => exact size_extJsonRequestParseCommand _ _ _

/-- The token array keeps its size all the time. -/
theorem size_serve (dev : Device) (ev : ServiceEvent) :
    (serve dev ev).parser.doc.tokens.length = dev.parser.doc.tokens.length := by
  cases ev with
  | config cfg => rfl
  | datagram datagram ip port =>
      change (extUdpCmdThread dev datagram ip port).1.parser.doc.tokens.length = _
      rw [← size_parseDatagram dev datagram]
      cases hparsed : (parseDatagram dev datagram).1 with
      | false =>
          rw [(extUdpCmdThread_of_not_parsed ip port hparsed).2.1]
          rfl
      | true =>
          obtain ⟨p, hdone, hfailed, -, hparser, -⟩ := extUdpCmdThread_of_parsed ip port hparsed
          have hdoc := (extJsonHandle_withDoc dev.cfg (p := (parseDatagram dev datagram).2)
            fun _ _ _ _ => rfl).2
          rw [hparser, ← hdoc]
          cases hret : (extJsonHandle dev.cfg (parseDatagram dev datagram).2).ret with
          | true => rw [hdone hret]
          | false =>
              rw [hfailed hret]
              rfl

theorem size_run (cfg : RuntimeCfg) (evs : List ServiceEvent) :
    (run serve (started cfg) evs).parser.doc.tokens.length = 100 :=
  run_invariant (I := fun dev => dev.parser.doc.tokens.length = 100)
    (fun dev ev h => (size_serve dev ev).trans h) _ (List.length_replicate) evs

instance (K : List Key) (d d' : Doc) : Decidable (SameValues K d d') :=
  inferInstanceAs (Decidable (∀ key ∈ K, _))

instance (dev : Device) (received : List UInt8) : Decidable (Undisturbed dev received) :=
  inferInstanceAs (Decidable (_ ∧ (_ → _ → _ → _)))

instance (dev dev' : Device) (datagram : List UInt8) (ip : UInt32) (port : UInt16) :
    Decidable (SameHandling dev dev' datagram ip port) := inferInstanceAs (Decidable (_ ∧ _))

/-- Two devices with the same configuration that do not look at what is left handle a
    datagram in the same way, if it holds a command, or finds the name of the same one. -/
theorem sameHandling_of_undisturbed (cfg cfg' : RuntimeCfg) (evs evs' : List ServiceEvent)
    (datagram : List UInt8) (ip : UInt32) (port : UInt16)
    (hcfg : (run serve (started cfg') evs').cfg = (run serve (started cfg) evs).cfg)
    (h : Undisturbed (run serve (started cfg) evs) (datagram.take bufLength))
    (h' : Undisturbed (run serve (started cfg') evs') (datagram.take bufLength))
    (hcmd : (parseDatagram (run serve (started cfg) evs) datagram).1 = false →
      (run serve (started cfg') evs').parser.cmd = (run serve (started cfg) evs).parser.cmd) :
    SameHandling (run serve (started cfg) evs) (run serve (started cfg') evs')
      datagram ip port := by
  have hsize := size_run cfg evs
  have hsize' := size_run cfg' evs'
  generalize run serve (started cfg) evs = dev at hcfg h hcmd hsize
  generalize run serve (started cfg') evs' = dev' at hcfg h' hcmd hsize'
  rcases parseDatagram_alike hsize hsize' h h' with
    ⟨hparsed, hparsed', hstatus, hmsg, hname, hname'⟩ | ⟨hparsed, d, hother, hvalues⟩
  · obtain ⟨hend, -, heff⟩ := extUdpCmdThread_of_not_parsed ip port hparsed
    obtain ⟨hend', -, heff'⟩ := extUdpCmdThread_of_not_parsed ip port hparsed'
    have hout : (extIpCmdResponseReply dev'.cfg (parseDatagram dev' datagram).2).out =
        (extIpCmdResponseReply dev.cfg (parseDatagram dev datagram).2).out := by
      rw [extIpCmdResponseReply_out, extIpCmdResponseReply_out, extIpCmdResponseHeaderPrint,
        extIpCmdResponseHeaderPrint, hstatus, hmsg, hname, hname', hcmd hparsed, hcfg]
    exact ⟨by rw [heff, heff', hout], by rw [hend, hend', hcfg]⟩
  · have hparsed' : (parseDatagram dev' datagram).1 = true := by rw [hother]
    obtain ⟨p, hdone, hfailed, hend, -, heff⟩ := extUdpCmdThread_of_parsed ip port hparsed
    obtain ⟨p', hdone', hfailed', hend', -, heff'⟩ := extUdpCmdThread_of_parsed ip port hparsed'
    have hhandle := (extJsonHandle_withDoc dev.cfg hvalues).1
    rw [hother, hcfg] at hdone' hfailed' hend' heff'
    dsimp only at hdone' hfailed' hend' heff'
    rw [hhandle] at hdone' hfailed' hend' heff'
    dsimp only at hdone' hfailed' hend' heff'
    have hout : p'.out = p.out := by
      cases hret : (extJsonHandle dev.cfg (parseDatagram dev datagram).2).ret with
      | true =>
          rw [hdone hret, hdone' hret]
          rfl
      | false =>
          rw [hfailed hret, hfailed' hret]
          rfl
    exact ⟨by rw [heff, heff', hout], by rw [hend, hend']⟩

/-- A `get_param` command for a transmitter with factory settings, with a login or not. -/
def getParam (login : String) : List UInt8 := extIpCmdResponseTailCalculate
  (ascii "\x7b\"targ\":\"00:04:25:1c:10:02\",\"cmd\":\"get_param\"" ++ ascii login) true

/-- The login, and the server. -/
def fullLogin : String :=
  ",\"login-ack\":\"admin\",\"pwd-msg\":\"admin\",\"811Ip\":\"192.168.168.9\",\"811Port\":3600"

/-- A command with a login, behind one without and behind none. -/
theorem sameHandling_fullLogin :
    SameHandling (run serve (started (Device.factory 1).cfg) [])
      (run serve (started (Device.factory 1).cfg) [.datagram (getParam "") 0xC0A8A80A 5000])
      (getParam fullLogin) 0xC0A8A80A 5000 := by
  unfold getParam fullLogin
  repeat rw [ascii_ofList]
  exact sameHandling_of_undisturbed _ _ _ _ _ _ _ (by decide +kernel) (by decide +kernel)
    (by decide +kernel) (by decide +kernel)

/-- A datagram with a wrong tag is answered with the name of the command before it. -/
theorem not_sameHandling_wrongTag :
    (run serve (started (Device.factory 1).cfg) [.datagram (getParam "") 0xC0A8A80A 5000]).cfg =
        (run serve (started (Device.factory 1).cfg) []).cfg ∧
      ¬ SameHandling (run serve (started (Device.factory 1).cfg) [])
        (run serve (started (Device.factory 1).cfg) [.datagram (getParam "") 0xC0A8A80A 5000])
        [0, 0, 0, 0] 0xC0A8A80A 5000 := by
  unfold getParam
  repeat rw [ascii_ofList]
  decide +kernel

end Cmd

end RtosLwip
