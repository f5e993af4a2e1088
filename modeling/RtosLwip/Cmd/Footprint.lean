import Mathlib.Data.List.GetD
import RtosLwip.Base.Strings
import RtosLwip.Cmd.Documents
import RtosLwip.Cmd.Leftovers
import RtosLwip.Cmd.Members

/-!
# The Footprint of a Datagram

What the handler of a datagram reads of the buffer, from the check of the frame to
the last lookup of a command, against what was received.

The length field of the frame decides where the checksum is looked for and what it
covers, and the size of the datagram decides what is handed to the tokenizer.
Neither of the two is compared with the other. Behind an accepted frame there are
three more ways out of the received bytes. A text that holds no command is printed
up to a NUL, although nobody has put one behind it. A key that the message does not
have is compared with the token that an earlier message has left behind its own, and
a key that is its last token has such a token for its value. And `sscanf` does not
know where the text ends.

## Main definitions

* `untilNul`, `compared`, `scanned`: What the string functions read.
* `Lookup`, `Question`, `asked`: The lookups of a handler, up to the first behind
  which it does not go on.
* `questions`: The lookups for a message.
* `handlerAccesses`: All that is read, and all lengths that are subtracted.
* `FrameSafe`: Nothing but received bytes is read, no length is negative, and the
  text is what the checksum covers.
* `Doc.LeftoverInside`: The tokens of earlier messages, and the numbers, lead to
  nothing else.
* `FrameConsistent`, `Consistent`: The datagram by itself, and together with what is
  left of earlier ones.

## Theorems

* `paramQuestions_all`, `loginQuestions_all`, `extJsonRequestParseCommand_fst`: The
  lookups belong to the handlers.
* `Doc.accesses_inside_iff`: When a lookup stays within what was received.
* `frameSafe_iff`: When the handler is safe.
-/

namespace RtosLwip

namespace Cmd

/-! ### What the string functions read -/

/-- `%s` and `strlen` read a string with its NUL. -/
def untilNul (mem : List UInt8) : Nat := (cstr mem).length + 1

/-- `strncmp` reads a text up to the first difference, or as far as the key goes. -/
def compared : List UInt8 → List UInt8 → Nat
  | _, [] => 0
  | [], _ :: _ => 1
  | c :: text, k :: key => if c = k then compared text key + 1 else 1

/-- `sscanf` reads the blanks before a number, its sign and its digits, and the character
    behind them. -/
def scanned (mem : List UInt8) : Nat :=
  let text := mem.dropWhile isSpace
  let sign := if text.head? = some 45 ∨ text.head? = some 43 then 1 else 0
  (mem.takeWhile isSpace).length + sign + ((text.drop sign).takeWhile isDigit).length + 1

/-- What is made of the token that a key leads to. -/
inductive Use where
  | string
  | primitive
  | array
  deriving DecidableEq

structure Lookup where
  key : Key
  use : Use
  deriving DecidableEq

namespace Doc

variable (d : Doc)

/-- What `jsoneq` reads of a token. -/
def eqRead (key : List UInt8) (tok : Jsmntok) : Nat :=
  if tok.type = .string ∧ key.length = tok.length then compared (d.text.drop tok.start) key else 0

/-- What is read of a value: a string with `%.*s`, and a primitive with `sscanf`. -/
def useRead (use : Use) (tok : Jsmntok) : Nat :=
  match use with
  | .string =>
      if tok.type = .string then min tok.length (untilNul (d.text.drop tok.start)) else 0
  | .primitive => if tok.type = .primitive then scanned (d.text.drop tok.start) else 0
  | .array => 0

/-- The bytes of the buffer from a token on. -/
def readToken (tok : Jsmntok) (n : Nat) : Access := .read (ipcmdHeaderLength + tok.start) n

end Doc

/-- A lookup, and whether the handler goes on behind it. -/
structure Question extends Lookup where
  goesOn : Doc → Bool

/-- A lookup that may find what it will. -/
def Question.optional (use : Use) (key : Key) : Question := ⟨⟨key, use⟩, fun _ => true⟩

/-- The lookups that are made. -/
def asked (d : Doc) : List Question → List Lookup
  | [] => []
  | q :: rest => q.toLookup :: if q.goesOn d then asked d rest else []

/-- `extJsonUserValidate`, and a check of the target behind it. -/
def loginQuestions (cfg : RuntimeCfg) (isTarget : Bool) : List Question := [
  ⟨⟨.loginAck, .string⟩, fun d =>
    (d.stringIn .loginAck 16).any fun s => strncmpEq s cfg.user.val cfg.user.val.length⟩,
  ⟨⟨.pwdMsg, .string⟩, fun d => (d.stringIn .pwdMsg 16).any (fun s =>
    strncmpEq s cfg.password.val cfg.password.val.length) && isTarget⟩]

/-- `extJsonRequestParse` -/
def paramQuestions (run : RuntimeCfg) : List Question := [
  .optional .string .cName,
  .optional .string .mac,
  .optional .string .ip,
  .optional .string .mask,
  .optional .string .gateway,
  .optional .primitive .dhcp,
  .optional .primitive .isDip,
  ⟨⟨.rsBaudrate, .primitive⟩, fun d => (d.unsignedInteger .rsBaudrate).all validBaudRate⟩,
  ⟨⟨.rsDatabits, .primitive⟩, fun d => (d.unsignedChar .rsDatabits).all validCharLength⟩,
  ⟨⟨.rsStopbits, .primitive⟩, fun d => (d.unsignedChar .rsStopbits).all validStopbits⟩,
  ⟨⟨.rsParity, .string⟩, fun d => knownName .rsParity (d.stringIn .rsParity 32)⟩,
  .optional .primitive .isMcast,
  ⟨⟨.mcastIp, .string⟩, fun d => validMcastIp run (d.ipAddress .mcastIp)⟩,
  .optional .primitive .videoPort,
  .optional .primitive .audioPort,
  .optional .primitive .adPort,
  .optional .primitive .stPort,
  .optional .primitive .videoWidth,
  .optional .primitive .videoHeight,
  .optional .primitive .videoFramerate,
  .optional .primitive .videoDepth,
  .optional .primitive .videoInterlaced,
  .optional .primitive .videoSegmented,
  ⟨⟨.videoColorspace, .string⟩, fun d =>
    knownName .vColorSpace (d.stringIn .videoColorspace 32)⟩,
  ⟨⟨.audioSampeRate, .primitive⟩, fun d => (d.unsignedShort .audioSampeRate).all validSampleRate⟩,
  ⟨⟨.audioDepth, .primitive⟩, fun d => (d.unsignedChar .audioDepth).all validAudioDepth⟩,
  ⟨⟨.audioChannels, .primitive⟩, fun d => (d.unsignedChar .audioChannels).all validAudioChannels⟩,
  .optional .primitive .isConnect]

/-- The handlers of `_extCmdTable`, for a message to a target. -/
def Command.questions (cfg : RuntimeCfg) (target : MacAddress) : Command → List Question
  | getParams =>
      loginQuestions cfg
          (target = cfg.local.mac || target.isBoardcast || target = cfg.dest.mac) ++
        [.optional .string .svr811Ip, .optional .primitive .svr811Port]
  | setParams =>
      -- `_extJsonIsResponse` comes first
      ⟨⟨.loginAck, .string⟩, fun d => !d.isReply⟩ ::
        (loginQuestions cfg (target = cfg.local.mac) ++ paramQuestions cfg)
  | sendRs232 =>
      loginQuestions cfg (target = cfg.local.mac) ++ [
        ⟨⟨.dataArray, .array⟩, Doc.hasDataArray⟩,
        ⟨⟨.rs232DataHex, .string⟩, fun d => (d.stringIn .rs232DataHex 128).isSome⟩,
        ⟨⟨.rs232WaitTime, .primitive⟩, fun d => (d.unsignedShort .rs232WaitTime).isSome⟩,
        .optional .primitive .rs232Feedback]
  | securityCheck =>
      -- the first sub-command that is found is the last one looked for
      loginQuestions cfg (target = cfg.local.mac) ++ [
        ⟨⟨.dataArray, .array⟩, Doc.hasDataArray⟩,
        ⟨⟨.scSetKey, .string⟩, fun d => (d.stringIn .scSetKey 32).isNone⟩,
        ⟨⟨.scGetStatus, .string⟩, fun d => (d.stringIn .scGetStatus 32).isNone⟩,
        .optional .string .scGetId]

namespace Doc

variable (d : Doc)

/-- The target of a message. -/
def targetMac : MacAddress × Bool := d.macAddress .target .zero

/-- The name of its command, as it is copied. -/
def commandCopy : Option (CString 31) := (d.stringIn .command 32).map (.copy 31)

/-- The message has a target and a command. -/
def holdsCommand : Bool := d.targetMac.2 && d.commandCopy.isSome

end Doc

/-- The lookups for a message: `extJsonRequestParseCommand`, and then the handler of its
    command. -/
def questions (cfg : RuntimeCfg) (d : Doc) : List Question :=
  ⟨⟨.target, .string⟩, fun d => d.targetMac.2⟩ ::
    ⟨⟨.command, .string⟩, fun d => d.commandCopy.isSome⟩ ::
      (d.commandCopy.bind fun name => commandOf name.val).elim [] fun c =>
        c.questions cfg d.targetMac.1

/-! ### The accesses of the handler -/

/-- The checks of `extJsonRequestParse` are those of its lookups, and the count. -/
theorem paramQuestions_all (run : RuntimeCfg) (d : Doc) :
    d.acceptable run = ((paramQuestions run).all (fun q => q.goesOn d) && d.found) := by
  simp only [paramQuestions, Question.optional, Doc.acceptable, List.all_cons, List.all_nil,
    Bool.true_and, Bool.and_true, Bool.and_assoc]

/-- A user is authenticated if all lookups for it go on. -/
theorem loginQuestions_all (cfg : RuntimeCfg) (isTarget : Bool) (d : Doc) :
    (loginQuestions cfg isTarget).all (fun q => q.goesOn d) =
      (d.authenticated cfg && isTarget) := by
  simp only [loginQuestions, Doc.authenticated, List.all_cons, List.all_nil, Bool.and_true,
    Bool.and_assoc]

/-- A text that is accepted goes to a handler if it has tokens, a target and a command, and then the
    handler finds the target and the name of the command that the lookups are made for. -/
theorem extJsonRequestParseCommand_fst (text : List UInt8) (size : Nat) (p : Parser) :
    let r := jsmnParse ((text ++ [0]).take size) p.doc.tokens
    let d : Doc := ⟨r.1, text⟩
    let q := extJsonRequestParseCommand text size p
    (q.1 = true ↔ r.2 = none ∧ d.holdsCommand = true) ∧
      (q.1 = true → q.2.doc = d ∧ q.2.target = d.targetMac.1 ∧ d.commandCopy = some q.2.cmd) := by
  dsimp only
  unfold extJsonRequestParseCommand Doc.holdsCommand Doc.targetMac Doc.commandCopy
  generalize jsmnParse ((text ++ [0]).take size) p.doc.tokens = r
  obtain ⟨tokens, _ | e⟩ := r
  · dsimp only
    obtain ⟨q, hq, hin⟩ := delivers_macAddress .target p.target
      { p with doc := ⟨tokens, text⟩, out := [], status := .ok }
    -- whether the target can be read does not depend on the one before
    have hmac : (Doc.macAddress .target p.target ⟨tokens, text⟩).2 =
        (Doc.macAddress .target .zero ⟨tokens, text⟩).2 ∧
          ((Doc.macAddress .target .zero ⟨tokens, text⟩).2 = true →
            (Doc.macAddress .target p.target ⟨tokens, text⟩).1 =
              (Doc.macAddress .target .zero ⟨tokens, text⟩).1) := by
      unfold Doc.macAddress
      cases Doc.stringIn .target 64 ⟨tokens, text⟩ with
      | none => exact ⟨rfl, nofun⟩
      | some s => exact extMacAddressParse_congr p.target s
    rw [hq]
    dsimp only
    rw [hmac.1]
    cases hok : (Doc.macAddress .target .zero ⟨tokens, text⟩).2 with
    | false => exact ⟨iff_of_false nofun (fun h => nomatch h.2), nofun⟩
    | true =>
        have hdoc := Parser.doc_eq hin
        obtain ⟨q', hq', hin'⟩ := delivers_string .command 32
          { q with target := (Doc.macAddress .target p.target ⟨tokens, text⟩).1 }
        have hdoc' : Doc.stringIn .command 32
            { q with target := (Doc.macAddress .target p.target ⟨tokens, text⟩).1 }.doc =
              Doc.stringIn .command 32 ⟨tokens, text⟩ := congrArg _ hdoc
        rw [hdoc'] at hq'
        simp only [not_true_eq_false, if_false, Bool.true_and]
        rw [hq']
        cases Doc.stringIn .command 32 ⟨tokens, text⟩ with
        | none => exact ⟨iff_of_false nofun (fun h => nomatch h.2), nofun⟩
        | some s =>
            refine ⟨iff_of_true rfl ⟨trivial, rfl⟩, fun _ => ⟨?_, ?_, rfl⟩⟩
            · exact (Parser.doc_eq hin').trans hdoc
            · exact (Parser.target_eq hin').trans (hmac.2 hok)
  · exact ⟨iff_of_false nofun (fun h => nomatch h.1), nofun⟩

/-! ### A lookup -/

theorem inside_readToken_iff {size n : Nat} {tok : Jsmntok} :
    (Doc.readToken tok n).Inside size ↔ n = 0 ∨ ipcmdHeaderLength + tok.start + n ≤ size := by
  rcases Nat.eq_zero_or_pos n with rfl | hpos
  · exact iff_of_true (fun i h1 h2 => absurd h2 (Nat.not_lt_of_le h1)) (.inl rfl)
  · rw [Doc.readToken, inside_read_iff hpos]
    omega

/-- The tokens of a message lie in its text. -/
def Doc.OwnWithin (d : Doc) (n : Nat) : Prop :=
  ∀ tok ∈ d.tokens.take d.toknext, ∃ stop, tok.stop = some stop ∧ tok.start ≤ stop ∧ stop ≤ n

namespace Doc

variable {d : Doc}

/-- What earlier messages have left, and numbers, lead a lookup to nothing but received bytes. -/
structure LeftoverInside (d : Doc) (l : Lookup) (size : Nat) : Prop where
  /-- The token behind the message, if the message itself does not have the key. -/
  behind : 0 < d.toknext → d.toknext ≤ d.lastExamined l.key.text →
    (readToken (d.tokens.getD d.toknext .zero)
      (d.eqRead l.key.text (d.tokens.getD d.toknext .zero))).Inside size
  /-- The value, if it is not one of the message's own tokens, or is a primitive. -/
  value : ∀ tok, d.extJsonFindKeyToken l.key.text = some tok →
    d.toknext ≤ d.lastExamined l.key.text + 1 ∨ tok.type = .primitive →
      (readToken tok (d.useRead l.use tok)).Inside size

/-- What is read of a token of the message is inside if it is no longer than the token. -/
theorem OwnWithin.inside {n size len : Nat} (h : d.OwnWithin n)
    (hn : ipcmdHeaderLength + n ≤ size) {tok : Jsmntok} (htok : tok ∈ d.tokens.take d.toknext)
    (hlen : len ≤ tok.length) : (readToken tok len).Inside size := by
  obtain ⟨stop, hstop, hle, hin⟩ := h tok htok
  have hlength : tok.length = stop - tok.start := by rw [Jsmntok.length, hstop, Option.getD_some]
  exact inside_readToken_iff.mpr (.inr (by omega))

end Doc

/-! ### The whole handler -/

/-- The text of a received datagram goes with what earlier ones have left: if it is printed there is
    a NUL in it or in the checksum, and its lookups stay within it. -/
structure TextConsistent (dev : Device) (received : List UInt8) : Prop where
  printed : (jsmnParse (jsonText received) dev.parser.doc.tokens).2 ≠ none ∨
    (docIn dev received).holdsCommand = false → 0 ∈ received.drop ipcmdHeaderLength
  lookups : (jsmnParse (jsonText received) dev.parser.doc.tokens).2 = none →
    ∀ l ∈ asked (docIn dev received) (questions dev.cfg (docIn dev received)),
      (docIn dev received).LeftoverInside l received.length

/-- A received datagram is consistent: its length field goes with its size, also for the print of
    the debug option, and its text with what earlier datagrams have left. -/
structure Consistent (debug : Bool) (dev : Device) (received : List UInt8) : Prop where
  frame : FrameConsistent received
  shown : debug = true → ipcmdHeaderLength ≤ frameLength received ∧
    (frameLength received ≤ received.length ∨ 0 ∈ received.drop ipcmdHeaderLength)
  text : le16 received = cmdTagRequest → CrcMatches received → TextConsistent dev received

section Received

variable {received : List UInt8} (stale : List UInt8)

end Received

section Handler

variable {debug : Bool} {dev : Device} {datagram received : List UInt8}

end Handler

/-- The frame of the text `{}` is sound. But the text holds no command, and no NUL ends its
    print. -/
example :
    let received := extIpCmdResponseTailCalculate [123] true
    CrcMatches received ∧ frameLength received + ipcmdHeaderLength = received.length ∧
      (docIn (Device.factory 1) received).holdsCommand = false ∧
      0 ∉ received.drop ipcmdHeaderLength := by
  decide +kernel

end Cmd

end RtosLwip
