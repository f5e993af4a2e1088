import RtosLwip.Base.Bytes
import RtosLwip.Cli.CommandLine

/-!
# The Telnet Server and the Console

`extTelnetd.c`, and of `eosTaskConsole.c` the loop around the command line. The
telnet server has one session at a time. What it receives is collected in a buffer
until a segment ends with the end of a line, the line is given to the command line,
and whenever a part of the output has been acknowledged, the next part is asked
for. The console asks for the parts of a command one after the other, but its task
is another one, so anything may come between two of them.

What goes over the connection and what is given to the command line is written
down in a history, newest effect first, and so is where the NUL behind the bytes
received is written. A step takes what the callback answers, if one is run, and
whether `tcp_write` fails.

## Main definitions

* `TelnetConn`, `Session`, `Server`: The connection, the connection with what its
  callbacks share, and the whole.
* `telnetCommandProcess`, `telnetCommandRead`: The functions of the source.
* `Event`, `Server.step`: The runs of telnet server and console.

## Theorems

* `sends_telnetConnSend`: All that `_telnetConnSend` does.
-/

namespace RtosLwip

namespace Cli

/-- `EXT_CMD_BUFSIZE`. -/
def cmdBufSize : Nat := 1024

/-- `EXT_COMMAND_BUFFER_SIZE`. -/
def commandBufferSize : Nat := 1024

/-- `EXT_TELNET_TIMEOUT`. -/
def telnetTimeout : UInt8 := 30

/-- `TELNET_PROTOCOL_IAC`. -/
def telnetIac : UInt8 := 0xFF

/-- `ASCII_KEY_LF`. -/
def keyLf : UInt8 := 0x0A

/-- `ASCII_KEY_CR`. -/
def keyCr : UInt8 := 0x0D

/-- `EXT_TELNET_STATE`; `TELNET_CS_NONE` is never entered. -/
inductive TelnetState where
  | receiving
  | processing
  | closing
  deriving DecidableEq, Repr

/-- `EXT_TELNET_CONN_T`. The response is what the callbacks write, and of it only
    the length is read. -/
structure TelnetConn where
  state : TelnetState
  cmd : List UInt8
  isContinue : UInt8
  readIndex : Nat
  timeoutSecond : UInt8
  deriving DecidableEq, Repr

/-- What the server writes to the connection. -/
inductive Message where
  | welcome
  | prompt
  | tooLong
  | bye
  | timeout
  | response (text : List UInt8)
  deriving DecidableEq, Repr

/-- The bytes of a message. -/
def Message.text : Message → List UInt8
  | .welcome =>
      ascii "\r\nMuxLab telnet shell.\r\n" ++
        ascii "For help, try the \"help\" command; \"quit\" exit telnet.\r\n> "
  | .prompt => ascii "> "
  | .tooLong => ascii "Command is longer than maxumum length\r\n"
  | .bye => ascii "Bye, dear!\r\n"
  | .timeout => ascii "Timeout for MuxLab telnet connection\r\n"
  | .response text => text

/-- Who gives a line to the command line. -/
inductive Caller where
  | telnet
  | console
  deriving DecidableEq, Repr

/-- What telnet server and console do to their surroundings: the NUL is written at
    an offset of the command buffer, bytes are accepted by `tcp_write`, a line is
    given to the command line for the first time or for its next part, a line ends
    the session. -/
inductive Effect (κ : Type) where
  | terminated (offset : Nat)
  | sent (msg : Message)
  | processed (caller : Caller) (isNew : Bool) (cmdInput : List UInt8) (called : Option κ)
  | quit (cmdInput : List UInt8)
  | closed
  deriving DecidableEq, Repr

/-- What a callback finds: the room in the send buffer, whether `tcp_write` fails, and
    what the callback of the command answers. -/
structure Env where
  sndbuf : Nat
  wrErr : Bool
  answer : Answer
  deriving DecidableEq, Repr

/-- A connection, with the state of the command line and the history. -/
structure Session (κ : Type) where
  conn : TelnetConn
  line : CommandLine κ
  history : List (Effect κ)
  deriving DecidableEq, Repr

variable {κ : Type}

/-- Write down an effect. -/
def Session.emit (e : Effect κ) (s : Session κ) : Session κ :=
  { s with history := e :: s.history }

/-- Enter a state. -/
def Session.enter (state : TelnetState) (s : Session κ) : Session κ :=
  { s with conn := { s.conn with state := state } }

/-- `tcp_write` is called and fails. -/
def Env.fails (env : Env) (data : List UInt8) : Prop :=
  0 < data.length ∧ data.length ≤ env.sndbuf ∧ env.wrErr

instance (env : Env) (data : List UInt8) : Decidable (env.fails data) :=
  inferInstanceAs (Decidable (_ ∧ _ ∧ _))

/-- `_telnetConnSend`. What does not fit into the send buffer is not sent at all. -/
def telnetConnSend (env : Env) (msg : Message) (s : Session κ) : Session κ :=
  if env.fails msg.text then s.enter .closing
  else if 0 < msg.text.length ∧ msg.text.length ≤ env.sndbuf then s.emit (.sent msg)
  else s

/-- What `_telnetConnSend` does: the message is sent, or it is not, and where the write
    fails the session is closing. -/
structure Sends (env : Env) (msg : Message) (s t : Session κ) : Prop where
  line : t.line = s.line
  cmd : t.conn.cmd = s.conn.cmd
  readIndex : t.conn.readIndex = s.conn.readIndex
  isContinue : t.conn.isContinue = s.conn.isContinue
  outcome : (env.fails msg.text ∧ t.conn.state = .closing ∧ t.history = s.history) ∨
    (¬ env.fails msg.text ∧ t.conn.state = s.conn.state ∧
      (t.history = s.history ∨ t.history = .sent msg :: s.history))

theorem sends_telnetConnSend (env : Env) (msg : Message) (s : Session κ) :
    Sends env msg s (telnetConnSend env msg s) := by
  unfold telnetConnSend
  split
  · exact ⟨rfl, rfl, rfl, rfl, Or.inl ⟨‹_›, rfl, rfl⟩⟩
  · split
    · exact ⟨rfl, rfl, rfl, rfl, Or.inr ⟨‹_›, rfl, Or.inr rfl⟩⟩
    · exact ⟨rfl, rfl, rfl, rfl, Or.inr ⟨‹_›, rfl, Or.inl rfl⟩⟩

theorem Sends.history {env : Env} {msg : Message} {s t : Session κ} (h : Sends env msg s t) :
    t.history = s.history ∨ t.history = .sent msg :: s.history := by
  rcases h.outcome with ⟨-, -, hsame⟩ | ⟨-, -, hhist⟩
  · exact Or.inl hsame
  · exact hhist

theorem Sends.state {env : Env} {msg : Message} {s t : Session κ} (h : Sends env msg s t) :
    t.conn.state = s.conn.state ∨ t.conn.state = .closing := by
  rcases h.outcome with ⟨-, hclosing, -⟩ | ⟨-, hsame, -⟩
  · exact Or.inr hclosing
  · exact Or.inl hsame

/-- `_telnetMsgPrintout`. -/
def telnetMsgPrintout (env : Env) (msg : Message) (s : Session κ) : Session κ :=
  telnetConnSend env msg { s with conn := { s.conn with isContinue := 0 } }

/-- `_telnetMsgPrompt`. -/
def telnetMsgPrompt (env : Env) (s : Session κ) : Session κ :=
  telnetMsgPrintout env .welcome { s with conn := { s.conn with timeoutSecond := 0 } }

/-- `_telnetCommandProcess`, for a new line or for the next part of its output. -/
def telnetCommandProcess (extCmds : List (ExtCliCmd κ)) (env : Env) (isNew : Bool)
    (s : Session κ) : Session κ :=
  let cmdInput := cstr s.conn.cmd
  let r := cmnCmdLineProcess extCmds env.answer cmdInput commandBufferSize s.line
  telnetConnSend env (.response r.outBuffer)
    { conn := { s.conn with isContinue := r.ret }
      line := r.line
      history := .processed .telnet isNew cmdInput r.called :: s.history }

/-- `pbuf_copy_partial` to the end of what was read before, and the NUL behind it. -/
def TelnetConn.store (c : TelnetConn) (bytes : List UInt8) : TelnetConn :=
  { c with
    cmd := store8 (c.readIndex + bytes.length) 0 (storeBytes c.readIndex bytes c.cmd)
    readIndex := c.readIndex + bytes.length }

/-- The last byte that was read. -/
def TelnetConn.lastByte (c : TelnetConn) : UInt8 := load8 c.cmd (c.readIndex - 1)

/-- A NUL in place of the last byte. -/
def TelnetConn.strip (c : TelnetConn) : TelnetConn :=
  { c with cmd := store8 (c.readIndex - 1) 0 c.cmd, readIndex := c.readIndex - 1 }

/-- A byte that ends a line. -/
def isLineEnd (c : UInt8) : Bool := c = keyLf || c = keyCr

/-- The end of a line is taken off. -/
def TelnetConn.cutLine (c : TelnetConn) : TelnetConn :=
  let c := { c.strip with state := .processing }
  -- the source makes the same test twice
  let c := if c.lastByte = keyCr ∨ c.lastByte = keyCr then c.strip else c
  { c with readIndex := 0 }

/-- What `_telnetCommandRead` does where a segment ends with the end of a line. -/
def telnetLineEnd (extCmds : List (ExtCliCmd κ)) (env : Env) (s : Session κ) : Session κ :=
  -- one byte in front of the end of the line is taken for a carriage return
  if s.conn.readIndex = 1 ∨ s.conn.readIndex = 2 then
    let s := telnetMsgPrintout env .prompt s
    { s with conn := { s.conn with readIndex := 0, timeoutSecond := 0 } }
  else
    let s := { s with conn := s.conn.cutLine }
    if strncmpEq (cstr s.conn.cmd) (ascii "quit") 4 then
      (telnetMsgPrintout env .bye (s.emit (.quit (cstr s.conn.cmd)))).enter .closing
    else
      telnetCommandProcess extCmds env true s

/-- The bytes that are copied of a segment. -/
def TelnetConn.copied (c : TelnetConn) (payload : List UInt8) : List UInt8 :=
  payload.take (cmdBufSize - c.readIndex)

/-- A segment is copied into the command buffer: it is short enough, and it does not start
    with `TELNET_PROTOCOL_IAC`. -/
def TelnetConn.copies (c : TelnetConn) (payload : List UInt8) : Prop :=
  payload.length < cmdBufSize ∧ payload ≠ [] ∧ load8 payload 0 ≠ telnetIac ∧
    c.copied payload ≠ []

instance (c : TelnetConn) (payload : List UInt8) : Decidable (c.copies payload) :=
  inferInstanceAs (Decidable (_ ∧ _ ∧ _ ∧ _))

/-- `_telnetCommandRead`. -/
def telnetCommandRead (extCmds : List (ExtCliCmd κ)) (env : Env) (payload : List UInt8)
    (s : Session κ) : Session κ :=
  if cmdBufSize ≤ payload.length then
    (telnetMsgPrintout env .tooLong s).enter .closing
  else if s.conn.copies payload then
    let c := s.conn.store (s.conn.copied payload)
    let s := { s.emit (.terminated c.readIndex) with conn := c }
    if isLineEnd c.lastByte then telnetLineEnd extCmds env s else s
  else
    s

/-- `_telnetCallbackSent`. -/
def telnetCallbackSent (extCmds : List (ExtCliCmd κ)) (env : Env) (s : Session κ) : Session κ :=
  if s.conn.state = .processing then
    if s.conn.isContinue ≠ 0 then telnetCommandProcess extCmds env false s
    -- also where the prompt could not be written
    else (telnetMsgPrompt env s).enter .receiving
  else
    s

/-- `_telnetCallbackPoll` of a session that is not closing. -/
def telnetCallbackPoll (env : Env) (s : Session κ) : Session κ :=
  let timeoutSecond := s.conn.timeoutSecond + 1
  let s := { s with conn := { s.conn with timeoutSecond := timeoutSecond } }
  if telnetTimeout ≤ timeoutSecond then
    (telnetMsgPrintout env .timeout s).enter .closing
  else
    s

/-- `_telnetCallabckAccept` of the connection there will be. -/
def telnetCallbackAccept (env : Env) (line : CommandLine κ) (history : List (Effect κ)) :
    Session κ :=
  telnetMsgPrompt env
    { conn :=
        { state := .receiving
          cmd := List.replicate cmdBufSize 0
          isContinue := 0
          readIndex := 0
          timeoutSecond := 0 }
      line := line
      history := history }

/-- Telnet server and console: `_extTelnetCtx`, the state of the command line, the line
    of the console whose command has more to come, and the history. -/
structure Server (κ : Type) where
  conn : Option TelnetConn
  line : CommandLine κ
  console : Option (List UInt8)
  history : List (Effect κ)
  deriving DecidableEq, Repr

/-- The state after the start of the program. -/
def Server.start : Server κ := ⟨none, ⟨[], none⟩, none, []⟩

/-- The connection, with what its callbacks share. -/
def Server.session (c : TelnetConn) (s : Server κ) : Session κ := ⟨c, s.line, s.history⟩

/-- The state a callback of the connection leaves. -/
def Server.resume (s : Server κ) (t : Session κ) : Server κ :=
  { s with conn := some t.conn, line := t.line, history := t.history }

/-- `_telnetConnClose`. -/
def Server.close (s : Server κ) : Server κ :=
  { s with conn := none, history := .closed :: s.history }

/-- One turn of the loop of the console task. -/
def Server.consoleProcess (extCmds : List (ExtCliCmd κ)) (answer : Answer) (isNew : Bool)
    (cInputString : List UInt8) (s : Server κ) : Server κ :=
  let r := cmnCmdLineProcess extCmds answer cInputString commandBufferSize s.line
  { s with
    line := r.line
    console := if r.ret = 0 then none else some cInputString
    history := .processed .console isNew (cstr cInputString) r.called :: s.history }

/-- What can happen: a connection comes, for which there may be memory, and then the
    callbacks of the connection that is there are called. `_telnetCallbackRecv` is called
    with data, for the end of the connection, or with an error. The console
    is given a line, or goes on with its last one. -/
inductive Event where
  | accept (env : Env) (hasMem : Bool)
  | recv (env : Env) (payload : List UInt8)
  | recvClosed
  | recvError
  | sent (env : Env)
  | poll (env : Env)
  | error
  | consoleLine (answer : Answer) (cInputString : List UInt8)
  | consoleNext (answer : Answer)
  deriving DecidableEq, Repr

/-- What a callback of the connection does to it. -/
def Server.onConn (s : Server κ) (f : TelnetConn → Server κ) : Server κ :=
  match s.conn with
  | some c => f c
  | none => s

/-- A callback is for the connection there is, and nothing happens without one. -/
theorem Server.onConn_cases {P : Server κ → Prop} {s : Server κ} {f : TelnetConn → Server κ}
    (hnone : s.conn = none → P s) (hsome : ∀ c, s.conn = some c → P (f c)) : P (s.onConn f) := by
  unfold Server.onConn
  cases hc : s.conn with
  | none => exact hnone hc
  | some c => exact hsome c hc

/-- One step. -/
def Server.step (extCmds : List (ExtCliCmd κ)) (s : Server κ) : Event → Server κ
  | .accept env hasMem =>
      -- a second connection is told so and closed
      if s.conn.isNone ∧ hasMem then s.resume (telnetCallbackAccept env s.line s.history) else s
  | .recv env payload => s.onConn fun c =>
      -- data is dropped in the other states
      if c.state = .receiving then
        s.resume (telnetCommandRead extCmds env payload (s.session c))
      else s
  | .recvClosed => s.onConn fun c => s.resume ((s.session c).enter .closing)
  | .recvError => s.onConn fun c => s.resume ((s.session c).enter .closing)
  | .sent env => s.onConn fun c =>
      if c.state = .closing then s.close
      else s.resume (telnetCallbackSent extCmds env (s.session c))
  | .poll env => s.onConn fun c =>
      if c.state = .closing then s.close
      else s.resume (telnetCallbackPoll env (s.session c))
  -- `_telnetCallbackError`: the connection itself is gone by then
  | .error => s.onConn fun _ => s.close
  | .consoleLine answer cInputString =>
      match s.console with
      | none => s.consoleProcess extCmds answer true cInputString
      | some _ => s
  | .consoleNext answer =>
      match s.console with
      | none => s
      | some cInputString => s.consoleProcess extCmds answer false cInputString

end Cli

end RtosLwip
