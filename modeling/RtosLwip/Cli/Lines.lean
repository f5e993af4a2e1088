import RtosLwip.Cli.Buffer

/-!
# The Lines of a Telnet Client

A client sends lines, and each of them only once it has been given a prompt since the
one before. What it sends is under way until it is delivered, a segment at a time, and
the segments may be cut anywhere. The server knows nothing of lines that are cut: it
takes the line to be complete where a segment ends with a carriage return or a line
feed.

So the line feed behind a carriage return may come in a segment of its own, as a
remainder of a line that has already been executed. That is of no effect if it comes
while the command is being processed, and is answered by a prompt otherwise. It is
read as a part of the next line if that is already under way with it.

Between the steps of the client there is room for everything else that happens to the
server: segments are acknowledged, time passes, the connection is closed or fails, and
the console is given lines.

## Main definitions

* `Line`, `Line.bytes`: A line, and what is sent of it.
* `executed`: The lines that were executed, a line that ends the session being one.
* `Link`, `Link.step`: A client, what is under way, and the server.
* `Orderly`: What a step must not do.

## Theorems

* `process_spec`: What the command line is given is executed.
* `carries_other`: What is not the client's executes nothing and keeps the buffer.
* `read_copied`: A segment that fits is added to what was read.
* `lineEnd_short`, `lineEnd_long`: What the end of a line does.
-/

namespace RtosLwip

namespace Cli

/-- How a line ends. -/
inductive Ending where
  | cr
  | lf
  | crlf
  deriving DecidableEq, Repr

def Ending.bytes : Ending → List UInt8
  | .cr => [keyCr]
  | .lf => [keyLf]
  | .crlf => [keyCr, keyLf]

/-- A line, shorter than the command buffer. -/
structure Line where
  content : List UInt8
  ending : Ending
  plain : ∀ b ∈ content, isLineEnd b = false
  short : content.length < cmdBufSize

/-- What is sent of a line. -/
def Line.bytes (l : Line) : List UInt8 := l.content ++ l.ending.bytes

/-- The lines that are not empty. -/
def nonEmpty (lines : List Line) : List (List UInt8) :=
  (lines.map (·.content)).filter (· ≠ [])

variable {κ : Type}

/-- The line a session has executed: it was given to the command line, or it has ended the
    session. -/
def Effect.executed : Effect κ → Option (List UInt8)
  | .processed .telnet true cmdInput _ => some cmdInput
  | .quit cmdInput => some cmdInput
  | _ => none

/-- The lines that were executed, in order. -/
def executed (history : List (Effect κ)) : List (List UInt8) :=
  (history.filterMap Effect.executed).reverse

/-- What the client takes for a prompt. -/
def Message.isPrompt : Message → Bool
  | .welcome => true
  | .prompt => true
  | _ => false

def Effect.isPrompt : Effect κ → Bool
  | .sent msg => msg.isPrompt
  | _ => false

/-- How many prompts there were. -/
def prompts (history : List (Effect κ)) : Nat := history.countP Effect.isPrompt

/-- The server, the lines the client has still to send, the bytes under way, and the lines
    that were sent. -/
structure Link (κ : Type) where
  server : Server κ
  rest : List Line
  flight : List UInt8
  sent : List Line

/-- The line the client is to send next, if it was given a prompt for it. -/
def Link.next (w : Link κ) : Option Line :=
  if w.sent.length < prompts w.server.history then w.rest.head? else none

/-- The client sends its next line, the first bytes under way are delivered in a segment, or
    something else happens to the server. -/
inductive LinkEvent where
  | send
  | deliver (env : Env) (n : Nat)
  | other (e : Event)

/-- The events that are the client's. -/
def Event.ofClient : Event → Bool
  | .accept _ _ => true
  | .recv _ _ => true
  | _ => false

/-- One step. -/
def Link.step (extCmds : List (ExtCliCmd κ)) (w : Link κ) : LinkEvent → Link κ
  | .send =>
      match w.next with
      | some l =>
          { w with rest := w.rest.tail, flight := w.flight ++ l.bytes, sent := w.sent ++ [l] }
      | none => w
  | .deliver env n =>
      if 0 < n ∧ n ≤ w.flight.length then
        { w with
          server := w.server.step extCmds (.recv env (w.flight.take n))
          flight := w.flight.drop n }
      else
        w
  | .other e =>
      if e.ofClient then w else { w with server := w.server.step extCmds e }

/-- A session has just been accepted for a client with some lines to send. What is in
    progress on the command line and at the console is from before. -/
def Link.start (extCmds : List (ExtCliCmd κ)) (env : Env) (line : CommandLine κ)
    (console : Option (List UInt8)) (lines : List Line) : Link κ where
  server := Server.step extCmds ⟨none, line, console, []⟩ (.accept env true)
  rest := lines
  flight := []
  sent := []

/-- A line has no NUL and is sent when everything before it has been delivered and is no
    longer processed. A segment is delivered to a session that is not closing. One that is read
    does not start with `TELNET_PROTOCOL_IAC`, leaves room for the NUL, and does not make it two
    bytes with the only byte of a line. -/
def Orderly (w : Link κ) : LinkEvent → Prop
  | .send => ∀ l ∈ w.next, (∀ b ∈ l.content, b ≠ 0) ∧ w.flight = [] ∧
      ∀ c ∈ w.server.conn, c.state ≠ .processing
  | .deliver _ n => 0 < n → n ≤ w.flight.length → ∃ c ∈ w.server.conn, c.state ≠ .closing ∧
      (c.state = .receiving → load8 (w.flight.take n) 0 ≠ telnetIac ∧
        c.readIndex + n < cmdBufSize ∧
        ∀ l ∈ w.sent.getLast?, l.content.length = 1 → c.readIndex + n ≠ 2)
  | .other _ => True

instance (w : Link κ) : ∀ e, Decidable (Orderly w e)
  | .send => inferInstanceAs (Decidable (∀ l ∈ w.next, _ ∧ _ ∧ ∀ c ∈ w.server.conn, _))
  | .deliver _ _ => inferInstanceAs (Decidable (_ → _ → ∃ c ∈ w.server.conn, _ ∧ (_ → _ ∧ _ ∧ _)))
  | .other _ => .isTrue trivial

section Sessions

theorem executed_cons (e : Effect κ) (history : List (Effect κ)) :
    executed (e :: history) = executed history ++ e.executed.toList := by
  unfold executed
  cases h : e.executed with
  | none =>
      rw [List.filterMap_cons_none h]
      exact (List.append_nil _).symm
  | some line =>
      rw [List.filterMap_cons_some h, List.reverse_cons]
      rfl

theorem prompts_cons (e : Effect κ) (history : List (Effect κ)) :
    prompts (e :: history) = prompts history + if e.isPrompt then 1 else 0 :=
  List.countP_cons

/-- Nothing is executed, nothing is read, and no processing begins. -/
structure Keeps (s t : Session κ) : Prop where
  executed : executed t.history = executed s.history
  cmd : t.conn.cmd = s.conn.cmd
  readIndex : t.conn.readIndex = s.conn.readIndex
  processing : t.conn.state = .processing → s.conn.state = .processing

theorem Keeps.trans {s t u : Session κ} (h : Keeps s t) (h' : Keeps t u) : Keeps s u where
  executed := h'.executed.trans h.executed
  cmd := h'.cmd.trans h.cmd
  readIndex := h'.readIndex.trans h.readIndex
  processing := h.processing ∘ h'.processing

theorem keeps_enter (state : TelnetState) (h : state ≠ .processing) (s : Session κ) :
    Keeps s (s.enter state) :=
  ⟨rfl, rfl, rfl, fun hstate => absurd hstate h⟩

theorem keeps_send (env : Env) (msg : Message) (s : Session κ) :
    Keeps s (telnetConnSend env msg s) := by
  have hsends := sends_telnetConnSend env msg s
  refine ⟨?_, hsends.cmd, hsends.readIndex, fun h => ?_⟩
  · rcases hsends.history with hhist | hhist
    · rw [hhist]
    · rw [hhist, executed_cons]
      exact List.append_nil _
  · rcases hsends.state with hstate | hstate
    · exact hstate.symm.trans h
    · exact nomatch hstate.symm.trans h

theorem keeps_printout (env : Env) (msg : Message) (s : Session κ) :
    Keeps s (telnetMsgPrintout env msg s) := by
  have hsend := keeps_send env msg { s with conn := { s.conn with isContinue := 0 } }
  exact ⟨hsend.executed, hsend.cmd, hsend.readIndex, hsend.processing⟩

theorem keeps_prompt (env : Env) (s : Session κ) : Keeps s (telnetMsgPrompt env s) := by
  have hprintout := keeps_printout env .welcome
    { s with conn := { s.conn with timeoutSecond := 0 } }
  exact ⟨hprintout.executed, hprintout.cmd, hprintout.readIndex, hprintout.processing⟩

variable (extCmds : List (ExtCliCmd κ))

/-- The command line executes a new line, and nothing for a further part. -/
theorem process_spec (env : Env) (isNew : Bool) (s : Session κ) :
    executed (telnetCommandProcess extCmds env isNew s).history =
        executed s.history ++ (if isNew then [cstr s.conn.cmd] else []) ∧
      (telnetCommandProcess extCmds env isNew s).conn.cmd = s.conn.cmd ∧
      (telnetCommandProcess extCmds env isNew s).conn.readIndex = s.conn.readIndex ∧
      ((telnetCommandProcess extCmds env isNew s).conn.state = .processing →
        s.conn.state = .processing) := by
  unfold telnetCommandProcess
  dsimp only
  generalize cmnCmdLineProcess extCmds env.answer (cstr s.conn.cmd) commandBufferSize s.line = r
  have hsend := keeps_send env (.response r.outBuffer)
    (⟨{ s.conn with isContinue := r.ret }, r.line,
      .processed .telnet isNew (cstr s.conn.cmd) r.called :: s.history⟩ : Session κ)
  refine ⟨?_, hsend.cmd, hsend.readIndex, hsend.processing⟩
  rw [hsend.executed, executed_cons]
  cases isNew with
  | false => rfl
  | true => rfl

theorem keeps_process (env : Env) (s : Session κ) :
    Keeps s (telnetCommandProcess extCmds env false s) := by
  rcases process_spec extCmds env false s with ⟨hexec, hcmd, hindex, hstate⟩
  exact ⟨hexec.trans (List.append_nil _), hcmd, hindex, hstate⟩

theorem keeps_sent (env : Env) (s : Session κ) : Keeps s (telnetCallbackSent extCmds env s) := by
  unfold telnetCallbackSent
  split
  · split
    · exact keeps_process extCmds env s
    · exact (keeps_prompt env s).trans (keeps_enter .receiving nofun _)
  · exact ⟨rfl, rfl, rfl, id⟩

theorem keeps_poll (env : Env) (s : Session κ) : Keeps s (telnetCallbackPoll env s) := by
  unfold telnetCallbackPoll
  dsimp only
  split
  · have hclosing := (keeps_printout env .timeout { s with conn :=
      { s.conn with timeoutSecond := s.conn.timeoutSecond + 1 } }).trans
        (keeps_enter .closing nofun _)
    exact ⟨hclosing.executed, hclosing.cmd, hclosing.readIndex, hclosing.processing⟩
  · exact ⟨rfl, rfl, rfl, id⟩

/-- Nothing is executed, and the connection there is still has the buffer it had. -/
structure Carries (s s' : Server κ) : Prop where
  executed : executed s'.history = executed s.history
  conn : ∀ c' ∈ s'.conn, ∃ c ∈ s.conn, c'.cmd = c.cmd ∧ c'.readIndex = c.readIndex ∧
    (c'.state = .processing → c.state = .processing)

theorem Carries.refl (s : Server κ) : Carries s s :=
  ⟨rfl, fun c hc => ⟨c, hc, rfl, rfl, id⟩⟩

theorem carries_resume {s : Server κ} {c : TelnetConn} {t : Session κ} (hc : s.conn = some c)
    (ht : Keeps (s.session c) t) : Carries s (s.resume t) := by
  refine ⟨ht.executed, fun c' hc' => ?_⟩
  rcases Option.mem_some.mp hc' with rfl
  exact ⟨c, hc, ht.cmd, ht.readIndex, ht.processing⟩

theorem carries_close (s : Server κ) : Carries s s.close := by
  refine ⟨?_, nofun⟩
  rw [Server.close, executed_cons]
  exact List.append_nil _

theorem carries_console (s : Server κ) (answer : Answer) (isNew : Bool) (line : List UInt8) :
    Carries s (s.consoleProcess extCmds answer isNew line) := by
  refine ⟨?_, (Carries.refl s).conn⟩
  rw [Server.consoleProcess, executed_cons]
  exact List.append_nil _

/-- What else happens to the server leaves the buffer as it is, and executes nothing. -/
theorem carries_other (s : Server κ) {e : Event} (he : e.ofClient = false) :
    Carries s (s.step extCmds e) := by
  cases e with
  | accept env hasMem => exact nomatch he
  | recv env payload => exact nomatch he
  | recvClosed =>
      exact Server.onConn_cases (fun _ => Carries.refl s) fun c hc =>
        carries_resume hc (keeps_enter .closing nofun _)
  | recvError =>
      exact Server.onConn_cases (fun _ => Carries.refl s) fun c hc =>
        carries_resume hc (keeps_enter .closing nofun _)
  | sent env =>
      refine Server.onConn_cases (fun _ => Carries.refl s) fun c hc => ?_
      split
      · exact carries_close s
      · exact carries_resume hc (keeps_sent extCmds env _)
  | poll env =>
      refine Server.onConn_cases (fun _ => Carries.refl s) fun c hc => ?_
      split
      · exact carries_close s
      · exact carries_resume hc (keeps_poll env _)
  | error => exact Server.onConn_cases (fun _ => Carries.refl s) fun c hc => carries_close s
  | consoleLine answer line =>
      rw [Server.step]
      split
      · exact carries_console extCmds s answer true line
      · exact Carries.refl s
  | consoleNext answer =>
      rw [Server.step]
      split
      · exact Carries.refl s
      · exact carries_console extCmds s answer false _

/-- A segment that fits is copied as a whole. -/
theorem copies_of_fits {c : TelnetConn} {text payload : List UInt8} (hc : c.Holds text)
    (hne : payload ≠ []) (hiac : load8 payload 0 ≠ telnetIac)
    (hroom : text.length + payload.length < cmdBufSize) :
    c.copies payload ∧ c.copied payload = payload := by
  have hcopied : c.copied payload = payload := by
    rw [TelnetConn.copied, hc.readIndex]
    exact List.take_of_length_le (by omega)
  refine ⟨⟨by omega, hne, hiac, ?_⟩, hcopied⟩
  rw [hcopied]
  exact hne

/-- The session behind `pbuf_copy_partial`. -/
def Session.stored (bytes : List UInt8) (s : Session κ) : Session κ :=
  { s.emit (.terminated (s.conn.store bytes).readIndex) with conn := s.conn.store bytes }

theorem executed_stored (bytes : List UInt8) (s : Session κ) :
    executed (s.stored bytes).history = executed s.history := by
  rw [Session.stored, Session.emit, executed_cons]
  exact List.append_nil _

theorem prompts_stored (bytes : List UInt8) (s : Session κ) :
    prompts (s.stored bytes).history = prompts s.history :=
  prompts_cons _ _

/-- A segment that fits is added to what was read, and its last byte may end the line. -/
theorem read_copied (env : Env) {s : Session κ} {text payload : List UInt8} {b : UInt8}
    (hs : s.conn.Holds text) (hiac : load8 (payload ++ [b]) 0 ≠ telnetIac)
    (hroom : text.length + (payload ++ [b]).length < cmdBufSize) :
    telnetCommandRead extCmds env (payload ++ [b]) s =
        (if isLineEnd b then telnetLineEnd extCmds env (s.stored (payload ++ [b]))
          else s.stored (payload ++ [b])) ∧
      (s.stored (payload ++ [b])).conn.Holds (text ++ (payload ++ [b])) := by
  have hne : payload ++ [b] ≠ [] := List.append_ne_nil_of_right_ne_nil _ (List.cons_ne_nil _ _)
  rcases copies_of_fits hs hne hiac hroom with ⟨hcopies, hcopied⟩
  have hstore := holds_store hs hroom
  have hlast : (s.conn.store (payload ++ [b])).lastByte = b := by
    rw [← List.append_assoc] at hstore
    exact lastByte_of_holds hstore
  refine ⟨?_, hstore⟩
  rw [telnetCommandRead, if_neg (Nat.not_le.mpr hcopies.1), if_pos hcopies]
  dsimp only
  rw [hcopied, hlast]
  rfl

theorem length_cutLine (c : TelnetConn) : c.cutLine.cmd.length = c.cmd.length := by
  unfold TelnetConn.cutLine
  dsimp only
  split
  · rw [TelnetConn.strip, length_store8, TelnetConn.strip, length_store8]
  · rw [TelnetConn.strip, length_store8]

/-- One or two bytes are answered by a prompt. -/
theorem lineEnd_short {env : Env} {s : Session κ} {text : List UInt8} (hs : s.conn.Holds text)
    (hlen : text.length = 1 ∨ text.length = 2) :
    executed (telnetLineEnd extCmds env s).history = executed s.history ∧
      (telnetLineEnd extCmds env s).conn.Holds [] ∧
      ((telnetLineEnd extCmds env s).conn.state = .processing → s.conn.state = .processing) := by
  have hprompt := keeps_printout env .prompt s
  rw [telnetLineEnd, if_pos (by rwa [hs.readIndex])]
  refine ⟨hprompt.executed, ⟨rfl, ?_, List.nil_prefix⟩, hprompt.processing⟩
  exact (congrArg List.length hprompt.cmd).trans hs.length

/-- A longer line is executed. -/
theorem lineEnd_long {env : Env} {s : Session κ} {text content : List UInt8}
    (hs : s.conn.Holds text) (hlen : 3 ≤ text.length)
    (hcut : content ++ [0] <+: s.conn.cutLine.cmd) (hnul : ∀ b ∈ content, b ≠ 0) :
    executed (telnetLineEnd extCmds env s).history = executed s.history ++ [content] ∧
      (telnetLineEnd extCmds env s).conn.Holds [] := by
  have hcmd : cstr s.conn.cutLine.cmd = content := cstr_of_prefix hcut hnul
  have hlength : s.conn.cutLine.cmd.length = cmdBufSize := (length_cutLine _).trans hs.length
  rw [telnetLineEnd, if_neg (by rw [hs.readIndex]; omega)]
  dsimp only
  split
  · -- the line ends the session
    rw [hcmd]
    have hbye := keeps_printout env .bye
      (Session.emit (.quit content) { s with conn := s.conn.cutLine })
    refine ⟨?_, hbye.readIndex, ?_, List.nil_prefix⟩
    · rw [Session.enter, hbye.executed, Session.emit, executed_cons]
      rfl
    · exact (congrArg List.length hbye.cmd).trans hlength
  · rcases process_spec extCmds env true { s with conn := s.conn.cutLine } with
      ⟨hexec, hsame, hindex, -⟩
    refine ⟨?_, hindex, ?_, List.nil_prefix⟩
    · rw [hexec, hcmd]
      rfl
    · exact (congrArg List.length hsame).trans hlength

end Sessions

end Cli

end RtosLwip
