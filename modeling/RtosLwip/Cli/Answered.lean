import RtosLwip.Base.Run
import RtosLwip.Cli.Telnetd

/-!
# New Lines Are Answered as Asked

The command in progress is kept in a static variable of the command line, which
knows nothing of who asked for it. It is cleared only where a callback reports its
last part. So everything depends on two things: that whoever has asked for a
command also asks for all its parts, and that nobody gives another line in between.

A telnet session with more output to come is one whose `isContinue` is set. If no
such session is ended, by its peer, by an error, by the timeout or because a part
cannot be written, and if no line is given while the session or the console has
more to come, then a command is in progress only as long as one of the two has
more to come. A new line then finds none in progress, and if it starts with a word
that can be stored, the command it asks for is the one that is run.

## Main definitions

* `Effect.AsAsked`: A new line runs the command it asks for.
* `Undisturbed`: What a step must not do.
* `Attended`: The command in progress is the one of the session or of the console.

## Theorems

* `attended_step`: An undisturbed step keeps the command in progress attended.
* `asAsked_of_undisturbed`: In an undisturbed run every new line is answered as asked.
* `not_asAsked_abandoned`: A command that was abandoned answers the next session.
-/

namespace RtosLwip

namespace Cli

variable {κ : Type} (extCmds : List (ExtCliCmd κ))

/-- A new line runs the first command whose name starts with its first word, and
    none if there is no such command or no word. -/
def Effect.AsAsked : Effect κ → Prop
  | .processed _ true cmdInput called =>
      called = (commandFor extCmds cmdInput).map (·.callback)
  | _ => True

instance [DecidableEq κ] : ∀ e : Effect κ, Decidable (e.AsAsked extCmds)
  | .processed _ true cmdInput called =>
      inferInstanceAs (Decidable (called = (commandFor extCmds cmdInput).map (·.callback)))
  | .processed _ false _ _ => .isTrue trivial
  | .terminated _ => .isTrue trivial
  | .sent _ => .isTrue trivial
  | .quit _ => .isTrue trivial
  | .closed => .isTrue trivial

/-- The line that a segment completes and that is given to the command line. -/
def TelnetConn.completes (c : TelnetConn) (payload : List UInt8) : Option (List UInt8) :=
  let read := c.store (c.copied payload)
  if c.copies payload ∧ isLineEnd read.lastByte ∧ read.readIndex ≠ 1 ∧ read.readIndex ≠ 2 ∧
      ¬ strncmpEq (cstr read.cutLine.cmd) (ascii "quit") 4 then
    some (cstr read.cutLine.cmd)
  else
    none

/-- Whether the session has more output to come. -/
def Server.isContinue (s : Server κ) : UInt8 := s.conn.elim 0 (·.isContinue)

/-- A part that is not the last one is not lost in `tcp_write`. -/
def Env.Delivers (env : Env) : Prop :=
  env.answer.ret ≠ 0 → ¬ env.fails (cstr env.answer.outBuffer)

instance (env : Env) : Decidable env.Delivers := inferInstanceAs (Decidable (_ → _))

/-- No line is given while a command has more to come, every line starts with a word
    that can be stored, and a session with more to come is not ended. -/
def Undisturbed (s : Server κ) : Event → Prop
  | .accept _ _ => True
  | .recv env payload => ∀ c ∈ s.conn, c.state = .receiving → ∀ line ∈ c.completes payload,
      Plain line ∧ s.console = none ∧ env.Delivers
  | .recvClosed => s.isContinue = 0
  | .recvError => s.isContinue = 0
  | .sent env => s.isContinue ≠ 0 → env.Delivers
  | .poll _ => ∀ c ∈ s.conn, c.isContinue ≠ 0 → c.timeoutSecond + 1 < telnetTimeout
  | .error => s.isContinue = 0
  | .consoleLine _ line => s.console = none → Plain line ∧ s.isContinue = 0
  | .consoleNext _ => True

instance (s : Server κ) : ∀ e, Decidable (Undisturbed s e)
  | .accept _ _ => .isTrue trivial
  | .recv _ _ => inferInstanceAs (Decidable (∀ c ∈ s.conn, _ → ∀ line ∈ _, _ ∧ _ ∧ _))
  | .recvClosed => inferInstanceAs (Decidable (_ = _))
  | .recvError => inferInstanceAs (Decidable (_ = _))
  | .sent _ => inferInstanceAs (Decidable (_ → _))
  | .poll _ => inferInstanceAs (Decidable (∀ c ∈ s.conn, _ → _))
  | .error => inferInstanceAs (Decidable (_ = _))
  | .consoleLine _ _ => inferInstanceAs (Decidable (_ → _ ∧ _))
  | .consoleNext _ => .isTrue trivial

/-- The command in progress is that of the session or that of the console, and not of
    both; a session with more to come is processing; every new line so far was answered
    as asked. -/
structure Attended (s : Server κ) : Prop where
  inProgress : s.line.currentCmd ≠ none → s.isContinue ≠ 0 ∨ s.console ≠ none
  alone : s.isContinue ≠ 0 → s.console = none
  processing : ∀ c ∈ s.conn, c.isContinue ≠ 0 → c.state = .processing
  asAsked : ∀ e ∈ s.history, e.AsAsked extCmds

section Sessions

variable {extCmds}

/-- What a session does without the command line: it leaves it as it is, and nothing
    of the history is about it. -/
structure Quiet (extCmds : List (ExtCliCmd κ)) (s t : Session κ) : Prop where
  line : t.line = s.line
  asAsked : (∀ e ∈ s.history, e.AsAsked extCmds) → ∀ e ∈ t.history, e.AsAsked extCmds

theorem Quiet.refl (s : Session κ) : Quiet extCmds s s := ⟨rfl, id⟩

theorem Quiet.trans {s t u : Session κ} (h : Quiet extCmds s t) (h' : Quiet extCmds t u) :
    Quiet extCmds s u :=
  ⟨h'.line.trans h.line, h'.asAsked ∘ h.asAsked⟩

theorem quiet_emit {e : Effect κ} (he : e.AsAsked extCmds) (s : Session κ) :
    Quiet extCmds s (s.emit e) :=
  ⟨rfl, fun h => List.forall_mem_cons.mpr ⟨he, h⟩⟩

theorem quiet_conn (s : Session κ) (c : TelnetConn) : Quiet extCmds s { s with conn := c } :=
  ⟨rfl, id⟩

theorem quiet_send (env : Env) (msg : Message) (s : Session κ) :
    Quiet extCmds s (telnetConnSend env msg s) := by
  have hsends := sends_telnetConnSend env msg s
  refine ⟨hsends.line, fun hpast => ?_⟩
  rcases hsends.history with h | h
  · rw [h]
    exact hpast
  · rw [h]
    exact List.forall_mem_cons.mpr ⟨trivial, hpast⟩

/-- Only a write that fails changes the state. -/
theorem state_send {env : Env} {msg : Message} (h : ¬ env.fails msg.text) (s : Session κ) :
    (telnetConnSend env msg s).conn.state = s.conn.state := by
  rcases (sends_telnetConnSend env msg s).outcome with ⟨hfails, -⟩ | ⟨-, hstate, -⟩
  · exact absurd hfails h
  · exact hstate

theorem quiet_printout (env : Env) (msg : Message) (s : Session κ) :
    Quiet extCmds s (telnetMsgPrintout env msg s) :=
  (quiet_conn s _).trans (quiet_send env msg _)

theorem isContinue_printout (env : Env) (msg : Message) (s : Session κ) :
    (telnetMsgPrintout env msg s).conn.isContinue = 0 :=
  (sends_telnetConnSend env msg _).isContinue

/-- The state of the session after a callback that gives nothing to the command line. -/
theorem attended_quiet {s : Server κ} {c : TelnetConn} {t : Session κ} (hs : Attended extCmds s)
    (hidle : s.isContinue = 0) (ht : Quiet extCmds (s.session c) t)
    (hcont : t.conn.isContinue = 0) : Attended extCmds (s.resume t) where
  inProgress h := by
    rw [Server.resume, ht.line] at h
    exact Or.inr ((hs.inProgress h).resolve_left (absurd hidle))
  alone h := absurd hcont h
  processing c' hc' h := by
    rcases Option.mem_some.mp hc' with rfl
    exact absurd hcont h
  asAsked := ht.asAsked hs.asAsked

/-- The state of the session after a part of the output. -/
theorem attended_process {s : Server κ} {env : Env} {t : Session κ} {isNew : Bool}
    (hline : t.line = s.line) (hstate : t.conn.state = .processing) (hdeliver : env.Delivers)
    (halone : s.console = none) (hpast : ∀ e ∈ t.history, e.AsAsked extCmds)
    (hnew : isNew → Plain (cstr t.conn.cmd) ∧ s.line.currentCmd = none) :
    Attended extCmds (s.resume (telnetCommandProcess extCmds env isNew t)) := by
  unfold telnetCommandProcess
  dsimp only
  rw [hline]
  -- what the line is answered, once and for all
  have hnone := currentCmd_eq_none_iff extCmds env.answer (cstr t.conn.cmd) commandBufferSize s.line
  have hmore := answer_of_ret_ne_zero extCmds env.answer (cstr t.conn.cmd) commandBufferSize s.line
  have hcalled : isNew → (cmnCmdLineProcess extCmds env.answer (cstr t.conn.cmd)
      commandBufferSize s.line).called =
        (commandFor extCmds (cstr t.conn.cmd)).map (·.callback) := fun h =>
    called_of_idle extCmds env.answer _ commandBufferSize s.line (hnew h).1 (hnew h).2
  generalize cmnCmdLineProcess extCmds env.answer (cstr t.conn.cmd) commandBufferSize s.line = r
    at hnone hmore hcalled
  generalize hsent : telnetConnSend env (.response r.outBuffer)
    (⟨{ t.conn with isContinue := r.ret }, r.line,
      .processed .telnet isNew (cstr t.conn.cmd) r.called :: t.history⟩ : Session κ) = u
  have hquiet := @quiet_send _ extCmds env (.response r.outBuffer)
    (⟨{ t.conn with isContinue := r.ret }, r.line,
      .processed .telnet isNew (cstr t.conn.cmd) r.called :: t.history⟩ : Session κ)
  have hcont : u.conn.isContinue = r.ret := by
    rw [← hsent]
    exact (sends_telnetConnSend env _ _).isContinue
  rw [hsent] at hquiet
  constructor
  · intro h
    refine Or.inl fun h0 => h ?_
    rw [Server.resume, hquiet.line]
    exact hnone.mpr (hcont.symm.trans h0)
  · exact fun _ => halone
  · intro c hc h
    rcases Option.mem_some.mp hc with rfl
    -- there is more to come, so the write has not failed
    rw [hcont] at h
    rw [← hsent, state_send ?_ _]
    · exact hstate
    · rcases hmore h with ⟨hret, hout⟩
      rw [Message.text, hout]
      exact hdeliver hret
  · refine hquiet.asAsked (List.forall_mem_cons.mpr ⟨?_, hpast⟩)
    cases isNew with
    | false => trivial
    | true => exact hcalled rfl

theorem cutLine_state (c : TelnetConn) : c.cutLine.state = .processing := by
  unfold TelnetConn.cutLine
  dsimp only
  split
  · rfl
  · rfl

/-- A session without more to come leaves no command behind. -/
theorem attended_close {s : Server κ} (hs : Attended extCmds s) (hidle : s.isContinue = 0) :
    Attended extCmds s.close where
  inProgress h := Or.inr ((hs.inProgress h).resolve_left (absurd hidle))
  alone h := absurd rfl h
  processing _ hc := nomatch hc
  asAsked := List.forall_mem_cons.mpr ⟨trivial, hs.asAsked⟩

theorem isContinue_of_conn {s : Server κ} {c : TelnetConn} (h : s.conn = some c) :
    s.isContinue = c.isContinue := by
  rw [Server.isContinue, h]
  rfl

/-- A session has no more to come if it is not processing. -/
theorem isContinue_of_state {s : Server κ} {c : TelnetConn} (hs : Attended extCmds s)
    (h : s.conn = some c) (hstate : c.state ≠ .processing) : s.isContinue = 0 := by
  rw [isContinue_of_conn h]
  by_contra hmore
  exact hstate (hs.processing c (by rw [h]; rfl) hmore)

/-- No command is in progress if neither the session nor the console has more to come. -/
theorem currentCmd_of_idle {s : Server κ} (hs : Attended extCmds s) (hidle : s.isContinue = 0)
    (hconsole : s.console = none) : s.line.currentCmd = none := by
  by_contra h
  rcases hs.inProgress h with hmore | hmore
  · exact hmore hidle
  · exact hmore hconsole

theorem attended_read {s : Server κ} {c : TelnetConn} {env : Env} {payload : List UInt8}
    (hs : Attended extCmds s) (hc : s.conn = some c) (hstate : c.state = .receiving)
    (hline : ∀ line ∈ c.completes payload,
      Plain line ∧ s.console = none ∧ env.Delivers) :
    Attended extCmds (s.resume (telnetCommandRead extCmds env payload (s.session c))) := by
  have hidle : s.isContinue = 0 := by
    refine isContinue_of_state hs hc ?_
    rw [hstate]
    exact nofun
  have hcont : c.isContinue = 0 := (isContinue_of_conn hc).symm.trans hidle
  unfold telnetCommandRead
  split
  · exact attended_quiet (c := c) hs hidle ((quiet_printout env _ _).trans (quiet_conn _ _))
      (isContinue_printout env _ _)
  split
  case isFalse => exact attended_quiet hs hidle (Quiet.refl _) hcont
  case isTrue hcopies =>
    dsimp only
    have hcopied : Quiet extCmds (s.session c) ⟨c.store (c.copied payload), s.line,
        .terminated (c.store (c.copied payload)).readIndex :: s.history⟩ :=
      (quiet_emit (e := .terminated _) trivial _).trans (quiet_conn _ _)
    split
    case isFalse => exact attended_quiet hs hidle hcopied hcont
    case isTrue hend =>
      unfold telnetLineEnd
      split
      · exact attended_quiet hs hidle
          ((hcopied.trans (quiet_printout env _ _)).trans (quiet_conn _ _))
          (isContinue_printout env _ _)
      dsimp only
      split
      · refine attended_quiet (c := c) hs hidle ?_ (isContinue_printout env _ _)
        exact (((hcopied.trans (quiet_conn _ _)).trans (quiet_emit (e := .quit _) trivial _)).trans
          (quiet_printout env _ _)).trans (quiet_conn _ _)
      -- the line is given to the command line, which has no command in progress
      rename_i hshort hquit
      have hcompletes : c.completes payload =
          some (cstr (c.store (c.copied payload)).cutLine.cmd) :=
        if_pos ⟨hcopies, hend, fun h => hshort (Or.inl h), fun h => hshort (Or.inr h), hquit⟩
      rcases hline _ hcompletes with ⟨hplain, hconsole, hdeliver⟩
      refine attended_process rfl ?_ hdeliver hconsole (hcopied.asAsked hs.asAsked) fun _ => ?_
      · exact cutLine_state _
      · exact ⟨hplain, currentCmd_of_idle hs hidle hconsole⟩

theorem attended_console {s : Server κ} {answer : Answer} {isNew : Bool} {line : List UInt8}
    (hs : Attended extCmds s) (hidle : s.isContinue = 0)
    (hnew : isNew → Plain line ∧ s.line.currentCmd = none) :
    Attended extCmds (s.consoleProcess extCmds answer isNew line) where
  inProgress h := by
    refine Or.inr fun hconsole => h ?_
    refine (currentCmd_eq_none_iff extCmds answer line commandBufferSize s.line).mpr ?_
    by_contra hret
    exact nomatch (if_neg hret).symm.trans hconsole
  alone h := absurd hidle h
  processing := hs.processing
  asAsked := by
    refine List.forall_mem_cons.mpr ⟨?_, hs.asAsked⟩
    cases isNew with
    | false => trivial
    | true =>
        rcases hnew rfl with ⟨hplain, hnone⟩
        rw [Effect.AsAsked, commandFor_cstr]
        exact called_of_idle extCmds answer line commandBufferSize s.line hplain hnone

theorem attended_consoleLine {s : Server κ} {answer : Answer} {line : List UInt8}
    (hs : Attended extCmds s) (hline : s.console = none → Plain line ∧ s.isContinue = 0) :
    Attended extCmds (s.step extCmds (.consoleLine answer line)) := by
  rw [Server.step]
  cases hconsole : s.console with
  | none =>
      rcases hline hconsole with ⟨hplain, hidle⟩
      exact attended_console hs hidle fun _ => ⟨hplain, currentCmd_of_idle hs hidle hconsole⟩
  | some last => exact hs

theorem attended_consoleNext {s : Server κ} {answer : Answer} (hs : Attended extCmds s) :
    Attended extCmds (s.step extCmds (.consoleNext answer)) := by
  rw [Server.step]
  cases hconsole : s.console with
  | none => exact hs
  | some line =>
      -- the session has nothing to come while the console has
      have hidle : s.isContinue = 0 := by
        by_contra hmore
        exact nomatch hconsole.symm.trans (hs.alone hmore)
      exact attended_console hs hidle nofun

theorem attended_sent {s : Server κ} {c : TelnetConn} {env : Env} (hs : Attended extCmds s)
    (hc : s.conn = some c) (he : s.isContinue ≠ 0 → env.Delivers) :
    Attended extCmds (s.resume (telnetCallbackSent extCmds env (s.session c))) := by
  unfold telnetCallbackSent
  split
  · split
    · have hmore : s.isContinue ≠ 0 := by rwa [isContinue_of_conn hc]
      exact attended_process rfl ‹_› (he hmore) (hs.alone hmore) hs.asAsked nofun
    · have hidle : s.isContinue = 0 := (isContinue_of_conn hc).trans (not_not.mp ‹_›)
      exact attended_quiet (c := c) hs hidle
        (((quiet_conn _ _).trans (quiet_printout env _ _)).trans (quiet_conn _ _))
        (isContinue_printout env _ _)
  · have hidle := isContinue_of_state hs hc ‹_›
    exact attended_quiet hs hidle (Quiet.refl _) ((isContinue_of_conn hc).symm.trans hidle)

theorem attended_poll {s : Server κ} {c : TelnetConn} {env : Env} (hs : Attended extCmds s)
    (hc : s.conn = some c)
    (he : c.isContinue ≠ 0 → c.timeoutSecond + 1 < telnetTimeout) :
    Attended extCmds (s.resume (telnetCallbackPoll env (s.session c))) := by
  unfold telnetCallbackPoll
  dsimp only
  split
  · rename_i htimeout
    have hidle : s.isContinue = 0 := by
      rw [isContinue_of_conn hc]
      by_contra hmore
      exact absurd htimeout (UInt8.not_le.mpr (he hmore))
    exact attended_quiet (c := c) hs hidle
      (((quiet_conn _ _).trans (quiet_printout env _ _)).trans (quiet_conn _ _))
      (isContinue_printout env _ _)
  · -- the time that is counted is of no effect here
    have hcont := isContinue_of_conn hc
    have hin := hs.inProgress
    have halone := hs.alone
    rw [hcont] at hin halone
    refine ⟨hin, halone, fun c' hc' h => ?_, hs.asAsked⟩
    rcases Option.mem_some.mp hc' with rfl
    exact hs.processing c hc h

end Sessions

/-- An undisturbed step keeps the command in progress attended. -/
theorem attended_step (s : Server κ) (e : Event) (hs : Attended extCmds s)
    (he : Undisturbed s e) : Attended extCmds (s.step extCmds e) := by
  -- a session that is not processing is kept or closed without leaving a command
  have hclosing : ∀ c, s.conn = some c → c.state = .closing → Attended extCmds s.close := by
    intro c hc hstate
    refine attended_close hs (isContinue_of_state hs hc ?_)
    rw [hstate]
    exact nofun
  have henter : s.isContinue = 0 → ∀ c, s.conn = some c →
      Attended extCmds (s.resume ((s.session c).enter .closing)) := by
    intro hidle c hc
    exact attended_quiet hs hidle (quiet_conn _ _) ((isContinue_of_conn hc).symm.trans hidle)
  cases e with
  | accept env hasMem =>
      rw [Server.step]
      split
      · rename_i hnone
        have hidle : s.isContinue = 0 := by
          rw [Server.isContinue, Option.isNone_iff_eq_none.mp hnone.1]
          rfl
        exact attended_quiet (c := ⟨.receiving, List.replicate cmdBufSize 0, 0, 0, 0⟩) hs hidle
          ((quiet_conn _ _).trans (quiet_printout env .welcome _))
          (isContinue_printout env .welcome _)
      · exact hs
  | recv env payload =>
      refine Server.onConn_cases (fun _ => hs) fun c hc => ?_
      split
      · exact attended_read hs hc ‹_› (he c hc ‹_›)
      · exact hs
  | recvClosed => exact Server.onConn_cases (fun _ => hs) (henter he)
  | recvError => exact Server.onConn_cases (fun _ => hs) (henter he)
  | sent env =>
      refine Server.onConn_cases (fun _ => hs) fun c hc => ?_
      split
      · exact hclosing c hc ‹_›
      · exact attended_sent hs hc he
  | poll env =>
      refine Server.onConn_cases (fun _ => hs) fun c hc => ?_
      split
      · exact hclosing c hc ‹_›
      · exact attended_poll hs hc (he c hc)
  | error => exact Server.onConn_cases (fun _ => hs) fun _ _ => attended_close hs he
  | consoleLine answer line => exact attended_consoleLine hs he
  | consoleNext answer => exact attended_consoleNext hs

/-- In an undisturbed run every new line is answered as asked. -/
theorem asAsked_of_undisturbed (evs : List Event)
    (h : Meets (Server.step extCmds) Undisturbed Server.start evs) :
    ∀ e ∈ (run (Server.step extCmds) Server.start evs).history, e.AsAsked extCmds := by
  have hstart : Attended extCmds (Server.start : Server κ) :=
    ⟨fun h => absurd rfl h, fun _ => rfl, nofun, nofun⟩
  exact (meets_invariant (attended_step extCmds) _ hstart evs h).asAsked

section Runs

/-- The last two commands of the table of the simulator. -/
inductive SimCallback where
  | cmnCmdVersion
  | cmnCmdHelp
  deriving DecidableEq, Repr

def simCmds : List (ExtCliCmd SimCallback) :=
  [⟨ascii "version", .cmnCmdVersion⟩, ⟨ascii "help", .cmnCmdHelp⟩]

/-- A part of the output of a command, written as it should be. -/
def part (ret : UInt8) (text : String) : Env := ⟨2048, false, ⟨ret, ascii text⟩⟩

/-- A session asks for help and for the version, and the console for the version in between. -/
def twoLines : List Event :=
  [.accept (part 0 "") true, .recv (part 1 "version") (ascii "help\r\n"),
    .sent (part 0 "help"), .consoleLine ⟨0, ascii "1.0"⟩ (ascii "version 1"),
    .sent (part 0 ""), .recv (part 0 "1.0") (ascii "ver\r\n"), .recvClosed, .sent (part 0 "")]

theorem asAsked_of_undisturbed_twoLines :
    Meets (Server.step simCmds) Undisturbed Server.start twoLines ∧
      ∀ e ∈ (run (Server.step simCmds) Server.start twoLines).history, e.AsAsked simCmds :=
  ⟨by decide +kernel, asAsked_of_undisturbed simCmds twoLines (by decide +kernel)⟩

/-- A session is closed while its command has more to come, and another session asks for
    the version. -/
def abandoned : List Event :=
  [.accept (part 0 "") true, .recv (part 1 "version") (ascii "help\r\n"), .recvClosed,
    .sent (part 0 ""), .accept (part 0 "") true, .recv (part 0 "help") (ascii "version\r\n")]

/-- A command that was abandoned answers the next session. -/
theorem not_asAsked_abandoned :
    ¬ ∀ e ∈ (run (Server.step simCmds) Server.start abandoned).history, e.AsAsked simCmds := by
  intro h
  refine absurd (h (.processed .telnet true (ascii "version") (some .cmnCmdHelp)) ?_) ?_
  · decide +kernel
  · decide +kernel

end Runs

end Cli

end RtosLwip
