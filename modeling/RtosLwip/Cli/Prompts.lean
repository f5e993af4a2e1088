import RtosLwip.Cli.Executed

/-!
# One Prompt for Each Line

A client that waits for its prompts sends a line when everything before it has been
worked off, provided that it is given no more than one prompt for each line. There is
one when a session is accepted, one behind the output of each line, and one for each
empty line. Only the line feed that a segment boundary has cut from its carriage return
is answered by another one.

## Main definitions

* `Uncut`: No segment ends between a carriage return and the line feed behind it.
* `Prompted`: There is a prompt to spare only where everything has been worked off.

## Theorems

* `prompts_read`, `prompts_other`: Which steps write a prompt.
* `orderly_of_uncut`: Without such cuts waiting for the prompt is enough.
-/

namespace RtosLwip

namespace Cli

variable {κ : Type} (extCmds : List (ExtCliCmd κ))

section Sessions

theorem prompts_send (env : Env) (msg : Message) (s : Session κ) :
    prompts (telnetConnSend env msg s).history ≤
      prompts s.history + if msg.isPrompt then 1 else 0 := by
  rcases (sends_telnetConnSend env msg s).history with h | h
  · rw [h]
    exact Nat.le_add_right _ _
  · rw [h, prompts_cons]
    exact Nat.le_refl _

theorem prompts_printout (env : Env) (msg : Message) (s : Session κ) :
    prompts (telnetMsgPrintout env msg s).history ≤
      prompts s.history + if msg.isPrompt then 1 else 0 :=
  prompts_send env msg _

theorem prompts_process (env : Env) (isNew : Bool) (s : Session κ) :
    prompts (telnetCommandProcess extCmds env isNew s).history ≤ prompts s.history := by
  unfold telnetCommandProcess
  refine Nat.le_trans (prompts_send env _ _) ?_
  dsimp only
  rw [prompts_cons]
  exact Nat.le_refl _

/-- The end of a line writes a prompt only if it leaves the session waiting for the next. -/
theorem prompts_lineEnd (env : Env) {s : Session κ} (hs : s.conn.state ≠ .processing) :
    prompts (telnetLineEnd extCmds env s).history ≤ prompts s.history + 1 ∧
      (prompts s.history < prompts (telnetLineEnd extCmds env s).history →
        (telnetLineEnd extCmds env s).conn.state ≠ .processing) := by
  unfold telnetLineEnd
  split
  · refine ⟨prompts_printout env .prompt s, fun _ h => hs ?_⟩
    exact (keeps_printout env .prompt s).processing h
  · dsimp only
    -- nothing of this is a prompt
    split
    · have hbye : prompts (telnetMsgPrintout env .bye (Session.emit
          (.quit (cstr s.conn.cutLine.cmd)) { s with conn := s.conn.cutLine })).history ≤
          prompts s.history := by
        refine Nat.le_trans (prompts_printout env .bye _) (Nat.le_of_eq ?_)
        rw [Session.emit, prompts_cons]
        rfl
      exact ⟨Nat.le_succ_of_le hbye, fun h => absurd h (Nat.not_lt.mpr hbye)⟩
    · have hprocess := prompts_process extCmds env true { s with conn := s.conn.cutLine }
      exact ⟨Nat.le_succ_of_le hprocess, fun h => absurd h (Nat.not_lt.mpr hprocess)⟩

theorem prompts_read (env : Env) (payload : List UInt8) {s : Session κ}
    (hs : s.conn.state ≠ .processing) :
    prompts (telnetCommandRead extCmds env payload s).history ≤ prompts s.history + 1 ∧
      (prompts s.history < prompts (telnetCommandRead extCmds env payload s).history →
        (telnetCommandRead extCmds env payload s).conn.state ≠ .processing) := by
  unfold telnetCommandRead
  split
  · have htooLong := prompts_printout env .tooLong s
    exact ⟨Nat.le_succ_of_le htooLong, fun h => absurd h (Nat.not_lt.mpr htooLong)⟩
  · split
    · have hstored := prompts_stored (s.conn.copied payload) s
      dsimp only
      split
      · have hend := prompts_lineEnd extCmds env (s := s.stored (s.conn.copied payload)) hs
        rw [hstored] at hend
        exact hend
      · exact ⟨Nat.le_succ_of_le (Nat.le_of_eq hstored),
          fun h => absurd h (Nat.not_lt.mpr (Nat.le_of_eq hstored))⟩
    · exact ⟨Nat.le_succ _, fun h => absurd h (Nat.lt_irrefl _)⟩

/-- An acknowledgement writes a prompt only if it ends the processing of a command. -/
theorem prompts_sent (env : Env) (s : Session κ) :
    prompts (telnetCallbackSent extCmds env s).history ≤ prompts s.history + 1 ∧
      (prompts s.history < prompts (telnetCallbackSent extCmds env s).history →
        s.conn.state = .processing ∧
          (telnetCallbackSent extCmds env s).conn.state ≠ .processing) := by
  unfold telnetCallbackSent
  split
  · split
    · have hprocess := prompts_process extCmds env false s
      exact ⟨Nat.le_succ_of_le hprocess, fun h => absurd h (Nat.not_lt.mpr hprocess)⟩
    · exact ⟨prompts_printout env .welcome _, fun _ => ⟨‹_›, nofun⟩⟩
  · exact ⟨Nat.le_succ _, fun h => absurd h (Nat.lt_irrefl _)⟩

theorem prompts_poll (env : Env) (s : Session κ) :
    prompts (telnetCallbackPoll env s).history ≤ prompts s.history := by
  unfold telnetCallbackPoll
  dsimp only
  split
  · exact prompts_printout env .timeout _
  · exact Nat.le_refl _

end Sessions

/-- What is not the client's writes a prompt only if it ends the processing of a command. -/
theorem prompts_other (s : Server κ) {e : Event} (he : e.ofClient = false) :
    prompts (s.step extCmds e).history ≤ prompts s.history + 1 ∧
      (prompts s.history < prompts (s.step extCmds e).history →
        (∃ c ∈ s.conn, c.state = .processing) ∧
          ∀ c ∈ (s.step extCmds e).conn, c.state ≠ .processing) := by
  have hnone : ∀ s' : Server κ, prompts s'.history ≤ prompts s.history →
      prompts s'.history ≤ prompts s.history + 1 ∧
        (prompts s.history < prompts s'.history → (∃ c ∈ s.conn, c.state = .processing) ∧
          ∀ c ∈ s'.conn, c.state ≠ .processing) := fun _ h =>
    ⟨Nat.le_succ_of_le h, fun hlt => absurd hlt (Nat.not_lt.mpr h)⟩
  have hclose : prompts s.close.history ≤ prompts s.history := Nat.le_of_eq (prompts_cons _ _)
  cases e with
  | accept env hasMem => exact nomatch he
  | recv env payload => exact nomatch he
  | recvClosed =>
      exact hnone _ (Server.onConn_cases (P := fun s' => prompts s'.history ≤ _)
        (fun _ => Nat.le_refl _) fun _ _ => Nat.le_refl _)
  | recvError =>
      exact hnone _ (Server.onConn_cases (P := fun s' => prompts s'.history ≤ _)
        (fun _ => Nat.le_refl _) fun _ _ => Nat.le_refl _)
  | error =>
      exact hnone _ (Server.onConn_cases (P := fun s' => prompts s'.history ≤ _)
        (fun _ => Nat.le_refl _) fun _ _ => hclose)
  | sent env =>
      refine Server.onConn_cases (P := fun s' => prompts s'.history ≤ prompts s.history + 1 ∧
        (prompts s.history < prompts s'.history → (∃ c ∈ s.conn, c.state = .processing) ∧
          ∀ c ∈ s'.conn, c.state ≠ .processing))
        (fun _ => hnone s (Nat.le_refl _)) fun c hc => ?_
      split
      · exact hnone _ hclose
      · rcases prompts_sent extCmds env (s.session c) with ⟨hle, hgrow⟩
        refine ⟨hle, fun h => ⟨⟨c, hc, (hgrow h).1⟩, fun c' hc' => ?_⟩⟩
        rcases Option.mem_some.mp hc' with rfl
        exact (hgrow h).2
  | poll env =>
      refine hnone _ (Server.onConn_cases (P := fun s' => prompts s'.history ≤ _)
        (fun _ => Nat.le_refl _) fun c _ => ?_)
      split
      · exact hclose
      · exact prompts_poll env _
  | consoleLine answer line =>
      rw [Server.step]
      split
      · exact hnone _ (Nat.le_of_eq (prompts_cons _ _))
      · exact hnone _ (Nat.le_refl _)
  | consoleNext answer =>
      rw [Server.step]
      split
      · exact hnone _ (Nat.le_refl _)
      · exact hnone _ (Nat.le_of_eq (prompts_cons _ _))

/-- A line has no NUL, and a segment that is delivered in order does not end between a carriage
    return and the line feed behind it. -/
def Uncut (w : Link κ) : LinkEvent → Prop
  | .send => ∀ l ∈ w.next, ∀ b ∈ l.content, b ≠ 0
  | .deliver env n => Orderly w (.deliver env n) ∧
      ((w.flight.take n).getLast? = some keyCr → w.flight.drop n ≠ [keyLf])
  | .other _ => True

/-- The lines are executed as they come, and there is a prompt to spare only where all of them
    have been worked off. -/
structure Prompted (w : Link κ) : Prop where
  lines : (Served w ∧ w.flight = []) ∨ ∃ done l read, Reading w done l read
  le : prompts w.server.history ≤ w.sent.length + 1
  spare : w.sent.length < prompts w.server.history →
    w.flight = [] ∧ ∀ c ∈ w.server.conn, c.state ≠ .processing

/-- A client that waits for its prompts sends its next line in order. -/
theorem orderly_of_prompted (w : Link κ) (e : LinkEvent) (hw : Prompted w) (he : Uncut w e) :
    Orderly w e := by
  cases e with
  | send =>
      intro l hl
      have hprompt : w.sent.length < prompts w.server.history := by
        by_contra h
        rw [Link.next, if_neg h] at hl
        exact nomatch hl
      exact ⟨he l hl, hw.spare hprompt⟩
  | deliver env n => exact he.1
  | other e => trivial

theorem prompted_send {w : Link κ} (hw : Prompted w) (he : Uncut w .send) :
    Prompted (w.step extCmds .send) := by
  have horderly := orderly_of_prompted w .send hw he
  rw [Link.step]
  cases hnext : w.next with
  | none => exact hw
  | some l =>
      rcases horderly l hnext with ⟨hnul, hflight, hstate⟩
      have hlen : (w.sent ++ [l]).length = w.sent.length + 1 := List.length_append
      refine ⟨Or.inr ⟨w.sent, l, [], ?_⟩, ?_, fun h => ?_⟩
      · rcases hw.lines with ⟨hserved, -⟩ | ⟨done, l', read, hreading⟩
        · exact reading_send hserved hflight hnul hstate
        · exact absurd hflight hreading.flight_ne_nil
      · exact Nat.le_succ_of_le (hlen ▸ hw.le)
      · exact absurd hw.le (Nat.not_le.mpr (hlen ▸ h))

theorem prompted_deliver {w : Link κ} {env : Env} {n : Nat} (hw : Prompted w)
    (he : Uncut w (.deliver env n)) : Prompted (w.step extCmds (.deliver env n)) := by
  rw [Link.step]
  split
  case isFalse => exact hw
  case isTrue hn =>
    rcases hw.lines with ⟨-, hflight⟩ | ⟨done, l, read, hreading⟩
    · rw [hflight] at hn
      exact absurd hn.2 (Nat.not_le.mpr hn.1)
    -- there is no prompt to spare while the line is under way
    have hnone : prompts w.server.history ≤ w.sent.length := by
      by_contra h
      exact hreading.flight_ne_nil (hw.spare (Nat.lt_of_not_le h)).1
    rcases reading_deliver extCmds hreading hn he.1 with ⟨hreading', c, hc, hstored⟩ |
      ⟨hserved, hleft⟩
    · have hsame : prompts (w.server.step extCmds (.recv env (w.flight.take n))).history =
          prompts w.server.history :=
        (congrArg (fun s => prompts s.history) hstored).trans (prompts_stored _ _)
      refine ⟨Or.inr ⟨done, l, _, hreading'⟩, ?_, fun h => ?_⟩
      · exact Nat.le_succ_of_le (hsame ▸ hnone)
      · exact absurd hnone (Nat.not_le.mpr (hsame ▸ h))
    · have hflight : w.flight.drop n = [] :=
        hleft.resolve_right fun h => he.2 h.1 h.2
      have hgrow : prompts (w.server.step extCmds (.recv env (w.flight.take n))).history ≤
            prompts w.server.history + 1 ∧
          (prompts w.server.history <
              prompts (w.server.step extCmds (.recv env (w.flight.take n))).history →
            ∀ c ∈ (w.server.step extCmds (.recv env (w.flight.take n))).conn,
              c.state ≠ .processing) := by
        refine Server.onConn_cases (P := fun s => prompts s.history ≤ _ ∧
          (_ < prompts s.history → ∀ c ∈ s.conn, c.state ≠ .processing))
          (fun _ => ⟨Nat.le_succ _, fun h => absurd h (Nat.lt_irrefl _)⟩) fun c hc => ?_
        split
        · rename_i hstate
          rcases prompts_read extCmds env (w.flight.take n) (s := w.server.session c)
            (fun h => TelnetState.noConfusion (hstate.symm.trans h)) with ⟨hle, hprocessing⟩
          refine ⟨hle, fun h c' hc' => ?_⟩
          rcases Option.mem_some.mp hc' with rfl
          exact hprocessing h
        · exact ⟨Nat.le_succ _, fun h => absurd h (Nat.lt_irrefl _)⟩
      refine ⟨Or.inl ⟨hserved, hflight⟩, ?_, fun h => ⟨hflight, ?_⟩⟩
      · exact Nat.le_trans hgrow.1 (Nat.succ_le_succ hnone)
      · exact hgrow.2 (Nat.lt_of_le_of_lt hnone h)

theorem prompted_other {w : Link κ} {e : Event} (hw : Prompted w) :
    Prompted (w.step extCmds (.other e)) := by
  rw [Link.step]
  split
  · exact hw
  have he : e.ofClient = false := Bool.eq_false_of_not_eq_true ‹_›
  have hcarries := carries_other extCmds w.server he
  rcases prompts_other extCmds w.server he with ⟨hle, hgrow⟩
  -- a prompt is written only where a command was processed, and then there was none to spare
  have hnone : (∃ c ∈ w.server.conn, c.state = .processing) →
      prompts w.server.history ≤ w.sent.length := by
    rintro ⟨c, hc, hstate⟩
    by_contra h
    exact (hw.spare (Nat.lt_of_not_le h)).2 c hc hstate
  refine ⟨?_, ?_, fun h => ?_⟩
  · rcases hw.lines with ⟨hserved, hflight⟩ | ⟨done, l, read, hreading⟩
    · exact Or.inl ⟨served_other hserved hcarries, hflight⟩
    · exact Or.inr ⟨done, l, read, reading_other hreading hcarries⟩
  · by_cases hlt : prompts w.server.history < prompts (w.server.step extCmds e).history
    · exact Nat.le_trans hle (Nat.succ_le_succ (hnone (hgrow hlt).1))
    · exact Nat.le_trans (Nat.le_of_not_lt hlt) hw.le
  · by_cases hlt : prompts w.server.history < prompts (w.server.step extCmds e).history
    · rcases hgrow hlt with ⟨⟨c, hc, hstate⟩, hafter⟩
      refine ⟨?_, hafter⟩
      rcases hw.lines with ⟨-, hflight⟩ | ⟨done, l, read, hreading⟩
      · exact hflight
      · exact absurd hstate (hreading.state c hc)
    · rcases hw.spare (Nat.lt_of_lt_of_le h (Nat.le_of_not_lt hlt)) with ⟨hflight, hbefore⟩
      refine ⟨hflight, fun c' hc' hstate => ?_⟩
      rcases hcarries.conn c' hc' with ⟨c, hc, -, -, hprocessing⟩
      exact hbefore c hc (hprocessing hstate)

theorem prompted_step (w : Link κ) (e : LinkEvent) (hw : Prompted w) (he : Uncut w e) :
    Prompted (w.step extCmds e) := by
  cases e with
  | send => exact prompted_send extCmds hw he
  | deliver env n => exact prompted_deliver extCmds hw he
  | other e => exact prompted_other extCmds hw

theorem prompted_start (env : Env) (line : CommandLine κ) (console : Option (List UInt8))
    (lines : List Line) : Prompted (Link.start extCmds env line console lines) := by
  have hprompt := keeps_prompt env
    (⟨⟨.receiving, List.replicate cmdBufSize 0, 0, 0, 0⟩, line, []⟩ : Session κ)
  rcases kept_start extCmds env line console lines with hserved | ⟨done, l, read, hreading⟩
  · refine ⟨Or.inl ⟨hserved, rfl⟩, prompts_printout env .welcome _,
      fun _ => ⟨rfl, fun c hc h => ?_⟩⟩
    rcases Option.mem_some.mp hc with rfl
    exact nomatch hprompt.processing h
  · exact absurd rfl hreading.flight_ne_nil

/-- Where no segment ends between a carriage return and the line feed behind it, a client that
    waits for its prompts never sends a line too early. -/
theorem orderly_of_uncut (env : Env) (line : CommandLine κ) (console : Option (List UInt8))
    (lines : List Line) (evs : List LinkEvent)
    (h : Meets (Link.step extCmds) Uncut (Link.start extCmds env line console lines) evs) :
    Meets (Link.step extCmds) Orderly (Link.start extCmds env line console lines) evs :=
  meets_of_meets (prompted_step extCmds) orderly_of_prompted _
    (prompted_start extCmds env line console lines) evs h

end Cli

end RtosLwip
