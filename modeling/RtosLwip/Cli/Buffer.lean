import RtosLwip.Base.Run
import RtosLwip.Base.Strings
import RtosLwip.Cli.Telnetd

/-!
# The Command Buffer

What `_telnetCommandRead` does to the buffer it collects a line in, told by the text
the buffer holds: a segment is added to the text, and the end of the line is taken
off, so that the C string in the buffer is the line.

Each segment is asked to be shorter than the buffer, but the bytes add up, and of the
last one only what fits is copied. Where nothing of the buffer is left, the NUL is
written behind it.

## Main definitions

* `TelnetConn.Holds`: The text a buffer holds.
* `Inside`: The NULs and `readIndex` are inside of the buffer.
* `Fits`: A segment that is copied leaves room for the NUL.

## Theorems

* `holds_store`, `holds_strip`: What the operations do to the text.
* `cutLine_text`: The C string behind the end of a line.
* `inside_iff`: Everything is inside of the buffer exactly if all segments fit.
-/

namespace RtosLwip

namespace Cli

theorem storeBytes_eq_append {off : Nat} {bytes buf : List UInt8}
    (h : off + bytes.length ≤ buf.length) :
    storeBytes off bytes buf = buf.take off ++ bytes ++ buf.drop (off + bytes.length) := by
  induction bytes generalizing off buf with
  | nil =>
      rw [storeBytes, List.append_nil, List.length_nil, Nat.add_zero, List.take_append_drop]
  | cons b rest ih =>
      rw [List.length_cons] at h
      have hlt : off < buf.length := by omega
      have hroom : off + 1 + rest.length ≤ (store8 off b buf).length := by
        rw [length_store8]
        omega
      have htake : (store8 off b buf).take (off + 1) = buf.take off ++ [b] := by
        rw [store8, List.take_add_one, List.take_set_of_le (Nat.le_refl off),
          List.getElem?_set_self hlt]
        rfl
      have hdrop : (store8 off b buf).drop (off + 1 + rest.length) =
          buf.drop (off + (b :: rest).length) := by
        rw [store8, List.drop_set_of_lt (by omega), List.length_cons]
        congr 1
        omega
      rw [storeBytes, ih hroom, htake, hdrop, List.append_assoc _ [b], List.singleton_append]

/-- The buffer holds a text: as many bytes as `readIndex` says. -/
structure TelnetConn.Holds (c : TelnetConn) (text : List UInt8) : Prop where
  readIndex : c.readIndex = text.length
  length : c.cmd.length = cmdBufSize
  cmd : text <+: c.cmd

theorem TelnetConn.Holds.enter {c : TelnetConn} {text : List UInt8} (h : c.Holds text)
    (state : TelnetState) : TelnetConn.Holds { c with state := state } text :=
  ⟨h.readIndex, h.length, h.cmd⟩

/-- The C string in a buffer with a NUL behind a text. -/
theorem cstr_of_prefix {text buf : List UInt8} (h : text ++ [0] <+: buf)
    (hnul : ∀ b ∈ text, b ≠ 0) : cstr buf = text := by
  rcases h with ⟨rest, rfl⟩
  rw [cstr_append_of_mem (List.mem_append_right _ List.mem_cons_self),
    cstr_append_of_nul_free hnul]
  exact List.append_nil _

section Texts

variable {c : TelnetConn} {text : List UInt8}

/-- A segment that leaves room for the NUL is added to the text. -/
theorem holds_store (hc : c.Holds text) {bytes : List UInt8}
    (hroom : text.length + bytes.length < cmdBufSize) :
    (c.store bytes).Holds (text ++ bytes) := by
  have hle : c.readIndex + bytes.length ≤ c.cmd.length := by
    rw [hc.readIndex, hc.length]
    exact Nat.le_of_lt hroom
  have hstored : storeBytes c.readIndex bytes c.cmd =
      text ++ bytes ++ c.cmd.drop (c.readIndex + bytes.length) := by
    rw [storeBytes_eq_append hle, hc.readIndex, ← List.prefix_iff_eq_take.mp hc.cmd]
  refine ⟨?_, ?_, ?_⟩
  · rw [List.length_append, ← hc.readIndex]
    rfl
  · rw [TelnetConn.store, length_store8, length_storeBytes, hc.length]
  · -- the NUL is written behind the text
    rw [TelnetConn.store, hstored, hc.readIndex, store8, ← List.length_append,
      List.set_append_right _ _ (Nat.le_refl _)]
    exact List.prefix_append _ _

theorem lastByte_of_holds {b : UInt8} (hc : c.Holds (text ++ [b])) : c.lastByte = b := by
  rcases hc.cmd with ⟨rest, hrest⟩
  rw [TelnetConn.lastByte, hc.readIndex, ← hrest, load8, List.length_append, List.length_singleton,
    Nat.add_sub_cancel, List.append_assoc, List.getD_eq_getElem?_getD,
    List.getElem?_append_right (Nat.le_refl _), Nat.sub_self]
  rfl

/-- The last byte of the text is replaced by a NUL. -/
theorem holds_strip {b : UInt8} (hc : c.Holds (text ++ [b])) :
    c.strip.Holds text ∧ text ++ [0] <+: c.strip.cmd := by
  rcases hc.cmd with ⟨rest, hrest⟩
  have hindex : c.readIndex - 1 = text.length := by
    rw [hc.readIndex, List.length_append, List.length_singleton, Nat.add_sub_cancel]
  have hcmd : c.strip.cmd = text ++ [0] ++ rest := by
    rw [TelnetConn.strip, hindex, ← hrest, store8, List.append_assoc,
      List.set_append_right _ _ (Nat.le_refl _), Nat.sub_self, List.append_assoc]
    rfl
  refine ⟨⟨hindex, ?_, ?_⟩, ?_⟩
  · rw [TelnetConn.strip, length_store8, hc.length]
  · rw [hcmd, List.append_assoc]
    exact List.prefix_append _ _
  · rw [hcmd]
    exact List.prefix_append _ _

/-- A carriage return in front of the end of the line is taken off as well. -/
theorem cutLine_of_crlf {b : UInt8} (hc : c.Holds (text ++ [keyCr] ++ [b])) :
    text ++ [0] <+: c.cutLine.cmd := by
  have hstrip := (holds_strip hc).1.enter .processing
  have hlast := lastByte_of_holds hstrip
  unfold TelnetConn.cutLine
  dsimp only
  rw [if_pos (Or.inl hlast)]
  exact (holds_strip hstrip).2

/-- Another byte in front of it stays. -/
theorem cutLine_of_single {a b : UInt8} (hc : c.Holds (text ++ [a] ++ [b])) (ha : a ≠ keyCr) :
    text ++ [a] ++ [0] <+: c.cutLine.cmd := by
  have hstrip := holds_strip hc
  have hlast := lastByte_of_holds (hstrip.1.enter .processing)
  unfold TelnetConn.cutLine
  dsimp only
  rw [if_neg (by rw [hlast, or_self]; exact ha)]
  exact hstrip.2

end Texts

variable {κ : Type} (extCmds : List (ExtCliCmd κ))

/-- The NULs so far were written inside of the buffer, and so will the next byte be. -/
def Inside (s : Server κ) : Prop :=
  (∀ i, .terminated i ∈ s.history → i < cmdBufSize) ∧ ∀ c ∈ s.conn, c.readIndex < cmdBufSize

/-- A segment that is copied leaves room for the NUL. -/
def Fits (s : Server κ) : Event → Prop
  | .recv _ payload => ∀ c ∈ s.conn, c.state = .receiving → c.copies payload →
      c.readIndex + payload.length < cmdBufSize
  | _ => True

section Sessions

/-- No NUL is written, and what is read next is not written further back. -/
structure Calm (s t : Session κ) : Prop where
  offsets : ∀ i, .terminated i ∈ t.history ↔ .terminated i ∈ s.history
  readIndex : t.conn.readIndex ≤ s.conn.readIndex

theorem Calm.trans {s t u : Session κ} (h : Calm s t) (h' : Calm t u) : Calm s u :=
  ⟨fun i => (h'.offsets i).trans (h.offsets i), Nat.le_trans h'.readIndex h.readIndex⟩

theorem terminated_mem_cons {e : Effect κ} (he : ∀ i, e ≠ .terminated i) (i : Nat)
    (history : List (Effect κ)) : .terminated i ∈ e :: history ↔ .terminated i ∈ history := by
  rw [List.mem_cons, or_iff_right]
  exact fun h => he i h.symm

theorem calm_emit {e : Effect κ} (he : ∀ i, e ≠ .terminated i) (s : Session κ) :
    Calm s (s.emit e) :=
  ⟨fun i => terminated_mem_cons he i s.history, Nat.le_refl _⟩

/-- A connection with another state, or with less to write behind. -/
theorem calm_conn {s : Session κ} {c : TelnetConn} (h : c.readIndex ≤ s.conn.readIndex) :
    Calm s { s with conn := c } :=
  ⟨fun _ => Iff.rfl, h⟩

theorem calm_send (env : Env) (msg : Message) (s : Session κ) :
    Calm s (telnetConnSend env msg s) := by
  have hsends := sends_telnetConnSend env msg s
  refine ⟨fun i => ?_, Nat.le_of_eq hsends.readIndex⟩
  rcases hsends.history with h | h
  · rw [h]
  · rw [h]
    exact terminated_mem_cons (e := .sent msg) nofun i s.history

theorem calm_enter (state : TelnetState) (s : Session κ) : Calm s (s.enter state) :=
  ⟨fun _ => Iff.rfl, Nat.le_refl _⟩

theorem calm_printout (env : Env) (msg : Message) (s : Session κ) :
    Calm s (telnetMsgPrintout env msg s) := by
  have hsend := calm_send env msg { s with conn := { s.conn with isContinue := 0 } }
  exact ⟨hsend.offsets, hsend.readIndex⟩

theorem calm_prompt (env : Env) (s : Session κ) : Calm s (telnetMsgPrompt env s) := by
  have hprintout := calm_printout env .welcome { s with conn := { s.conn with timeoutSecond := 0 } }
  exact ⟨hprintout.offsets, hprintout.readIndex⟩

theorem calm_process (env : Env) (isNew : Bool) (s : Session κ) :
    Calm s (telnetCommandProcess extCmds env isNew s) := by
  unfold telnetCommandProcess
  refine Calm.trans ⟨fun i => ?_, ?_⟩ (calm_send env _ _)
  · exact terminated_mem_cons (e := .processed .telnet isNew _ _) nofun i s.history
  · exact Nat.le_refl _

theorem cutLine_readIndex (c : TelnetConn) : c.cutLine.readIndex = 0 := rfl

theorem calm_lineEnd (env : Env) (s : Session κ) : Calm s (telnetLineEnd extCmds env s) := by
  unfold telnetLineEnd
  split
  · exact (calm_printout env .prompt s).trans (calm_conn (Nat.zero_le _))
  · have hcut : Calm s { s with conn := s.conn.cutLine } := by
      refine calm_conn ?_
      rw [cutLine_readIndex]
      exact Nat.zero_le _
    dsimp only
    split
    · exact ((hcut.trans (calm_emit (e := .quit _) nofun _)).trans (calm_printout env .bye _)).trans
        (calm_enter .closing _)
    · exact hcut.trans (calm_process extCmds env true _)

theorem calm_sent (env : Env) (s : Session κ) : Calm s (telnetCallbackSent extCmds env s) := by
  unfold telnetCallbackSent
  split
  · split
    · exact calm_process extCmds env false s
    · exact (calm_prompt env s).trans (calm_enter .receiving _)
  · exact ⟨fun _ => Iff.rfl, Nat.le_refl _⟩

theorem calm_poll (env : Env) (s : Session κ) : Calm s (telnetCallbackPoll env s) := by
  unfold telnetCallbackPoll
  dsimp only
  split
  · have hclosing := (calm_printout env .timeout { s with conn :=
      { s.conn with timeoutSecond := s.conn.timeoutSecond + 1 } }).trans (calm_enter .closing _)
    exact ⟨hclosing.offsets, hclosing.readIndex⟩
  · exact ⟨fun _ => Iff.rfl, Nat.le_refl _⟩

/-- A segment that is not copied. -/
theorem calm_read {env : Env} {payload : List UInt8} {s : Session κ}
    (h : ¬ s.conn.copies payload) : Calm s (telnetCommandRead extCmds env payload s) := by
  unfold telnetCommandRead
  split
  · exact (calm_printout env .tooLong s).trans (calm_enter .closing _)
  · exact ⟨fun _ => Iff.rfl, Nat.le_refl _⟩

/-- A segment that is copied: the session goes on from the stored bytes and their NUL. -/
theorem calm_stored {env : Env} {payload : List UInt8} {s : Session κ}
    (h : s.conn.copies payload) :
    Calm
      { s.emit (.terminated (s.conn.readIndex + (s.conn.copied payload).length)) with
        conn := s.conn.store (s.conn.copied payload) }
      (telnetCommandRead extCmds env payload s) := by
  unfold telnetCommandRead
  rw [if_neg (Nat.not_le.mpr h.1), if_pos h]
  dsimp only
  split
  · exact calm_lineEnd extCmds env _
  · exact ⟨fun _ => Iff.rfl, Nat.le_refl _⟩

/-- The NUL is inside of the buffer if all of the segment is copied. -/
theorem copied_fits_iff {c : TelnetConn} {payload : List UInt8} (h : c.copies payload) :
    c.readIndex + (c.copied payload).length < cmdBufSize ↔
      c.readIndex + payload.length < cmdBufSize := by
  have hpos : 0 < (c.copied payload).length := List.length_pos_iff.mpr h.2.2.2
  unfold TelnetConn.copied at hpos ⊢
  rw [List.length_take] at hpos ⊢
  omega

end Sessions

/-- A callback that writes no NUL leaves everything inside of the buffer. -/
theorem inside_calm {s : Server κ} {c : TelnetConn} {t : Session κ} (hs : Inside s)
    (hc : s.conn = some c) (ht : Calm (s.session c) t) : Inside (s.resume t) := by
  refine ⟨fun i hi => hs.1 i ((ht.offsets i).mp hi), fun c' hc' => ?_⟩
  rcases Option.mem_some.mp hc' with rfl
  exact Nat.lt_of_le_of_lt ht.readIndex (hs.2 c hc)

theorem inside_read_iff {s : Server κ} {c : TelnetConn} {env : Env} {payload : List UInt8}
    (hs : Inside s) (hc : s.conn = some c) :
    Inside (s.resume (telnetCommandRead extCmds env payload (s.session c))) ↔
      (c.copies payload → c.readIndex + payload.length < cmdBufSize) := by
  by_cases hcopies : c.copies payload
  · have hcalm := @calm_stored _ extCmds env _ (s.session c) hcopies
    rw [← copied_fits_iff hcopies]
    constructor
    · rintro ⟨hoffsets, -⟩ -
      exact hoffsets _ ((hcalm.offsets _).mpr List.mem_cons_self)
    · intro hfits
      refine ⟨fun i hi => ?_, fun c' hc' => ?_⟩
      · rcases List.mem_cons.mp ((hcalm.offsets i).mp hi) with h | h
        · cases h
          exact hfits hcopies
        · exact hs.1 i h
      · rcases Option.mem_some.mp hc' with rfl
        exact Nat.lt_of_le_of_lt hcalm.readIndex (hfits hcopies)
  · exact iff_of_true (inside_calm hs hc (calm_read extCmds hcopies)) fun h => absurd h hcopies

theorem inside_close {s : Server κ} (hs : Inside s) : Inside s.close :=
  ⟨fun i hi => hs.1 i ((terminated_mem_cons (e := .closed) nofun i s.history).mp hi), nofun⟩

theorem inside_console {s : Server κ} (hs : Inside s) (answer : Answer) (isNew : Bool)
    (line : List UInt8) : Inside (s.consoleProcess extCmds answer isNew line) :=
  ⟨fun i hi => hs.1 i
    ((terminated_mem_cons (e := .processed .console isNew _ _) nofun i s.history).mp hi), hs.2⟩

theorem inside_step_iff {s : Server κ} (hs : Inside s) (e : Event) :
    Inside (s.step extCmds e) ↔ Fits s e := by
  cases e with
  | accept env hasMem =>
      refine iff_of_true ?_ trivial
      rw [Server.step]
      split
      · have hcalm := calm_printout env .welcome
          (s.session ⟨.receiving, List.replicate cmdBufSize 0, 0, 0, 0⟩)
        refine ⟨fun i hi => hs.1 i ((hcalm.offsets i).mp hi), fun c' hc' => ?_⟩
        rcases Option.mem_some.mp hc' with rfl
        exact Nat.lt_of_le_of_lt hcalm.readIndex (Nat.zero_lt_succ _)
      · exact hs
  | recv env payload =>
      rw [Server.step, Server.onConn]
      cases hc : s.conn with
      | none => exact iff_of_true hs fun c hc' => nomatch hc.symm.trans hc'
      | some c =>
          have hfits : Fits s (.recv env payload) ↔ (c.state = .receiving → c.copies payload →
              c.readIndex + payload.length < cmdBufSize) := by
            rw [Fits, hc]
            exact ⟨fun h => h c rfl, fun h c' hc' => Option.mem_some.mp hc' ▸ h⟩
          dsimp only
          rw [hfits]
          split
          · rw [inside_read_iff extCmds hs hc]
            exact ⟨fun h _ => h, fun h => h ‹_›⟩
          · exact iff_of_true hs fun h => absurd h ‹_›
  | consoleLine answer line =>
      refine iff_of_true ?_ trivial
      rw [Server.step]
      split
      · exact inside_console extCmds hs answer true line
      · exact hs
  | consoleNext answer =>
      refine iff_of_true ?_ trivial
      rw [Server.step]
      split
      · exact hs
      · exact inside_console extCmds hs answer false _
  | recvClosed =>
      exact iff_of_true (Server.onConn_cases (fun _ => hs) fun c hc =>
        inside_calm hs hc (calm_enter .closing _)) trivial
  | recvError =>
      exact iff_of_true (Server.onConn_cases (fun _ => hs) fun c hc =>
        inside_calm hs hc (calm_enter .closing _)) trivial
  | error =>
      exact iff_of_true (Server.onConn_cases (fun _ => hs) fun c hc => inside_close hs) trivial
  | sent env =>
      refine iff_of_true (Server.onConn_cases (fun _ => hs) fun c hc => ?_) trivial
      split
      · exact inside_close hs
      · exact inside_calm hs hc (calm_sent extCmds env _)
  | poll env =>
      refine iff_of_true (Server.onConn_cases (fun _ => hs) fun c hc => ?_) trivial
      split
      · exact inside_close hs
      · exact inside_calm hs hc (calm_poll env _)

/-- Everything is inside of the buffer all along a run exactly if all its segments fit. -/
theorem inside_iff (evs : List Event) :
    (∀ past, past <+: evs → Inside (run (Server.step extCmds) Server.start past)) ↔
      Meets (Server.step extCmds) Fits Server.start evs :=
  always_iff_meets (I := fun _ => True) (P := Inside)
    (fun _ e _ hs => ⟨trivial, inside_step_iff extCmds hs e⟩) Server.start trivial
    ⟨nofun, nofun⟩ evs

end Cli

end RtosLwip
