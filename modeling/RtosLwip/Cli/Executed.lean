import RtosLwip.Cli.Answered
import RtosLwip.Cli.Lines

/-!
# The Lines Executed

A segment is added to what was read, and where it ends a line, the line is executed.
So at any time all lines that were sent have been executed, or all but the last, and
of that one a part has been read and the rest is under way.

This takes that the next line is not sent before the last one has been worked off,
since what comes in between is dropped or read together with it.

## Main definitions

* `Served`, `Reading`: The two states of a client and its server.

## Theorems

* `kept_step`: An orderly step executes the line whose end it delivers, and no other.
* `executed_and_inside`: The lines executed are the lines sent, and the buffer suffices
  exactly if all segments fit.
-/

namespace RtosLwip

namespace Cli

variable {κ : Type}

section Lines

theorem nonEmpty_append (a b : List Line) : nonEmpty (a ++ b) = nonEmpty a ++ nonEmpty b := by
  rw [nonEmpty, List.map_append, List.filter_append]
  rfl

/-- The parts of the end of a line that may end a segment, and what they leave. -/
theorem Ending.take_cases (e : Ending) {j : Nat} (hj : 0 < j) :
    (∃ b, isLineEnd b ∧ e.bytes.take j = [b] ∧
        (e.bytes.drop j = [] ∨ b = keyCr ∧ e.bytes.drop j = [keyLf])) ∨
      (e.bytes.take j = [keyCr, keyLf] ∧ e.bytes.drop j = []) := by
  rcases Nat.exists_eq_succ_of_ne_zero (Nat.ne_of_gt hj) with ⟨k, rfl⟩
  cases e with
  | cr => exact Or.inl ⟨keyCr, rfl, by simp [bytes], Or.inl (by simp [bytes])⟩
  | lf => exact Or.inl ⟨keyLf, rfl, by simp [bytes], Or.inl (by simp [bytes])⟩
  | crlf =>
      cases k with
      | zero => exact Or.inl ⟨keyCr, rfl, rfl, Or.inr ⟨rfl, rfl⟩⟩
      | succ k => exact Or.inr ⟨by simp [bytes], by simp [bytes]⟩

variable (extCmds : List (ExtCliCmd κ))

/-- The end of a line executes the line, if it has more than one byte or ends with both
    characters at once. -/
theorem lineEnd_line {env : Env} {s : Session κ} {l : Line} {tail : List UInt8}
    (hs : s.conn.Holds (l.content ++ tail)) (hnul : ∀ b ∈ l.content, b ≠ 0)
    (htail : (∃ b, tail = [b]) ∨ tail = [keyCr, keyLf])
    (hshort : l.content.length = 1 → (l.content ++ tail).length ≠ 2) :
    executed (telnetLineEnd extCmds env s).history = executed s.history ++ nonEmpty [l] ∧
      (telnetLineEnd extCmds env s).conn.Holds [] := by
  rcases List.eq_nil_or_concat l.content with hnil | ⟨front, a, hcontent⟩
  · -- an empty line is not executed
    have hempty : nonEmpty [l] = [] := by
      unfold nonEmpty
      rw [List.map_singleton, hnil]
      rfl
    have hlen : (l.content ++ tail).length = 1 ∨ (l.content ++ tail).length = 2 := by
      rw [hnil]
      rcases htail with ⟨b, rfl⟩ | rfl
      · exact Or.inl rfl
      · exact Or.inr rfl
    rcases lineEnd_short extCmds hs hlen with ⟨hexec, hholds, -⟩
    exact ⟨by rw [hexec, hempty, List.append_nil], hholds⟩
  · rw [List.concat_eq_append] at hcontent
    have hne : l.content ≠ [] := by
      rw [hcontent]
      exact List.append_ne_nil_of_right_ne_nil _ (List.cons_ne_nil _ _)
    have hfull : nonEmpty [l] = [l.content] := by
      unfold nonEmpty
      rw [List.map_singleton]
      exact List.filter_cons_of_pos (decide_eq_true hne)
    have ha : a ≠ keyCr := by
      have hplain := l.plain a (by rw [hcontent]; exact List.mem_append_right _ List.mem_cons_self)
      rintro rfl
      exact nomatch hplain
    have hpos : 0 < l.content.length := List.length_pos_iff.mpr hne
    rw [hfull]
    rcases htail with ⟨b, rfl⟩ | rfl
    · have hlen : 3 ≤ (l.content ++ [b]).length := by
        rw [List.length_append, List.length_singleton] at hshort ⊢
        omega
      refine lineEnd_long extCmds hs hlen ?_ hnul
      rw [hcontent] at hs ⊢
      exact cutLine_of_single hs ha
    · have hlen : 3 ≤ (l.content ++ [keyCr, keyLf]).length := by
        rw [List.length_append]
        exact Nat.add_le_add_right hpos 2
      rw [List.append_cons] at hs
      exact lineEnd_long extCmds hs (by rwa [← List.append_cons]) (cutLine_of_crlf hs) hnul

/-- All lines that were sent have been executed, and nothing of them is left to be read but
    the line feed behind a carriage return. -/
structure Served (w : Link κ) : Prop where
  executed : executed w.server.history = nonEmpty w.sent
  flight : w.flight = [] ∨ w.flight = [keyLf]
  holds : ∀ c ∈ w.server.conn, c.Holds []

/-- All lines but the last have been executed, and of that one a part has been read. -/
structure Reading (w : Link κ) (done : List Line) (l : Line) (read : List UInt8) : Prop where
  sent : w.sent = done ++ [l]
  executed : Cli.executed w.server.history = nonEmpty done
  nul_free : ∀ b ∈ l.content, b ≠ 0
  part : read <+: l.content
  flight : read ++ w.flight = l.bytes
  holds : ∀ c ∈ w.server.conn, c.Holds read
  state : ∀ c ∈ w.server.conn, c.state ≠ .processing

/-- Either is the case. -/
def Kept (w : Link κ) : Prop := Served w ∨ ∃ done l read, Reading w done l read

theorem Ending.bytes_ne_nil (e : Ending) : e.bytes ≠ [] := by
  cases e with
  | cr => exact List.cons_ne_nil _ _
  | lf => exact List.cons_ne_nil _ _
  | crlf => exact List.cons_ne_nil _ _

/-- The end of a line that is being read is still under way. -/
theorem Reading.flight_ne_nil {w : Link κ} {done : List Line} {l : Line} {read : List UInt8}
    (h : Reading w done l read) : w.flight ≠ [] := by
  intro hnil
  have hbytes := congrArg List.length h.flight
  have hpart := h.part.length_le
  have hending := List.length_pos_iff.mpr l.ending.bytes_ne_nil
  rw [hnil, List.append_nil, Line.bytes, List.length_append] at hbytes
  omega

/-- The next line is sent, and nothing of it has been read. -/
theorem reading_send {w : Link κ} {l : Line} (hw : Served w) (hflight : w.flight = [])
    (hnul : ∀ b ∈ l.content, b ≠ 0) (hstate : ∀ c ∈ w.server.conn, c.state ≠ .processing) :
    Reading { w with rest := w.rest.tail, flight := w.flight ++ l.bytes, sent := w.sent ++ [l] }
      w.sent l [] := by
  refine ⟨rfl, hw.executed, hnul, List.nil_prefix, ?_, hw.holds, hstate⟩
  dsimp only
  rw [hflight]
  rfl

theorem kept_send {w : Link κ} (hw : Kept w) (he : Orderly w .send) :
    Kept (w.step extCmds .send) := by
  rw [Link.step]
  cases hnext : w.next with
  | none => exact hw
  | some l =>
      rcases he l hnext with ⟨hnul, hflight, hstate⟩
      rcases hw with hserved | ⟨done, l', read, hreading⟩
      · exact Or.inr ⟨w.sent, l, [], reading_send hserved hflight hnul hstate⟩
      · exact absurd hflight hreading.flight_ne_nil

/-- The line feed of a line that has been executed is dropped, or answered by a prompt. -/
theorem served_lineFeed {w : Link κ} (hw : Served w) (env : Env) :
    Served { w with server := w.server.step extCmds (.recv env [keyLf]), flight := [] } := by
  rw [Server.step]
  refine Server.onConn_cases (P := fun s => Served { w with server := s, flight := [] })
    (fun _ => ⟨hw.executed, Or.inl rfl, hw.holds⟩) fun c hc => ?_
  split
  · rcases @read_copied _ extCmds env (w.server.session c) _ [] keyLf
      (hw.holds c hc) (by decide) (by decide) with ⟨hread, hholds⟩
    rcases @lineEnd_short _ extCmds env _ _ hholds (Or.inl rfl) with ⟨hexec, hholds', -⟩
    have hline : telnetCommandRead extCmds env [keyLf] (w.server.session c) =
        telnetLineEnd extCmds env ((w.server.session c).stored [keyLf]) := hread
    rw [hline]
    refine ⟨(hexec.trans (executed_stored _ _)).trans hw.executed, Or.inl rfl, fun c' hc' => ?_⟩
    rcases Option.mem_some.mp hc' with rfl
    exact hholds'
  · exact ⟨hw.executed, Or.inl rfl, hw.holds⟩

/-- A part of a line that leaves its end under way. -/
theorem reading_part {w : Link κ} {done : List Line} {l : Line} {read seg flight : List UInt8}
    {c : TelnetConn} {env : Env} (hw : Reading w done l read) (hc : w.server.conn = some c)
    (hstate : c.state = .receiving) (hsplit : seg ++ flight = w.flight) (hne : seg ≠ [])
    (hiac : load8 seg 0 ≠ telnetIac) (hroom : read.length + seg.length < cmdBufSize)
    (hpart : read ++ seg <+: l.content) :
    Reading { w with
      server := w.server.step extCmds (.recv env seg), flight := flight } done l (read ++ seg) ∧
      w.server.step extCmds (.recv env seg) =
        w.server.resume ((w.server.session c).stored seg) := by
  have hflight : read ++ seg ++ flight = l.bytes := by
    rw [List.append_assoc, hsplit, hw.flight]
  rcases List.eq_nil_or_concat seg with hnil | ⟨front, b, hseg⟩
  · exact absurd hnil hne
  rw [List.concat_eq_append] at hseg
  subst hseg
  have hb : isLineEnd b = false := l.plain b (hpart.subset (by simp))
  rcases read_copied extCmds env (s := w.server.session c) (hw.holds c hc) hiac hroom with
    ⟨hread, hholds⟩
  rw [hb, if_neg Bool.false_ne_true] at hread
  have hstep : w.server.step extCmds (.recv env (front ++ [b])) =
      w.server.resume ((w.server.session c).stored (front ++ [b])) := by
    rw [Server.step, Server.onConn, hc, ← hread]
    exact if_pos hstate
  refine ⟨?_, hstep⟩
  rw [hstep]
  refine ⟨hw.sent, (executed_stored _ _).trans hw.executed, hw.nul_free, hpart, hflight,
    fun c' hc' => ?_, fun c' hc' => ?_⟩
  · rcases Option.mem_some.mp hc' with rfl
    exact hholds
  · rcases Option.mem_some.mp hc' with rfl
    exact fun h => TelnetState.noConfusion (hstate.symm.trans h)

/-- The rest of a line, with its end or with the carriage return of its end. -/
theorem served_end {w : Link κ} {done : List Line} {l : Line} {read seg flight tail : List UInt8}
    {c : TelnetConn} {env : Env} (hw : Reading w done l read) (hc : w.server.conn = some c)
    (hstate : c.state = .receiving) (hiac : load8 seg 0 ≠ telnetIac)
    (hroom : read.length + seg.length < cmdBufSize) (hseg : read ++ seg = l.content ++ tail)
    (htail : (∃ b, isLineEnd b ∧ tail = [b]) ∨ tail = [keyCr, keyLf])
    (hshort : l.content.length = 1 → (read ++ seg).length ≠ 2)
    (hflight : flight = [] ∨ flight = [keyLf]) :
    Served { w with server := w.server.step extCmds (.recv env seg), flight := flight } := by
  -- the segment ends with the last byte of the tail
  have hend : ∃ front b, isLineEnd b ∧ seg = front ++ [b] := by
    rcases hw.part with ⟨rest, hrest⟩
    rw [← hrest, List.append_assoc] at hseg
    rw [List.append_cancel_left hseg]
    rcases htail with ⟨b, hb, rfl⟩ | rfl
    · exact ⟨rest, b, hb, rfl⟩
    · exact ⟨rest ++ [keyCr], keyLf, rfl, List.append_cons _ _ _⟩
  rcases hend with ⟨front, b, hb, rfl⟩
  rcases read_copied extCmds env (s := w.server.session c) (hw.holds c hc) hiac hroom with
    ⟨hread, hholds⟩
  rw [if_pos hb] at hread
  have hstep : w.server.step extCmds (.recv env (front ++ [b])) = w.server.resume
      (telnetLineEnd extCmds env ((w.server.session c).stored (front ++ [b]))) := by
    rw [Server.step, Server.onConn, hc, ← hread]
    exact if_pos hstate
  rw [hseg] at hholds hshort
  have htail' : (∃ b, tail = [b]) ∨ tail = [keyCr, keyLf] :=
    htail.imp_left fun h => h.imp fun _ hb => hb.2
  rcases @lineEnd_line _ extCmds env _ _ _ hholds hw.nul_free htail' hshort with ⟨hexec, hholds'⟩
  rw [hstep]
  refine ⟨?_, hflight, fun c' hc' => ?_⟩
  · have hpast : executed ((w.server.session c).stored (front ++ [b])).history = nonEmpty done :=
      (executed_stored _ _).trans hw.executed
    rw [hw.sent, nonEmpty_append, ← hpast]
    exact hexec
  · rcases Option.mem_some.mp hc' with rfl
    exact hholds'

/-- An orderly delivery while a line is being read adds to what was read, or executes the line,
    and of the end of the line no more than a line feed behind a carriage return is left. -/
theorem reading_deliver {w : Link κ} {env : Env} {n : Nat} {done : List Line} {l : Line}
    {read : List UInt8} (hw : Reading w done l read) (hn : 0 < n ∧ n ≤ w.flight.length)
    (he : Orderly w (.deliver env n)) :
    let w' := { w with
      server := w.server.step extCmds (.recv env (w.flight.take n)), flight := w.flight.drop n }
    (Reading w' done l (read ++ w.flight.take n) ∧
        ∃ c ∈ w.server.conn, w'.server =
          w.server.resume ((w.server.session c).stored (w.flight.take n))) ∨
      (Served w' ∧
        (w'.flight = [] ∨ (w.flight.take n).getLast? = some keyCr ∧ w'.flight = [keyLf])) := by
  intro w'
  rcases he hn.1 hn.2 with ⟨c, hc, hopen, hread⟩
  have hstate : c.state = .receiving := by
    cases hcase : c.state with
    | receiving => rfl
    | processing => exact absurd hcase (hw.state c hc)
    | closing => exact absurd hcase hopen
  rcases hread hstate with ⟨hiac, hroom, hone⟩
  have hseg : (w.flight.take n).length = n := List.length_take_of_le hn.2
  rw [(hw.holds c hc).readIndex] at hroom hone
  have hne : w.flight.take n ≠ [] := by
    rw [← List.length_pos_iff, hseg]
    exact hn.1
  have hroom' : read.length + (w.flight.take n).length < cmdBufSize := by rwa [hseg]
  -- what has been read then, and what is still under way
  have hbytes : read ++ w.flight.take n ++ w.flight.drop n = l.content ++ l.ending.bytes := by
    rw [List.append_assoc, List.take_append_drop]
    exact hw.flight
  by_cases hlen : (read ++ w.flight.take n).length ≤ l.content.length
  · have hpart : read ++ w.flight.take n <+: l.content :=
      List.prefix_of_prefix_length_le ⟨_, hbytes⟩ (List.prefix_append _ _) hlen
    rcases @reading_part _ extCmds _ _ _ _ _ _ _ env hw hc hstate
      (List.take_append_drop n w.flight) hne hiac hroom' hpart with ⟨hreading, hstep⟩
    exact Or.inl ⟨hreading, c, hc, hstep⟩
  · -- the segment reaches into the end of the line
    rcases List.append_eq_append_iff.mp hbytes with ⟨a, ha, -⟩ | ⟨a, ha, hrest⟩
    · refine absurd ?_ hlen
      rw [ha]
      exact (List.prefix_append _ _).length_le
    · have hpos : 0 < a.length := by
        rw [ha, List.length_append] at hlen
        omega
      have htake : l.ending.bytes.take a.length = a := by rw [hrest, List.take_left]
      have hdrop : l.ending.bytes.drop a.length = w.flight.drop n := by
        rw [hrest, List.drop_left]
      have hshort : l.content.length = 1 → (read ++ w.flight.take n).length ≠ 2 := by
        rw [List.length_append, hseg]
        exact hone l (by rw [hw.sent, List.getLast?_append]; rfl)
      have hlast : (w.flight.take n).getLast? = a.getLast? := by
        have happ := congrArg List.getLast? ha
        rw [List.getLast?_append_of_ne_nil _ hne,
          List.getLast?_append_of_ne_nil _ (List.length_pos_iff.mp hpos)] at happ
        exact happ
      have htail := l.ending.take_cases hpos
      rw [htake, hdrop] at htail
      -- what is left, and the line feed behind a carriage return
      have hleft : w.flight.drop n = [] ∨
          (w.flight.take n).getLast? = some keyCr ∧ w.flight.drop n = [keyLf] := by
        rcases htail with ⟨b, -, hb, hnone | ⟨hcr, hlf⟩⟩ | ⟨-, hnone⟩
        · exact Or.inl hnone
        · exact Or.inr ⟨by rw [hlast, hb, hcr]; rfl, hlf⟩
        · exact Or.inl hnone
      refine Or.inr ⟨?_, hleft⟩
      exact served_end extCmds hw hc hstate hiac hroom' ha
        (htail.imp (fun ⟨b, hb, h, _⟩ => ⟨b, hb, h⟩) (·.1)) hshort (hleft.imp_right (·.2))

/-- An orderly delivery executes the line whose end it delivers. -/
theorem kept_deliver {w : Link κ} {env : Env} {n : Nat} (hw : Kept w)
    (he : Orderly w (.deliver env n)) : Kept (w.step extCmds (.deliver env n)) := by
  rw [Link.step]
  split
  case isFalse => exact hw
  case isTrue hn =>
    rcases hw with hserved | ⟨done, l, read, hreading⟩
    · -- only a line feed can be left of the lines that were executed
      rcases hserved.flight with hflight | hflight
      · rw [hflight] at hn
        exact absurd hn.2 (Nat.not_le.mpr hn.1)
      · rw [hflight] at hn ⊢
        have hone : n = 1 := Nat.le_antisymm hn.2 hn.1
        subst hone
        exact Or.inl (served_lineFeed extCmds hserved env)
    · rcases reading_deliver extCmds hreading hn he with ⟨hreading', -⟩ | ⟨hserved, -⟩
      · exact Or.inr ⟨done, l, _, hreading'⟩
      · exact Or.inl hserved

theorem holds_carries {s s' : Server κ} (h : Carries s s') {text : List UInt8}
    (hs : ∀ c ∈ s.conn, c.Holds text) : ∀ c ∈ s'.conn, c.Holds text := by
  intro c' hc'
  rcases h.conn c' hc' with ⟨c, hc, hcmd, hindex, -⟩
  have hc := hs c hc
  exact ⟨hindex.trans hc.readIndex, (congrArg _ hcmd).trans hc.length, hcmd ▸ hc.cmd⟩

theorem served_other {w : Link κ} {s : Server κ} (hw : Served w) (hs : Carries w.server s) :
    Served { w with server := s } :=
  ⟨hs.executed.trans hw.executed, hw.flight, holds_carries hs hw.holds⟩

theorem reading_other {w : Link κ} {s : Server κ} {done : List Line} {l : Line}
    {read : List UInt8} (hw : Reading w done l read) (hs : Carries w.server s) :
    Reading { w with server := s } done l read := by
  refine ⟨hw.sent, hs.executed.trans hw.executed, hw.nul_free, hw.part, hw.flight,
    holds_carries hs hw.holds, fun c' hc' hstate => ?_⟩
  rcases hs.conn c' hc' with ⟨c, hc, -, -, hprocessing⟩
  exact hw.state c hc (hprocessing hstate)

/-- What else happens to the server is of no effect on the lines. -/
theorem kept_other {w : Link κ} {e : Event} (hw : Kept w) :
    Kept (w.step extCmds (.other e)) := by
  rw [Link.step]
  split
  · exact hw
  have hcarries := carries_other extCmds w.server (e := e) (Bool.eq_false_of_not_eq_true ‹_›)
  rcases hw with hserved | ⟨done, l, read, hreading⟩
  · exact Or.inl (served_other hserved hcarries)
  · exact Or.inr ⟨done, l, read, reading_other hreading hcarries⟩

/-- An orderly step executes the line whose end it delivers, and no other. -/
theorem kept_step (w : Link κ) (e : LinkEvent) (hw : Kept w) (he : Orderly w e) :
    Kept (w.step extCmds e) := by
  cases e with
  | send => exact kept_send extCmds hw he
  | deliver env n => exact kept_deliver extCmds hw he
  | other e => exact kept_other extCmds hw

/-- The session that has just been accepted. -/
theorem kept_start (env : Env) (line : CommandLine κ) (console : Option (List UInt8))
    (lines : List Line) : Kept (Link.start extCmds env line console lines) := by
  have hprompt := keeps_prompt env
    (⟨⟨.receiving, List.replicate cmdBufSize 0, 0, 0, 0⟩, line, []⟩ : Session κ)
  refine Or.inl ⟨hprompt.executed, Or.inl rfl, fun c hc => ?_⟩
  rcases Option.mem_some.mp hc with rfl
  exact ⟨hprompt.readIndex, (congrArg _ hprompt.cmd).trans List.length_replicate, List.nil_prefix⟩

/-- The lines executed are lines that were sent, in order, and all of them once everything
    has been delivered. -/
theorem Kept.lines {w : Link κ} (hw : Kept w) :
    executed w.server.history <+: nonEmpty w.sent ∧
      (w.flight = [] → executed w.server.history = nonEmpty w.sent) := by
  rcases hw with hserved | ⟨done, l, read, hreading⟩
  · rw [hserved.executed]
    exact ⟨List.prefix_rfl, fun _ => rfl⟩
  · rw [hreading.executed, hreading.sent, nonEmpty_append]
    exact ⟨List.prefix_append _ _, fun h => absurd h hreading.flight_ne_nil⟩

/-- The lines that were sent are the first ones of the client. -/
theorem sent_rest (lines : List Line) (w : Link κ) (e : LinkEvent)
    (h : w.sent ++ w.rest = lines) :
    (w.step extCmds e).sent ++ (w.step extCmds e).rest = lines := by
  cases e with
  | send =>
      rw [Link.step]
      cases hnext : w.next with
      | none => exact h
      | some l =>
          -- the line that is sent is the first one of the rest
          have hrest : w.rest = l :: w.rest.tail := by
            unfold Link.next at hnext
            split at hnext
            · exact (List.cons_head?_tail hnext).symm
            · exact nomatch hnext
          rw [hrest] at h
          exact (List.append_cons _ _ _).symm.trans h
  | deliver env n =>
      rw [Link.step]
      split
      · exact h
      · exact h
  | other e =>
      rw [Link.step]
      split
      · exact h
      · exact h

/-- In an orderly run the lines executed are the lines of the client that were sent, in order and
    all of them once everything has been delivered. In any run the NULs and `readIndex` are inside
    of the buffer exactly if all segments fit. -/
theorem executed_and_inside (env : Env) (line : CommandLine κ) (console : Option (List UInt8))
    (lines : List Line) (evs : List LinkEvent)
    (h : Meets (Link.step extCmds) Orderly (Link.start extCmds env line console lines) evs) :
    let w := run (Link.step extCmds) (Link.start extCmds env line console lines) evs
    (w.sent ++ w.rest = lines ∧ executed w.server.history <+: nonEmpty w.sent ∧
        (w.flight = [] → executed w.server.history = nonEmpty w.sent)) ∧
      ∀ stream : List Event,
        (∀ past, past <+: stream → Inside (run (Server.step extCmds) Server.start past)) ↔
          Meets (Server.step extCmds) Fits Server.start stream := by
  intro w
  have hsent : w.sent ++ w.rest = lines :=
    run_invariant (I := fun w : Link κ => w.sent ++ w.rest = lines) (sent_rest extCmds lines) _
      rfl evs
  have hkept : Kept w :=
    meets_invariant (kept_step extCmds) _ (kept_start extCmds env line console lines) evs h
  exact ⟨⟨hsent, hkept.lines⟩, inside_iff extCmds⟩

/-- A line from its text. -/
def textLine (text : String) (ending : Ending)
    (h : (∀ b ∈ ascii text, isLineEnd b = false) ∧ (ascii text).length < cmdBufSize) : Line :=
  ⟨ascii text, ending, h.1, h.2⟩

theorem textLine_fits {text : String}
    (h : ((ascii text).all (!isLineEnd ·) && decide ((ascii text).length < cmdBufSize)) = true) :
    (∀ b ∈ ascii text, isLineEnd b = false) ∧ (ascii text).length < cmdBufSize := by
  rw [Bool.and_eq_true, List.all_eq_true] at h
  exact ⟨fun b hb => (Bool.not_eq_true' _).mp (h.1 b hb), of_decide_eq_true h.2⟩

/-- A line in two segments, an empty one, and a short one with its line feed behind it, which
    comes while the command is processed. -/
def threeLines : List Line :=
  [textLine "version 1" .crlf (textLine_fits rfl), textLine "" .lf (textLine_fits rfl),
    textLine "help" .crlf (textLine_fits rfl)]

def threeDeliveries : List LinkEvent :=
  [.send, .deliver (part 0 "") 3, .deliver (part 0 "1.0") 8, .other (.sent (part 0 "")),
    .send, .deliver (part 0 "") 1, .send, .deliver (part 1 "version") 5,
    .other (.sent (part 0 "help")), .deliver (part 0 "") 1, .other (.sent (part 0 ""))]

theorem executed_and_inside_threeLines :
    let w := run (Link.step simCmds)
      (Link.start simCmds (part 0 "") ⟨[], none⟩ none threeLines) threeDeliveries
    (w.sent ++ w.rest = threeLines ∧ executed w.server.history <+: nonEmpty w.sent ∧
        (w.flight = [] → executed w.server.history = nonEmpty w.sent)) ∧
      ∀ stream : List Event,
        (∀ past, past <+: stream → Inside (run (Server.step simCmds) Server.start past)) ↔
          Meets (Server.step simCmds) Fits Server.start stream :=
  executed_and_inside simCmds (part 0 "") ⟨[], none⟩ none threeLines threeDeliveries
    (by decide +kernel)

/-- A line of one byte and a line feed is taken for an empty one. -/
theorem not_executed_single :
    let w := run (Link.step simCmds)
      (Link.start simCmds (part 0 "") ⟨[], none⟩ none [textLine "h" .lf (textLine_fits rfl)])
      [.send, .deliver (part 0 "") 2]
    w.flight = [] ∧ executed w.server.history ≠ nonEmpty w.sent := by
  decide +kernel

end Lines

end Cli

end RtosLwip
