import RtosLwip.Http.Server
import RtosLwip.Http.Upload

/-!
# Which Updates Are Left Pending

Opening an upload enters its type in the pending-update record, and nothing but
`CANCEL_UPDATE` takes it out again. Under orderly events every record that is
saved with a type belongs to an upload that is complete: `saved_complete`.

The invariant says where a pending type can come from. Either the most recently
opened upload is complete, or it is still going on, and then its connection is
there and its counter says how much of the body is missing. `Mid` is this for
the connection that is just being served, whose counter may already have run
out; the steps of `extHttpPostRxDataPbuf` are taken one by one from there.

The events that are not orderly are those the source forgets: a body that ends
without its boundary is reported as an error and saved all the same, a lost
control block frees the connection without cancelling its update, and a close
between the boundary and the end of the body returns before the cancelling.

## Main definitions

* `ConnOk`: What a connection's counter and status say about the effects.
* `Mid`: The invariant for the connection that is being served.
* `ServerOk`: The invariant.

## Theorems

* `served_recv`: A segment keeps the invariant.
* `serverOk_step`: An orderly event keeps the invariant.
* `saved_complete`: In every orderly run, every saved record is empty or belongs
  to a complete upload.
-/

namespace RtosLwip

namespace Http

open Flash

/-- The connection an effect belongs to. -/
def Effect.conn? : Effect → Option Nat
  | .requested i _ => some i
  | .received i _ => some i
  | .opened i => some i
  | .wrote i _ => some i
  | .found i => some i
  | .closed i => some i
  | .saved _ => none

/-- An effect of this connection, or of none. -/
def Own (i : Nat) (e : Effect) : Prop := ∀ j, e.conn? = some j → j = i

/-- An effect that neither announces nor counts nor opens. -/
def Plain : Effect → Prop
  | .requested _ _ => False
  | .received _ _ => False
  | .opened _ => False
  | _ => True

section Effects

variable {new past : List Effect} {i j : Nat}

theorem lastOpened_append (h : ∀ e ∈ new, Plain e) :
    lastOpened (new ++ past) = lastOpened past := by
  induction new with
  | nil => rfl
  | cons e new ih =>
      have hrest := ih fun e' he' => h e' (List.mem_cons_of_mem e he')
      have he := h e List.mem_cons_self
      cases e with
      | opened k => exact absurd he id
      | _ => exact hrest

theorem contentLength_append (h : ∀ e ∈ new, Plain e) :
    contentLength j (new ++ past) = contentLength j past := by
  induction new with
  | nil => rfl
  | cons e new ih =>
      have hrest := ih fun e' he' => h e' (List.mem_cons_of_mem e he')
      have he := h e List.mem_cons_self
      cases e with
      | requested k n => exact absurd he id
      | _ => exact hrest

theorem receivedLength_append (h : ∀ e ∈ new, Plain e) :
    receivedLength j (new ++ past) = receivedLength j past := by
  induction new with
  | nil => rfl
  | cons e new ih =>
      have hrest := ih fun e' he' => h e' (List.mem_cons_of_mem e he')
      have he := h e List.mem_cons_self
      cases e with
      | received k n => exact absurd he id
      | _ => exact hrest

theorem opened_mem_append (h : ∀ e ∈ new, Plain e) :
    .opened j ∈ new ++ past ↔ .opened j ∈ past := by
  rw [List.mem_append]
  exact or_iff_right fun hin => h _ hin

/-- A complete upload stays complete until another one is opened. -/
theorem complete_append (h : ∀ e ∈ new, Plain e) (hc : Complete past) : Complete (new ++ past) := by
  rcases hc with ⟨k, hk, hfound, hlen⟩
  refine ⟨k, ?_, List.mem_append_right new hfound, ?_⟩
  · rw [lastOpened_append h]
    exact hk
  · rw [contentLength_append h, receivedLength_append h]
    exact hlen

theorem complete_received (hc : Complete past) (n : Nat) : Complete (.received i n :: past) := by
  rcases hc with ⟨k, hk, hfound, hlen⟩
  refine ⟨k, hk, List.mem_cons_of_mem _ hfound, ?_⟩
  change contentLength k past ≤ if i = k then n + receivedLength k past else receivedLength k past
  split
  · omega
  · exact hlen

theorem opened_mem_of_lastOpened (h : lastOpened past = some i) : .opened i ∈ past := by
  induction past with
  | nil => exact absurd h (Option.some_ne_none i).symm
  | cons e past ih =>
      cases e with
      | opened k =>
          have hk : k = i := Option.some.inj h
          rw [hk]
          exact List.mem_cons_self
      | _ => exact List.mem_cons_of_mem _ (ih h)

/-- The effects of one connection do not count for another one. -/
theorem contentLength_own (h : ∀ e ∈ new, Own i e) (hne : j ≠ i) :
    contentLength j (new ++ past) = contentLength j past := by
  induction new with
  | nil => rfl
  | cons e new ih =>
      have hrest := ih fun e' he' => h e' (List.mem_cons_of_mem e he')
      have he := h e List.mem_cons_self
      cases e with
      | requested k n =>
          have hk : k ≠ j := fun hk => hne ((hk ▸ he k rfl : j = i))
          change (if k = j then n else contentLength j (new ++ past)) = contentLength j past
          rw [if_neg hk]
          exact hrest
      | _ => exact hrest

theorem receivedLength_own (h : ∀ e ∈ new, Own i e) (hne : j ≠ i) :
    receivedLength j (new ++ past) = receivedLength j past := by
  induction new with
  | nil => rfl
  | cons e new ih =>
      have hrest := ih fun e' he' => h e' (List.mem_cons_of_mem e he')
      have he := h e List.mem_cons_self
      cases e with
      | received k n =>
          have hk : k ≠ j := fun hk => hne ((hk ▸ he k rfl : j = i))
          change (if k = j then n + receivedLength j (new ++ past)
            else receivedLength j (new ++ past)) = receivedLength j past
          rw [if_neg hk]
          exact hrest
      | _ => exact hrest

theorem opened_mem_own (h : ∀ e ∈ new, Own i e) (hne : j ≠ i) :
    .opened j ∈ new ++ past ↔ .opened j ∈ past := by
  rw [List.mem_append]
  exact or_iff_right fun hin => hne (h _ hin j rfl)

end Effects

/-- Every saved record is empty or belongs to a complete upload. -/
def SavesOk (history : List Effect) : Prop := EachPast SavedComplete history

/-- An effect of what a connection does between being opened and being saved. -/
def Inner (i : Nat) : Effect → Prop
  | .wrote j _ => j = i
  | .found j => j = i
  | .closed j => j = i
  | _ => False

theorem inner_of_stored {i : Nat} {e : Effect} (h : Stored i e) : Inner i e := by
  rcases h with rfl | ⟨bytes, rfl⟩
  · exact rfl
  · exact rfl

theorem plain_of_inner {i : Nat} {e : Effect} (h : Inner i e) : Plain e := by
  cases e with
  | requested j n => exact h
  | received j n => exact h
  | opened j => exact h
  | _ => trivial

theorem own_of_inner {i : Nat} {e : Effect} (h : Inner i e) : Own i e := by
  intro j hj
  cases e with
  | wrote k bytes => exact (Option.some.inj hj).symm.trans h
  | found k => exact (Option.some.inj hj).symm.trans h
  | closed k => exact (Option.some.inj hj).symm.trans h
  | _ => exact absurd h id

theorem savesOk_append {i : Nat} {new past : List Effect} (h : ∀ e ∈ new, Inner i e)
    (hpast : SavesOk past) : SavesOk (new ++ past) := by
  induction new with
  | nil => exact hpast
  | cons e new ih =>
      have hrest := ih fun e' he' => h e' (List.mem_cons_of_mem e he')
      have he := h e List.mem_cons_self
      cases e with
      | saved info => exact absurd he id
      | _ => exact ⟨trivial, hrest⟩

/-- One history goes on from another with effects of one connection. -/
def Extends (i : Nat) (past history : List Effect) : Prop :=
  ∃ new, history = new ++ past ∧ ∀ e ∈ new, Own i e

theorem Extends.refl (i : Nat) (past : List Effect) : Extends i past past :=
  ⟨[], rfl, fun _ he => absurd he List.not_mem_nil⟩

theorem Extends.trans {i : Nat} {a b c : List Effect} (hab : Extends i a b)
    (hbc : Extends i b c) : Extends i a c := by
  rcases hab with ⟨new, rfl, hown⟩
  rcases hbc with ⟨new', rfl, hown'⟩
  refine ⟨new' ++ new, (List.append_assoc _ _ _).symm, fun e he => ?_⟩
  rcases List.mem_append.mp he with he | he
  · exact hown' e he
  · exact hown e he

theorem extends_cons {i : Nat} {e : Effect} {past history : List Effect} (he : Own i e)
    (h : Extends i past history) : Extends i past (e :: history) := by
  rcases h with ⟨new, rfl, hown⟩
  refine ⟨e :: new, rfl, fun e' he' => ?_⟩
  rcases List.mem_cons.mp he' with rfl | he'
  · exact he
  · exact hown e' he'

/-- What a connection's counter and status say about the effects. -/
structure ConnOk (c : Conn) (history : List Effect) : Prop where
  index : c.dataSendIndex < maxReqLength
  left : c.uploadStatus = .init ∨ .opened c.pcb ∈ history →
    c.postDataLeft = contentLength c.pcb history - receivedLength c.pcb history
  fresh : c.uploadStatus = .init → .opened c.pcb ∉ history
  found : c.uploadStatus = .ended → .found c.pcb ∈ history

/-- Effects of another connection change nothing for this one. -/
theorem ConnOk.other {c : Conn} {i : Nat} {past history : List Effect} (h : ConnOk c past)
    (hext : Extends i past history) (hne : c.pcb ≠ i) : ConnOk c history := by
  rcases hext with ⟨new, rfl, hown⟩
  refine ⟨h.index, fun hopen => ?_, fun hinit hin => ?_, fun hended => ?_⟩
  · rw [opened_mem_own hown hne] at hopen
    rw [contentLength_own hown hne, receivedLength_own hown hne]
    exact h.left hopen
  · exact h.fresh hinit ((opened_mem_own hown hne).mp hin)
  · exact List.mem_append_right new (h.found hended)

/-- The most recent upload has ended and nothing of its body is missing. -/
theorem ConnOk.complete {c : Conn} {history : List Effect} (h : ConnOk c history)
    (hlast : lastOpened history = some c.pcb) (hended : c.uploadStatus = .ended)
    (hzero : c.postDataLeft = 0) : Complete history := by
  have hleft := h.left (Or.inr (opened_mem_of_lastOpened hlast))
  refine ⟨c.pcb, hlast, h.found hended, ?_⟩
  omega

variable {ρ : Type} (hw : UploadHw) {A : Nat → Prop}

/-- The invariant for the connection that is being served. `A` says which of the
    other connections have an upload going on. -/
structure Mid (A : Nat → Prop) (t : Post ρ) : Prop where
  conn : ConnOk t.conn t.history
  saves : SavesOk t.history
  pending : t.dev.fmType ≠ .none → Complete t.history ∨ ∃ i, lastOpened t.history = some i ∧
    (i = t.conn.pcb ∧ (t.conn.uploadStatus = .copy ∨ t.conn.uploadStatus = .ended) ∨
      i ≠ t.conn.pcb ∧ A i)

/-- Counting a segment. -/
theorem mid_countReceived {t : Post ρ} (h : Mid A t) (p : Pbuf) : Mid A (countReceived p t) := by
  refine ⟨⟨h.conn.index, fun hopen => ?_, fun hinit hin => ?_, fun hended => ?_⟩,
    ⟨trivial, h.saves⟩, fun hpend => ?_⟩
  · have hopen' : t.conn.uploadStatus = .init ∨ .opened t.conn.pcb ∈ t.history := by
      rcases hopen with hinit | hin
      · exact Or.inl hinit
      · rcases List.mem_cons.mp hin with heq | hin
        · exact absurd heq (by simp only [reduceCtorEq, not_false_eq_true])
        · exact Or.inr hin
    have hleft := h.conn.left hopen'
    change t.conn.postDataLeft - p.flatten.length = contentLength t.conn.pcb t.history
      - if t.conn.pcb = t.conn.pcb then p.flatten.length + receivedLength t.conn.pcb t.history
        else receivedLength t.conn.pcb t.history
    rw [if_pos rfl]
    omega
  · rcases List.mem_cons.mp hin with heq | hin
    · exact absurd heq (by simp only [reduceCtorEq, not_false_eq_true])
    · exact h.conn.fresh hinit hin
  · exact List.mem_cons_of_mem _ (h.conn.found hended)
  · rcases h.pending hpend with hc | hlast
    · exact Or.inl (complete_received hc _)
    · exact Or.inr hlast

/-- Writing blocks. -/
theorem mid_flushed {t u : Post ρ} {bs : List (List UInt8)} (h : Mid A t) (hf : Flushed bs t u)
    (hinit : t.conn.uploadStatus ≠ .init) (hidx : u.conn.dataSendIndex < maxReqLength) :
    Mid A u ∧ Extends t.conn.pcb t.history u.history := by
  rcases hf.history with ⟨new, hnew, hstored, hfound⟩
  have hinner : ∀ e ∈ new, Inner t.conn.pcb e := fun e he => inner_of_stored (hstored e he)
  have hplain : ∀ e ∈ new, Plain e := fun e he => plain_of_inner (hinner e he)
  have hstatus : u.conn.uploadStatus = t.conn.uploadStatus ∧ ¬ Marked t.conn.boundary bs ∨
      u.conn.uploadStatus = .ended ∧ Marked t.conn.boundary bs := by
    by_cases hm : Marked t.conn.boundary bs
    · exact Or.inr ⟨hf.uploadStatus.trans (if_pos hm), hm⟩
    · exact Or.inl ⟨hf.uploadStatus.trans (if_neg hm), hm⟩
  refine ⟨⟨⟨hidx, fun hopen => ?_, fun hi => ?_, fun hended => ?_⟩, ?_, fun hpend => ?_⟩,
    ⟨new, hnew, fun e he => own_of_inner (hinner e he)⟩⟩
  · rw [hf.pcb, hf.postDataLeft, hnew, contentLength_append hplain, receivedLength_append hplain]
    refine h.conn.left (Or.inr ?_)
    rcases hopen with hi | hin
    · rcases hstatus with ⟨hs, -⟩ | ⟨hs, -⟩
      · exact absurd (hs.symm.trans hi) hinit
      · exact absurd (hs.symm.trans hi) (by decide)
    · rw [hf.pcb, hnew, opened_mem_append hplain] at hin
      exact hin
  · rcases hstatus with ⟨hs, -⟩ | ⟨hs, -⟩
    · exact absurd (hs.symm.trans hi) hinit
    · exact absurd (hs.symm.trans hi) (by decide)
  · rw [hf.pcb, hnew]
    rcases hstatus with ⟨hs, -⟩ | ⟨-, hm⟩
    · exact List.mem_append_right new (h.conn.found (hs.symm.trans hended))
    · exact List.mem_append_left _ (hfound.mpr hm)
  · rw [hnew]
    exact savesOk_append hinner h.saves
  · rw [hf.fmType] at hpend
    rw [hnew, lastOpened_append hplain, hf.pcb]
    rcases h.pending hpend with hc | ⟨i, hlast, hcase⟩
    · exact Or.inl (complete_append hplain hc)
    · refine Or.inr ⟨i, hlast, hcase.imp_left fun hown => ⟨hown.1, ?_⟩⟩
      rcases hstatus with ⟨hs, -⟩ | ⟨hs, -⟩
      · rw [hs]
        exact hown.2
      · exact Or.inr hs

/-- What a first segment does: the upload is refused, or it is opened. -/
theorem recvPartHeader_cases {t : Post ρ} {p : Pbuf} {r : (Bool ⊕ List UInt8) × Post ρ}
    (h : recvPartHeader hw p t = some r) :
    (∃ ret, r.1 = .inl ret ∧ r.2.conn.uploadStatus = .error ∧ r.2.conn.pcb = t.conn.pcb ∧
      r.2.conn.dataSendIndex ≤ t.conn.dataSendIndex ∧ r.2.dev = t.dev ∧
      r.2.history = t.history) ∨
    ∃ bytes, r.1 = .inr bytes ∧ r.2.conn.uploadStatus = .copy ∧ r.2.conn.pcb = t.conn.pcb ∧
      r.2.conn.boundary = t.conn.boundary ∧ r.2.conn.postDataLeft = t.conn.postDataLeft ∧
      r.2.conn.dataSendIndex = 0 ∧ r.2.history = .opened t.conn.pcb :: t.history := by
  unfold recvPartHeader at h
  dsimp only at h
  split at h
  · rw [← Option.some.inj h]
    exact Or.inl ⟨false, rfl, rfl, rfl, Nat.le_refl _, rfl, rfl⟩
  · split at h
    · exact absurd h (Option.some_ne_none r).symm
    · split at h
      · rw [← Option.some.inj h]
        exact Or.inl ⟨true, rfl, rfl, rfl, Nat.zero_le _, rfl, rfl⟩
      · split at h
        · exact absurd h (Option.some_ne_none r).symm
        · rcases Option.map_eq_some_iff.mp h with ⟨q, -, hr⟩
          rw [← hr]
          exact Or.inr ⟨q.flatten, rfl, rfl, rfl, rfl, rfl, rfl, rfl⟩

/-- A refused upload. Its counter is of no use any more. -/
theorem mid_refused {t u : Post ρ} (h : Mid A t) (hinit : t.conn.uploadStatus = .init)
    (hstatus : u.conn.uploadStatus = .error) (hpcb : u.conn.pcb = t.conn.pcb)
    (hidx : u.conn.dataSendIndex ≤ t.conn.dataSendIndex) (hdev : u.dev = t.dev)
    (hhist : u.history = t.history) : Mid A u := by
  have hnever := h.conn.fresh hinit
  refine ⟨⟨Nat.lt_of_le_of_lt hidx h.conn.index, fun hopen => ?_, fun hi => ?_, fun he => ?_⟩, ?_,
    fun hpend => ?_⟩
  · rw [hpcb, hhist] at hopen
    rcases hopen with hi | hin
    · exact absurd (hstatus.symm.trans hi) (by decide)
    · exact absurd hin hnever
  · exact absurd (hstatus.symm.trans hi) (by decide)
  · exact absurd (hstatus.symm.trans he) (by decide)
  · rw [hhist]
    exact h.saves
  · rw [hdev] at hpend
    rw [hhist, hpcb]
    refine (h.pending hpend).imp_right fun ⟨i, hlast, hcase⟩ => ⟨i, hlast, Or.inr ?_⟩
    -- it was not this connection's upload, which has not been opened
    rcases hcase with ⟨-, hcopy | hended⟩ | hother
    · exact absurd (hinit.symm.trans hcopy) (by decide)
    · exact absurd (hinit.symm.trans hended) (by decide)
    · exact hother

/-- An upload that is opened. -/
theorem mid_opened {t u : Post ρ} (h : Mid A t) (hinit : t.conn.uploadStatus = .init)
    (hstatus : u.conn.uploadStatus = .copy) (hpcb : u.conn.pcb = t.conn.pcb)
    (hleft : u.conn.postDataLeft = t.conn.postDataLeft) (hidx : u.conn.dataSendIndex = 0)
    (hhist : u.history = .opened t.conn.pcb :: t.history) : Mid A u := by
  refine ⟨⟨?_, fun _ => ?_, fun hi => ?_, fun he => ?_⟩, ?_, fun _ => Or.inr ?_⟩
  · rw [hidx]
    exact maxReqLength_pos
  · rw [hpcb, hleft, hhist]
    exact h.conn.left (Or.inl hinit)
  · exact absurd (hstatus.symm.trans hi) (by decide)
  · exact absurd (hstatus.symm.trans he) (by decide)
  · rw [hhist]
    exact ⟨trivial, h.saves⟩
  · refine ⟨t.conn.pcb, ?_, Or.inl ⟨hpcb.symm, Or.inl hstatus⟩⟩
    rw [hhist]
    rfl

/-- The effects of finishing an upload, up to the saving. -/
theorem exists_finished_effects {t u : Post ρ} (h : Finished t u) :
    ∃ new, u.history = savedEffects u.dev ++ (new ++ t.history) ∧
      (∀ e ∈ new, Inner t.conn.pcb e) ∧
      (t.conn.boundary <:+: t.conn.pending → .found t.conn.pcb ∈ new) := by
  rcases h.history with ⟨bytes, hhist⟩
  by_cases hin : t.conn.boundary <:+: t.conn.pending
  · rw [if_pos hin] at hhist
    refine ⟨[.closed t.conn.pcb, .wrote t.conn.pcb bytes, .found t.conn.pcb], hhist, ?_,
      fun _ => ?_⟩
    · simp only [List.forall_mem_cons, Inner, true_and, List.not_mem_nil, false_implies,
        implies_true]
    · exact List.mem_cons_of_mem _ (List.mem_cons_of_mem _ (List.mem_singleton_self _))
  · rw [if_neg hin] at hhist
    refine ⟨[.closed t.conn.pcb, .wrote t.conn.pcb bytes], hhist, ?_, fun h' => absurd h' hin⟩
    simp only [List.forall_mem_cons, Inner, true_and, List.not_mem_nil, false_implies,
      implies_true]

/-- The effect of saving, and the history behind it. -/
theorem savesOk_savedEffects {d : Device ρ} {past : List Effect} (hpast : SavesOk past)
    (hcomplete : d.fmType ≠ .none → Complete past) : SavesOk (savedEffects d ++ past) := by
  unfold savedEffects
  split
  · exact ⟨hcomplete, hpast⟩
  · exact hpast

theorem plain_savedEffects {d : Device ρ} : ∀ e ∈ savedEffects d, Plain e := by
  unfold savedEffects
  split
  · exact fun e he => by
      rw [List.mem_singleton.mp he]
      trivial
  · exact fun e he => absurd he List.not_mem_nil

theorem extends_savedEffects (i : Nat) (d : Device ρ) (past : List Effect) :
    Extends i past (savedEffects d ++ past) := by
  refine ⟨savedEffects d, rfl, fun e he => ?_⟩
  unfold savedEffects at he
  split at he
  · rw [List.mem_singleton.mp he]
    exact fun j hj => absurd hj (Option.some_ne_none j).symm
  · exact absurd he List.not_mem_nil

/-- An upload that ends with its body. The record is saved for an upload that is
    complete, since its boundary is found and nothing of its body is missing, or
    for another one that is complete already. -/
theorem mid_finished {t u : Post ρ} (h : Mid A t) (hf : Finished t u)
    (hzero : t.conn.postDataLeft = 0)
    (hmark : lastOpened t.history = some t.conn.pcb → t.conn.boundary <:+: t.conn.pending)
    (hother : ∀ i, lastOpened t.history = some i → i ≠ t.conn.pcb → ¬ A i) :
    Mid A u ∧ Extends t.conn.pcb t.history u.history := by
  rcases exists_finished_effects hf with ⟨new, hhist, hinner, hfound⟩
  have hplain : ∀ e ∈ new, Plain e := fun e he => plain_of_inner (hinner e he)
  have hall : ∀ e ∈ savedEffects u.dev ++ new, Plain e := by
    intro e he
    rcases List.mem_append.mp he with he | he
    · exact plain_savedEffects e he
    · exact hplain e he
  have hassoc : u.history = (savedEffects u.dev ++ new) ++ t.history := by
    rw [hhist, List.append_assoc]
  have htype : u.dev.fmType = t.dev.fmType := by
    rw [hf.fmType, if_neg (not_not.mpr hzero)]
  have hcomplete : u.dev.fmType ≠ .none → Complete (new ++ t.history) := by
    intro hpend
    rw [htype] at hpend
    rcases h.pending hpend with hc | ⟨i, hlast, ⟨rfl, -⟩ | ⟨hne, hactive⟩⟩
    · exact complete_append hplain hc
    · have hleft := h.conn.left (Or.inr (opened_mem_of_lastOpened hlast))
      refine ⟨t.conn.pcb, ?_, List.mem_append_left _ (hfound (hmark hlast)), ?_⟩
      · rw [lastOpened_append hplain]
        exact hlast
      · rw [contentLength_append hplain, receivedLength_append hplain]
        omega
    · exact absurd hactive (hother i hlast hne)
  have hstatus : u.conn.uploadStatus ≠ .init := by
    rw [hf.uploadStatus]
    split <;> decide
  refine ⟨⟨⟨Nat.lt_of_le_of_lt hf.dataSendIndex h.conn.index, fun hopen => ?_, fun hi => ?_,
    fun hended => ?_⟩, ?_, fun hpend => Or.inl ?_⟩, ?_⟩
  · rw [hf.pcb, hassoc, opened_mem_append hall] at hopen
    rw [hf.pcb, hf.postDataLeft, hassoc, contentLength_append hall, receivedLength_append hall]
    exact h.conn.left (hopen.imp_left fun hi => absurd hi hstatus)
  · exact absurd hi hstatus
  · rw [hf.pcb, hhist]
    refine List.mem_append_right _ (List.mem_append_left _ (hfound ?_))
    by_contra hclean
    rw [hf.uploadStatus, if_neg hclean] at hended
    exact absurd hended (by decide)
  · rw [hhist]
    exact savesOk_savedEffects (savesOk_append hinner h.saves) hcomplete
  · rw [hhist]
    exact complete_append plain_savedEffects (hcomplete hpend)
  · rw [hhist]
    refine Extends.trans ⟨new, rfl, fun e he => own_of_inner (hinner e he)⟩ ?_
    exact extends_savedEffects _ _ _

/-- An upload that is cut off. The record is cancelled, and nothing is saved. -/
theorem cancelled_finished {t u : Post ρ} (h : Mid A t) (hf : Finished t u)
    (hleft : t.conn.postDataLeft ≠ 0) :
    u.dev.fmType = .none ∧ SavesOk u.history ∧ Extends t.conn.pcb t.history u.history := by
  rcases exists_finished_effects hf with ⟨new, hhist, hinner, -⟩
  have htype : u.dev.fmType = .none := by rw [hf.fmType, if_pos hleft]
  refine ⟨htype, ?_, ?_⟩
  · rw [hhist]
    exact savesOk_savedEffects (savesOk_append hinner h.saves) fun hne => absurd htype hne
  · rw [hhist]
    refine Extends.trans ⟨new, rfl, fun e he => own_of_inner (hinner e he)⟩ ?_
    exact extends_savedEffects _ _ _

/-- What serving a segment leaves: the invariant, with an upload going on only
    as long as something of its body is missing. -/
structure Served (A : Nat → Prop) (t u : Post ρ) : Prop where
  mid : Mid A u
  copy : u.conn.uploadStatus = .copy → u.conn.postDataLeft ≠ 0
  pcb : u.conn.pcb = t.conn.pcb
  history : Extends t.conn.pcb t.history u.history

/-- The bytes behind the part header, and the end of the body if it comes with
    them. -/
theorem served_postData {t : Post ρ} {bytes : List UInt8} {r : Bool × Post ρ} (h : Mid A t)
    (hinit : t.conn.uploadStatus ≠ .init)
    (hmark : t.conn.uploadStatus = .copy → t.conn.postDataLeft = 0 →
      lastOpened t.history = some t.conn.pcb →
      BoundaryIn t.conn.boundary (t.conn.pending ++ bytes))
    (hother : t.conn.uploadStatus = .copy → t.conn.postDataLeft = 0 →
      ∀ i, lastOpened t.history = some i → i ≠ t.conn.pcb → ¬ A i)
    (hr : (extHttpPostData hw bytes t).bind (postRxResult hw) = some r) : Served A t r.2 := by
  rcases Option.bind_eq_some_iff.mp hr with ⟨q, hq, hres⟩
  rcases flushed_extHttpPostData hw h.conn.index hq with ⟨hok, hflushed, hpend, hsend⟩
  have hidx : q.2.conn.dataSendIndex < maxReqLength := by
    rw [hsend]
    exact length_leftover_lt maxReqLength_pos _
  rcases mid_flushed h hflushed hinit hidx with ⟨hmid, hext⟩
  unfold postRxResult at hres
  rw [if_neg (by rw [hok]; decide)] at hres
  by_cases hzero : q.2.conn.postDataLeft = 0
  · rw [if_pos hzero] at hres
    rcases Option.map_eq_some_iff.mp hres with ⟨u, hu, rfl⟩
    by_cases hhandled : q.2.conn.Handled
    · -- a block has ended the upload, or it was over before
      rw [extHttpPostDataFinished_handled hw hhandled, Option.some.injEq] at hu
      rw [← hu]
      refine ⟨hmid, fun hcopy => ?_, hflushed.pcb, hext⟩
      rcases hhandled with he | he
      · exact absurd (he.symm.trans hcopy) (by decide)
      · exact absurd (he.symm.trans hcopy) (by decide)
    · have hclean : ¬ Marked t.conn.boundary
          (blocks maxReqLength (t.conn.pending ++ bytes)) := fun hm =>
        hhandled (Or.inr (hflushed.uploadStatus.trans (if_pos hm)))
      have hsame : q.2.conn.uploadStatus = t.conn.uploadStatus :=
        hflushed.uploadStatus.trans (if_neg hclean)
      have hcopy : t.conn.uploadStatus = .copy := by
        rw [Conn.Handled, hsame] at hhandled
        cases hs : t.conn.uploadStatus with
        | init => exact absurd hs hinit
        | copy => rfl
        | ended => exact absurd (Or.inr hs) hhandled
        | error => exact absurd (Or.inl hs) hhandled
      have hleft : t.conn.postDataLeft = 0 := hflushed.postDataLeft.symm.trans hzero
      have hlast : lastOpened q.2.history = lastOpened t.history := by
        rcases hflushed.history with ⟨new, hnew, hstored, -⟩
        rw [hnew, lastOpened_append fun e he => plain_of_inner (inner_of_stored (hstored e he))]
      have hfin := finished_of_eq_some hw hhandled hidx.le hu
      rcases mid_finished hmid hfin hzero
        (by
          -- the boundary is in one of the buffers, and not in a full one
          rw [hlast, hflushed.pcb, hflushed.boundary, hpend]
          intro hown
          have hin := hmark hcopy hleft hown
          rw [BoundaryIn, marked_append] at hin
          rcases hin.resolve_left hclean with ⟨b, hb, hb'⟩
          rw [List.mem_singleton.mp hb] at hb'
          exact hb')
        (by
          rw [hlast, hflushed.pcb]
          exact hother hcopy hleft) with ⟨hmid', hext'⟩
      rw [hflushed.pcb] at hext'
      refine ⟨hmid', fun hcopy' => ?_, hfin.pcb.trans hflushed.pcb, hext.trans hext'⟩
      have hnot : u.conn.uploadStatus ≠ .copy := by
        rw [hfin.uploadStatus]
        split <;> decide
      exact absurd hcopy' hnot
  · rw [if_neg hzero, Option.some.injEq] at hres
    rw [← hres]
    exact ⟨hmid, fun _ => hzero, hflushed.pcb, hext⟩

/-- A segment keeps the invariant. -/
theorem served_recv {t : Post ρ} {p : Pbuf} {r : Bool × Post ρ} {uploading : Prop} (h : Mid A t)
    (horderly : RecvOrderly hw uploading p t)
    (hup : ∀ i, lastOpened t.history = some i → A i → uploading)
    (hr : extHttpPostRxDataPbuf hw p t = some r) :
    Served A t r.2 := by
  -- The bytes are counted first, which is nothing to the invariant.
  have hmid := mid_countReceived h p
  have hcount : Extends t.conn.pcb t.history (countReceived p t).history :=
    extends_cons (fun j hj => (Option.some.inj hj).symm) (Extends.refl _ _)
  have hpast : ∀ u : Post ρ, Served A (countReceived p t) u → Served A t u := fun u hu =>
    ⟨hu.mid, hu.copy, hu.pcb, hcount.trans hu.history⟩
  unfold extHttpPostRxDataPbuf extHttpPostDataRecv at hr
  by_cases hinit : t.conn.uploadStatus = .init
  · rw [if_pos (show (countReceived p t).conn.uploadStatus = .init from hinit)] at hr
    rcases Option.bind_eq_some_iff.mp hr with ⟨q, hq, hres⟩
    rcases Option.bind_eq_some_iff.mp hq with ⟨v, hv, hret⟩
    rcases recvPartHeader_cases hw hv with
      ⟨ret, hinl, hstatus, hpcb, hidx, hdev, hhist⟩ |
      ⟨bytes, hinr, hstatus, hpcb, hbound, hleft, hidx, hhist⟩
    · -- the upload is refused, and a failure takes the rest of the body with it
      rw [hinl] at hret
      rw [← Option.some.inj hret] at hres
      have hrefused : Mid A r.2 ∧ r.2.conn.uploadStatus = .error ∧
          r.2.conn.pcb = t.conn.pcb ∧ r.2.history = (countReceived p t).history := by
        cases ret with
        | true =>
            rw [postRxResult_handled hw rfl (Or.inl hstatus), Option.some.injEq] at hres
            rw [← hres]
            exact ⟨mid_refused hmid hinit hstatus hpcb hidx hdev hhist, hstatus, hpcb, hhist⟩
        | false =>
            rw [← Option.some.inj hres]
            exact ⟨mid_refused hmid hinit hstatus hpcb hidx hdev hhist, hstatus, hpcb, hhist⟩
      rcases hrefused with ⟨hmid', hstatus', hpcb', hhist'⟩
      refine ⟨hmid', fun hcopy => ?_, hpcb', ?_⟩
      · exact absurd (hstatus'.symm.trans hcopy) (by decide)
      · rw [hhist']
        exact hcount
    · -- the upload is opened, and is the most recent one from here on
      have hlast : lastOpened v.2.history = some v.2.conn.pcb := by
        rw [hhist, hpcb]
        rfl
      have hfirst : firstBytes hw p t = some bytes := by
        rcases v with ⟨v1, v2⟩
        cases hinr
        rw [firstBytes, hv]
      have hpend : v.2.conn.pending = [] := by rw [Conn.pending, hidx, List.take_zero]
      rw [hinr] at hret
      have hloop : extHttpPostData hw bytes v.2 = some q := hret
      have hall : (extHttpPostData hw bytes v.2).bind (postRxResult hw) = some r := by
        rw [hloop]
        exact hres
      have hserved := served_postData hw (A := A)
        (mid_opened hmid hinit hstatus hpcb hleft hidx hhist)
        (by rw [hstatus]; decide)
        (by
          intro _ hzero _
          rw [hpend, List.nil_append, hbound]
          refine (horderly ?_).1 hinit bytes hfirst
          have hsub : t.conn.postDataLeft - p.flatten.length = 0 := hleft.symm.trans hzero
          omega)
        (by
          intro _ _ i hi hne
          rw [hlast, Option.some.injEq] at hi
          exact absurd hi.symm hne)
        hall
      refine hpast r.2 ⟨hserved.mid, hserved.copy, hserved.pcb.trans hpcb, ?_⟩
      have hopened : Own t.conn.pcb (.opened t.conn.pcb) := fun j hj => (Option.some.inj hj).symm
      have hext := hserved.history
      rw [hpcb, hhist] at hext
      exact (extends_cons hopened (Extends.refl _ _)).trans hext
  · rw [if_neg (show (countReceived p t).conn.uploadStatus ≠ .init from hinit)] at hr
    -- The upload is on its way, and the bytes go to its file.
    have hsub : (countReceived p t).conn.postDataLeft = 0 →
        t.conn.postDataLeft ≤ p.flatten.length := by
      intro hzero
      have hsub : t.conn.postDataLeft - p.flatten.length = 0 := hzero
      omega
    refine hpast r.2 (served_postData hw hmid hinit ?_ ?_ hr)
    · intro hcopy hzero hown
      exact (horderly (hsub hzero)).2.1 hcopy hown
    · intro hcopy hzero i hi hne hactive
      refine (horderly (hsub hzero)).2.2 hcopy ?_ (hup i hi hactive)
      intro hown
      have heq : some t.conn.pcb = some i := hown.symm.trans hi
      exact hne (Option.some.inj heq).symm

/-- Closing a connection: what is left pending is complete, or is the upload of
    another connection. -/
theorem close_mid {t u : Post ρ} (h : Mid A t)
    (hcopy : t.conn.uploadStatus = .copy → t.conn.postDataLeft ≠ 0)
    (horderly : lastOpened t.history = some t.conn.pcb → t.conn.uploadStatus = .ended →
      t.conn.postDataLeft = 0)
    (hu : mhttpConnClose hw t = some u) :
    SavesOk u.history ∧ Extends t.conn.pcb t.history u.history ∧
      (u.dev.fmType ≠ .none → Complete u.history ∨
        ∃ i, lastOpened u.history = some i ∧ i ≠ t.conn.pcb ∧ A i) := by
  -- where nothing is done, an upload of this connection must be complete
  have hsame : (t.conn.uploadStatus = .copy → t.conn.postDataLeft = 0) →
      SavesOk t.history ∧ Extends t.conn.pcb t.history t.history ∧
        (t.dev.fmType ≠ .none → Complete t.history ∨
          ∃ i, lastOpened t.history = some i ∧ i ≠ t.conn.pcb ∧ A i) := by
    intro hover
    refine ⟨h.saves, Extends.refl _ _, fun hpend => ?_⟩
    rcases h.pending hpend with hc | ⟨i, hlast, ⟨rfl, hstatus | hstatus⟩ | hother⟩
    · exact Or.inl hc
    · exact absurd (hover hstatus) (hcopy hstatus)
    · exact Or.inl (h.conn.complete hlast hstatus (horderly hlast hstatus))
    · exact Or.inr ⟨i, hlast, hother⟩
  unfold mhttpConnClose at hu
  by_cases hleft : t.conn.postDataLeft ≠ 0
  · rw [if_pos hleft] at hu
    by_cases hhandled : t.conn.Handled
    · rw [extHttpPostDataFinished_handled hw hhandled, Option.some.injEq] at hu
      rw [← hu]
      refine hsame fun hstatus => ?_
      rcases hhandled with he | he
      · exact absurd (he.symm.trans hstatus) (by decide)
      · exact absurd (he.symm.trans hstatus) (by decide)
    · rcases cancelled_finished h (finished_of_eq_some hw hhandled h.conn.index.le hu) hleft with
        ⟨htype, hsaves, hext⟩
      exact ⟨hsaves, hext, fun hpend => absurd htype hpend⟩
  · rw [if_neg hleft, Option.some.injEq] at hu
    rw [← hu]
    exact hsame fun _ => not_not.mp hleft

/-! ### The server -/

/-- The invariant: every connection's counter and status say what the effects
    say, every saved record is as it should be, and a pending type belongs to an
    upload that is complete or going on. -/
structure ServerOk (s : Server ρ) : Prop where
  conns : ∀ i c, s.conns i = some c → c.pcb = i ∧ i < s.accepted ∧ ConnOk c s.history ∧
    (c.uploadStatus = .copy → c.postDataLeft ≠ 0)
  bound : ∀ e ∈ s.history, ∀ j, e.conn? = some j → j < s.accepted
  saves : SavesOk s.history
  pending : s.dev.fmType ≠ .none → Complete s.history ∨ s.Uploading

/-- The connections with an upload going on. -/
def Server.ActiveAt (s : Server ρ) (j : Nat) : Prop := ∃ c, s.conns j = some c ∧ c.Active

section Server

variable {s : Server ρ} {u : Post ρ} {i : Nat}

theorem put_conns_self (c : Option Conn) : (s.put i c u).conns i = c := by
  simp only [Server.put, Function.update_self]

theorem put_conns_of_ne (c : Option Conn) {j : Nat} (hj : j ≠ i) :
    (s.put i c u).conns j = s.conns j := by
  simp only [Server.put, Function.update_of_ne hj]

theorem serverOk_start (dev : Device ρ) : ServerOk (Server.start dev) :=
  ⟨fun _ _ h => absurd h (Option.some_ne_none _).symm, fun _ h => absurd h List.not_mem_nil,
    trivial, fun h => absurd rfl h⟩

/-- A connection of the server, when it comes to be served. -/
theorem mid_of_serverOk {c : Conn} (h : ServerOk s) (hc : s.conns i = some c) :
    Mid s.ActiveAt (s.post c) := by
  rcases h.conns i c hc with ⟨hpcb, -, hok, -⟩
  refine ⟨hok, h.saves, fun hpend => (h.pending hpend).imp_right ?_⟩
  rintro ⟨j, hlast, c', hc', hactive⟩
  refine ⟨j, hlast, ?_⟩
  by_cases hj : j = c.pcb
  · have heq : c' = c := by
      rw [hj, hpcb, Option.mem_def, hc, Option.some.injEq] at hc'
      exact hc'.symm
    rw [heq] at hactive
    exact Or.inl ⟨hj, hactive.imp_right And.left⟩
  · exact Or.inr ⟨hj, c', hc', hactive⟩

/-- The other connections and the bounds, when one connection has been served. -/
theorem bound_put (h : ServerOk s) (hi : i < s.accepted) (hext : Extends i s.history u.history) :
    ∀ e ∈ u.history, ∀ j, e.conn? = some j → j < s.accepted := by
  rcases hext with ⟨new, hnew, hown⟩
  intro e he j hj
  rw [hnew] at he
  rcases List.mem_append.mp he with he | he
  · rw [hown e he j hj]
    exact hi
  · exact h.bound e he j hj

theorem conns_put {c : Option Conn} (h : ServerOk s) (hext : Extends i s.history u.history)
    {j : Nat} {d : Conn} (hj : j ≠ i) (hd : (s.put i c u).conns j = some d) :
    d.pcb = j ∧ j < s.accepted ∧ ConnOk d u.history ∧
      (d.uploadStatus = .copy → d.postDataLeft ≠ 0) := by
  have hold : s.conns j = some d := by
    rw [← hd, put_conns_of_ne c hj]
  rcases h.conns j d hold with ⟨hpcb, hlt, hok, hcopy⟩
  exact ⟨hpcb, hlt, hok.other hext (by rw [hpcb]; exact hj), hcopy⟩

/-- A connection that was served stays. -/
theorem serverOk_put (h : ServerOk s) (hi : i < s.accepted) (hmid : Mid s.ActiveAt u)
    (hcopy : u.conn.uploadStatus = .copy → u.conn.postDataLeft ≠ 0) (hpcb : u.conn.pcb = i)
    (hext : Extends i s.history u.history) : ServerOk (s.put i (some u.conn) u) := by
  have hself : (s.put i (some u.conn) u).conns i = some u.conn := put_conns_self _
  have hbound := bound_put h hi hext
  refine ⟨fun j d hd => ?_, hbound, hmid.saves, fun hpend => ?_⟩
  · by_cases hj : j = i
    · rw [hj, hself, Option.some.injEq] at hd
      rw [← hd, hj]
      exact ⟨hpcb, hi, hmid.conn, hcopy⟩
    · exact conns_put h hext hj hd
  · rcases hmid.pending hpend with hc | ⟨j, hlast, ⟨hj, hstatus⟩ | ⟨hj, c, hc, hactive⟩⟩
    · exact Or.inl hc
    · -- the upload of this connection is going on, or it has just been completed
      by_cases hactive : u.conn.Active
      · refine Or.inr ⟨j, hlast, u.conn, ?_, hactive⟩
        rw [hj, hpcb]
        exact hself
      · rcases hstatus with hstatus | hstatus
        · exact absurd (Or.inl hstatus) hactive
        · rw [hj] at hlast
          refine Or.inl (hmid.conn.complete hlast hstatus ?_)
          by_contra hleft
          exact hactive (Or.inr ⟨hstatus, hleft⟩)
    · rw [hpcb] at hj
      exact Or.inr ⟨j, hlast, c, (put_conns_of_ne _ hj).trans hc, hactive⟩

/-- A connection that was served is freed. -/
theorem serverOk_remove (h : ServerOk s) (hi : i < s.accepted) (hsaves : SavesOk u.history)
    (hext : Extends i s.history u.history)
    (hpending : u.dev.fmType ≠ .none → Complete u.history ∨
      ∃ j, lastOpened u.history = some j ∧ j ≠ i ∧ s.ActiveAt j) :
    ServerOk (s.put i none u) := by
  have hbound := bound_put h hi hext
  refine ⟨fun j d hd => ?_, hbound, hsaves, fun hpend => ?_⟩
  · by_cases hj : j = i
    · rw [hj, put_conns_self] at hd
      exact absurd hd (Option.some_ne_none d).symm
    · exact conns_put h hext hj hd
  · refine (hpending hpend).imp_right ?_
    rintro ⟨j, hlast, hj, c, hc, hactive⟩
    exact ⟨j, hlast, c, (put_conns_of_ne _ hj).trans hc, hactive⟩

/-- Nothing has been received on a connection that was not accepted yet. -/
theorem receivedLength_eq_zero {past : List Effect} {n : Nat}
    (h : ∀ e ∈ past, ∀ j, e.conn? = some j → j < n) : receivedLength n past = 0 := by
  induction past with
  | nil => rfl
  | cons e past ih =>
      have hrest := ih fun e' he' => h e' (List.mem_cons_of_mem e he')
      have he := h e List.mem_cons_self
      cases e with
      | received k m =>
          have hk : k ≠ n := fun hk => absurd (he k rfl) (by omega)
          change (if k = n then m + receivedLength n past else receivedLength n past) = 0
          rw [if_neg hk]
          exact hrest
      | _ => exact hrest

/-- A connection that is just being accepted. -/
theorem mid_announce (h : ServerOk s) (page : Page) (boundary : List UInt8) (contentLen : Nat)
    (data : ReqBuf) :
    Mid s.ActiveAt (announceContent contentLen
      (s.post (newConn s.accepted page boundary data))) := by
  have hnever : .opened s.accepted ∉ s.history := fun hin =>
    absurd (h.bound _ hin s.accepted rfl) (Nat.lt_irrefl _)
  refine ⟨⟨maxReqLength_pos, fun _ => ?_, fun _ hin => ?_, fun hended => ?_⟩,
    ⟨trivial, h.saves⟩, fun hpend => ?_⟩
  · change contentLen = (if s.accepted = s.accepted then contentLen
      else contentLength s.accepted s.history) - receivedLength s.accepted s.history
    rw [if_pos rfl, receivedLength_eq_zero h.bound, Nat.sub_zero]
  · rcases List.mem_cons.mp hin with heq | hin
    · exact absurd heq (by simp only [reduceCtorEq, not_false_eq_true])
    · exact hnever hin
  · exact absurd (show UploadStatus.init = .ended from hended) (by decide)
  · rcases h.pending hpend with ⟨j, hlast, hfound, hlen⟩ | ⟨j, hlast, c, hc, hactive⟩
    · refine Or.inl ⟨j, hlast, List.mem_cons_of_mem _ hfound, ?_⟩
      have hne : s.accepted ≠ j := by
        rintro rfl
        exact hnever (opened_mem_of_lastOpened hlast)
      change (if s.accepted = j then contentLen else contentLength j s.history)
        ≤ receivedLength j s.history
      rw [if_neg hne]
      exact hlen
    · refine Or.inr ⟨j, hlast, Or.inr ⟨fun hj => ?_, c, hc, hactive⟩⟩
      have hin := opened_mem_of_lastOpened hlast
      rw [hj] at hin
      exact hnever hin

/-- A request that fails has given up the rest of its body. -/
theorem postDataLeft_of_failed {t : Post ρ} {p : Pbuf} {r : Bool × Post ρ}
    (hr : extHttpPostRxDataPbuf hw p t = some r) (hfail : r.1 = false) :
    r.2.conn.postDataLeft = 0 := by
  unfold extHttpPostRxDataPbuf at hr
  rcases Option.bind_eq_some_iff.mp hr with ⟨q, -, hres⟩
  unfold postRxResult at hres
  split at hres
  · rw [← Option.some.inj hres]
  · split at hres
    · rcases Option.map_eq_some_iff.mp hres with ⟨w, -, rfl⟩
      exact Bool.noConfusion hfail
    · rw [← Option.some.inj hres] at hfail
      exact Bool.noConfusion hfail

/-- A segment without bytes opens nothing. -/
theorem firstBytes_nil (t : Post ρ) : firstBytes hw [] t = none := by
  unfold firstBytes recvPartHeader
  have hnone : ∀ data : ReqBuf,
      strnstr data.bytes uploadFormFilename
        (min ([] : Pbuf).flatten.length maxReqLength) = none := by
    intro data
    have hzero : min ([] : Pbuf).flatten.length maxReqLength = 0 := Nat.zero_min _
    rw [hzero, strnstr, List.take_zero]
    decide
  dsimp only
  rw [hnone]

/-- What a request leaves: its connection is served like any other, and a
    request that fails has nothing left to receive. -/
theorem served_request {r : Bool × Post ρ} {page : Page} {boundary : List UInt8}
    {contentLen : Nat} {body : Pbuf} {short : Bool} {data : ReqBuf} (h : ServerOk s)
    (horderly : Orderly hw s (.post page boundary contentLen body short data))
    (hr : extHttpPostRequest hw contentLen body
      (s.post (newConn s.accepted page boundary data)) = some r) :
    Served s.ActiveAt (announceContent contentLen
        (s.post (newConn s.accepted page boundary data))) r.2 ∧
      (r.1 = false → r.2.conn.postDataLeft = 0) := by
  have hmid := mid_announce h page boundary contentLen data
  have hup : ∀ j, lastOpened s.history = some j → s.ActiveAt j → s.Uploading :=
    fun j hlast ⟨c, hc, hactive⟩ => ⟨j, hlast, c, hc, hactive⟩
  unfold extHttpPostRequest at hr
  split at hr
  · exact ⟨served_recv hw hmid horderly hup hr, postDataLeft_of_failed hw hr⟩
  · split at hr
    · -- the empty chain stands for the missing body, and finds no file name
      have hnil : RecvOrderly hw s.Uploading [] (announceContent contentLen
          (s.post (newConn s.accepted page boundary data))) := by
        intro _
        refine ⟨fun _ bytes hbytes => ?_, fun hcopy => ?_, fun hcopy => ?_⟩
        · rw [firstBytes_nil] at hbytes
          exact absurd hbytes (Option.not_mem_none bytes)
        · exact absurd (show UploadStatus.init = .copy from hcopy) (by decide)
        · exact absurd (show UploadStatus.init = .copy from hcopy) (by decide)
      exact ⟨served_recv hw hmid hnil hup hr, postDataLeft_of_failed hw hr⟩
    · rw [← Option.some.inj hr]
      refine ⟨⟨hmid, fun hcopy => ?_, rfl, Extends.refl _ _⟩, fun hfail => ?_⟩
      · exact absurd (show UploadStatus.init = .copy from hcopy) (by decide)
      · exact Bool.noConfusion hfail

/-- A lost control block takes no upload with it that is going on. -/
theorem serverOk_err (h : ServerOk s) (horderly : Orderly hw s (.err i)) :
    ServerOk { s with conns := Function.update s.conns i none } := by
  have hold : ∀ j c, Function.update s.conns i none j = some c → j ≠ i ∧ s.conns j = some c := by
    intro j c hc
    by_cases hj : j = i
    · rw [hj, Function.update_self] at hc
      exact absurd hc (Option.some_ne_none c).symm
    · rw [Function.update_of_ne hj] at hc
      exact ⟨hj, hc⟩
  refine ⟨fun j c hc => h.conns j c (hold j c hc).2, h.bound, h.saves, fun hpend => ?_⟩
  refine (h.pending hpend).imp_right fun hup => ?_
  rcases id hup with ⟨j, hlast, c, hc, hactive⟩
  refine ⟨j, hlast, c, ?_, hactive⟩
  have hj : j ≠ i := by
    rintro rfl
    exact horderly hlast hup
  exact (Function.update_of_ne hj _ _).trans hc

/-- Another part of the firmware saves the configuration while no upload is
    going on. -/
theorem serverOk_save {cfgType : CfgType} (h : ServerOk s)
    (horderly : Orderly hw s (.save cfgType)) :
    ServerOk { s with
      dev := s.dev.save hw cfgType
      history := .saved s.dev.runCfg.firmUpdateInfo :: s.history } := by
  have hown : ∀ j, Own j (.saved s.dev.runCfg.firmUpdateInfo) :=
    fun _ _ hk => absurd hk (Option.some_ne_none _).symm
  refine ⟨fun j c hc => ?_, fun e he k hk => ?_, ⟨fun hpend => ?_, h.saves⟩, fun hpend => ?_⟩
  · rcases h.conns j c hc with ⟨hpcb, hlt, hok, hcopy⟩
    refine ⟨hpcb, hlt, ?_, hcopy⟩
    -- the effect belongs to no connection, so to any other one
    exact hok.other (extends_cons (hown (c.pcb + 1)) (Extends.refl _ _)) (by omega)
  · rcases List.mem_cons.mp he with rfl | he
    · exact absurd hk (Option.some_ne_none k).symm
    · exact h.bound e he k hk
  · exact (h.pending hpend).resolve_right horderly
  · have hplain : ∀ e ∈ [Effect.saved s.dev.runCfg.firmUpdateInfo], Plain e := by
      intro e he
      rw [List.mem_singleton.mp he]
      trivial
    exact Or.inl (complete_append hplain ((h.pending hpend).resolve_right horderly))

/-- An orderly event keeps the invariant. -/
theorem serverOk_step {s' : Server ρ} {e : Event} (h : ServerOk s) (horderly : Orderly hw s e)
    (hs : serverStep hw s e = some s') : ServerOk s' := by
  cases e with
  | post page boundary contentLen body short data =>
      rcases Option.bind_eq_some_iff.mp hs with ⟨r, hr, hres⟩
      rcases served_request hw h horderly hr with ⟨hserved, hfail⟩
      have haccept : ServerOk { s with accepted := s.accepted + 1 } :=
        ⟨fun j c hc => by
            rcases h.conns j c hc with ⟨hpcb, hlt, hok⟩
            exact ⟨hpcb, Nat.lt_succ_of_lt hlt, hok⟩,
          fun e he j hj => Nat.lt_succ_of_lt (h.bound e he j hj), h.saves, h.pending⟩
      have hreq : Own s.accepted (.requested s.accepted contentLen) :=
        fun j hj => (Option.some.inj hj).symm
      have hext : Extends s.accepted s.history r.2.history :=
        (extends_cons hreq (Extends.refl _ _)).trans hserved.history
      dsimp only at hres
      split at hres
      · rw [← Option.some.inj hres]
        exact serverOk_put haccept (Nat.lt_succ_self _) hserved.mid hserved.copy hserved.pcb hext
      · -- the request has failed, and its connection is closed
        rename_i hfailed
        rcases Option.map_eq_some_iff.mp hres with ⟨u, hu, rfl⟩
        rcases close_mid hw hserved.mid hserved.copy
          (fun _ _ => hfail (Bool.or_eq_false_iff.mp (Bool.eq_false_iff.mpr hfailed)).1) hu
          with ⟨hsaves, hclose, hpending⟩
        rw [hserved.pcb] at hclose hpending
        exact serverOk_remove haccept (Nat.lt_succ_self _) hsaves (hext.trans hclose) hpending
  | recv i p =>
      unfold serverStep at hs
      dsimp only at hs
      split at hs
      · rw [← Option.some.inj hs]
        exact h
      · rename_i c hc
        rcases Option.map_eq_some_iff.mp hs with ⟨r, hr, rfl⟩
        rcases h.conns i c hc with ⟨hpcb, hlt, -⟩
        have hserved := served_recv hw (mid_of_serverOk h hc) (horderly c hc)
          (fun j hlast ⟨d, hd, hactive⟩ => ⟨j, hlast, d, hd, hactive⟩) hr
        have hext := hserved.history
        rw [show (s.post c).conn.pcb = i from hpcb] at hext
        exact serverOk_put h hlt hserved.mid hserved.copy (hserved.pcb.trans hpcb) hext
  | close i =>
      unfold serverStep at hs
      dsimp only at hs
      split at hs
      · rw [← Option.some.inj hs]
        exact h
      · rename_i c hc
        rcases Option.map_eq_some_iff.mp hs with ⟨u, hu, rfl⟩
        rcases h.conns i c hc with ⟨hpcb, hlt, -, hcopy⟩
        have hended : lastOpened s.history = some c.pcb → c.uploadStatus = .ended →
            c.postDataLeft = 0 := by
          rw [hpcb]
          exact fun hlast hend => horderly hlast c hc hend
        rcases close_mid hw (mid_of_serverOk h hc) hcopy hended hu with ⟨hsaves, hext, hpending⟩
        rw [show (s.post c).conn.pcb = i from hpcb] at hext hpending
        exact serverOk_remove h hlt hsaves hext hpending
  | err i =>
      rw [← Option.some.inj hs]
      exact serverOk_err hw h horderly
  | save cfgType =>
      rw [← Option.some.inj hs]
      exact serverOk_save hw h horderly

end Server

/-- In every orderly run, every record that is saved is empty or belongs to an
    upload that has delivered its whole body and whose ending boundary was
    found. -/
theorem saved_complete (dev : Device ρ) (evs : List Event)
    (hm : Meets (serverNext hw) (OrderlyNext hw) (some (Server.start dev)) evs) :
    ∀ s, run (serverNext hw) (some (Server.start dev)) evs = some s →
      EachPast SavedComplete s.history := by
  have hinv := meets_invariant (I := fun o : Option (Server ρ) => ∀ s ∈ o, ServerOk s)
    (fun o e hok horderly s' hs' => by
      rcases Option.bind_eq_some_iff.mp hs' with ⟨s, hs, hstep⟩
      exact serverOk_step hw (hok s hs) (horderly s hs) hstep)
    (some (Server.start dev))
    (fun s hs => by
      rw [← Option.some.inj hs]
      exact serverOk_start dev)
    evs hm
  exact fun s hs => (hinv s hs).saves

/-- A small upload that is orderly, and a configuration saved behind it. -/
def smallRun : List Event :=
  [.post .updateMcu smallBody.boundary smallBody.body.length [smallBody.body] true
    ReqBuf.zero,
    .save .main]

theorem saved_complete_smallRun :
    Meets (serverNext sound) (OrderlyNext sound) (some (Server.start idleDevice)) smallRun ∧
      ∀ s, run (serverNext sound) (some (Server.start idleDevice)) smallRun = some s →
        EachPast SavedComplete s.history :=
  have hm : Meets (serverNext sound) (OrderlyNext sound) (some (Server.start idleDevice))
      smallRun := by decide +kernel
  ⟨hm, saved_complete sound idleDevice smallRun hm⟩

/-- A body of the announced length whose boundary is missing is reported as an
    error and saved as an update all the same. -/
theorem saved_without_boundary :
    ¬ ∀ s, run (serverNext sound) (some (Server.start idleDevice))
        [.post .updateMcu smallBody.boundary (smallBody.header ++ smallBody.file).length
          [smallBody.header ++ smallBody.file] true ReqBuf.zero] = some s →
      EachPast SavedComplete s.history := by
  intro hall
  have hsaved : (run (serverNext sound) (some (Server.start idleDevice))
      [.post .updateMcu smallBody.boundary (smallBody.header ++ smallBody.file).length
        [smallBody.header ++ smallBody.file] true ReqBuf.zero]).any
      (fun s => ¬ EachPast SavedComplete s.history) = true := by
    decide +kernel
  rcases Option.any_eq_true _ _ |>.mp hsaved with ⟨s, hs, hbad⟩
  exact of_decide_eq_true hbad (hall s hs)

end Http

end RtosLwip
