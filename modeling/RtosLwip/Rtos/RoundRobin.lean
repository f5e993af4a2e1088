import RtosLwip.Rtos.Lists

/-!
# Taking Turns

The index of a list goes around its items, and the items that are put in meanwhile come in
front of it. So an item that stays in a list has its turn again, whatever else is put in and
taken out: before it comes at most the rest of the list, and then what is in front of it.
This is how tasks of one priority share the processor.

A list is seen as two parts here, the items up to the cursor and those behind it. Putting an
item in at the end of the list makes the first part longer, so it delays nobody.

## Main definitions

* `Turned`: The two parts of a list.
* `Due`: How many turns there are before that of an item.

## Theorems

* `Due.apply`: One operation delays nobody, and a turn brings the others nearer.
* `Due.answered`: The turn comes.
* `round_robin`: The same of the links.
-/

namespace RtosLwip

namespace Rtos

variable {κ ι : Type}

/-- The items up to the cursor of a list, and those behind it. -/
structure Turned (A : Contents κ ι) (l : κ) (p q : List ι) : Prop where
  items : A.items l = p ++ q
  cursor : A.cursor l = p.getLast?
  nodup : (p ++ q).Nodup

/-- In a list of `N` items, at most `n` others have their turn before `b`: it is behind the cursor,
    or the rest of the list comes first, and then the beginning. -/
def Due (b : ι) (N n : Nat) (p q : List ι) : Prop :=
  (∃ m r, q = m ++ b :: r ∧ m.length ≤ n) ∨ (b ∈ p ∧ q.length + N ≤ n)

namespace Turned

variable {A A' : Contents κ ι} {l l' : κ} {p q : List ι} {i b : ι} {N n : Nat}

/-- Every list has its two parts. -/
theorem exists_parts {s : Lists κ ι} (h : Holds s A) (l : κ) : ∃ p q, Turned A l p q := by
  have hnodup := h.nodup l
  cases hc : A.cursor l with
  | none => exact ⟨[], A.items l, rfl, hc, hnodup⟩
  | some c =>
      obtain ⟨p, q, hsplit⟩ := List.append_of_mem (h.cursor l c hc)
      rw [List.append_cons] at hsplit
      exact ⟨p ++ [c], q, hsplit, hc.trans List.getLast?_concat.symm, hsplit ▸ hnodup⟩

/-- An item of the list is not far away. -/
theorem due (h : Turned A l p q) (hb : b ∈ A.items l) (hN : (A.items l).length ≤ N) :
    Due b N (2 * N - 1) p q := by
  rw [h.items] at hb hN
  rw [List.length_append] at hN
  rcases List.mem_append.mp hb with hp | hq
  · have hpos := List.length_pos_of_mem hp
    exact .inr ⟨hp, by omega⟩
  · obtain ⟨m, r, rfl⟩ := List.append_of_mem hq
    rw [List.length_append, List.length_cons] at hN
    exact .inl ⟨m, r, rfl, by omega⟩

/-- What happens to other lists does not matter. -/
theorem congr (h : Turned A l p q) (hitems : A'.items l = A.items l)
    (hcursor : A'.cursor l = A.cursor l) : Turned A' l p q :=
  ⟨hitems.trans h.items, hcursor.trans h.cursor, h.nodup⟩

variable [DecidableEq ι]

/-- The place of the last item of the first part. -/
theorem split_last {c : ι} {p q : List ι} (hnodup : (p ++ [c] ++ q).Nodup) :
    (p ++ [c] ++ q).takeWhile (· ≠ c) = p ∧ (p ++ [c] ++ q).dropWhile (· ≠ c) = c :: q := by
  rw [List.append_assoc, List.singleton_append] at hnodup ⊢
  have hp : ∀ a ∈ p, decide (a ≠ c) = true := by
    intro a ha
    rw [decide_eq_true_iff]
    rintro rfl
    exact (List.nodup_append.mp hnodup).2.2 a ha a List.mem_cons_self rfl
  rw [List.takeWhile_append_of_pos hp, List.dropWhile_append_of_pos hp]
  constructor
  · rw [List.takeWhile_cons_of_neg (by simp), List.append_nil]
  · rw [List.dropWhile_cons_of_neg (by simp)]

variable [DecidableEq κ]

/-- An item that is put in at the end has its turn behind all others. -/
theorem insertEnd (h : Turned A l p q) (hfree : A.Free i) (hdue : Due b N n p q) :
    ∃ p' q', Turned (A.insertEnd l i) l p' q' ∧ Due b N n p' q' := by
  have hnew := hfree l
  rw [h.items] at hnew
  have hcursor : (A.insertEnd l i).cursor l = p.getLast? := h.cursor
  rcases p.eq_nil_or_concat' with rfl | ⟨p', c, rfl⟩
  · -- the cursor is in front of all items
    refine ⟨[], q ++ [i], ⟨?_, hcursor, ?_⟩, ?_⟩
    · unfold Contents.insertEnd
      rw [h.cursor, h.items]
      exact Function.update_self _ _ _
    · have hq : q.Nodup := h.nodup
      exact hq.append (List.nodup_singleton i) (List.disjoint_singleton.mpr hnew)
    · rcases hdue with ⟨m, r, rfl, hm⟩ | ⟨hp, -⟩
      · exact .inl ⟨m, r ++ [i], by simp, hm⟩
      · exact absurd hp List.not_mem_nil
  · -- it comes in front of the item at the cursor
    obtain ⟨htake, hdrop⟩ := split_last h.nodup
    refine ⟨p' ++ [i] ++ [c], q, ⟨?_, ?_, ?_⟩, ?_⟩
    · unfold Contents.insertEnd
      rw [h.cursor, List.getLast?_concat, h.items]
      dsimp only [Contents.placeEnd]
      rw [Function.update_self, htake, hdrop]
      simp
    · rw [hcursor, List.getLast?_concat, List.getLast?_concat]
    · have hperm : (i :: (p' ++ [c] ++ q)).Perm (p' ++ [i] ++ [c] ++ q) := by
        simpa using (List.perm_middle : (p' ++ i :: c :: q).Perm (i :: (p' ++ c :: q))).symm
      exact hperm.nodup_iff.mp (List.nodup_cons.mpr ⟨hnew, h.nodup⟩)
    · rcases hdue with hq | ⟨hp, hn⟩
      · exact .inl hq
      · refine .inr ⟨?_, hn⟩
        rcases List.mem_append.mp hp with hb | hb
        · exact List.mem_append_left _ (List.mem_append_left _ hb)
        · exact List.mem_append_right _ hb

/-- An item that is taken out makes nobody wait longer. -/
theorem remove (h : Turned A l p q) (hmem : i ∈ A.items l) (hne : i ≠ b) (hdue : Due b N n p q) :
    ∃ p' q', Turned (A.remove l i) l p' q' ∧ Due b N n p' q' := by
  rw [h.items] at hmem
  have hitems : (A.remove l i).items l = (p ++ q).erase i := by
    dsimp only [Contents.remove]
    rw [Function.update_self, h.items]
  have hcursor : (A.remove l i).cursor l =
      if p.getLast? = some i then ((p ++ q).takeWhile (· ≠ i)).getLast? else p.getLast? := by
    dsimp only [Contents.remove]
    rw [Function.update_self, h.items, h.cursor]
  by_cases hp : i ∈ p
  · have herase := List.erase_append_left q hp
    refine ⟨p.erase i, q, ⟨hitems.trans herase, ?_, herase ▸ h.nodup.erase i⟩, ?_⟩
    · obtain ⟨p', c, rfl⟩ := p.eq_nil_or_concat'.resolve_left fun hnil => by
        rw [hnil] at hp
        exact absurd hp List.not_mem_nil
      rw [hcursor, List.getLast?_concat]
      by_cases hc : c = i
      · -- the cursor goes back by one
        subst hc
        obtain ⟨htake, -⟩ := split_last h.nodup
        have hold : c ∉ p' := fun hold =>
          (List.nodup_append.mp (List.nodup_append.mp h.nodup).1).2.2 c hold c
            List.mem_cons_self rfl
        rw [if_pos rfl, htake, List.erase_append_right [c] hold, List.erase_cons_head,
          List.append_nil]
      · have hp' : i ∈ p' := (List.mem_append.mp hp).resolve_right fun hi =>
          hc (List.mem_singleton.mp hi).symm
        rw [if_neg (fun heq => hc (Option.some.inj heq)), List.erase_append_left [c] hp',
          List.getLast?_concat]
    · rcases hdue with hq | ⟨hb, hn⟩
      · exact .inl hq
      · exact .inr ⟨(List.mem_erase_of_ne hne.symm).mpr hb, hn⟩
  · have herase := List.erase_append_right q hp
    refine ⟨p, q.erase i, ⟨hitems.trans herase, ?_, herase ▸ h.nodup.erase i⟩, ?_⟩
    · rw [hcursor, if_neg fun heq => hp (List.mem_of_getLast? heq)]
    · rcases hdue with ⟨m, r, rfl, hm⟩ | ⟨hb, hn⟩
      · by_cases him : i ∈ m
        · refine .inl ⟨m.erase i, r, List.erase_append_left _ him, ?_⟩
          exact Nat.le_trans List.length_erase_le hm
        · refine .inl ⟨m, r.erase i, ?_, hm⟩
          rw [List.erase_append_right _ him, List.erase_cons_tail (by simpa using hne.symm)]
      · exact .inr ⟨hb, Nat.le_trans (Nat.add_le_add_right List.length_erase_le N) hn⟩

/-- A turn: it is that of `b`, or `b` comes nearer. -/
theorem advance (h : Turned A l p q) (hN : (A.items l).length ≤ N) (hdue : Due b N n p q) :
    Contents.next (A.cursor l) (A.items l) = some b ∨
      ∃ p' q' n', Turned (A.advance l) l p' q' ∧ Due b N n' p' q' ∧ n = n' + 1 := by
  have hitems : (A.advance l).items l = p ++ q := h.items
  have hcursor : (A.advance l).cursor l = Contents.next (A.cursor l) (A.items l) :=
    Function.update_self _ _ _
  -- the item behind the first part
  have hnext : ∀ x q', p ++ q = p ++ x :: q' →
      Contents.next (A.cursor l) (A.items l) = some x := by
    intro x q' hq
    rw [h.cursor, h.items, hq]
    rcases p.eq_nil_or_concat' with rfl | ⟨p', c, rfl⟩
    · rfl
    · have hdrop := (split_last (hq ▸ h.nodup)).2
      rw [List.getLast?_concat]
      dsimp only [Contents.next]
      rw [hdrop]
      rfl
  cases q with
  | cons x q' =>
      have hx := hnext x q' rfl
      rcases hdue with ⟨m, r, hm, hn⟩ | ⟨hb, hn⟩
      · cases m with
        | nil =>
            obtain ⟨rfl, rfl⟩ := List.cons.inj hm
            exact .inl hx
        | cons y m =>
            rw [List.cons_append, List.cons.injEq] at hm
            obtain ⟨rfl, rfl⟩ := hm
            rw [List.length_cons] at hn
            refine .inr ⟨p ++ [x], m ++ b :: r, n - 1, ⟨?_, ?_, ?_⟩, .inl ⟨m, r, rfl, by omega⟩,
              by omega⟩
            · rw [hitems, List.append_cons]
            · rw [hcursor, hx, List.getLast?_concat]
            · exact List.append_cons p x _ ▸ h.nodup
      · rw [List.length_cons] at hn
        refine .inr ⟨p ++ [x], q', n - 1, ⟨?_, ?_, ?_⟩,
          .inr ⟨List.mem_append_left _ hb, by omega⟩, by omega⟩
        · rw [hitems, List.append_cons]
        · rw [hcursor, hx, List.getLast?_concat]
        · exact List.append_cons p x _ ▸ h.nodup
  | nil =>
      rw [List.append_nil] at hitems
      have hall : A.items l = p := h.items.trans (List.append_nil p)
      rcases hdue with ⟨m, r, hm, -⟩ | ⟨hb, hn⟩
      · exact absurd hm.symm (List.append_ne_nil_of_right_ne_nil m (List.cons_ne_nil b r))
      · cases p with
        | nil => exact absurd hb List.not_mem_nil
        | cons x p' =>
            -- the cursor passes over the end of the list
            have hx : Contents.next (A.cursor l) (A.items l) = some x := by
              obtain ⟨a, c, hac⟩ := (x :: p').eq_nil_or_concat'.resolve_left (List.cons_ne_nil x p')
              have hdrop := (split_last (q := []) (hac ▸ h.nodup)).2
              rw [List.append_nil] at hdrop
              rw [h.cursor, hall, hac, List.getLast?_concat]
              dsimp only [Contents.next]
              rw [hdrop, ← hac]
              rfl
            by_cases hxb : x = b
            · exact .inl (hxb ▸ hx)
            · obtain ⟨m, r, rfl⟩ :=
                List.append_of_mem ((List.mem_cons.mp hb).resolve_left fun heq => hxb heq.symm)
              rw [hall, List.length_cons, List.length_append, List.length_cons] at hN
              rw [List.length_nil, Nat.zero_add] at hn
              refine .inr ⟨[x], m ++ b :: r, n - 1, ⟨hitems, ?_, ?_⟩, .inl ⟨m, r, rfl, by omega⟩,
                by omega⟩
              · rw [hcursor, hx]
                rfl
              · have hnodup := h.nodup
                rw [List.append_nil] at hnodup
                exact hnodup

end Turned

/-! ### Runs -/

namespace ListOp

variable [DecidableEq κ] [DecidableEq ι] {l : κ} {b : ι} {N n : Nat}

/-- The item stays where it is, and no other one is put in by its value. -/
def Keeps (b : ι) (l : κ) : ListOp κ ι → Prop
  | insert l' _ _ => l' ≠ l
  | remove _ i => i ≠ b
  | _ => True

instance (b : ι) (l : κ) : ∀ o : ListOp κ ι, Decidable (o.Keeps b l)
  | insertEnd _ _ => .isTrue trivial
  | insert l' _ _ => inferInstanceAs (Decidable (l' ≠ l))
  | remove _ i => inferInstanceAs (Decidable (i ≠ b))
  | advance _ => .isTrue trivial

/-- It is a turn of the list. -/
def turns (l : κ) : ListOp κ ι → Bool
  | advance l' => l' = l
  | _ => false

/-- One operation: it answers `b`, or `b` waits no longer, and less after a turn. -/
theorem due_apply {A : Contents κ ι} {p q : List ι} (h : Turned A l p q)
    (hN : (A.items l).length ≤ N) (hdue : Due b N n p q) {o : ListOp κ ι} (ho : o.Allowed A)
    (hkeep : o.Keeps b l) :
    (o.apply A).1 = .owner (some b) ∨ ∃ p' q' n', Turned (o.apply A).2 l p' q' ∧
      Due b N n' p' q' ∧ n = n' + if o.turns l then 1 else 0 := by
  cases o with
  | insertEnd l' i =>
      by_cases hl : l' = l
      · subst hl
        obtain ⟨p', q', h', hdue'⟩ := h.insertEnd ho hdue
        exact .inr ⟨p', q', n, h', hdue', rfl⟩
      · refine .inr ⟨p, q, n, h.congr ?_ rfl, hdue, rfl⟩
        exact Function.update_of_ne (Ne.symm hl) _ _
  | insert l' i value =>
      refine .inr ⟨p, q, n, h.congr ?_ rfl, hdue, rfl⟩
      exact Function.update_of_ne (Ne.symm hkeep) _ _
  | remove l' i =>
      by_cases hl : l' = l
      · subst hl
        obtain ⟨p', q', h', hdue'⟩ := h.remove ho hkeep hdue
        exact .inr ⟨p', q', n, h', hdue', rfl⟩
      · refine .inr ⟨p, q, n, h.congr ?_ ?_, hdue, rfl⟩
        · exact Function.update_of_ne (Ne.symm hl) _ _
        · exact Function.update_of_ne (Ne.symm hl) _ _
  | advance l' =>
      by_cases hl : l' = l
      · subst hl
        rcases h.advance hN hdue with hb | ⟨p', q', n', h', hdue', hn⟩
        · exact .inl (congrArg ListAnswer.owner hb)
        · refine .inr ⟨p', q', n', h', hdue', ?_⟩
          rw [turns, if_pos (decide_eq_true rfl), hn]
      · refine .inr ⟨p, q, n, h.congr rfl ?_, hdue, ?_⟩
        · exact Function.update_of_ne (Ne.symm hl) _ _
        · rw [turns, if_neg (by simpa using hl), Nat.add_zero]

/-- Behind `n` turns comes that of `b`. -/
theorem due_answered {A : Contents κ ι} {p q : List ι} (h : Turned A l p q)
    (hdue : Due b N n p q) {ops : List (ListOp κ ι)}
    (hallowed : Meets (fun A o => (apply A o).2) (fun A o => o.Allowed A) A ops)
    (hkeep : ∀ o ∈ ops, o.Keeps b l)
    (hN : Meets (fun A o => (apply A o).2) (fun (A : Contents κ ι) _ => (A.items l).length ≤ N) A
      ops)
    (hcount : n < ops.countP (turns l)) : .owner (some b) ∈ answers apply A ops := by
  induction ops generalizing A p q n with
  | nil => exact absurd hcount (Nat.not_lt_zero n)
  | cons o ops ih =>
      obtain ⟨ho, hallowed⟩ := hallowed
      obtain ⟨hlen, hN⟩ := hN
      rw [List.countP_cons] at hcount
      rw [answers]
      rcases due_apply h hlen hdue ho (hkeep o List.mem_cons_self) with
        hb | ⟨p', q', n', h', hdue', rfl⟩
      · exact hb ▸ List.mem_cons_self
      · refine List.mem_cons_of_mem _ (ih h' hdue' hallowed ?_ hN ?_)
        · exact fun o' ho' => hkeep o' (List.mem_cons_of_mem o ho')
        · exact Nat.lt_of_add_lt_add_right hcount

end ListOp

/-- What holds behind every part of a run is met all along it. -/
theorem meets_of_take {σ ω : Type} {step : σ → ω → σ} {C : σ → Prop} {s : σ} {ops : List ω}
    (h : ∀ k < ops.length, C (run step s (ops.take k))) : Meets step (fun s _ => C s) s ops := by
  induction ops generalizing s with
  | nil => trivial
  | cons o ops ih =>
      refine ⟨h 0 (Nat.succ_pos _), ih fun k hk => ?_⟩
      exact h (k + 1) (Nat.succ_lt_succ hk)

variable [DecidableEq κ] [DecidableEq ι]

/-- An item that stays in a list of at most `N` items is at the index after at most `2 * N` turns,
    whatever is put in at the end and taken out meanwhile, and whatever is done to other lists. -/
theorem round_robin (values : ι → UInt32) (before ops : List (ListOp κ ι))
    (hallowed : Meets (fun A o => (ListOp.apply A o).2) (fun A o => o.Allowed A)
      (⟨fun _ => [], fun _ => none, values⟩ : Contents κ ι) (before ++ ops))
    {l : κ} {b : ι} {N : Nat}
    (hb : ∀ r ∈ ListOp.runs (Lists.initialise values) before, r.2.pvContainer b = some l)
    (hkeep : ∀ o ∈ ops, o.Keeps b l)
    (hN : ∀ k ≤ ops.length, ∀ r ∈ ListOp.runs (Lists.initialise values) (before ++ ops.take k),
      r.2.uxNumberOfItems l ≤ N)
    (hcount : 2 * N ≤ ops.countP (ListOp.turns l)) :
    ∃ as s as' s', ListOp.runs (Lists.initialise values) before = some (as, s) ∧
      ListOp.runs s ops = some (as', s') ∧ .owner (some b) ∈ as' := by
  have hinit := Holds.initialise (κ := κ) values
  generalize (⟨fun _ => [], fun _ => none, values⟩ : Contents κ ι) = A₀ at hallowed hinit
  generalize (Lists.initialise values : Lists κ ι) = s₀ at hinit hb hN ⊢
  obtain ⟨hbefore, hops⟩ := (meets_append _ _ _).mp hallowed
  obtain ⟨s, hruns, hs⟩ := ListOp.runs_apply hinit hbefore
  obtain ⟨s', hruns', -⟩ := ListOp.runs_apply hs hops
  refine ⟨_, s, _, s', hruns, hruns', ?_⟩
  -- as many items as there may be
  have hlen : Meets (fun A o => (ListOp.apply A o).2)
      (fun (A : Contents κ ι) _ => (A.items l).length ≤ N) (after ListOp.apply A₀ before) ops := by
    refine meets_of_take (C := fun A : Contents κ ι => (A.items l).length ≤ N) fun k hk => ?_
    have hfront := hops
    rw [← List.take_append_drop k ops, meets_append] at hfront
    obtain ⟨sₖ, hrunsₖ, hsₖ⟩ :=
      ListOp.runs_apply hinit ((meets_append _ _ _).mpr ⟨hbefore, hfront.1⟩)
    have hle := hN k (Nat.le_of_lt hk) _ hrunsₖ
    rw [hsₖ.count, after, run_append] at hle
    exact hle
  have hmem := (hs.container b l).mp (hb _ hruns)
  obtain ⟨p, q, hturned⟩ := Turned.exists_parts hs l
  -- a list with an item in it has a bound that is not zero
  have hle : ((after ListOp.apply A₀ before).items l).length ≤ N := by
    rw [← hs.count]
    refine hN 0 (Nat.zero_le _) (answers ListOp.apply A₀ before, s) ?_
    rw [List.take_zero, List.append_nil]
    exact hruns
  have hpos := List.length_pos_of_mem hmem
  exact ListOp.due_answered hturned (hturned.due hmem hle) hops hkeep hlen (by omega)

/-- Item 1 has its turn, while item 2 comes and goes. -/
theorem round_robin_guest :
    ∃ as s as' s', ListOp.runs (Lists.initialise fun _ => 0)
        [.insertEnd () 0, .insertEnd () (1 : Fin 3)] = some (as, s) ∧
      ListOp.runs s [.advance (), .insertEnd () 2, .advance (), .remove () 2, .advance (),
        .insertEnd () 2, .advance (), .advance (), .advance ()] = some (as', s') ∧
      .owner (some 1) ∈ as' :=
  round_robin (fun _ => 0) [.insertEnd () 0, .insertEnd () 1]
    [.advance (), .insertEnd () 2, .advance (), .remove () 2, .advance (), .insertEnd () 2,
      .advance (), .advance (), .advance ()]
    (l := ()) (N := 3) (by decide) (by decide) (by decide) (by decide) (by decide)

end Rtos

end RtosLwip
