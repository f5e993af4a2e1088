import Mathlib.Data.List.Basic

/-!
# Runs of a Step Function

Whole runs of a deterministic step function fed with events, and the two
rules that carry a property of one step to a property of every run.

Everything the environment may choose — the outcome of a hardware operation,
the arrival of a packet, the expiry of a timer — is part of the event, so a
run is nothing but a list of events folded over the starting state.

`run_invariant` is the unconditional rule. `meets_invariant` is the one for a
system that keeps a property only as long as its environment behaves: `Meets`
says that every event of the run satisfies a condition in the state it arrives
in, and the rule hands that condition to the step.

## Main definitions

* `run`: The state after a list of events.
* `Meets`: Every event of a run satisfies a condition where it arrives.

## Theorems

* `run_append`: A run of a concatenation is a run after a run.
* `run_invariant`: What every step preserves, every run preserves.
* `exists_runs`: The same of a step that may fail, but does not as long as the property holds.
* `meets_append`: A condition met by a whole run is met by its two parts.
* `meets_invariant`: What every step under the condition preserves, every run
  under the condition preserves.
* `meets_of_meets`: Conditions of runs follow from one another under an invariant.
* `always_iff_meets`: A property that a step keeps exactly under the condition
  holds in every state of a run exactly if the run meets the condition.
* `observed_cons`, `observed_iff_meets`: The same for a property that is only looked at
  behind some events.
-/

namespace RtosLwip

variable {σ ε : Type*}

/-- The state a list of events leads to. -/
def run (step : σ → ε → σ) (s : σ) (evs : List ε) : σ :=
  evs.foldl step s

@[simp] theorem run_nil (step : σ → ε → σ) (s : σ) : run step s [] = s := rfl

@[simp] theorem run_cons (step : σ → ε → σ) (s : σ) (e : ε) (evs : List ε) :
    run step s (e :: evs) = run step (step s e) evs := rfl

theorem run_append (step : σ → ε → σ) (s : σ) (a b : List ε) :
    run step s (a ++ b) = run step (run step s a) b := by
  simp only [run, List.foldl_append]

/-- What every step preserves, every run preserves. -/
theorem run_invariant {step : σ → ε → σ} {I : σ → Prop}
    (hstep : ∀ s e, I s → I (step s e)) (s : σ) (h0 : I s) (evs : List ε) :
    I (run step s evs) := by
  induction evs generalizing s with
  | nil => exact h0
  | cons e rest ih => exact ih (step s e) (hstep s e h0)

/-- A step that has a result, and keeps a property, wherever the property holds: so it is with
    runs. -/
theorem exists_runs {step : σ → ε → Option σ} {I : σ → Prop}
    (hstep : ∀ s e, I s → ∃ s', step s e = some s' ∧ I s') (s : σ) (h0 : I s) (evs : List ε) :
    ∃ s', evs.foldlM step s = some s' ∧ I s' := by
  induction evs generalizing s with
  | nil => exact ⟨s, rfl, h0⟩
  | cons e rest ih =>
      rcases hstep s e h0 with ⟨s₁, hs₁, h₁⟩
      rcases ih s₁ h₁ with ⟨s₂, hs₂, h₂⟩
      refine ⟨s₂, ?_, h₂⟩
      rw [List.foldlM_cons, hs₁]
      exact hs₂

/-- Every event of the run satisfies `C` in the state it arrives in. -/
def Meets (step : σ → ε → σ) (C : σ → ε → Prop) : σ → List ε → Prop
  | _, [] => True
  | s, e :: rest => C s e ∧ Meets step C (step s e) rest

instance decidableMeets (step : σ → ε → σ) (C : σ → ε → Prop) [∀ s e, Decidable (C s e)] :
    ∀ s evs, Decidable (Meets step C s evs)
  | _, [] => .isTrue trivial
  | s, e :: rest =>
    have := decidableMeets step C (step s e) rest
    inferInstanceAs (Decidable (C s e ∧ Meets step C (step s e) rest))

theorem meets_append {step : σ → ε → σ} {C : σ → ε → Prop} (s : σ) (a b : List ε) :
    Meets step C s (a ++ b) ↔ Meets step C s a ∧ Meets step C (run step s a) b := by
  induction a generalizing s with
  | nil => simp only [List.nil_append, Meets, run_nil, true_and]
  | cons e rest ih => simp only [List.cons_append, Meets, run_cons, ih, and_assoc]

/-- What every step under the condition preserves, every run under the
    condition preserves. -/
theorem meets_invariant {step : σ → ε → σ} {C : σ → ε → Prop} {I : σ → Prop}
    (hstep : ∀ s e, I s → C s e → I (step s e)) (s : σ) (h0 : I s) (evs : List ε)
    (hm : Meets step C s evs) : I (run step s evs) := by
  induction evs generalizing s with
  | nil => exact h0
  | cons e rest ih => exact ih (step s e) (hstep s e h0 hm.1) hm.2

/-- A condition that follows from another one, as long as `I` holds, is met by the
    runs that meet the other one. -/
theorem meets_of_meets {step : σ → ε → σ} {C C' : σ → ε → Prop} {I : σ → Prop}
    (hstep : ∀ s e, I s → C s e → I (step s e)) (himp : ∀ s e, I s → C s e → C' s e) (s : σ)
    (h0 : I s) (evs : List ε) (hm : Meets step C s evs) : Meets step C' s evs := by
  induction evs generalizing s with
  | nil => trivial
  | cons e rest ih =>
      exact ⟨himp s e h0 hm.1, ih (step s e) (hstep s e h0 hm.1) hm.2⟩

/-- A property that a step keeps exactly under the condition, as long as `I`
    holds, holds all along a run exactly if the run meets the condition. -/
theorem always_iff_meets {step : σ → ε → σ} {C : σ → ε → Prop} {I P : σ → Prop}
    (hstep : ∀ s e, I s → P s → I (step s e) ∧ (P (step s e) ↔ C s e)) (s : σ) (h0 : I s)
    (hP : P s) (evs : List ε) :
    (∀ past, past <+: evs → P (run step s past)) ↔ Meets step C s evs := by
  induction evs generalizing s with
  | nil =>
      refine iff_of_true (fun past hpast => ?_) trivial
      rw [List.prefix_nil.mp hpast]
      exact hP
  | cons e rest ih =>
      rcases hstep s e h0 hP with ⟨hI, hiff⟩
      constructor
      · intro h
        have hnext : P (step s e) := h [e] ⟨rest, rfl⟩
        refine ⟨hiff.mp hnext, (ih (step s e) hI hnext).mp fun past hpast => ?_⟩
        exact h (e :: past) (List.cons_prefix_cons.mpr ⟨rfl, hpast⟩)
      · rintro ⟨hC, hrest⟩ past hpast
        cases past with
        | nil => exact hP
        | cons e' past =>
            rcases List.cons_prefix_cons.mp hpast with ⟨rfl, hrest'⟩
            exact (ih (step s e') hI (hiff.mpr hC)).mpr hrest past hrest'

/-- What is looked at behind the events of a run is looked at behind the first and behind
the others. -/
theorem observed_cons {step : σ → ε → σ} {O : σ → ε → Prop} {R : σ → Prop} (s : σ) (e : ε)
    (evs : List ε) :
    (∀ past e', past ++ [e'] <+: e :: evs → O (run step s past) e' →
      R (run step s (past ++ [e']))) ↔
      (O s e → R (step s e)) ∧
        ∀ past e', past ++ [e'] <+: evs → O (run step (step s e) past) e' →
          R (run step (step s e) (past ++ [e'])) := by
  constructor
  · intro h
    exact ⟨h [] e ⟨evs, rfl⟩,
      fun past e' hpast => h (e :: past) e' (List.cons_prefix_cons.mpr ⟨rfl, hpast⟩)⟩
  · rintro ⟨hfirst, hrest⟩ past e' hpast hO
    cases past with
    | nil =>
        rcases List.cons_prefix_cons.mp hpast with ⟨rfl, -⟩
        exact hfirst hO
    | cons e'' past =>
        rcases List.cons_prefix_cons.mp hpast with ⟨rfl, hrest'⟩
        exact hrest past e' hrest' hO

/-- A property that is looked at behind the events `O` holds there all along a run
exactly if the run meets the condition, when behind these events it says as much as
the condition, and the other events meet the condition anyway. -/
theorem observed_iff_meets {step : σ → ε → σ} {C O : σ → ε → Prop} {I R : σ → Prop}
    (hkeep : ∀ s e, I s → C s e → I (step s e))
    (hseen : ∀ s e, I s → O s e → (R (step s e) ↔ C s e))
    (hunseen : ∀ s e, I s → ¬ O s e → C s e) (s : σ) (h0 : I s) (evs : List ε) :
    (∀ past e, past ++ [e] <+: evs → O (run step s past) e → R (run step s (past ++ [e]))) ↔
      Meets step C s evs := by
  induction evs generalizing s with
  | nil =>
      refine iff_of_true (fun past e hpast => ?_) trivial
      exact absurd (List.prefix_nil.mp hpast) (List.append_ne_nil_of_right_ne_nil past nofun)
  | cons e rest ih =>
      have hfirst : (O s e → R (step s e)) ↔ C s e := by
        by_cases hO : O s e
        · rw [← hseen s e h0 hO]
          exact ⟨fun h => h hO, fun h _ => h⟩
        · exact iff_of_true (fun h => absurd h hO) (hunseen s e h0 hO)
      rw [observed_cons, hfirst]
      exact and_congr_right fun hC => ih (step s e) (hkeep s e h0 hC)

end RtosLwip
