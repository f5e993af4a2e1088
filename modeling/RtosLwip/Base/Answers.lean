import RtosLwip.Base.Run

/-!
# Machines that Answer

A machine that answers each of its operations, and two of them that cannot be told
apart by their answers: a relation between their states that every operation keeps,
with the same answer on both sides.

## Main definitions

* `answers`: The answers to a list of operations.
* `after`: The state behind them.

## Theorems

* `answers_eq_of_simulates`: Related machines answer alike, and stay related.
-/

namespace RtosLwip

variable {σ τ ω α : Type*}

/-- The answers to a list of operations, in their order. -/
def answers (step : σ → ω → α × σ) : σ → List ω → List α
  | _, [] => []
  | s, o :: rest => (step s o).1 :: answers step (step s o).2 rest

/-- The state behind a list of operations. -/
def after (step : σ → ω → α × σ) (s : σ) (ops : List ω) : σ := run (fun s o => (step s o).2) s ops

theorem after_cons (step : σ → ω → α × σ) (s : σ) (o : ω) (rest : List ω) :
    after step s (o :: rest) = after step (step s o).2 rest := run_cons _ _ _ _

/-- Related machines answer alike, and stay related. -/
theorem answers_eq_of_simulates {step : σ → ω → α × σ} {step' : τ → ω → α × τ}
    {R : σ → τ → Prop}
    (hstep : ∀ s t o, R s t → (step s o).1 = (step' t o).1 ∧ R (step s o).2 (step' t o).2)
    (s : σ) (t : τ) (h0 : R s t) (ops : List ω) :
    answers step s ops = answers step' t ops ∧ R (after step s ops) (after step' t ops) := by
  induction ops generalizing s t with
  | nil => exact ⟨rfl, h0⟩
  | cons o rest ih =>
      rcases hstep s t o h0 with ⟨hanswer, hstate⟩
      rcases ih _ _ hstate with ⟨hrest, hlast⟩
      rw [answers, answers, after_cons, after_cons, hanswer, hrest]
      exact ⟨rfl, hlast⟩

end RtosLwip
