import Mathlib.Data.List.Basic

/-!
# Machines that answer

A machine takes a state and an input to a state and an answer. `run` feeds it a list of inputs and
collects the answers. A machine refines another one if there is a function from its states, as far
as they have an invariant, to those of the other, under which single steps agree; then whole runs
agree, too.
-/

namespace Machine

variable {σ τ α β γ : Type*}

def run (step : σ → α → σ × γ) : σ → List α → σ × List γ
  | s, [] => (s, [])
  | s, a :: as =>
    let (s', answer) := step s a
    let (s'', answers) := run step s' as
    (s'', answer :: answers)

theorem run_cons (step : σ → α → σ × γ) (s : σ) (a : α) (as : List α) :
    run step s (a :: as) =
      ((run step (step s a).1 as).1, (step s a).2 :: (run step (step s a).1 as).2) := rfl

theorem run_append (step : σ → α → σ × γ) (s : σ) (as bs : List α) :
    run step s (as ++ bs) =
      ((run step (run step s as).1 bs).1,
        (run step s as).2 ++ (run step (run step s as).1 bs).2) := by
  induction as generalizing s with
  | nil => rfl
  | cons a as ih =>
    rw [List.cons_append, run_cons, ih]
    rfl

/-- **Refinement of machines.** If single steps agree and keep the invariant, so do runs. -/
theorem run_abstracts {step : σ → α → σ × γ} {stepA : τ → β → τ × γ} {Inv : σ → Prop} {abs : σ → τ}
    {act : α → β}
    (hstep : ∀ s a, Inv s →
      Inv (step s a).1 ∧ stepA (abs s) (act a) = (abs (step s a).1, (step s a).2))
    {s : σ} (hs : Inv s) (as : List α) :
    Inv (run step s as).1 ∧
      run stepA (abs s) (as.map act) = (abs (run step s as).1, (run step s as).2) := by
  induction as generalizing s with
  | nil => exact ⟨hs, rfl⟩
  | cons a as ih =>
    obtain ⟨hinv, heq⟩ := hstep s a hs
    obtain ⟨hrun, hruns⟩ := ih hinv
    refine ⟨hrun, ?_⟩
    rw [List.map_cons, run_cons, heq]
    dsimp only
    rw [hruns]
    rfl

end Machine
