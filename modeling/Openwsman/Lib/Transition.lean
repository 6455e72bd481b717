import Mathlib.Logic.Basic

/-!
# Labelled transition systems

A system is a set of initial states and a labelled step relation. Facts about all reachable states
come from `Reachable.induct`; facts about one system are carried over to another by a *simulation*,
a relation between the states under which every step of the concrete system is answered by a step
of the abstract one, or by no step.
-/

namespace Transition

structure System (σ ℓ : Type*) where
  Init : σ → Prop
  Step : σ → ℓ → σ → Prop

variable {σ ℓ σ' ℓ' : Type*}

inductive Reachable (S : System σ ℓ) : σ → Prop where
  | init {s : σ} : S.Init s → Reachable S s
  | step {s s' : σ} {l : ℓ} : Reachable S s → S.Step s l s' → Reachable S s'

/-- **The invariant rule.** What holds initially and is kept by every step from a reachable state
holds in every reachable state. -/
theorem Reachable.induct {S : System σ ℓ} {P : σ → Prop} (hinit : ∀ s, S.Init s → P s)
    (hstep : ∀ s l s', Reachable S s → P s → S.Step s l s' → P s') {s : σ}
    (h : Reachable S s) : P s := by
  induction h with
  | init hi => exact hinit _ hi
  | step hr hs ih => exact hstep _ _ _ hr ih hs

/-- The runs all of whose steps meet a condition on the state before the step and on the label. -/
def System.restrict (S : System σ ℓ) (C : σ → ℓ → Prop) : System σ ℓ where
  Init := S.Init
  Step s l s' := S.Step s l s' ∧ C s l

theorem Reachable.of_restrict {S : System σ ℓ} {C : σ → ℓ → Prop} {s : σ}
    (h : Reachable (S.restrict C) s) : Reachable S s :=
  Reachable.induct (fun _ hinit ↦ .init (show S.Init _ from hinit))
    (fun _ _ _ _ ih hs ↦ ih.step hs.1) h

def Answers (A : System σ' ℓ') (a : σ') : Option ℓ' → σ' → Prop
  | none, a' => a' = a
  | some l, a' => A.Step a l a'

/-- A forward simulation: `rel` relates initial states, and `act` names the abstract step that
answers a concrete one. -/
structure Simulation (C : System σ ℓ) (A : System σ' ℓ') where
  rel : σ → σ' → Prop
  act : ℓ → Option ℓ'
  init : ∀ c, C.Init c → ∃ a, A.Init a ∧ rel c a
  step : ∀ c l c' a, rel c a → C.Step c l c' → ∃ a', Answers A a (act l) a' ∧ rel c' a'

/-- Every reachable concrete state is related to a reachable abstract one. -/
theorem Simulation.reachable {C : System σ ℓ} {A : System σ' ℓ'} (R : Simulation C A) {c : σ}
    (h : Reachable C c) : ∃ a, Reachable A a ∧ R.rel c a := by
  refine Reachable.induct (P := fun c ↦ ∃ a, Reachable A a ∧ R.rel c a) (fun s hs ↦ ?_)
    (fun s l s' _ ih hs ↦ ?_) h
  · obtain ⟨a, ha, hrel⟩ := R.init s hs
    exact ⟨a, .init ha, hrel⟩
  obtain ⟨a, ha, hrel⟩ := ih
  obtain ⟨a', hans, hrel'⟩ := R.step s l s' a hrel hs
  cases hl : R.act l with
  | none =>
    rw [hl, Answers] at hans
    exact ⟨a', hans ▸ ha, hrel'⟩
  | some l' =>
    rw [hl, Answers] at hans
    exact ⟨a', ha.step hans, hrel'⟩

end Transition
