import Mathlib.Data.List.Basic
import Openwsman.Lib.Transition

/-!
# Segments of runs

A segment of a run is a list of consecutive steps, each with the states before and after it. What
has to happen in a segment is shown by counting: some steps are *ticks*, and a countdown that only
ticks can lower must run out when there are enough of them (`Segment.exists_hit`). Two kinds of
steps that balance each other in every step are balanced in a segment (`Segment.balance`).
-/

namespace Transition

open List

variable {σ ℓ : Type*} {S : System σ ℓ}

inductive Segment (S : System σ ℓ) : σ → List (σ × ℓ × σ) → σ → Prop where
  | nil (s : σ) : Segment S s [] s
  | cons {s s' s'' : σ} {l : ℓ} {steps : List (σ × ℓ × σ)} (first : S.Step s l s')
      (rest : Segment S s' steps s'') : Segment S s ((s, l, s') :: steps) s''

variable {s s' : σ} {steps : List (σ × ℓ × σ)}

theorem Segment.of_append {pre post : List (σ × ℓ × σ)} (h : Segment S s (pre ++ post) s') :
    ∃ t, Segment S s pre t ∧ Segment S t post s' := by
  induction pre generalizing s with
  | nil => exact ⟨s, .nil s, h⟩
  | cons step pre ih =>
    cases h with
    | cons first rest =>
      obtain ⟨t, hpre, hpost⟩ := ih rest
      exact ⟨t, .cons first hpre, hpost⟩

/-- **The invariant rule for a segment.** What holds at its start and is kept by each of its steps
holds before each of them and at its end. -/
theorem Segment.induct {P : σ → Prop} (h : Segment S s steps s') (hs : P s)
    (hstep : ∀ a l b, (a, l, b) ∈ steps → S.Step a l b → P a → P b) :
    (∀ a l b, (a, l, b) ∈ steps → S.Step a l b ∧ P a) ∧ P s' := by
  induction h with
  | nil s => exact ⟨by simp, hs⟩
  | @cons s s₁ s' l steps first rest ih =>
    have hs₁ : P s₁ := hstep s l s₁ mem_cons_self first hs
    obtain ⟨hall, hend⟩ := ih hs₁ fun a l b hmem ↦ hstep a l b (mem_cons_of_mem _ hmem)
    refine ⟨?_, hend⟩
    intro a l' b hmem
    rcases mem_cons.mp hmem with heq | hmem
    · obtain ⟨rfl, rfl, rfl⟩ := heq
      exact ⟨first, hs⟩
    · exact hall a l' b hmem

/-- Two kinds of steps whose difference is kept by a measure in every step. -/
theorem Segment.balance {p q : σ × ℓ × σ → Bool} {m : σ → ℕ} (h : Segment S s steps s')
    (hstep : ∀ a l b, (a, l, b) ∈ steps → S.Step a l b →
      m a + (if p (a, l, b) then 1 else 0) = m b + (if q (a, l, b) then 1 else 0)) :
    m s + steps.countP p = m s' + steps.countP q := by
  induction h with
  | nil s => rfl
  | @cons s s₁ s' l steps first rest ih =>
    have hfirst := hstep s l s₁ mem_cons_self first
    have hrest := ih fun a l b hmem ↦ hstep a l b (mem_cons_of_mem _ hmem)
    rw [countP_cons, countP_cons]
    omega

/-- **A countdown runs out.** `Due n` says that at most `n` ticks can pass before one is a hit: a
tick that is none leaves one tick less. In a segment with more than `n` ticks there is a hit, and at
most `n` ticks come before it. -/
theorem Segment.exists_hit (tick hit : σ × ℓ × σ → Bool) {Due : ℕ → σ → Prop} {n : ℕ}
    (h : Segment S s steps s') (hs : Due n s) (hcount : n < steps.countP tick)
    (hstep : ∀ a l b, (a, l, b) ∈ steps → S.Step a l b → hit (a, l, b) = false → ∀ n, Due n a →
      if tick (a, l, b) then ∃ m, n = m + 1 ∧ Due m b else Due n b) :
    ∃ pre step post, steps = pre ++ step :: post ∧ hit step = true ∧ pre.countP tick ≤ n := by
  induction h generalizing n with
  | nil s => simp at hcount
  | @cons s s₁ s' l steps first rest ih =>
    cases hhit : hit (s, l, s₁) with
    | true => exact ⟨[], (s, l, s₁), steps, rfl, hhit, Nat.zero_le n⟩
    | false =>
      have hfirst := hstep s l s₁ mem_cons_self first hhit n hs
      have hrest := fun a l b hmem ↦ hstep a l b (mem_cons_of_mem _ hmem)
      cases htick : tick (s, l, s₁) with
      | true =>
        rw [htick, if_pos rfl] at hfirst
        obtain ⟨m, rfl, hdue⟩ := hfirst
        rw [countP_cons_of_pos htick] at hcount
        obtain ⟨pre, step, post, rfl, hstep, hle⟩ := ih hdue (Nat.lt_of_succ_lt_succ hcount) hrest
        refine ⟨(s, l, s₁) :: pre, step, post, rfl, hstep, ?_⟩
        rw [countP_cons_of_pos htick]
        exact Nat.succ_le_succ hle
      | false =>
        rw [htick, if_neg Bool.false_ne_true] at hfirst
        rw [countP_cons_of_neg (by simp [htick])] at hcount
        obtain ⟨pre, step, post, rfl, hstep, hle⟩ := ih hfirst hcount hrest
        refine ⟨(s, l, s₁) :: pre, step, post, rfl, hstep, ?_⟩
        rw [countP_cons_of_neg (by simp [htick])]
        exact hle

end Transition
