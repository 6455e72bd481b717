import Openwsman.Lib.Transition
import Mathlib.Data.Set.Basic
import Mathlib.Logic.Function.Basic

/-!
# Exclusive ownership of named resources

The abstract picture of a table of resources that actors check out one at a time: a resource is
absent, free, or held by one actor. A free resource may be acquired by any actor or dropped by the
keeper of the table; a held one changes only by an action of its holder, who gives it back or
retires it.
-/

namespace Ownership

open Transition

inductive Slot (τ : Type*) where
  | absent
  | free
  | held (t : τ)

inductive Act (κ τ : Type*) where
  | create (k : κ)
  | acquire (t : τ) (k : κ)
  | release (t : τ) (k : κ)
  | retire (t : τ) (k : κ)
  | expire (ks : Set κ)

variable {κ τ : Type*}

def Act.actor : Act κ τ → Option τ
  | create _ => none
  | acquire t _ => some t
  | release t _ => some t
  | retire t _ => some t
  | expire _ => none

def SetAt (b : κ → Slot τ) (k : κ) (v : Slot τ) (b' : κ → Slot τ) : Prop :=
  b' k = v ∧ ∀ k', k' ≠ k → b' k' = b k'

def Step (b : κ → Slot τ) : Act κ τ → (κ → Slot τ) → Prop
  | .create k, b' => b k = .absent ∧ SetAt b k .free b'
  | .acquire t k, b' => b k = .free ∧ SetAt b k (.held t) b'
  | .release t k, b' => b k = .held t ∧ SetAt b k .free b'
  | .retire t k, b' => b k = .held t ∧ SetAt b k .absent b'
  | .expire ks, b' =>
    (∀ k ∈ ks, b k = .free) ∧ (∀ k ∈ ks, b' k = .absent) ∧ ∀ k, k ∉ ks → b' k = b k

def system (κ τ : Type*) : System (κ → Slot τ) (Act κ τ) where
  Init b := ∀ k, b k = .absent
  Step := Step

open Classical in
noncomputable def put (b : κ → Slot τ) (k : κ) (v : Slot τ) : κ → Slot τ := Function.update b k v

theorem setAt_put (b : κ → Slot τ) (k : κ) (v : Slot τ) : SetAt b k v (put b k v) := by
  classical
  exact ⟨Function.update_self .., fun _ h ↦ Function.update_of_ne h ..⟩

/-- **Only the holder ends a hold.** If a held resource is not held by the same actor after a step,
the step was that actor's. -/
theorem actor_of_hold_ends {b b' : κ → Slot τ} {a : Act κ τ} {t : τ} {k : κ} (hstep : Step b a b')
    (hheld : b k = .held t) (hends : b' k ≠ .held t) : a.actor = some t := by
  have hsame : ∀ {k' : κ} {v v' : Slot τ}, b k' = v → SetAt b k' v' b' → k' = k ∧ v = .held t := by
    intro k' v v' hv hset
    by_cases hk : k = k'
    · subst hk
      exact ⟨rfl, hv.symm.trans hheld⟩
    · exact absurd ((hset.2 k hk).trans hheld) hends
  cases a with
  | create k' => exact absurd (hsame hstep.1 hstep.2).2 (by simp)
  | acquire t' k' => exact absurd (hsame hstep.1 hstep.2).2 (by simp)
  | release t' k' => simpa [Act.actor] using (hsame hstep.1 hstep.2).2
  | retire t' k' => simpa [Act.actor] using (hsame hstep.1 hstep.2).2
  | expire ks =>
    obtain ⟨hfree, -, hrest⟩ := hstep
    by_cases hk : k ∈ ks
    · exact absurd ((hfree k hk).symm.trans hheld) (by simp)
    · exact absurd ((hrest k hk).trans hheld) hends

end Ownership
