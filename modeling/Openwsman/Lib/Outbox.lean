import Mathlib.Data.List.Infix
import Mathlib.Logic.Function.Basic

/-!
# Outboxes

Some owners put entries into queues from which they are handed on. An owner is known by a number and
its queue by a key. For each owner there is a history of the entries that were put in and one of
those that were handed on.

Owners are of two kinds. For those that are *counted* nothing may be lost: what was put in is what
was handed on, followed by what is in the queue (`Kept`). The queues of the others may be shortened
in another way, by `discard`. The operations that are allowed at an owner keep this, provided that
no two owners have the same key.
-/

namespace Outbox

open Function List

structure State (κ ε : Type*) where
  box : ℕ → Option (κ × Bool)
  queue : κ → List ε
  inserted : ℕ → List ε
  handed : ℕ → List ε

variable {κ ε : Type*} [DecidableEq κ] {s : State κ ε} {r : ℕ} {k : κ} {c : Bool}

namespace State

def put (s : State κ ε) (r : ℕ) (k : κ) (e : ε) : State κ ε where
  box := s.box
  queue := Function.update s.queue k (s.queue k ++ [e])
  inserted := Function.update s.inserted r (s.inserted r ++ [e])
  handed := s.handed

def hand (s : State κ ε) (r : ℕ) (k : κ) (n : ℕ) : State κ ε where
  box := s.box
  queue := Function.update s.queue k ((s.queue k).drop n)
  inserted := s.inserted
  handed := Function.update s.handed r (s.handed r ++ (s.queue k).take n)

def discard (s : State κ ε) (k : κ) (n : ℕ) : State κ ε :=
  { s with queue := Function.update s.queue k ((s.queue k).drop n) }

def close (s : State κ ε) (r : ℕ) (k : κ) : State κ ε where
  box := Function.update s.box r none
  queue := Function.update s.queue k []
  inserted := s.inserted
  handed := s.handed

def add (s : State κ ε) (r : ℕ) (k : κ) (c : Bool) : State κ ε :=
  { s with box := Function.update s.box r (some (k, c)) }

end State

/-- Nothing is lost: the owners have different keys, the other queues are empty, and what a counted
owner has put in is what was handed on, followed by its queue. -/
structure Kept (s : State κ ε) : Prop where
  distinct : ∀ {r r' k c c'}, s.box r = some (k, c) → s.box r' = some (k, c') → r = r'
  closed : ∀ k, (∀ r c, s.box r ≠ some (k, c)) → s.queue k = []
  kept : ∀ r k, s.box r = some (k, true) → s.inserted r = s.handed r ++ s.queue k
  given : ∀ r, s.handed r <+: s.inserted r

namespace Kept

omit [DecidableEq κ] in
theorem ne_of_unowned {k' : κ} (hbox : s.box r = some (k, c))
    (hunowned : ∀ r c, s.box r ≠ some (k', c)) : k' ≠ k := by
  rintro rfl
  exact hunowned r c hbox

omit [DecidableEq κ] in
theorem ne_of_owners (h : Kept s) {r' : ℕ} {k' : κ} {c' : Bool} (hbox : s.box r = some (k, c))
    (hbox' : s.box r' = some (k', c')) (hr : r' ≠ r) : k' ≠ k := by
  rintro rfl
  exact hr (h.distinct hbox' hbox)

theorem put (h : Kept s) (hbox : s.box r = some (k, c)) (e : ε) : Kept (s.put r k e) where
  distinct := h.distinct
  closed k' hunowned := by
    dsimp only [State.put]
    rw [update_of_ne (ne_of_unowned hbox hunowned)]
    exact h.closed k' hunowned
  kept r' k' hbox' := by
    dsimp only [State.put] at hbox' ⊢
    by_cases hr : r' = r
    · subst hr
      cases hbox.symm.trans hbox'
      rw [update_self, update_self, h.kept r' k hbox, append_assoc]
    · rw [update_of_ne hr, update_of_ne (h.ne_of_owners hbox hbox' hr)]
      exact h.kept r' k' hbox'
  given r' := by
    dsimp only [State.put]
    by_cases hr : r' = r
    · subst hr
      rw [update_self]
      exact (h.given r').trans (prefix_append _ _)
    · rw [update_of_ne hr]
      exact h.given r'

theorem hand (h : Kept s) (hbox : s.box r = some (k, true)) (n : ℕ) : Kept (s.hand r k n) where
  distinct := h.distinct
  closed k' hunowned := by
    dsimp only [State.hand]
    rw [update_of_ne (ne_of_unowned hbox hunowned)]
    exact h.closed k' hunowned
  kept r' k' hbox' := by
    dsimp only [State.hand] at hbox' ⊢
    by_cases hr : r' = r
    · subst hr
      cases hbox.symm.trans hbox'
      rw [update_self, update_self, append_assoc, take_append_drop]
      exact h.kept r' k hbox
    · rw [update_of_ne hr, update_of_ne (h.ne_of_owners hbox hbox' hr)]
      exact h.kept r' k' hbox'
  given r' := by
    dsimp only [State.hand]
    by_cases hr : r' = r
    · subst hr
      rw [update_self, h.kept r' k hbox]
      exact (prefix_append_right_inj _).mpr (List.take_prefix n _)
    · rw [update_of_ne hr]
      exact h.given r'

theorem discard (h : Kept s) (hbox : s.box r = some (k, false)) (n : ℕ) : Kept (s.discard k n) where
  distinct := h.distinct
  closed k' hunowned := by
    dsimp only [State.discard]
    rw [update_of_ne (ne_of_unowned hbox hunowned)]
    exact h.closed k' hunowned
  kept r' k' hbox' := by
    dsimp only [State.discard] at hbox' ⊢
    have hk : k' ≠ k := by
      rintro rfl
      obtain rfl := h.distinct hbox' hbox
      cases hbox.symm.trans hbox'
    rw [update_of_ne hk]
    exact h.kept r' k' hbox'
  given := h.given

theorem close (h : Kept s) (hbox : s.box r = some (k, c)) : Kept (s.close r k) := by
  have hold : ∀ {r' k' c'},
      (s.close r k).box r' = some (k', c') → s.box r' = some (k', c') ∧ r' ≠ r := by
    intro r' k' c' hbox'
    by_cases hr : r' = r
    · subst hr
      dsimp only [State.close] at hbox'
      rw [update_self] at hbox'
      cases hbox'
    · dsimp only [State.close] at hbox'
      rw [update_of_ne hr] at hbox'
      exact ⟨hbox', hr⟩
  refine ⟨fun h₁ h₂ ↦ h.distinct (hold h₁).1 (hold h₂).1, fun k' hunowned ↦ ?_,
    fun r' k' hbox' ↦ ?_, h.given⟩
  · dsimp only [State.close]
    by_cases hk : k' = k
    · rw [hk, update_self]
    rw [update_of_ne hk]
    refine h.closed k' fun r' c' hbox' ↦ ?_
    have hr : r' ≠ r := by
      rintro rfl
      cases hbox.symm.trans hbox'
      exact hk rfl
    refine hunowned r' c' ?_
    dsimp only [State.close]
    rw [update_of_ne hr]
    exact hbox'
  · obtain ⟨hold', hr⟩ := hold hbox'
    have hk : k' ≠ k := by
      rintro rfl
      exact hr (h.distinct hold' hbox)
    dsimp only [State.close]
    rw [update_of_ne hk]
    exact h.kept r' k' hold'

omit [DecidableEq κ] in
theorem add (h : Kept s) (hfree : ∀ r' c', s.box r' ≠ some (k, c')) (hnew : s.inserted r = [])
    (hbox : s.box r = none) : Kept (s.add r k c) := by
  have hold : ∀ {r' k' c'}, (s.add r k c).box r' = some (k', c') →
      (r' = r ∧ k' = k) ∨ (r' ≠ r ∧ k' ≠ k ∧ s.box r' = some (k', c')) := by
    intro r' k' c' hbox'
    by_cases hr : r' = r
    · subst hr
      dsimp only [State.add] at hbox'
      rw [update_self] at hbox'
      cases hbox'
      exact .inl ⟨rfl, rfl⟩
    · dsimp only [State.add] at hbox'
      rw [update_of_ne hr] at hbox'
      refine .inr ⟨hr, ?_, hbox'⟩
      rintro rfl
      exact hfree r' c' hbox'
  refine ⟨fun h₁ h₂ ↦ ?_, fun k' hunowned ↦ ?_, fun r' k' hbox' ↦ ?_, h.given⟩
  · rcases hold h₁ with ⟨rfl, rfl⟩ | ⟨-, hk, h₁⟩
    · rcases hold h₂ with ⟨rfl, -⟩ | ⟨-, hk, -⟩
      · rfl
      · exact absurd rfl hk
    · rcases hold h₂ with ⟨-, rfl⟩ | ⟨-, -, h₂⟩
      · exact absurd rfl hk
      · exact h.distinct h₁ h₂
  · refine h.closed k' fun r' c' hbox' ↦ hunowned r' c' ?_
    have hr : r' ≠ r := by
      rintro rfl
      cases hbox.symm.trans hbox'
    dsimp only [State.add]
    rw [update_of_ne hr]
    exact hbox'
  · rcases hold hbox' with ⟨rfl, rfl⟩ | ⟨-, -, hbox'⟩
    · have hhanded := h.given r'
      rw [hnew, prefix_nil] at hhanded
      dsimp only [State.add]
      rw [hnew, hhanded, h.closed k' hfree, append_nil]
    · exact h.kept r' k' hbox'

end Kept

end Outbox
