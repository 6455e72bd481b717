import Mathlib.Data.List.Basic
import Mathlib.Data.List.Infix

/-!
# Reading a list page by page

A server holds a list and a cursor into it. A client asks for one page after another; a page is the
segment of the list behind the cursor, of a length that the two negotiate, and the cursor moves
behind it. The page with which the list ends is marked, and no page follows it. This module is about
what a client can conclude from the pages of such a *session*.
-/

namespace Paging

open List

variable {α : Type*}

structure Page (α : Type*) where
  items : List α
  last : Bool

inductive Session (xs : List α) : ℕ → List (Page α) → Prop where
  | nil (c : ℕ) : Session xs c []
  | last {c k : ℕ} : c + k = xs.length → Session xs c [⟨(xs.drop c).take k, true⟩]
  | more {c k : ℕ} {pages : List (Page α)} : c + k < xs.length → Session xs (c + k) pages →
      Session xs c (⟨(xs.drop c).take k, false⟩ :: pages)

def allItems (pages : List (Page α)) : List α := (pages.map Page.items).flatten

@[simp] theorem allItems_nil : allItems ([] : List (Page α)) = [] := rfl

@[simp] theorem allItems_cons (p : Page α) (pages : List (Page α)) :
    allItems (p :: pages) = p.items ++ allItems pages := rfl

variable {xs : List α} {c : ℕ} {pages : List (Page α)}

theorem take_drop_append (xs : List α) (c k : ℕ) :
    (xs.drop c).take k ++ xs.drop (c + k) = xs.drop c := by
  rw [← drop_drop, take_append_drop]

variable (h : Session xs c pages)

include h

theorem Session.allItems_prefix : allItems pages <+: xs.drop c := by
  induction h with
  | nil c => exact nil_prefix
  | @last c k hk =>
    rw [allItems_cons, allItems_nil, append_nil]
    exact take_prefix k _
  | @more c k pages _ _ ih =>
    have hpre := (prefix_append_right_inj ((xs.drop c).take k)).mpr ih
    rw [take_drop_append] at hpre
    exact hpre

theorem Session.last_iff {j : ℕ} {p : Page α} (hp : pages[j]? = some p) :
    p.last = true ↔ allItems (pages.take (j + 1)) = xs.drop c := by
  induction h generalizing j with
  | nil c => exact absurd hp (by simp)
  | @last c k hk =>
    cases j with
    | succ j => exact absurd hp (by simp)
    | zero =>
      rw [getElem?_cons_zero, Option.some.injEq] at hp
      subst hp
      have hall : (xs.drop c).take k = xs.drop c :=
        take_of_length_le (by rw [length_drop]; omega)
      simp [hall]
  | @more c k pages hlt hrest ih =>
    cases j with
    | zero =>
      rw [getElem?_cons_zero, Option.some.injEq] at hp
      subst hp
      -- elements behind the page are missing
      refine ⟨fun h ↦ absurd h (by simp), fun h ↦ ?_⟩
      have hlen := congrArg length h
      simp only [Nat.zero_add, take_succ_cons, take_zero, allItems_cons, allItems_nil,
        append_nil, length_take, length_drop] at hlen
      omega
    | succ j =>
      rw [getElem?_cons_succ] at hp
      rw [ih hp, take_succ_cons, allItems_cons]
      constructor
      · intro h
        rw [h]
        exact take_drop_append xs c k
      · intro h
        exact append_cancel_left (h.trans (take_drop_append xs c k).symm)

/-- A marked page is the end of its session, and then nothing is missing. -/
theorem Session.allItems_eq_of_last {p : Page α} (hp : p ∈ pages)
    (hlast : p.last = true) : allItems pages = xs.drop c := by
  induction h with
  | nil c => exact absurd hp not_mem_nil
  | @last c k hk =>
    rw [allItems_cons, allItems_nil, append_nil]
    exact take_of_length_le (by rw [length_drop]; omega)
  | @more c k pages hlt hrest ih =>
    rcases mem_cons.mp hp with rfl | hp
    · exact absurd hlast (by simp)
    · rw [allItems_cons, ih hp]
      exact take_drop_append xs c k

/-- Without a marked page and without an empty one, the list is longer than the session. -/
theorem Session.length_lt (hc : c < xs.length)
    (hnone : ∀ p ∈ pages, p.last = false) (hne : ∀ p ∈ pages, p.items ≠ []) :
    c + pages.length < xs.length := by
  induction h with
  | nil c => simpa using hc
  | @last c k hk => exact absurd (hnone _ mem_cons_self) (by simp)
  | @more c k pages hlt hrest ih =>
    have hk : 0 < k := by
      rcases Nat.eq_zero_or_pos k with rfl | hk
      · exact absurd rfl (hne _ mem_cons_self)
      · exact hk
    have := ih hlt (fun p hp ↦ hnone p (mem_cons_of_mem _ hp))
      (fun p hp ↦ hne p (mem_cons_of_mem _ hp))
    rw [length_cons]
    omega

theorem Session.exists_last (hne : c < xs.length → ∀ p ∈ pages, p.items ≠ [])
    (hlen : max (xs.length - c) 1 ≤ pages.length) : ∃ p ∈ pages, p.last = true := by
  by_contra hcon
  have hnone : ∀ p ∈ pages, p.last = false := by
    intro p hp
    exact eq_false_of_ne_true fun hlast ↦ hcon ⟨p, hp, hlast⟩
  by_cases hc : c < xs.length
  · have := h.length_lt hc hnone (hne hc)
    omega
  cases h with
  | nil => simp at hlen
  | last => exact absurd (hnone _ mem_cons_self) (by simp)
  | more hlt => omega

end Paging
