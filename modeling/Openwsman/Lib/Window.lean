import Mathlib.Data.List.DropRight
import Mathlib.Data.List.Nodup

/-!
# Sliding windows

A window of a fixed capacity over a growing history. A new element goes to the back of the window,
and the oldest ones leave it at the front to make room. The window is then the end of the history,
`List.rtake`. A window that only takes elements it does not hold has no element twice, although its
history may.
-/

namespace Window

open List

variable {α : Type*}

/-- The loop that makes room for one more element: while the window is full, its oldest element
leaves. -/
def evict (n : ℕ) : List α → List α
  | [] => []
  | x :: w => if n ≤ (x :: w).length then evict n w else x :: w

def push (n : ℕ) (w : List α) (x : α) : List α := evict n w ++ [x]

theorem evict_eq_drop (n : ℕ) (w : List α) : evict n w = w.drop (w.length + 1 - n) := by
  induction w with
  | nil => rw [evict, drop_nil]
  | cons x w ih =>
    rw [evict]
    by_cases hfull : n ≤ (x :: w).length
    · rw [if_pos hfull, ih]
      rw [length_cons] at hfull ⊢
      have hlen : w.length + 1 + 1 - n = (w.length + 1 - n) + 1 := by omega
      rw [hlen, drop_succ_cons]
    · rw [if_neg hfull]
      have hlen : (x :: w).length + 1 - n = 0 := by omega
      rw [hlen, drop_zero]

/-- **The window is the end of the history.** -/
theorem push_rtake {n : ℕ} (hn : 0 < n) (h : List α) (x : α) :
    push n (h.rtake n) x = (h ++ [x]).rtake n := by
  have hlen : (h.rtake n).length = min n h.length := by
    rw [rtake, length_drop]
    omega
  rw [push, evict_eq_drop, hlen, rtake, rtake, drop_drop, length_append, length_singleton]
  by_cases hle : h.length + 1 ≤ n
  · -- nothing has to leave
    have h1 : min n h.length + 1 - n + (h.length - n) = 0 := by omega
    have h2 : h.length + 1 - n = 0 := by omega
    rw [Nat.add_comm, h1, h2, drop_zero, drop_zero]
  · have h1 : h.length - n + (min n h.length + 1 - n) = h.length + 1 - n := by omega
    rw [h1, drop_append_of_le_length (by omega)]

theorem length_rtake_le (n : ℕ) (h : List α) : (h.rtake n).length ≤ n := by
  rw [rtake, length_drop]
  omega

/-- A window that gets an element it does not hold keeps its elements apart. -/
theorem nodup_push {n : ℕ} {w : List α} {x : α} (hw : w.Nodup) (hx : x ∉ w) :
    (push n w x).Nodup := by
  rw [push, evict_eq_drop, nodup_append]
  refine ⟨hw.sublist (drop_sublist _ w), nodup_singleton x, ?_⟩
  intro a ha b hb hab
  rw [mem_singleton] at hb
  apply hx
  rw [← hb, ← hab]
  exact mem_of_mem_drop ha

end Window
