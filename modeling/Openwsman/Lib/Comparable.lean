import Mathlib.Data.List.Infix

/-!
# Lists comparable by the prefix order

Two lists are comparable when one of them is a prefix of the other. A comparison that stops at the
end of the shorter list decides comparability and not equality; the two agree exactly when the
lengths do.
-/

namespace PrefixOrder

open List

variable {α : Type*} {a b : List α}

def Comparable (a b : List α) : Prop := a <+: b ∨ b <+: a

instance [DecidableEq α] : Decidable (Comparable a b) :=
  inferInstanceAs (Decidable (a <+: b ∨ b <+: a))

theorem Comparable.refl (a : List α) : Comparable a a := .inl (prefix_refl a)

theorem comparable_iff_take_min :
    Comparable a b ↔ a.take (min a.length b.length) = b.take (min a.length b.length) := by
  rcases Nat.le_total a.length b.length with hle | hle
  · rw [Nat.min_eq_left hle, take_length]
    constructor
    · rintro (h | h)
      · exact prefix_iff_eq_take.mp h
      · rw [h.eq_of_length_le hle, take_length]
    · intro h
      exact .inl (prefix_iff_eq_take.mpr h)
  · rw [Nat.min_eq_right hle, take_length]
    constructor
    · rintro (h | h)
      · rw [h.eq_of_length_le hle, take_length]
      · exact (prefix_iff_eq_take.mp h).symm
    · intro h
      exact .inr (prefix_iff_eq_take.mpr h.symm)

end PrefixOrder
