import Mathlib.Data.String.Basic
import Openwsman.Lib.KeySort
import Openwsman.Libc.Text

/-!
# Sorting a linked list

`ow_list_sort` of `u/list.c`. A list is split in the middle, both halves are sorted, and the second
is merged into the first: a node of it is put before the first node that does not compare as
smaller. So nodes that compare as equal change places, and after the whole sort they stand in the
reverse of the order they had.
-/

namespace Openwsman

open List KeySort

variable {α κ : Type}

def owListMerge (compare : α → α → ℤ) (dest source : List α) : List α :=
  dest.merge source fun dn sn ↦ !decide (compare dn sn ≥ 0)

def owListSort (compare : α → α → ℤ) (list : List α) : List α :=
  if 1 < list.length then
    let middle := list.length / 2
    owListMerge compare (owListSort compare (list.take middle))
      (owListSort compare (list.drop middle))
  else list
termination_by list.length
decreasing_by
  · rw [List.length_take]
    omega
  · rw [List.length_drop]
    omega

section

variable [LinearOrder κ] {key : α → κ} {compare : α → α → ℤ}

theorem owListMerge_perm (dest source : List α) :
    (owListMerge compare dest source).Perm (dest ++ source) := merge_perm_append _

theorem owListSort_perm (list : List α) : (owListSort compare list).Perm list := by
  induction list using owListSort.induct with
  | case1 list hlength middle ihl ihr =>
    rw [owListSort, if_pos hlength]
    have hhalves := ihl.append ihr
    rw [take_append_drop] at hhalves
    exact (owListMerge_perm _ _).trans hhalves
  | case2 list hlength => rw [owListSort, if_neg hlength]

theorem eq_nil_or_singleton {list : List α} (h : ¬1 < list.length) :
    list = [] ∨ ∃ a, list = [a] := by
  rcases list with _ | ⟨a, _ | ⟨b, list⟩⟩
  · exact .inl rfl
  · exact .inr ⟨a, rfl⟩
  · rw [length_cons, length_cons] at h
    omega

variable (hcompare : ∀ a b, compare a b < 0 ↔ key a < key b)

include hcompare

theorem stays_iff (a b : α) : (!decide (compare a b ≥ 0)) = true ↔ key a < key b := by
  rw [Bool.not_eq_true', decide_eq_false_iff_not, ge_iff_le, not_le, hcompare]

theorem owListSort_sorted (list : List α) : Sorted key (owListSort compare list) := by
  induction list using owListSort.induct with
  | case1 list hlength middle ihl ihr =>
    rw [owListSort, if_pos hlength]
    exact Sorted.merge (stays_iff hcompare) ihl ihr
  | case2 list hlength =>
    rw [owListSort, if_neg hlength]
    rcases eq_nil_or_singleton hlength with rfl | ⟨a, rfl⟩
    · exact Pairwise.nil
    · exact pairwise_singleton _ a

theorem withKey_owListSort (k : κ) (list : List α) :
    withKey key k (owListSort compare list) = (withKey key k list).reverse := by
  induction list using owListSort.induct with
  | case1 list hlength middle ihl ihr =>
    rw [owListSort, if_pos hlength]
    have hsplit : withKey key k (list.take middle ++ list.drop middle) =
        withKey key k (list.take middle) ++ withKey key k (list.drop middle) :=
      withKey_append k _ _
    rw [take_append_drop] at hsplit
    rw [hsplit, reverse_append, ← ihl, ← ihr]
    exact withKey_merge (stays_iff hcompare) k (owListSort_sorted hcompare _)
  | case2 list hlength =>
    rw [owListSort, if_neg hlength]
    rcases eq_nil_or_singleton hlength with rfl | ⟨a, rfl⟩
    · rfl
    · rw [withKey, filter_cons, filter_nil]
      split <;> rfl

end

/-! ## Keys that are strings -/

/-- `strcmp`: bytes are compared as unsigned, which for UTF-8 is the order of the characters. C
fixes only the sign of the result. -/
def strcmp (a b : String) : ℤ := if a < b then -1 else if a = b then 0 else 1

theorem strcmp_neg_iff (a b : String) : strcmp a b < 0 ↔ a < b := by
  rw [strcmp]
  split
  · next h => exact iff_of_true (by decide) h
  next h =>
  split <;> exact iff_of_false (by decide) h

theorem strcmp_eq_zero_iff (a b : String) : strcmp a b = 0 ↔ a = b := by
  rw [strcmp]
  split
  · next h => exact iff_of_false (by decide) h.ne
  · split
    · next h => exact iff_of_true rfl h
    · next h => exact iff_of_false (by decide) h

end Openwsman
