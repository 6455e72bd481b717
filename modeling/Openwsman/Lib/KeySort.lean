import Mathlib.Data.List.Basic
import Mathlib.Order.Lattice

/-!
# Lists sorted by a key

In a list that is sorted by a key, the elements of one key stand together (`Grouped`, which gives an
induction over the runs). `withKey` is what a list has of one key, in its order, so a sort is stable
if it leaves every `withKey` as it was.

Where a merge of two sorted lists takes an element of the first list only if its key is smaller,
what the second list has of a key comes before what the first one has of it.
-/

namespace KeySort

open List

variable {α κ : Type} [LinearOrder κ] (key : α → κ)

def Sorted (l : List α) : Prop := l.Pairwise fun a b ↦ key a ≤ key b

def withKey (k : κ) (l : List α) : List α := l.filter fun a ↦ key a = k

variable {key}

theorem withKey_append (k : κ) (l r : List α) :
    withKey key k (l ++ r) = withKey key k l ++ withKey key k r := filter_append l r

theorem withKey_cons (k : κ) (a : α) (l : List α) :
    withKey key k (a :: l) = withKey key k [a] ++ withKey key k l :=
  withKey_append k [a] l

variable {l : List α}

theorem withKey_eq_nil_iff {k : κ} : withKey key k l = [] ↔ ∀ a ∈ l, key a ≠ k := by
  rw [withKey, filter_eq_nil_iff]
  simp only [decide_eq_true_eq, ne_eq]

theorem withKey_eq_self_iff {k : κ} : withKey key k l = l ↔ ∀ a ∈ l, key a = k := by
  rw [withKey, filter_eq_self]
  simp only [decide_eq_true_eq]

theorem perm_of_withKey_eq {r : List α} (h : ∀ k, withKey key k l = withKey key k r) :
    l.Perm r := by
  classical
  have hcount (l : List α) (a : α) : (withKey key (key a) l).count a = l.count a :=
    count_filter (decide_eq_true rfl)
  rw [perm_iff_count]
  intro a
  rw [← hcount l, h, hcount]

/-- Elements that were made from things of different keys, each with the key of what it was made
from. -/
theorem withKey_flatMap {β : Type} {f : β → List α} {g : β → κ} {l : List β}
    (hkey : ∀ b ∈ l, ∀ a ∈ f b, key a = g b) (hnodup : (l.map g).Nodup) {b : β} (hb : b ∈ l) :
    withKey key (g b) (l.flatMap f) = f b := by
  induction l with
  | nil => cases hb
  | cons c l ih =>
    rw [map_cons, nodup_cons] at hnodup
    rw [flatMap_cons, withKey_append]
    rcases mem_cons.mp hb with rfl | hb
    · have hself : withKey key (g b) (f b) = f b :=
        withKey_eq_self_iff.mpr (hkey b mem_cons_self)
      have hnil : withKey key (g b) (l.flatMap f) = [] := by
        rw [withKey_eq_nil_iff]
        intro a ha hab
        obtain ⟨d, hd, had⟩ := mem_flatMap.mp ha
        apply hnodup.1
        rw [← hab, hkey d (mem_cons_of_mem b hd) a had]
        exact mem_map_of_mem hd
      rw [hself, hnil, append_nil]
    · have hnil : withKey key (g b) (f c) = [] := by
        rw [withKey_eq_nil_iff]
        intro a ha hab
        apply hnodup.1
        rw [← hkey c mem_cons_self a ha, hab]
        exact mem_map_of_mem hb
      rw [hnil, nil_append]
      exact ih (fun d hd ↦ hkey d (mem_cons_of_mem c hd)) hnodup.2 hb

/-! ## Merging -/

section Merge

variable {lt : α → α → Bool} (hlt : ∀ a b, lt a b = true ↔ key a < key b)

include hlt

theorem Sorted.merge {l r : List α} (hl : Sorted key l) (hr : Sorted key r) :
    Sorted key (l.merge r lt) := by
  induction l, r using merge.induct lt with
  | case1 r => rwa [nil_merge]
  | case2 l _ => rwa [merge_right]
  | case3 a l b r hab ih =>
    rw [cons_merge_cons, if_pos hab]
    rw [hlt] at hab
    obtain ⟨hal, hl⟩ := pairwise_cons.mp hl
    refine pairwise_cons.mpr ⟨?_, ih hl hr⟩
    intro c hc
    rcases mem_merge.mp hc with hc | hc
    · exact hal c hc
    · rcases mem_cons.mp hc with rfl | hc
      · exact hab.le
      · exact hab.le.trans ((pairwise_cons.mp hr).1 c hc)
  | case4 a l b r hab ih =>
    rw [cons_merge_cons, if_neg hab]
    rw [hlt, not_lt] at hab
    obtain ⟨hbr, hr⟩ := pairwise_cons.mp hr
    refine pairwise_cons.mpr ⟨?_, ih hl hr⟩
    intro c hc
    rcases mem_merge.mp hc with hc | hc
    · rcases mem_cons.mp hc with rfl | hc
      · exact hab
      · exact hab.trans ((pairwise_cons.mp hl).1 c hc)
    · exact hbr c hc

theorem withKey_merge (k : κ) {l r : List α} (hr : Sorted key r) :
    withKey key k (l.merge r lt) = withKey key k r ++ withKey key k l := by
  induction l, r using merge.induct lt with
  | case1 r => rw [nil_merge, withKey, withKey, filter_nil, append_nil]
  | case2 l _ => rw [merge_right, withKey, withKey, filter_nil, nil_append]
  | case3 a l b r hab ih =>
    rw [cons_merge_cons, if_pos hab, withKey_cons, ih hr, withKey_cons k a l]
    rw [hlt] at hab
    by_cases hka : key a = k
    · -- all keys of the second list are larger
      have hnil : withKey key k (b :: r) = [] := by
        rw [withKey_eq_nil_iff]
        intro c hc hkc
        rcases mem_cons.mp hc with rfl | hc
        · exact hab.ne (hka.trans hkc.symm)
        · exact (hab.trans_le ((pairwise_cons.mp hr).1 c hc)).ne (hka.trans hkc.symm)
      rw [hnil, nil_append, nil_append]
    · have hnil : withKey key k [a] = [] := by
        rw [withKey_eq_nil_iff]
        intro c hc
        rwa [mem_singleton.mp hc]
      rw [hnil, nil_append, nil_append]
  | case4 a l b r hab ih =>
    rw [cons_merge_cons, if_neg hab, withKey_cons, ih (pairwise_cons.mp hr).2,
      withKey_cons k b r, append_assoc]

end Merge

/-! ## Runs -/

variable (key) in
/-- Equal keys stand together: the first element with the others of its key, and then a list in
which this key does not come and which is of the same kind. -/
inductive Grouped : List α → Prop
  | nil : Grouped []
  | run {a : α} {run rest : List α} (hrun : ∀ b ∈ run, key b = key a)
      (hrest : ∀ b ∈ rest, key b ≠ key a) (h : Grouped rest) : Grouped (a :: (run ++ rest))

omit [LinearOrder κ] in
/-- Another element in front, with a key that is the first or does not come at all. -/
theorem Grouped.cons {a b : α} (h : Grouped key (b :: l))
    (hkey : key b = key a ∨ ∀ c ∈ b :: l, key c ≠ key a) : Grouped key (a :: b :: l) := by
  generalize hl : b :: l = l' at h
  cases h with
  | nil => cases hl
  | run hrun hrest h =>
    rename_i a' run rest
    obtain ⟨rfl, rfl⟩ := cons.inj hl
    rcases hkey with hkey | hne
    · have hall : ∀ c ∈ b :: run, key c = key a := by
        intro c hc
        rcases mem_cons.mp hc with rfl | hc
        · exact hkey
        · exact (hrun c hc).trans hkey
      exact .run hall (fun c hc ↦ hkey ▸ hrest c hc) h
    · change Grouped key (a :: ([] ++ b :: (run ++ rest)))
      exact .run (fun c hc ↦ absurd hc not_mem_nil) hne (.run hrun hrest h)

theorem Sorted.grouped (h : Sorted key l) : Grouped key l := by
  induction l with
  | nil => exact .nil
  | cons a l ih =>
    obtain ⟨ha, hl⟩ := pairwise_cons.mp h
    cases l with
    | nil =>
      change Grouped key (a :: ([] ++ []))
      exact .run (fun c hc ↦ absurd hc not_mem_nil) (fun c hc ↦ absurd hc not_mem_nil) .nil
    | cons b l =>
      refine (ih hl).cons ?_
      rcases (ha b mem_cons_self).eq_or_lt with heq | hlt
      · exact .inl heq.symm
      right
      intro c hc
      rcases mem_cons.mp hc with rfl | hc
      · exact hlt.ne'
      · exact (hlt.trans_le ((pairwise_cons.mp hl).1 c hc)).ne'

section

variable {a : α} {run rest : List α} (hrun : ∀ b ∈ run, key b = key a)

include hrun

theorem withKey_run (hrest : ∀ b ∈ rest, key b ≠ key a) :
    withKey key (key a) (a :: (run ++ rest)) = a :: run := by
  rw [← cons_append, withKey_append, withKey_eq_nil_iff.mpr hrest, append_nil, withKey_eq_self_iff]
  intro b hb
  rcases mem_cons.mp hb with rfl | hb
  · rfl
  · exact hrun b hb

theorem withKey_rest {k : κ} (hk : k ≠ key a) :
    withKey key k (a :: (run ++ rest)) = withKey key k rest := by
  have hnil : withKey key k (a :: run) = [] := by
    rw [withKey_eq_nil_iff]
    intro b hb
    rcases mem_cons.mp hb with rfl | hb
    · exact hk.symm
    · exact fun hkey ↦ hk (hkey.symm.trans (hrun b hb))
  rw [← cons_append, withKey_append, hnil, nil_append]

end

end KeySort
