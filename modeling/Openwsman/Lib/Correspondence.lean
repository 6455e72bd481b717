import Mathlib.Data.List.Nodup
import Mathlib.Data.List.Perm.Subperm

/-!
# Lists that correspond by a key

Two lists whose elements have keys correspond one to one if no key comes twice in either of them,
the keys are the same, and the elements with one key are related. A program that compares two such
lists usually searches each key of one list in the other; `OneToOne.of_length_eq` says when that is
enough.
-/

namespace Correspondence

open List

variable {α β κ : Type*} {f : α → κ} {g : β → κ} {r : α → β → Prop} {l : List α} {m : List β}

structure OneToOne (f : α → κ) (g : β → κ) (r : α → β → Prop) (l : List α) (m : List β) :
    Prop where
  nodup_left : (l.map f).Nodup
  nodup_right : (m.map g).Nodup
  total : ∀ a ∈ l, ∃ b ∈ m, g b = f a ∧ r a b
  onto : ∀ b ∈ m, ∃ a ∈ l, g b = f a

namespace OneToOne

theorem perm (h : OneToOne f g r l m) : (l.map f).Perm (m.map g) := by
  rw [perm_ext_iff_of_nodup h.nodup_left h.nodup_right]
  intro k
  constructor
  · intro hk
    obtain ⟨a, ha, rfl⟩ := mem_map.mp hk
    obtain ⟨b, hb, hkey, -⟩ := h.total a ha
    exact mem_map.mpr ⟨b, hb, hkey⟩
  · intro hk
    obtain ⟨b, hb, rfl⟩ := mem_map.mp hk
    obtain ⟨a, ha, hkey⟩ := h.onto b hb
    exact mem_map.mpr ⟨a, ha, hkey.symm⟩

theorem length_eq (h : OneToOne f g r l m) : m.length = l.length := by
  simpa using h.perm.length_eq.symm

/-- If the keys of the first list are different and there are as many in the second list, it is
enough that each of them is found there. -/
theorem of_length_eq (hnodup : (l.map f).Nodup) (hlength : m.length = l.length)
    (htotal : ∀ a ∈ l, ∃ b ∈ m, g b = f a ∧ r a b) : OneToOne f g r l m := by
  have hsubset : l.map f ⊆ m.map g := by
    intro k hk
    obtain ⟨a, ha, rfl⟩ := mem_map.mp hk
    obtain ⟨b, hb, hkey, -⟩ := htotal a ha
    exact mem_map.mpr ⟨b, hb, hkey⟩
  have hperm : (l.map f).Perm (m.map g) := by
    apply (hnodup.subperm hsubset).perm_of_length_le
    rw [length_map, length_map]
    exact Nat.le_of_eq hlength
  refine ⟨hnodup, hperm.nodup_iff.mp hnodup, htotal, ?_⟩
  intro b hb
  obtain ⟨a, ha, hkey⟩ := mem_map.mp (hperm.mem_iff.mpr (mem_map_of_mem hb))
  exact ⟨a, ha, hkey.symm⟩

theorem find?_eq_some [DecidableEq κ] (h : OneToOne f g r l m) {a : α} (ha : a ∈ l) :
    ∃ b, m.find? (fun b ↦ g b = f a) = some b ∧ r a b := by
  obtain ⟨b, hb, hkey, hr⟩ := h.total a ha
  obtain ⟨b', hfind⟩ : ∃ b', m.find? (fun b ↦ g b = f a) = some b' := by
    rw [← Option.isSome_iff_exists, find?_isSome]
    exact ⟨b, hb, by simp [hkey]⟩
  have hkey' : g b' = f a := by simpa using find?_some hfind
  have heq : b' = b := inj_on_of_nodup_map h.nodup_right (mem_of_find?_eq_some hfind) hb
    (hkey'.trans hkey.symm)
  exact ⟨b', hfind, heq ▸ hr⟩

end OneToOne

end Correspondence
