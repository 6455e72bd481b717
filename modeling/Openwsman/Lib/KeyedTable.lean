import Mathlib.Data.List.Nodup
import Mathlib.Data.Option.Basic

/-!
# Tables whose entries carry their key

A table is a list of entries no two of which have the same key, with `lookup` as its only observer.
The operations are described by what a `lookup` returns afterwards, so that a user of the table
never sees the list.

Updating in place is `replace`: it puts an entry where the entry with its key was. The keys stay
what they were, and an entry whose key is not in the table is dropped.
-/

namespace KeyedTable

open List

/-- A list of entries with pairwise different keys. -/
structure Table {κ α : Type*} (key : α → κ) where
  entries : List α
  nodup : (entries.map key).Nodup

namespace Table

variable {κ α : Type*} {key : α → κ}

def empty : Table key := ⟨[], List.nodup_nil⟩

def filter (t : Table key) (p : α → Bool) : Table key where
  entries := t.entries.filter p
  nodup := t.nodup.sublist ((List.filter_sublist).map key)

variable [DecidableEq κ]

def lookup (t : Table key) (k : κ) : Option α := t.entries.find? fun a ↦ key a = k

@[simp] theorem lookup_empty (k : κ) : (empty : Table key).lookup k = none := rfl

variable {t : Table key} {a : α}

theorem lookup_eq_some_iff {k : κ} : t.lookup k = some a ↔ a ∈ t.entries ∧ key a = k := by
  constructor
  · intro h
    exact ⟨mem_of_find?_eq_some h, by simpa using find?_some h⟩
  rintro ⟨hmem, rfl⟩
  have hsome : (t.lookup (key a)).isSome := by
    rw [lookup, find?_isSome]
    exact ⟨a, hmem, by simp⟩
  obtain ⟨b, hb⟩ := Option.isSome_iff_exists.mp hsome
  have hkey : key b = key a := by simpa using find?_some hb
  rw [hb, inj_on_of_nodup_map t.nodup (mem_of_find?_eq_some hb) hmem hkey]

theorem lookup_eq_none_iff {k : κ} : t.lookup k = none ↔ ∀ a ∈ t.entries, key a ≠ k := by
  simp [lookup, find?_eq_none]

theorem key_of_lookup {k : κ} (h : t.lookup k = some a) : key a = k :=
  (lookup_eq_some_iff.mp h).2

@[simp] theorem lookup_filter (t : Table key) (p : α → Bool) (k : κ) :
    (t.filter p).lookup k = (t.lookup k).filter p := by
  ext a
  rw [lookup_eq_some_iff, Option.filter_eq_some_iff, lookup_eq_some_iff]
  simp [filter, and_right_comm]

/-! ## Adding an entry -/

def insert (t : Table key) (a : α) : Table key :=
  if h : t.lookup (key a) = none then
    { entries := a :: t.entries
      nodup := by
        rw [List.map_cons, List.nodup_cons]
        refine ⟨fun hmem ↦ ?_, t.nodup⟩
        obtain ⟨b, hb, hkey⟩ := List.mem_map.mp hmem
        exact lookup_eq_none_iff.mp h b hb hkey }
  else t

theorem lookup_insert (h : t.lookup (key a) = none) (k : κ) :
    (t.insert a).lookup k = if key a = k then some a else t.lookup k := by
  rw [insert, dif_pos h, lookup, lookup, find?_cons]
  by_cases hk : key a = k <;> simp [hk]

def append (t : Table key) (a : α) : Table key :=
  if h : t.lookup (key a) = none then
    { entries := t.entries ++ [a]
      nodup := by
        rw [List.map_append, List.nodup_append]
        refine ⟨t.nodup, List.nodup_singleton _, fun k hk k' hk' ↦ ?_⟩
        obtain ⟨b, hb, rfl⟩ := List.mem_map.mp hk
        obtain rfl := List.mem_singleton.mp hk'
        exact lookup_eq_none_iff.mp h b hb }
  else t

theorem entries_append (h : t.lookup (key a) = none) : (t.append a).entries = t.entries ++ [a] := by
  rw [append, dif_pos h]

theorem lookup_append (h : t.lookup (key a) = none) (k : κ) :
    (t.append a).lookup k = if key a = k then some a else t.lookup k := by
  rw [lookup, entries_append h, find?_append, lookup]
  by_cases hk : key a = k
  · subst hk
    rw [lookup] at h
    rw [h, if_pos rfl]
    simp
  · rw [if_neg hk]
    simp [hk]

/-! ## Changing an entry in place -/

def replace (t : Table key) (a : α) : Table key where
  entries := t.entries.map fun b ↦ if key b = key a then a else b
  nodup := by
    have hkeys : key ∘ (fun b ↦ if key b = key a then a else b) = key := by
      funext b
      by_cases h : key b = key a <;> simp [h]
    rw [List.map_map, hkeys]
    exact t.nodup

theorem lookup_replace (t : Table key) (a : α) (k : κ) :
    (t.replace a).lookup k = if key a = k then (t.lookup k).map fun _ ↦ a else t.lookup k := by
  have hfind : ∀ l : List α, (l.map fun b ↦ if key b = key a then a else b).find?
      (fun b ↦ key b = k) =
        if key a = k then (l.find? fun b ↦ key b = k).map fun _ ↦ a
        else l.find? fun b ↦ key b = k := by
    intro l
    induction l with
    | nil => simp
    | cons b l ih =>
      by_cases hb : key b = key a <;> by_cases hk : key a = k
      · simp [hb, hk]
      · have hbk : key b ≠ k := hb ▸ hk
        simp only [map_cons, if_pos hb, find?_cons, hk, hbk, decide_false, ih, if_false]
      · have hbk : key b ≠ k := hk ▸ hb
        simp only [map_cons, if_neg hb, find?_cons, hbk, decide_false, ih, if_pos hk]
      · simp only [map_cons, if_neg hb, find?_cons, ih, if_neg hk]
  exact hfind t.entries

theorem replace_replace (t : Table key) {b : α} (h : key a = key b) :
    (t.replace a).replace b = t.replace b := by
  have hentries : ((t.replace a).replace b).entries = (t.replace b).entries := by
    simp only [replace, map_map]
    apply map_congr_left
    intro c _
    by_cases hc : key c = key b <;> simp [h, hc]
  cases h₁ : (t.replace a).replace b
  cases h₂ : t.replace b
  simp_all

/-! ## Removing an entry -/

def erase (t : Table key) (k : κ) : Table key := t.filter fun a ↦ key a ≠ k

@[simp] theorem lookup_erase_self (t : Table key) (k : κ) : (t.erase k).lookup k = none := by
  rw [erase, lookup_filter]
  cases h : t.lookup k with
  | none => rfl
  | some a => simp [Option.filter, key_of_lookup h]

theorem lookup_erase_of_ne {k k' : κ} (h : k' ≠ k) : (t.erase k').lookup k = t.lookup k := by
  rw [erase, lookup_filter]
  cases ha : t.lookup k with
  | none => rfl
  | some a => simp [Option.filter, key_of_lookup ha, h.symm]

def put (t : Table key) (a : α) : Table key := (t.erase (key a)).insert a

theorem lookup_put (t : Table key) (a : α) (k : κ) :
    (t.put a).lookup k = if key a = k then some a else t.lookup k := by
  rw [put, lookup_insert (t.lookup_erase_self (key a))]
  split
  · rfl
  · next h => exact lookup_erase_of_ne h

end Table

end KeyedTable
