import Mathlib.Data.List.Basic

/-!
# First and last occurrences in a list

A loop that leaves at the first hit computes the first element with a property, one that overwrites
a variable computes the last. `IsFirst` and `IsLast` say this by the parts of the list before and
behind the element, so that a result about positions needs no indices.
-/

namespace Search

open Option List

variable {α β : Type*} {p q : α → Prop} {l : List α} {a b : α}

def IsFirst (p : α → Prop) (l : List α) (a : α) : Prop :=
  ∃ pre post, l = pre ++ a :: post ∧ p a ∧ ∀ x ∈ pre, ¬p x

def IsLast (p : α → Prop) (l : List α) (a : α) : Prop :=
  ∃ pre post, l = pre ++ a :: post ∧ p a ∧ ∀ x ∈ post, ¬p x

theorem IsFirst.mem (h : IsFirst p l a) : a ∈ l := by
  obtain ⟨pre, post, rfl, _, _⟩ := h
  simp

theorem IsLast.mem (h : IsLast p l a) : a ∈ l := by
  obtain ⟨pre, post, rfl, _, _⟩ := h
  simp

theorem IsFirst.holds (h : IsFirst p l a) : p a := by
  obtain ⟨pre, post, _, hp, _⟩ := h
  exact hp

theorem not_isFirst_nil : ¬IsFirst p [] a := fun h ↦ by simpa using h.mem

theorem not_isLast_nil : ¬IsLast p [] a := fun h ↦ by simpa using h.mem

theorem isFirst_cons : IsFirst p (b :: l) a ↔ (p b ∧ a = b) ∨ (¬p b ∧ IsFirst p l a) := by
  constructor
  · rintro ⟨pre, post, heq, hp, hpre⟩
    cases pre with
    | nil =>
      obtain ⟨rfl, rfl⟩ := cons.inj heq
      exact .inl ⟨hp, rfl⟩
    | cons x pre =>
      obtain ⟨rfl, rfl⟩ := cons.inj heq
      refine .inr ⟨hpre b mem_cons_self, pre, post, rfl, hp, ?_⟩
      intro x hx
      exact hpre x (mem_cons_of_mem _ hx)
  · rintro (⟨hp, rfl⟩ | ⟨hb, pre, post, rfl, hp, hpre⟩)
    · exact ⟨[], l, rfl, hp, by simp⟩
    refine ⟨b :: pre, post, rfl, hp, ?_⟩
    intro x hx
    rcases mem_cons.mp hx with rfl | hx
    · exact hb
    · exact hpre x hx

theorem isLast_cons :
    IsLast p (b :: l) a ↔ IsLast p l a ∨ ((∀ x ∈ l, ¬p x) ∧ p b ∧ a = b) := by
  constructor
  · rintro ⟨pre, post, heq, hp, hpost⟩
    cases pre with
    | nil =>
      obtain ⟨rfl, rfl⟩ := cons.inj heq
      exact .inr ⟨hpost, hp, rfl⟩
    | cons x pre =>
      obtain ⟨rfl, rfl⟩ := cons.inj heq
      exact .inl ⟨pre, post, rfl, hp, hpost⟩
  · rintro (⟨pre, post, rfl, hp, hpost⟩ | ⟨hl, hp, rfl⟩)
    · exact ⟨b :: pre, post, rfl, hp, hpost⟩
    · exact ⟨[], l, rfl, hp, hl⟩

theorem find?_eq_some_iff_isFirst {p : α → Bool} :
    l.find? p = some a ↔ IsFirst (fun x ↦ p x = true) l a := by
  rw [find?_eq_some_iff_append]
  constructor
  · rintro ⟨hp, pre, post, rfl, hpre⟩
    exact ⟨pre, post, rfl, hp, fun x hx ↦ by simpa using hpre x hx⟩
  · rintro ⟨pre, post, rfl, hp, hpre⟩
    exact ⟨hp, pre, post, rfl, fun x hx ↦ by simpa using hpre x hx⟩

/-- What `findSome?` returns comes from the first element on which the function has a value. -/
theorem findSome?_eq_some_iff_isFirst {f : α → Option β} {r : β} :
    l.findSome? f = some r ↔ ∃ a, IsFirst (fun x ↦ (f x).isSome = true) l a ∧ f a = some r := by
  rw [findSome?_eq_some_iff]
  constructor
  · rintro ⟨pre, a, post, heq, hf, hpre⟩
    refine ⟨a, ⟨pre, post, heq, by simp [hf], ?_⟩, hf⟩
    intro x hx
    simp [hpre x hx]
  · rintro ⟨a, ⟨pre, post, heq, _, hpre⟩, hf⟩
    refine ⟨pre, a, post, heq, hf, ?_⟩
    intro x hx
    simpa using hpre x hx

/-- The loop that leaves at the first element with `p` and otherwise ends with the last one with
`q`, or with what it was started with. -/
def firstOrLast (p q : α → Bool) (kept : Option α) : List α → Option α
  | [] => kept
  | a :: l =>
    if p a then some a
    else if q a then firstOrLast p q (some a) l
    else firstOrLast p q kept l

theorem firstOrLast_eq_some_iff {p q : α → Bool} {kept : Option α} :
    firstOrLast p q kept l = some a ↔
      IsFirst (fun x ↦ p x = true) l a ∨
        ((∀ x ∈ l, ¬p x = true) ∧
          (IsLast (fun x ↦ q x = true) l a ∨ ((∀ x ∈ l, ¬q x = true) ∧ kept = some a))) := by
  induction l generalizing kept with
  | nil => simp [firstOrLast, not_isFirst_nil, not_isLast_nil]
  | cons b l ih =>
    rw [firstOrLast, isFirst_cons, isLast_cons]
    by_cases hp : p b = true
    · rw [if_pos hp, some.injEq, eq_comm (a := b)]
      simp [hp]
    rw [if_neg hp]
    by_cases hq : q b = true
    · rw [if_pos hq, ih, some.injEq, eq_comm (a := b)]
      simp [hp, hq]
    · rw [if_neg hq, ih]
      simp [hp, hq]

/-! ## The elements that a loop comes to -/

def Reached (p : α → Prop) (l pre : List α) (a : α) : Prop :=
  (∃ post, l = pre ++ a :: post) ∧ ∀ x ∈ pre, p x

/-- What is asked of all elements that are reached is asked of the head and, behind a head with the
property, of those reached in the tail. -/
theorem forall_reached_cons {q : List α → α → Prop} :
    (∀ pre x, Reached p (b :: l) pre x → q pre x) ↔
      q [] b ∧ (p b → ∀ pre x, Reached p l pre x → q (b :: pre) x) := by
  constructor
  · intro h
    refine ⟨h [] b ⟨⟨l, rfl⟩, by simp⟩, ?_⟩
    rintro hb pre x ⟨⟨post, rfl⟩, hpre⟩
    exact h (b :: pre) x ⟨⟨post, rfl⟩, forall_mem_cons.mpr ⟨hb, hpre⟩⟩
  · rintro ⟨hhead, htail⟩ pre x ⟨⟨post, heq⟩, hpre⟩
    cases pre with
    | nil =>
      obtain ⟨rfl, rfl⟩ := cons.inj heq
      exact hhead
    | cons c pre =>
      obtain ⟨rfl, rfl⟩ := cons.inj heq
      obtain ⟨hb, hpre⟩ := forall_mem_cons.mp hpre
      exact htail hb pre x ⟨⟨post, rfl⟩, hpre⟩

theorem not_reached_nil {pre : List α} : ¬Reached p [] pre a := by
  rintro ⟨⟨post, heq⟩, -⟩
  cases pre <;> cases heq

/-! ## Selecting with a memory -/

section Select

variable {σ : Type*}

def select (step : σ → α → σ) (take : σ → α → Bool) : σ → List α → List α
  | _, [] => []
  | s, a :: l =>
    if take s a then a :: select step take (step s a) l else select step take (step s a) l

theorem mem_of_mem_select {step : σ → α → σ} {take : σ → α → Bool} {s : σ}
    (h : a ∈ select step take s l) : a ∈ l := by
  induction l generalizing s with
  | nil => exact h
  | cons b l ih =>
    rw [select] at h
    split at h
    · rcases mem_cons.mp h with rfl | h
      · exact mem_cons_self
      · exact mem_cons_of_mem b (ih h)
    · exact mem_cons_of_mem b (ih h)

/-- If the elements have different keys, the elements taken are those with a property exactly if at
every element the loop decides by the property. -/
theorem perm_select_filter_iff {step : σ → α → σ} {take : σ → α → Bool} {p : α → Bool} {s : σ}
    {key : α → β} (hkey : (l.map key).Nodup) :
    ((select step take s l).map key).Perm ((l.filter p).map key) ↔
      ∀ pre a, Reached (fun _ ↦ True) l pre a → take (pre.foldl step s) a = p a := by
  induction l generalizing s with
  | nil => exact iff_of_true (Perm.refl _) fun pre a h ↦ absurd h not_reached_nil
  | cons b l ih =>
    obtain ⟨hb, hl⟩ := nodup_cons.mp hkey
    rw [forall_reached_cons]
    simp only [true_imp_iff, foldl_nil, foldl_cons]
    rw [← ih hl, select, filter_cons]
    -- a key of a later element is not the one of the head
    have hselect : key b ∉ (select step take (step s b) l).map key := by
      intro h
      obtain ⟨a, ha, hab⟩ := mem_map.mp h
      exact hb (hab ▸ mem_map_of_mem (mem_of_mem_select ha))
    have hfilter : key b ∉ (l.filter p).map key := by
      intro h
      obtain ⟨a, ha, hab⟩ := mem_map.mp h
      exact hb (hab ▸ mem_map_of_mem (mem_of_mem_filter ha))
    cases htake : take s b <;> cases hp : p b
    · simp
    · refine iff_of_false (fun h ↦ hselect (h.mem_iff.mpr ?_)) (by simp)
      rw [if_pos rfl, map_cons]
      exact mem_cons_self
    · refine iff_of_false (fun h ↦ hfilter (h.mem_iff.mp ?_)) (by simp)
      rw [if_pos rfl, map_cons]
      exact mem_cons_self
    · simp

end Select

/-! ## Changing the first hit -/

section Modify

variable {p q : α → Bool} {f : α → α}

def modifyFirst (p : α → Bool) (f : α → α) : List α → List α
  | [] => []
  | a :: l => if p a then f a :: l else a :: modifyFirst p f l

theorem modifyFirst_cons_of_pos (h : p a = true) : modifyFirst p f (a :: l) = f a :: l :=
  if_pos h

theorem modifyFirst_cons_of_neg (h : p a = false) :
    modifyFirst p f (a :: l) = a :: modifyFirst p f l := by
  rw [modifyFirst, if_neg (by simp [h])]

theorem modifyFirst_of_find?_eq_some (h : l.find? p = some a) :
    ∃ pre post, l = pre ++ a :: post ∧ modifyFirst p f l = pre ++ f a :: post := by
  induction l with
  | nil => cases h
  | cons b l ih =>
    cases hb : p b with
    | true =>
      rw [find?_cons_of_pos hb] at h
      cases h
      exact ⟨[], l, rfl, modifyFirst_cons_of_pos hb⟩
    | false =>
      rw [find?_cons_of_neg (by simp [hb])] at h
      obtain ⟨pre, post, hl, hmodify⟩ := ih h
      refine ⟨b :: pre, post, by rw [hl, cons_append], ?_⟩
      rw [modifyFirst_cons_of_neg hb, hmodify, cons_append]

theorem find?_modifyFirst (h : ∀ a, p a = true → p (f a) = true) :
    (modifyFirst p f l).find? p = (l.find? p).map f := by
  induction l with
  | nil => rfl
  | cons b l ih =>
    cases hb : p b with
    | true => rw [modifyFirst_cons_of_pos hb, find?_cons_of_pos (h b hb),
        find?_cons_of_pos hb, map_some]
    | false => rw [modifyFirst_cons_of_neg hb, find?_cons_of_neg (by simp [hb]),
        find?_cons_of_neg (by simp [hb]), ih]

theorem map_modifyFirst {g : α → β} (h : ∀ a, p a = true → g (f a) = g a) :
    (modifyFirst p f l).map g = l.map g := by
  induction l with
  | nil => rfl
  | cons b l ih =>
    cases hb : p b with
    | true => rw [modifyFirst_cons_of_pos hb, map_cons, map_cons, h b hb]
    | false => rw [modifyFirst_cons_of_neg hb, map_cons, map_cons, ih]

theorem filter_modifyFirst_of_not (h : ∀ a, p a = true → q a = false ∧ q (f a) = false) :
    (modifyFirst p f l).filter q = l.filter q := by
  induction l with
  | nil => rfl
  | cons b l ih =>
    cases hb : p b with
    | true => rw [modifyFirst_cons_of_pos hb, filter_cons_of_neg (by simp [(h b hb).2]),
        filter_cons_of_neg (by simp [(h b hb).1])]
    | false => rw [modifyFirst_cons_of_neg hb, filter_cons, filter_cons, ih]

theorem filter_modifyFirst (h : ∀ a, p a = true → q a = true ∧ q (f a) = true) :
    (modifyFirst p f l).filter q = modifyFirst p f (l.filter q) := by
  induction l with
  | nil => rfl
  | cons b l ih =>
    cases hb : p b with
    | true => rw [modifyFirst_cons_of_pos hb, filter_cons_of_pos (h b hb).2,
        filter_cons_of_pos (h b hb).1, modifyFirst_cons_of_pos hb]
    | false =>
      rw [modifyFirst_cons_of_neg hb, filter_cons, filter_cons, ih]
      split
      · rw [modifyFirst_cons_of_neg hb]
      · rfl

theorem modifyFirst_append_of_not (h : ∀ a ∈ l, p a = false) (l' : List α) :
    modifyFirst p f (l ++ l') = l ++ modifyFirst p f l' := by
  induction l with
  | nil => rfl
  | cons a l ih =>
    rw [cons_append, modifyFirst_cons_of_neg (h a mem_cons_self),
      ih fun b hb ↦ h b (mem_cons_of_mem a hb), cons_append]

theorem take_modifyFirst (k : ℕ) : (modifyFirst p f l).take k = modifyFirst p f (l.take k) := by
  induction l generalizing k with
  | nil => rw [modifyFirst, take_nil, modifyFirst]
  | cons b l ih =>
    cases k with
    | zero => rfl
    | succ k =>
      rw [take_succ_cons]
      cases hb : p b with
      | true => rw [modifyFirst_cons_of_pos hb, modifyFirst_cons_of_pos hb, take_succ_cons]
      | false =>
        rw [modifyFirst_cons_of_neg hb, modifyFirst_cons_of_neg hb, take_succ_cons, ih]

theorem find?_modifyFirst_of_same (h : ∀ a, q (f a) = q a) :
    ∃ g : α → α, (∀ a, g a = a ∨ g a = f a) ∧ (modifyFirst p f l).find? q = (l.find? q).map g := by
  induction l with
  | nil => exact ⟨id, fun a ↦ .inl rfl, rfl⟩
  | cons b l ih =>
    cases hb : p b with
    | true =>
      rw [modifyFirst_cons_of_pos hb, find?_cons, find?_cons, h b]
      cases q b with
      | true => exact ⟨f, fun a ↦ .inr rfl, rfl⟩
      | false => exact ⟨id, fun a ↦ .inl rfl, (map_id_apply).symm⟩
    | false =>
      rw [modifyFirst_cons_of_neg hb, find?_cons, find?_cons]
      cases q b with
      | true => exact ⟨id, fun a ↦ .inl rfl, rfl⟩
      | false => exact ih

end Modify

end Search
