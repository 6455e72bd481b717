import Mathlib.Data.List.Forall2
import Mathlib.Data.List.Nodup
import Mathlib.Data.Nat.Notation
import Mathlib.Order.Lattice
import Mathlib.Tactic.Ring

/-!
# Addresses

What a compiler does to place the parts of an object: an address is moved up to a multiple of an
alignment, and the elements of an array follow each other at a distance that is their size. `places`
lists the addresses of the parts of all elements when `f` lists those of one element. A memory is a
list of addresses with their contents.
-/

namespace Layout

open Nat List

/-! ## Alignment -/

def padding (a al : ℕ) : ℕ := if a % al = 0 then 0 else al - a % al

def alignUp (a al : ℕ) : ℕ := a + padding a al

variable {a al al' b c : ℕ}

theorem le_alignUp (a al : ℕ) : a ≤ alignUp a al := le_add_right _ _

theorem padding_of_dvd (h : al ∣ a) : padding a al = 0 := if_pos (mod_eq_zero_of_dvd h)

theorem alignUp_of_dvd (h : al ∣ a) : alignUp a al = a := by
  rw [alignUp, padding_of_dvd h, add_zero]

theorem dvd_alignUp (a : ℕ) (hal : 0 < al) : al ∣ alignUp a al := by
  rw [alignUp, padding]
  split
  · next h => exact dvd_of_mod_eq_zero h
  have hlt := mod_lt a hal
  have hsum := mod_add_div a al
  refine ⟨a / al + 1, ?_⟩
  rw [mul_add, mul_one]
  omega

theorem alignUp_le (hal : 0 < al) (hc : al ∣ c) (h : a ≤ c) : alignUp a al ≤ c := by
  rw [alignUp, padding]
  split
  · exact h
  next hmod =>
  obtain ⟨k, rfl⟩ := hc
  have hlt := mod_lt a hal
  have hsum := mod_add_div a al
  have hquot : a / al < k := by
    by_contra hge
    have hmul : al * k ≤ al * (a / al) := Nat.mul_le_mul_left al (Nat.le_of_not_lt hge)
    omega
  have hnext : al * (a / al) + al ≤ al * k := by
    rw [← mul_succ]
    exact mul_le_mul_left al hquot
  omega

theorem alignUp_add_of_dvd (a : ℕ) (h : al ∣ b) : alignUp (a + b) al = alignUp a al + b := by
  have hmod : (a + b) % al = a % al := by
    rw [add_mod, mod_eq_zero_of_dvd h, add_zero, mod_mod]
  rw [alignUp, alignUp, padding, padding, hmod]
  omega

/-- A coarser alignment makes no difference where the finer one meets it. -/
theorem alignUp_eq_of_dvd (hal : 0 < al) (hal' : 0 < al') (hdvd : al ∣ al')
    (h : al' ∣ alignUp a al) : alignUp a al' = alignUp a al := by
  apply le_antisymm
  · exact alignUp_le hal' h (le_alignUp a al)
  · exact alignUp_le hal (hdvd.trans (dvd_alignUp a hal')) (le_alignUp a al')

/-! ## Arrays -/

def places (f : ℕ → List ℕ) (size : ℕ) : ℕ → ℕ → List ℕ
  | 0, _ => []
  | n + 1, a => f a ++ places f size n (a + size)

variable {f g : ℕ → List ℕ} {size n : ℕ}

-- element `i + 1` of an array is element `i` of its rest
theorem add_succ_mul (a i size : ℕ) : a + (i + 1) * size = a + size + i * size := by ring

theorem mem_places {x : ℕ} : x ∈ places f size n a ↔ ∃ i < n, x ∈ f (a + i * size) := by
  induction n generalizing a with
  | zero => simp [places]
  | succ n ih =>
    simp only [places, mem_append, ih, exists_lt_succ_left, zero_mul, add_zero, add_succ_mul]

theorem places_one (f : ℕ → List ℕ) (size a : ℕ) : places f size 1 a = f a := append_nil _

theorem length_places {k : ℕ} (h : ∀ a, (f a).length = k) : (places f size n a).length = n * k := by
  induction n generalizing a with
  | zero => rw [places, zero_mul, length_nil]
  | succ n ih => rw [places, length_append, h, ih, succ_mul, add_comm]

theorem places_congr (h : ∀ i < n, f (a + i * size) = g (a + i * size)) :
    places f size n a = places g size n a := by
  induction n generalizing a with
  | zero => rfl
  | succ n ih =>
    simp only [forall_lt_succ_left, zero_mul, add_zero, add_succ_mul] at h
    rw [places, places, h.1, ih h.2]

theorem places_add (h : ∀ i < n, f (a + i * size + b) = (f (a + i * size)).map (· + b)) :
    places f size n (a + b) = (places f size n a).map (· + b) := by
  induction n generalizing a with
  | zero => rfl
  | succ n ih =>
    simp only [forall_lt_succ_left, zero_mul, add_zero, add_succ_mul] at h
    rw [places, places, h.1, map_append, add_right_comm, ih h.2]

theorem eq_of_places_eq (hlen : ∀ a, (f a).length = (g a).length)
    (h : places f size n a = places g size n a) : ∀ i < n, f (a + i * size) = g (a + i * size) := by
  induction n generalizing a with
  | zero =>
    intro i hi
    exact absurd hi (not_lt_zero i)
  | succ n ih =>
    obtain ⟨hfirst, hrest⟩ := append_inj h (hlen a)
    simp only [forall_lt_succ_left, zero_mul, add_zero, add_succ_mul]
    exact ⟨hfirst, ih hrest⟩

def Ascends (l : List ℕ) (a b : ℕ) : Prop := l.Pairwise (· < ·) ∧ ∀ x ∈ l, a ≤ x ∧ x < b

variable {l : List ℕ}

theorem Ascends.nodup (h : Ascends l a b) : l.Nodup := h.1.imp ne_of_lt

theorem ascends_nil (a b : ℕ) : Ascends [] a b := ⟨.nil, by simp⟩

theorem ascends_singleton (h : a < b) : Ascends [a] a b := by
  refine ⟨pairwise_singleton _ a, fun x hx ↦ ?_⟩
  obtain rfl := mem_singleton.mp hx
  exact ⟨le_refl x, h⟩

theorem Ascends.mono (h : Ascends l a b) {a' b' : ℕ} (ha : a' ≤ a) (hb : b ≤ b') :
    Ascends l a' b' :=
  ⟨h.1, fun x hx ↦ ⟨ha.trans (h.2 x hx).1, (h.2 x hx).2.trans_le hb⟩⟩

theorem Ascends.append {l' : List ℕ} (h : Ascends l a b) (h' : Ascends l' b c) (hab : a ≤ b)
    (hbc : b ≤ c) : Ascends (l ++ l') a c := by
  refine ⟨pairwise_append.mpr ⟨h.1, h'.1, fun x hx y hy ↦ ?_⟩, fun x hx ↦ ?_⟩
  · exact (h.2 x hx).2.trans_le (h'.2 y hy).1
  · rcases mem_append.mp hx with hx | hx
    · exact ⟨(h.2 x hx).1, (h.2 x hx).2.trans_le hbc⟩
    · exact ⟨hab.trans (h'.2 x hx).1, (h'.2 x hx).2⟩

theorem ascends_places
    (h : ∀ i < n, Ascends (f (a + i * size)) (a + i * size) (a + i * size + size)) :
    Ascends (places f size n a) a (a + n * size) := by
  induction n generalizing a with
  | zero => exact ascends_nil _ _
  | succ n ih =>
    simp only [forall_lt_succ_left, zero_mul, add_zero, add_succ_mul] at h
    rw [add_succ_mul]
    exact h.1.append (ih h.2) (le_add_right _ _) (le_add_right _ _)

theorem eq_zero_of_add_mem (hne : l ≠ []) (h : ∀ x ∈ l, x + b ∈ l) : b = 0 := by
  obtain ⟨m, hm, hmax⟩ : ∃ m ∈ l, ∀ x ∈ l, x ≤ m := by
    clear h
    induction l with
    | nil => exact absurd rfl hne
    | cons y l ih =>
      by_cases hl : l = []
      · exact ⟨y, mem_cons_self, by simp [hl]⟩
      obtain ⟨m, hm, hmax⟩ := ih hl
      rcases le_total y m with hle | hle
      · refine ⟨m, mem_cons_of_mem y hm, ?_⟩
        rintro x (_ | ⟨_, hx⟩)
        · exact hle
        · exact hmax x hx
      · refine ⟨y, mem_cons_self, ?_⟩
        rintro x (_ | ⟨_, hx⟩)
        · exact le_refl y
        · exact (hmax x hx).trans hle
  have hle := hmax _ (h m hm)
  omega

/-! ## Memories -/

variable {β : Type*}

def Holds (mem : List (ℕ × β)) (addrs : List ℕ) (words : List β) : Prop :=
  List.Forall₂ (fun a w ↦ mem.lookup a = some w) addrs words

variable {mem : List (ℕ × β)} {addrs addrs' : List ℕ} {words words' : List β}

/-- Contents of a concatenation, when the first parts are of the same length. -/
theorem Holds.of_append (hlen : addrs.length = words.length)
    (h : Holds mem (addrs ++ addrs') (words ++ words')) :
    Holds mem addrs words ∧ Holds mem addrs' words' := by
  induction addrs generalizing words with
  | nil =>
    obtain rfl := length_eq_zero_iff.mp hlen.symm
    exact ⟨.nil, h⟩
  | cons a addrs ih =>
    obtain ⟨w, words, rfl⟩ := exists_cons_of_length_eq_add_one hlen.symm
    rw [cons_append, cons_append] at h
    rcases h with _ | ⟨hw, h⟩
    obtain ⟨hfirst, hrest⟩ := ih (succ.inj hlen) h
    exact ⟨.cons hw hfirst, hrest⟩

theorem Holds.cons_of_not_mem {k : ℕ} (h : Holds mem addrs words) (hk : k ∉ addrs) (w : β) :
    Holds ((k, w) :: mem) addrs words := by
  induction h with
  | nil => exact .nil
  | @cons a w' addrs words ha _ ih =>
    rw [mem_cons, not_or] at hk
    refine .cons ?_ (ih hk.2)
    rw [lookup_cons, beq_false_of_ne (Ne.symm hk.1)]
    exact ha

/-- A memory holds what was put into it, when no address is used twice. -/
theorem holds_zip (hnodup : addrs.Nodup) (hlen : addrs.length = words.length) :
    Holds (addrs.zip words) addrs words := by
  induction addrs generalizing words with
  | nil =>
    obtain rfl := length_eq_zero_iff.mp hlen.symm
    exact .nil
  | cons a addrs ih =>
    obtain ⟨w, words, rfl⟩ := exists_cons_of_length_eq_add_one hlen.symm
    rw [nodup_cons] at hnodup
    have hrest := ih hnodup.2 (succ.inj hlen)
    rw [zip_cons_cons]
    exact .cons (by rw [lookup_cons, beq_self_eq_true]) (hrest.cons_of_not_mem hnodup.1 w)

theorem mem_of_lookup_zip {w : β} (h : (addrs.zip words).lookup b = some w) : b ∈ addrs := by
  induction addrs generalizing words with
  | nil => simp at h
  | cons a addrs ih =>
    rcases words with _ | ⟨w', words⟩
    · simp at h
    rw [zip_cons_cons, lookup_cons] at h
    by_cases hb : b = a
    · exact hb ▸ mem_cons_self
    · rw [beq_false_of_ne hb] at h
      exact mem_cons_of_mem a (ih h)

def without (mem : List (ℕ × β)) (x : ℕ) : List (ℕ × β) := mem.filter fun c ↦ c.1 != x

theorem lookup_without_self (mem : List (ℕ × β)) (x : ℕ) : (without mem x).lookup x = none := by
  induction mem with
  | nil => rfl
  | cons c mem ih =>
    rw [without, filter_cons]
    split
    · next hne => rw [lookup_cons, beq_false_of_ne (bne_iff_ne.mp hne).symm, ← ih, without]
    · exact ih

theorem lookup_without_of_ne (mem : List (ℕ × β)) {x y : ℕ} (h : y ≠ x) :
    (without mem x).lookup y = mem.lookup y := by
  induction mem with
  | nil => rfl
  | cons c mem ih =>
    rw [without, filter_cons]
    split
    · rw [lookup_cons, lookup_cons, ← ih, without]
    next hx =>
    have hc : c.1 = x := by simpa using hx
    rw [lookup_cons, hc, beq_false_of_ne h]
    exact ih

def Reads {γ : Type*} (f : List (ℕ × β) → γ) (mem : List (ℕ × β)) (x : ℕ) : Prop :=
  ∃ mem' : List (ℕ × β), (∀ y ≠ x, mem'.lookup y = mem.lookup y) ∧ f mem' ≠ f mem

/-- A function that depends on some addresses only, and needs something at each of them, reads
these. -/
theorem reads_iff_mem {γ : Type*} {f : List (ℕ × β) → γ}
    (hcongr : ∀ mem', (∀ x ∈ addrs, mem'.lookup x = mem.lookup x) → f mem' = f mem)
    (hneed : ∀ mem', f mem' = f mem → ∀ x ∈ addrs, (mem'.lookup x).isSome = true) (x : ℕ) :
    Reads f mem x ↔ x ∈ addrs := by
  constructor
  · rintro ⟨mem', hsame, hne⟩
    by_contra hx
    refine hne (hcongr mem' fun y hy ↦ hsame y ?_)
    rintro rfl
    exact hx hy
  · intro hx
    refine ⟨without mem x, fun y hy ↦ lookup_without_of_ne mem hy, fun heq ↦ ?_⟩
    have hsome := hneed _ heq x hx
    rw [lookup_without_self] at hsome
    cases hsome

end Layout
