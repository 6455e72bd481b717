import Openwsman.Serialize.Types

/-!
# Where fields are

The fields of a value stand at ascending addresses inside it, and a value that is moved takes its
fields along. The walk over a value moves every structure to a multiple of eight, so it finds the
fields where the compiler has placed them exactly when all structures already are at such addresses:
this is `Aligned`.

A type is one in C when it has no empty structures and arrays. It is well formed when, moreover, no
element of a structure is found under the name of another field.
-/

namespace Openwsman

open SerType Bool List Layout

theorem SerType.induction {P : SerType → Prop} {Q : SerItems → Prop} (basic : ∀ t, P (.basic t))
    (struct : ∀ items, Q items → P (.struct items)) (nil : Q .nil)
    (cons : ∀ info t rest, P t → Q rest → Q (.cons info t rest)) :
    (∀ t, P t) ∧ ∀ items, Q items :=
  ⟨@rec P Q basic struct nil cons, @SerItems.rec P Q basic struct nil cons⟩

/-! ## Alignments -/

variable {a b : ℕ}

theorem dvd_of_dvd_eight (ha : a ∣ 8) (hb : b ∣ 8) (h : a ≤ b) : a ∣ b := by
  have hall : ∀ a < 9, ∀ b < 9, a ∣ 8 → b ∣ 8 → a ≤ b → a ∣ b := by decide
  have hle {c : ℕ} (hc : c ∣ 8) : c < 9 := Nat.lt_succ_of_le (Nat.le_of_dvd (by decide) hc)
  exact hall a (hle ha) b (hle hb) ha hb h

theorem pos_of_dvd_eight (h : a ∣ 8) : 0 < a := Nat.pos_of_dvd_of_pos h (by decide)

variable (info : FieldInfo) (t : SerType)

theorem FieldInfo.align_dvd {al : ℕ} (h : al ∣ 8) : info.align al ∣ 8 := by
  rw [align]
  split
  · exact dvd_rfl
  · exact h

theorem align_dvd_eight :
    (∀ t : SerType, t.align ∣ 8) ∧ ∀ items : SerItems, items.align ∣ 8 := by
  refine induction ?_ ?_ ?_ ?_
  · exact BasicType.size_dvd
  · intro items h
    exact h
  · exact one_dvd 8
  intro info t rest ht hrest
  rw [SerItems.align]
  rcases Nat.le_total (info.align t.align) rest.align with h | h
  · rwa [max_eq_right h]
  · rw [max_eq_left h]
    exact info.align_dvd ht

namespace SerType

variable (t : SerType)

theorem align_dvd : t.align ∣ 8 := align_dvd_eight.1 t

theorem align_pos : 0 < t.align := pos_of_dvd_eight t.align_dvd

theorem align_dvd_size : t.align ∣ t.size := by
  rcases t with t | items
  · exact dvd_rfl
  · exact dvd_alignUp _ (pos_of_dvd_eight (align_dvd_eight.2 items))

theorem align_dvd_alignBy : t.align ∣ t.alignBy walkAlign := by
  rcases t with t | items
  · exact dvd_rfl
  · exact align_dvd_eight.2 items

theorem alignBy_dvd : t.alignBy walkAlign ∣ 8 := by
  rcases t with t | items
  · exact t.size_dvd
  · exact dvd_rfl

theorem alignBy_align : t.alignBy SerItems.align = t.align := by
  cases t <;> rfl

end SerType

section

variable (info : FieldInfo) (t : SerType) (rest : SerItems)

theorem FieldInfo.align_pos : 0 < info.align t.align :=
  pos_of_dvd_eight (info.align_dvd t.align_dvd)

theorem FieldInfo.dvd_start (a : ℕ) : info.align t.align ∣ alignUp a (info.align t.align) :=
  dvd_alignUp a (info.align_pos t)

theorem SerItems.field_dvd_align : info.align t.align ∣ (SerItems.cons info t rest).align :=
  dvd_of_dvd_eight (info.align_dvd t.align_dvd) (align_dvd_eight.2 _) (le_max_left _ _)

theorem SerItems.rest_dvd_align : rest.align ∣ (SerItems.cons info t rest).align :=
  dvd_of_dvd_eight (align_dvd_eight.2 _) (align_dvd_eight.2 _) (le_max_right _ _)

end

theorem FieldInfo.dvd_start_of_not_dynamic {info : FieldInfo} (h : info.dynamic = false)
    (t : SerType) (a : ℕ) : t.align ∣ alignUp a (info.align t.align) := by
  have hdvd := info.dvd_start t a
  rwa [align, if_neg (by simp [h])] at hdvd ⊢

theorem SerType.align_dvd_elem (h : t.align ∣ a) (i : ℕ) : t.align ∣ a + i * t.size :=
  Nat.dvd_add h (t.align_dvd_size.mul_left i)

/-! ## Sizes -/

theorem SerItems.le_extent : ∀ (items : SerItems) (a : ℕ), a ≤ items.extent a
  | .nil, a => Nat.le_refl a
  | .cons info t rest, a => by
    rw [extent]
    refine le_trans ?_ (le_extent rest _)
    exact (le_alignUp a _).trans (Nat.le_add_right _ _)

theorem SerItems.extent_add : ∀ (items : SerItems), items.align ∣ b → ∀ a,
    items.extent (a + b) = items.extent a + b
  | .nil, _, a => rfl
  | .cons info t rest, h, a => by
    rw [extent, extent, alignUp_add_of_dvd a ((field_dvd_align info t rest).trans h),
      Nat.add_right_comm, extent_add rest ((rest_dvd_align info t rest).trans h)]

theorem SerItems.extent_le (items : SerItems) (h : items.align ∣ a) :
    items.extent a ≤ a + (SerType.struct items).size := by
  have hzero := items.extent_add h 0
  rw [Nat.zero_add] at hzero
  have hle := le_alignUp (items.extent 0) items.align
  rw [hzero, size]
  omega

/-! ## Well-formed types -/

def FieldInfo.finds (info other : FieldInfo) : Bool :=
  (info.ns.isNone || other.ns == info.ns) && info.name == other.name

def SerItems.Apart (info : FieldInfo) : SerItems → Prop
  | .nil => True
  | .cons other _ rest =>
    (info.finds other = false ∧ other.finds info = false) ∧ rest.Apart info

mutual

def SerType.WellFormed : SerType → Prop
  | .basic _ => True
  | .struct items => items ≠ .nil ∧ items.WellFormed

def SerItems.WellFormed : SerItems → Prop
  | .nil => True
  | .cons info t rest =>
    (info.dynamic = false → 0 < info.count) ∧ rest.Apart info ∧ t.WellFormed ∧ rest.WellFormed

end

mutual

def SerType.InC : SerType → Prop
  | .basic _ => True
  | .struct items => items ≠ .nil ∧ items.InC

def SerItems.InC : SerItems → Prop
  | .nil => True
  | .cons info t rest => (info.dynamic = false → 0 < info.count) ∧ t.InC ∧ rest.InC

end

theorem inC_of_wellFormed :
    (∀ t : SerType, t.WellFormed → t.InC) ∧ ∀ items : SerItems, items.WellFormed → items.InC := by
  refine induction ?_ ?_ ?_ ?_
  · intro t _
    exact trivial
  · intro items ih h
    exact ⟨h.1, ih h.2⟩
  · intro _
    exact trivial
  · intro info t rest ht hrest h
    exact ⟨h.1, ht h.2.2.1, hrest h.2.2.2⟩

variable {t : SerType}

theorem SerType.WellFormed.inC (h : t.WellFormed) : t.InC := inC_of_wellFormed.1 t h

theorem size_pos_of_inC :
    (∀ t : SerType, t.InC → 0 < t.size) ∧
      ∀ items : SerItems, items.InC → ∀ a, items ≠ .nil → a < items.extent a := by
  refine induction ?_ ?_ ?_ ?_
  · intro t _
    exact t.size_pos
  · intro items ih h
    exact (ih h.2 0 h.1).trans_le (le_alignUp _ _)
  · intro _ _ h
    exact absurd rfl h
  intro info t rest ht _ h a _
  have hsize : 0 < info.size t.size := by
    rw [FieldInfo.size]
    split
    · decide
    · next hdyn => exact Nat.mul_pos (h.1 (eq_false_of_not_eq_true hdyn)) (ht h.2.1)
  rw [SerItems.extent]
  refine lt_of_lt_of_le ?_ (rest.le_extent _)
  have hstart := le_alignUp a (info.align t.align)
  omega

theorem SerType.InC.size_pos (h : t.InC) : 0 < t.size := size_pos_of_inC.1 t h

theorem SerType.WellFormed.size_pos (h : t.WellFormed) : 0 < t.size := h.inC.size_pos

/-! ## Number of parts -/

mutual

def SerType.parts : SerType → ℕ
  | .basic _ => 1
  | .struct items => items.parts

def SerItems.parts : SerItems → ℕ
  | .nil => 0
  | .cons info t rest => (if info.dynamic then 1 else info.count * t.parts) + rest.parts

end

theorem length_offsets_eq (al : SerItems → ℕ) :
    (∀ t : SerType, ∀ a, (t.offsets al a).length = t.parts) ∧
      ∀ items : SerItems, ∀ a, (items.offsets al a).length = items.parts := by
  refine induction ?_ ?_ ?_ ?_
  · intro t a
    rfl
  · intro items ih a
    exact ih a
  · intro a
    rfl
  intro info t rest ht hrest a
  rw [SerItems.offsets, SerItems.parts, length_append, hrest, FieldInfo.offsets]
  split
  · rfl
  · rw [length_places ht]

theorem SerType.length_offsets (al : SerItems → ℕ) (a : ℕ) :
    (t.offsets al a).length = t.parts :=
  (length_offsets_eq al).1 t a

theorem FieldInfo.length_offsets (t : SerType) (al : SerItems → ℕ) (a : ℕ) :
    (info.offsets (t.offsets al) t.size a).length =
      if info.dynamic then 1 else info.count * t.parts := by
  rw [offsets]
  split
  · rfl
  · rw [length_places (t.length_offsets al)]

theorem length_flatMap_const {α β : Type} {f : α → List β} {k : ℕ} (h : ∀ v, (f v).length = k)
    (vs : List α) : (vs.flatMap f).length = vs.length * k := by
  induction vs with
  | nil => rw [flatMap_nil, length_nil, length_nil, Nat.zero_mul]
  | cons v vs ih =>
    rw [flatMap_cons, length_append, h, ih, length_cons, Nat.succ_mul, Nat.add_comm]

theorem length_words_eq :
    (∀ t : SerType, ∀ v, (t.words v).length = t.parts) ∧
      ∀ items : SerItems, ∀ v, (items.words v).length = items.parts := by
  refine induction ?_ ?_ ?_ ?_
  · intro t v
    rfl
  · intro items ih v
    exact ih v
  · intro v
    rfl
  intro info t rest ht hrest v
  rw [SerItems.words, SerItems.parts, length_append, hrest]
  split
  · rfl
  · next hdyn =>
    rw [length_flatMap_const ht, v.1.length_eq (eq_false_of_not_eq_true hdyn)]

theorem SerType.length_words (v : t.Val) : (t.words v).length = t.parts :=
  length_words_eq.1 t v

def FieldVal.words {info : FieldInfo} {t : SerType} (v : FieldVal info t.align t.Val) : List Word :=
  if info.dynamic then [dynWord t.size (t.offsets SerItems.align) t.words v.base v.elems]
  else v.elems.flatMap t.words

theorem FieldVal.length_words {info : FieldInfo} (v : FieldVal info t.align t.Val) :
    v.words.length = if info.dynamic then 1 else info.count * t.parts := by
  rw [words]
  split
  · rfl
  · next hdyn =>
    rw [length_flatMap_const t.length_words, v.length_eq (eq_false_of_not_eq_true hdyn)]

theorem SerType.length_places (al : SerItems → ℕ) (vs : List t.Val) (a : ℕ) :
    (places (t.offsets al) t.size vs.length a).length = (vs.flatMap t.words).length := by
  rw [Layout.length_places (t.length_offsets al), length_flatMap_const t.length_words]

/-! ## The addresses that the compiler chooses -/

theorem offsets_add_eq :
    (∀ t : SerType, t.align ∣ b → ∀ a,
      t.offsets SerItems.align (a + b) = (t.offsets SerItems.align a).map (· + b)) ∧
    ∀ items : SerItems, items.align ∣ b → ∀ a,
      items.offsets SerItems.align (a + b) = (items.offsets SerItems.align a).map (· + b) := by
  refine induction ?_ ?_ ?_ ?_
  · intro t _ a
    rfl
  · intro items ih h a
    exact ih h a
  · intro _ a
    rfl
  intro info t rest ht hrest h a
  have hfield := (SerItems.field_dvd_align info t rest).trans h
  rw [SerItems.offsets, SerItems.offsets, t.alignBy_align, map_append]
  rw [alignUp_add_of_dvd a hfield, Nat.add_right_comm,
    hrest ((SerItems.rest_dvd_align info t rest).trans h)]
  congr 1
  -- a dynamic field has one address, and the others move with their elements
  rw [FieldInfo.offsets, FieldInfo.offsets]
  split
  · rfl
  · next hdyn =>
    rw [FieldInfo.align, if_neg hdyn] at hfield
    exact places_add fun i _ ↦ ht hfield _

theorem SerType.offsets_add (h : t.align ∣ b) (a : ℕ) :
    t.offsets SerItems.align (a + b) = (t.offsets SerItems.align a).map (· + b) :=
  offsets_add_eq.1 t h a

theorem ascends_offsets_eq :
    (∀ t : SerType, ∀ a, t.align ∣ a →
      Ascends (t.offsets SerItems.align a) a (a + t.size)) ∧
    ∀ items : SerItems, ∀ a, Ascends (items.offsets SerItems.align a) a (items.extent a) := by
  refine induction ?_ ?_ ?_ ?_
  · intro t a _
    exact ascends_singleton (Nat.lt_add_of_pos_right t.size_pos)
  · intro items ih a h
    exact (ih a).mono (Nat.le_refl a) (items.extent_le h)
  · intro a
    exact ascends_nil a a
  intro info t rest ht hrest a
  have hle := rest.le_extent (alignUp a (info.align t.align) + info.size t.size)
  rw [SerItems.offsets, SerItems.extent, t.alignBy_align]
  refine Ascends.append ?_ (hrest _) ?_ hle
  · refine Ascends.mono ?_ (le_alignUp a (info.align t.align)) (Nat.le_refl _)
    rw [FieldInfo.offsets, FieldInfo.size]
    split
    · exact ascends_singleton (Nat.lt_add_of_pos_right (by decide))
    · next hdyn =>
      have hstart := FieldInfo.dvd_start_of_not_dynamic (eq_false_of_not_eq_true hdyn) t a
      exact ascends_places fun i _ ↦ ht _ (t.align_dvd_elem hstart i)
  · exact (le_alignUp a _).trans (Nat.le_add_right _ _)

theorem SerType.nodup_places (h : t.align ∣ a) (n : ℕ) :
    (places (t.offsets SerItems.align) t.size n a).Nodup :=
  (ascends_places fun i _ ↦ ascends_offsets_eq.1 t _ (t.align_dvd_elem h i)).nodup

theorem mem_offsets_self :
    (∀ t : SerType, t.InC → ∀ a, t.align ∣ a → a ∈ t.offsets SerItems.align a) ∧
    ∀ items : SerItems, items.InC → ∀ a, items ≠ .nil → items.align ∣ a →
      a ∈ items.offsets SerItems.align a := by
  refine induction ?_ ?_ ?_ ?_
  · intro t _ a _
    exact mem_singleton_self a
  · intro items ih h a ha
    exact ih h.2 a h.1 ha
  · intro _ a h
    exact absurd rfl h
  intro info t rest ht _ h a _ ha
  have hfield := (SerItems.field_dvd_align info t rest).trans ha
  rw [SerItems.offsets, t.alignBy_align]
  rw [alignUp_of_dvd hfield]
  refine mem_append_left _ ?_
  rw [FieldInfo.offsets]
  split
  · exact mem_singleton_self a
  next hdyn =>
  rw [FieldInfo.align, if_neg hdyn] at hfield
  refine mem_places.mpr ⟨0, h.1 (eq_false_of_not_eq_true hdyn), ?_⟩
  rw [Nat.zero_mul, Nat.add_zero]
  exact ht h.2.1 a hfield

theorem SerType.mem_places_self (hwf : t.InC) (ha : t.align ∣ a) {n : ℕ} (hn : 0 < n) :
    a ∈ places (t.offsets SerItems.align) t.size n a := by
  refine mem_places.mpr ⟨0, hn, ?_⟩
  rw [Nat.zero_mul, Nat.add_zero]
  exact mem_offsets_self.1 t hwf a ha

/-! ## The addresses of the walk -/

theorem le_of_mem_offsets (al : SerItems → ℕ) :
    (∀ t : SerType, ∀ a, ∀ x ∈ t.offsets al a, a ≤ x) ∧
      ∀ items : SerItems, ∀ a, ∀ x ∈ items.offsets al a, a ≤ x := by
  refine induction ?_ ?_ ?_ ?_
  · intro t a x hx
    exact (mem_singleton.mp hx).ge
  · intro items ih a x hx
    exact ih a x hx
  · intro a x hx
    exact absurd hx not_mem_nil
  intro info t rest ht hrest a x hx
  refine (le_alignUp a (info.align (t.alignBy al))).trans ?_
  rw [SerItems.offsets] at hx
  rcases mem_append.mp hx with hx | hx
  · rw [FieldInfo.offsets] at hx
    split at hx
    · exact (mem_singleton.mp hx).ge
    · obtain ⟨i, -, hx⟩ := mem_places.mp hx
      exact (Nat.le_add_right _ _).trans (ht _ x hx)
  · exact (Nat.le_add_right _ _).trans (hrest _ x hx)

mutual

/-- The structures inside a value are at multiples of eight. In an array this is asked of the first
element only. -/
def SerType.Aligned : SerType → ℕ → Prop
  | .basic _, _ => True
  | .struct items, a => items.Aligned a

def SerItems.Aligned : SerItems → ℕ → Prop
  | .nil, _ => True
  | .cons info t rest, a =>
    let start := alignUp a (info.align t.align)
    (info.dynamic = false →
      t.alignBy walkAlign ∣ start ∧ ∀ i < info.count, t.Aligned (start + i * t.size)) ∧
    rest.Aligned (start + info.size t.size)

end

theorem aligned_add_of_dvd (hb : 8 ∣ b) :
    (∀ t : SerType, ∀ a, t.Aligned a → t.Aligned (a + b)) ∧
      ∀ items : SerItems, ∀ a, items.Aligned a → items.Aligned (a + b) := by
  refine induction ?_ ?_ ?_ ?_
  · intro t a _
    exact trivial
  · intro items ih a h
    exact ih a h
  · intro a _
    exact trivial
  intro info t rest ht hrest a h
  have hstart := alignUp_add_of_dvd a ((info.align_dvd t.align_dvd).trans hb)
  rw [SerItems.Aligned] at h ⊢
  rw [hstart, Nat.add_right_comm]
  refine ⟨fun hdyn ↦ ⟨Nat.dvd_add (h.1 hdyn).1 (t.alignBy_dvd.trans hb), fun i hi ↦ ?_⟩,
    hrest _ h.2⟩
  rw [Nat.add_right_comm]
  exact ht _ ((h.1 hdyn).2 i hi)

theorem SerType.Aligned.add (h : t.Aligned a) (hb : 8 ∣ b) : t.Aligned (a + b) :=
  (aligned_add_of_dvd hb).1 t a h

theorem FieldInfo.start_eq (t : SerType)
    (h : info.dynamic = false → t.alignBy walkAlign ∣ alignUp a (info.align t.align)) :
    alignUp a (info.align (t.alignBy walkAlign)) = alignUp a (info.align t.align) := by
  rw [align, align] at *
  split
  · rfl
  next hdyn =>
  rw [if_neg hdyn] at h
  exact alignUp_eq_of_dvd t.align_pos (pos_of_dvd_eight t.alignBy_dvd) t.align_dvd_alignBy
    (h (eq_false_of_not_eq_true hdyn))

theorem FieldInfo.start_eq_of_offsets_eq (hwf : t.InC)
    (hcount : info.dynamic = false → 0 < info.count)
    (h : info.offsets (t.offsets walkAlign) t.size (alignUp a (info.align (t.alignBy walkAlign))) =
      info.offsets (t.offsets SerItems.align) t.size (alignUp a (info.align t.align))) :
    alignUp a (info.align (t.alignBy walkAlign)) = alignUp a (info.align t.align) := by
  rcases hdyn : info.dynamic with _ | _
  · have hstart := dvd_start_of_not_dynamic hdyn t a
    rw [offsets, offsets, if_neg (by simp [hdyn]), if_neg (by simp [hdyn])] at h
    have hmem := mem_places_self hwf hstart (hcount hdyn)
    rw [← h] at hmem
    obtain ⟨i, -, hmem⟩ := mem_places.mp hmem
    apply Nat.le_antisymm
    · exact (Nat.le_add_right _ _).trans ((le_of_mem_offsets walkAlign).1 t _ _ hmem)
    · rw [align, align, if_neg (by simp [hdyn]), if_neg (by simp [hdyn])]
      refine alignUp_le t.align_pos ?_ (le_alignUp a _)
      exact t.align_dvd_alignBy.trans (dvd_alignUp a (pos_of_dvd_eight t.alignBy_dvd))
  · rw [align, align, if_pos hdyn, if_pos hdyn]

theorem offsets_walkAlign_eq_iff :
    (∀ t : SerType, t.InC → ∀ a, t.align ∣ a →
      (t.offsets walkAlign a = t.offsets SerItems.align a ↔ t.Aligned a)) ∧
    ∀ items : SerItems, items.InC → ∀ a,
      (items.offsets walkAlign a = items.offsets SerItems.align a ↔ items.Aligned a) := by
  refine induction ?_ ?_ ?_ ?_
  · intro t _ a _
    exact iff_of_true rfl trivial
  · intro items ih h a _
    exact ih h.2 a
  · intro _ a
    exact iff_of_true rfl trivial
  intro info t rest ht hrest hwf a
  obtain ⟨hcount, hwt, hwrest⟩ := hwf
  rw [SerItems.offsets, SerItems.offsets, SerItems.Aligned, t.alignBy_align]
  constructor
  · intro h
    obtain ⟨hfirst, hnext⟩ := append_inj h
      ((info.length_offsets t _ _).trans (info.length_offsets t _ _).symm)
    have hstart : alignUp a (info.align (t.alignBy walkAlign)) = alignUp a (info.align t.align) :=
      info.start_eq_of_offsets_eq hwt hcount hfirst
    rw [hstart] at hfirst hnext
    refine ⟨fun hdyn ↦ ⟨?_, fun i hi ↦ ?_⟩, (hrest hwrest _).mp hnext⟩
    · have hdvd := dvd_alignUp a (pos_of_dvd_eight (info.align_dvd t.alignBy_dvd))
      rw [hstart] at hdvd
      rwa [FieldInfo.align, if_neg (by simp [hdyn])] at hdvd
    · rw [FieldInfo.offsets, FieldInfo.offsets, if_neg (by simp [hdyn]),
        if_neg (by simp [hdyn])] at hfirst
      have helem := eq_of_places_eq
        (fun x ↦ (t.length_offsets _ x).trans (t.length_offsets _ x).symm) hfirst i hi
      refine (ht hwt _ ?_).mp helem
      exact t.align_dvd_elem (FieldInfo.dvd_start_of_not_dynamic hdyn t a) i
  · rintro ⟨hfield, hr⟩
    have hstart := info.start_eq t fun hdyn ↦ (hfield hdyn).1
    rw [hstart, (hrest hwrest _).mpr hr]
    congr 1
    rw [FieldInfo.offsets, FieldInfo.offsets]
    split
    · rfl
    next hdyn =>
    have hdyn := eq_false_of_not_eq_true hdyn
    refine places_congr fun i hi ↦ (ht hwt _ ?_).mpr ((hfield hdyn).2 i hi)
    exact t.align_dvd_elem (FieldInfo.dvd_start_of_not_dynamic hdyn t a) i

end Openwsman
