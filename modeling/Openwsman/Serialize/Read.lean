import Openwsman.Serialize.Write
import Mathlib.Tactic.IntervalCases

/-!
# What deserializing reads

Deserializing stores what it reads at the addresses of the walk. When the structures of a value are
aligned, the memory that is made from the elements of the value is that of the value exactly when
the value is one that is read back.

A dynamic array is allocated as if its elements were sixteen bytes long. So the memory has the right
size only when they are, and then the addresses are those of the elements only when the structures
in them are aligned.
-/

namespace Openwsman

open Int Nat SerType SerResult List Layout

variable {lx : Libxml}

/-! ## The addresses that are written -/

variable {size n a : ℕ}

theorem map_fst_of_eachElement {element : ℕ → ℕ → SerResult Memory} {f : ℕ → List ℕ}
    (h : ∀ i a m, element i a = .ok m → m.map Prod.fst = f a) {index : ℕ} {m : Memory}
    (hok : eachElement element size n index a = .ok m) : m.map Prod.fst = places f size n a := by
  induction n generalizing index a m with
  | zero =>
    cases hok
    rfl
  | succ n ih =>
    obtain ⟨first, hfirst, hrest⟩ := bind_eq_ok.mp hok
    obtain ⟨others, hothers, rfl⟩ := map_eq_ok.mp hrest
    rw [map_append, h index a first hfirst, ih hothers, places]

variable {parent : WsXmlNode}

variable {ns : Option String} {name : String} {t : SerType}

theorem exists_of_childAt {β : Type} {element : WsXmlNode → ℕ → SerResult β} {index : ℕ} {m : β}
    (h : childAt parent ns name element index a = .ok m) : ∃ child, element child a = .ok m := by
  rw [childAt] at h
  split at h
  · cases h
  · exact ⟨_, h⟩

variable {buf stopper : ℕ} {w : Walked (ℕ × Word)}

theorem SerType.eachElement_of_deserialize
    (hpos : 0 < t.size) (hn : 0 < n) (hsmall : n * t.size < 2 ^ 31)
    (h : t.deserialize ns name false 0 n parent buf stopper = .ok w) :
    eachElement (childAt parent ns name t.readElement) t.size n 0
        (alignUp buf (t.alignBy walkAlign)) = .ok w.out ∧
      w.buf = alignUp buf (t.alignBy walkAlign) + n * t.size := by
  rw [t.deserialize_eq ns name hpos hn hsmall] at h
  obtain ⟨walked, hwalked, hw⟩ := bind_eq_ok.mp h
  split at hw
  · cases hw
  cases hw
  split at hwalked
  · obtain ⟨out, hout, hw⟩ := bind_eq_ok.mp hwalked
    cases hw
    exact ⟨hout, rfl⟩
  · cases hwalked

variable {info : FieldInfo}

theorem deserializeDyn_eq_ok {proc : ℕ → ℕ → ℕ → SerResult (Walked (ℕ × Word))}
    (h : deserializeDyn info proc parent buf stopper = .ok w) :
    w.out.map Prod.fst = [alignUp buf structAlign] ∧ w.buf = alignUp buf structAlign + dynSize := by
  rw [deserializeDyn] at h
  split at h
  · cases h
  split at h
  · cases h
  split at h
  · cases h
    exact ⟨rfl, rfl⟩
  split at h
  · cases h
  · obtain ⟨walked, -, hw⟩ := bind_eq_ok.mp h
    cases hw
    exact ⟨rfl, rfl⟩

theorem field_of_deserialize {info : FieldInfo}
    (ht : t.size < 2 ^ 31 → ∀ child a m, t.readElement child a = .ok m → m.map Prod.fst = t.offsets
      walkAlign a) (hwf : t.InC) (hcount : info.dynamic = false → 0 < info.count)
    (hsmall : info.size t.size < 2 ^ 31) {parent : WsXmlNode} {a stopper : ℕ}
    {field : Walked (ℕ × Word)}
    (h : (if info.dynamic then deserializeDyn info (fun count ↦ t.deserialize info.ns info.name
      false 0 count parent) parent a stopper else t.deserialize info.ns info.name false 0
      info.count parent a stopper) = .ok field) :
    field.out.map Prod.fst = info.offsets (t.offsets walkAlign) t.size
        (alignUp a (info.align (t.alignBy walkAlign))) ∧
      field.buf = alignUp a (info.align (t.alignBy walkAlign)) + info.size t.size := by
  rw [FieldInfo.offsets, FieldInfo.align, FieldInfo.size]
  rw [FieldInfo.size] at hsmall
  split at h
  · next hdyn =>
    rw [if_pos hdyn, if_pos hdyn, if_pos hdyn]
    exact deserializeDyn_eq_ok h
  · next hdyn =>
    rw [if_neg hdyn] at hsmall
    rw [if_neg hdyn, if_neg hdyn, if_neg hdyn]
    have hn := hcount (Bool.eq_false_of_not_eq_true hdyn)
    have hsize : t.size < 2 ^ 31 := (Nat.le_mul_of_pos_left t.size hn).trans_lt hsmall
    obtain ⟨heach, hbuf⟩ := eachElement_of_deserialize hwf.size_pos hn hsmall h
    refine ⟨map_fst_of_eachElement (fun _ a m hm ↦ ?_) heach, hbuf⟩
    obtain ⟨child, hchild⟩ := exists_of_childAt hm
    exact ht hsize child a m hchild

theorem map_fst_of_deserialize :
    (∀ t : SerType, t.InC → t.size < 2 ^ 31 → ∀ child a m,
      t.readElement child a = .ok m → m.map Prod.fst = t.offsets walkAlign a) ∧
    ∀ items : SerItems, items.InC → ∀ b, items.extent b < b + 2 ^ 31 →
      ∀ parent a stopper m, items.deserialize parent a stopper = .ok m →
        m.map Prod.fst = items.offsets walkAlign a := by
  refine induction ?_ ?_ ?_ ?_
  · intro t _ _ child a m h
    rw [readElement, storeLeaf] at h
    split at h
    · cases h
    · cases h
      rfl
  · intro items ih hwf hsmall child a m h
    refine ih hwf.2 0 ?_ child a _ m h
    have hle := items.extent_le (dvd_zero items.align)
    omega
  · intro _ _ _ _ a _ m h
    cases h
    rfl
  · intro info t rest ht hrest hwf b hsmall parent a stopper m h
    obtain ⟨hcount, hwt, hwrest⟩ := hwf
    obtain ⟨hsmallRest, hsmallField⟩ := SerItems.extent_lt_of_cons hsmall
    obtain ⟨field, hfield, hr⟩ := bind_eq_ok.mp h
    obtain ⟨others, hothers, rfl⟩ := map_eq_ok.mp hr
    have hboth := field_of_deserialize (ht hwt) hwt hcount hsmallField hfield
    rw [hboth.2] at hothers
    rw [map_append, hboth.1, hrest hwrest _ hsmallRest parent _ stopper others hothers,
      SerItems.offsets]

/-! ## Arrays -/

namespace SerType

variable {t : SerType} {ns : Option String} {name : String}

theorem length_readElement (hwf : t.WellFormed) (hsmall : t.size < 2 ^ 31) {child : WsXmlNode}
    {a : ℕ} {m : Memory} (h : t.readElement child a = .ok m) : m.length = t.parts := by
  rw [← length_map Prod.fst, map_fst_of_deserialize.1 t hwf.inC hsmall child a m h,
    t.length_offsets]

def ReadsBack (lx : Libxml) (t : SerType) (ns : Option String) (name : String) : Prop :=
  ∀ a v, t.align ∣ a → t.Aligned a →
    (t.readElement (t.encode lx ns name v) a = .ok (t.memory a (t.copy v)) ↔ t.Readable lx v)

theorem cells_cons (a : ℕ) (v : t.Val) (vs : List t.Val) :
    t.cells a (v :: vs) = t.memory a v ++ t.cells (a + t.size) vs := by
  rw [cells, length_cons, places, flatMap_cons, zip_append]
  · rfl
  · rw [t.length_offsets, t.length_words]

theorem length_memory (a : ℕ) (v : t.Val) : (t.memory a v).length = t.parts := by
  rw [memory, length_zip, t.length_offsets, t.length_words, min_self]

variable {parent : WsXmlNode}

theorem eachElement_read_iff (h : t.ReadsBack lx ns name) (hwf : t.WellFormed)
    (hsmall : t.size < 2 ^ 31) (vs : List t.Val) (index : ℕ) {a : ℕ} (hdvd : t.align ∣ a)
    (haligned : ∀ i < vs.length, t.Aligned (a + i * t.size))
    (hchildren : (parent.childrenNamed ns (some name)).drop index = vs.map (t.encode lx ns name)) :
    eachElement (childAt parent ns name t.readElement) t.size vs.length index a =
        .ok (t.cells a (vs.map t.copy)) ↔ ∀ v ∈ vs, t.Readable lx v := by
  induction vs generalizing index a with
  | nil => exact iff_of_true rfl (by simp)
  | cons v vs ih =>
    simp only [length_cons, forall_lt_succ_left, zero_mul, add_zero, add_succ_mul] at haligned
    have hchild : wsXmlGetChild (some parent) index ns (some name) =
        some (t.encode lx ns name v) := by
      rw [wsXmlGetChild_some, ← add_zero index, ← getElem?_drop, hchildren]
      rfl
    have hrest : (parent.childrenNamed ns (some name)).drop (index + 1) =
        vs.map (t.encode lx ns name) := by
      rw [← drop_drop, hchildren]
      rfl
    have hothers := ih (index + 1) (Nat.dvd_add hdvd t.align_dvd_size) haligned.2 hrest
    rw [length_cons, eachElement, childAt, hchild, map_cons, cells_cons,
      forall_mem_cons, ← h a v hdvd haligned.1, ← hothers, bind_eq_ok]
    constructor
    · rintro ⟨first, hv, hmap⟩
      obtain ⟨others, hvs, heq⟩ := map_eq_ok.mp hmap
      obtain ⟨rfl, rfl⟩ := append_inj heq
        ((length_readElement hwf hsmall hv).trans (t.length_memory a _).symm)
      exact ⟨hv, hvs⟩
    · rintro ⟨hv, hvs⟩
      exact ⟨_, hv, map_eq_ok.mpr ⟨_, hvs, rfl⟩⟩

variable {buf stopper start : ℕ}

theorem deserialize_eq_of_length (hwf : t.WellFormed) {n : ℕ} (hn : 0 < n)
    (hsmall : n * t.size < 2 ^ 31) (hlen : (parent.childrenNamed ns (some name)).length = n)
    (hstart : alignUp buf (t.alignBy walkAlign) = start) (hroom : start + n * t.size ≤ stopper) :
    t.deserialize ns name false 0 n parent buf stopper =
      (eachElement (childAt parent ns name t.readElement) t.size n 0 start).bind fun out ↦
        .ok ⟨t.advance n buf, start + n * t.size, out⟩ := by
  have hle := t.advance_le hn buf
  rw [hstart] at hle
  have hnone : wsXmlGetChild (some parent) n ns (some name) = none := by
    rw [wsXmlGetChild_some, getElem?_eq_none_iff, hlen]
  rw [t.deserialize_eq ns name hwf.size_pos hn hsmall, if_pos (hle.trans hroom), hstart, hnone,
    Option.isSome_none, Bool.and_false]
  exact bind_ok _

theorem deserialize_iff (h : t.ReadsBack lx ns name) (hwf : t.WellFormed) {vs : List t.Val}
    (hne : vs ≠ []) (hsmall : vs.length * t.size < 2 ^ 31)
    (hchildren : parent.childrenNamed ns (some name) = vs.map (t.encode lx ns name))
    (hstart : alignUp buf (t.alignBy walkAlign) = start)
    (haligned : ∀ i < vs.length, t.Aligned (start + i * t.size))
    (hroom : start + vs.length * t.size ≤ stopper) :
    (∃ w, t.deserialize ns name false 0 vs.length parent buf stopper = .ok w ∧
      w.out = t.cells start (vs.map t.copy)) ↔ ∀ v ∈ vs, t.Readable lx v := by
  have hn : 0 < vs.length := length_pos_iff.mpr hne
  have hsize : t.size < 2 ^ 31 := (Nat.le_mul_of_pos_left t.size hn).trans_lt hsmall
  have hdvd : t.align ∣ start := by
    rw [← hstart]
    exact t.align_dvd_alignBy.trans (dvd_alignUp buf (pos_of_dvd_eight t.alignBy_dvd))
  have hlen : (parent.childrenNamed ns (some name)).length = vs.length := by
    rw [hchildren, length_map]
  rw [deserialize_eq_of_length hwf hn hsmall hlen hstart hroom,
    ← eachElement_read_iff h hwf hsize vs 0 hdvd haligned hchildren]
  constructor
  · rintro ⟨w, hok, hout⟩
    obtain ⟨out, heach, hw⟩ := bind_eq_ok.mp hok
    cases hw
    rw [heach, ← hout]
  · intro heach
    rw [heach]
    exact ⟨_, rfl, rfl⟩

end SerType

/-! ## Dynamic arrays -/

/-- A product that differs from sixteen times a number by a multiple of `2 ^ 32` is at least `2 ^
31`, unless the other factor is sixteen. -/
theorem eq_sixteen_of_mul {k : ℕ} (hn : 0 < n) (hsize : 0 < size) (hle : size ≤ 16)
    (hk : n * size + 2 ^ 32 * k = n * 16) (hlt : n * size < 2 ^ 31) : size = 16 := by
  by_contra hne
  have hdvd : 2 ^ 32 ∣ n * (16 - size) := by
    refine ⟨k, ?_⟩
    rw [Nat.mul_sub]
    omega
  have hgcd : ∀ d < 16, 0 < d → Nat.gcd d (2 ^ 32) ∣ 8 := by decide
  have height : 2 ^ 32 ∣ n * 8 := by
    have hboth := Nat.dvd_gcd hdvd (Nat.dvd_mul_left (2 ^ 32) n)
    rw [Nat.gcd_mul_left] at hboth
    exact hboth.trans (mul_dvd_mul_left n (hgcd (16 - size) (by omega) (by omega)))
  obtain ⟨j, hj⟩ := height
  obtain rfl : n = 2 ^ 29 * j := by omega
  have hsmall : j * size < 4 := by
    rw [mul_assoc] at hlt
    omega
  have hjlt : j < 4 := (Nat.le_mul_of_pos_right j hsize).trans_lt hsmall
  have hslt : size < 4 := (Nat.le_mul_of_pos_left size (by omega)).trans_lt hsmall
  have hkj : j * size + 8 * k = j * 16 := by
    rw [mul_assoc, mul_assoc] at hk
    omega
  clear hk hlt hj hdvd
  interval_cases j <;> interval_cases size <;> omega

/-- The number of bytes that are allocated for a dynamic array is the size of the array only when
the elements are sixteen bytes long. -/
theorem size_eq_of_allocated (hn : 0 < n) (hsize : 0 < size) (hnonneg : 0 ≤ toCInt (dynSize * n))
    (h : (toCInt (dynSize * n)).toNat = n * size) : size = dynSize ∧ dynSize * n < 2 ^ 31 := by
  have hvalue : toCInt (dynSize * n) = (n * size : ℕ) := by
    rw [← h, toNat_of_nonneg hnonneg]
  have hlt : toCInt (dynSize * n) < 2 ^ 31 := toCInt_lt _
  have hsplit := bmod_add_bdiv (dynSize * n) (2 ^ 32)
  rw [← toCInt, hvalue] at hsplit
  rw [hvalue] at hlt
  generalize bdiv (dynSize * n) (2 ^ 32) = q at hsplit
  rw [dynSize] at hsplit
  have hq : 0 ≤ q := by omega
  lift q to ℕ using hq
  have hle : size ≤ 16 := by
    refine le_of_mul_le_mul_left ?_ hn
    omega
  have hsixteen := eq_sixteen_of_mul hn hsize hle (k := q) (by omega) (by omega)
  subst hsixteen
  refine ⟨rfl, ?_⟩
  rw [dynSize]
  omega

/-- Elements of a dynamic array that are stored where they should be are aligned. -/
theorem SerType.aligned_of_deserialize (hwf : t.WellFormed) (hsize : t.size = dynSize) (hn : 0 < n)
    (hsmall : dynSize * n < 2 ^ 31) (h : t.deserialize ns name false 0 n parent 0 stopper = .ok w)
    (hout : w.out.map Prod.fst = places (t.offsets SerItems.align) t.size n 0) : t.Aligned 0 := by
  have hlt : t.size < 2 ^ 31 := hsize ▸ (by decide)
  have hall : n * t.size < 2 ^ 31 := by rwa [hsize, mul_comm]
  obtain ⟨heach, -⟩ := eachElement_of_deserialize hwf.size_pos hn hall h
  have haddr := map_fst_of_eachElement (fun _ a m hm ↦ (exists_of_childAt hm).elim fun child ↦
      map_fst_of_deserialize.1 t hwf.inC hlt child a m) heach
  rw [hout, alignUp_of_dvd (dvd_zero _)] at haddr
  have hfirst := eq_of_places_eq
    (fun x ↦ (t.length_offsets _ x).trans (t.length_offsets _ x).symm) haddr.symm 0 hn
  rw [zero_mul, add_zero] at hfirst
  exact (offsets_walkAlign_eq_iff.1 t hwf.inC 0 (dvd_zero _)).mp hfirst

theorem SerType.deserialize_cells_iff (h : t.size < 2 ^ 31 → t.ReadsBack lx ns name)
    (hwf : t.WellFormed) {vs : List t.Val} (hne : vs ≠ [])
    (hchildren : parent.childrenNamed ns (some name) = vs.map (t.encode lx ns name)) :
    (0 ≤ toCInt (dynSize * vs.length) ∧
        (toCInt (dynSize * vs.length)).toNat = vs.length * t.size ∧
        ∃ w, t.deserialize ns name false 0 vs.length parent 0 (toUInt (dynSize * vs.length)) =
          .ok w ∧ w.out = t.cells 0 (vs.map t.copy)) ↔
      t.FitsArray vs.length ∧ ∀ v ∈ vs, t.Readable lx v := by
  have hn : 0 < vs.length := length_pos_iff.mpr hne
  -- once the array fits, the elements are read where they are
  have hiff (hfit : t.FitsArray vs.length) :
      (∃ w, t.deserialize ns name false 0 vs.length parent 0 (toUInt (dynSize * vs.length)) =
          .ok w ∧ w.out = t.cells 0 (vs.map t.copy)) ↔ ∀ v ∈ vs, t.Readable lx v := by
    have hall : vs.length * t.size < 2 ^ 31 := by
      rw [hfit.1, mul_comm]
      exact hfit.2.1
    refine deserialize_iff (h (hfit.1 ▸ (by decide))) hwf hne hall hchildren
      (alignUp_of_dvd (dvd_zero _)) (fun i _ ↦ hfit.aligned (dvd_zero _) i) ?_
    rw [toUInt, mod_eq_of_lt (hfit.2.1.trans (by decide)), hfit.1, mul_comm, zero_add]
  constructor
  · rintro ⟨hnonneg, hsize, w, hw, hout⟩
    obtain ⟨hsixteen, hsmall⟩ := size_eq_of_allocated hn hwf.size_pos hnonneg hsize
    have hfit : t.FitsArray vs.length := by
      refine ⟨hsixteen, hsmall, aligned_of_deserialize hwf hsixteen hn hsmall hw ?_⟩
      rw [hout, cells, map_fst_zip (t.length_places _ _ _).le, length_map]
    exact ⟨hfit, (hiff hfit).mp ⟨w, hw, hout⟩⟩
  · rintro ⟨hfit, hread⟩
    have hvalue : toCInt (dynSize * vs.length) = (dynSize * vs.length : ℕ) :=
      toCInt_natCast hfit.2.1
    refine ⟨by omega, ?_, (hiff hfit).mpr hread⟩
    rw [hvalue, toNat_natCast, hfit.1, mul_comm]

theorem deserializeDyn_iff (h : t.size < 2 ^ 31 → ∀ ns name, t.ReadsBack lx ns name)
    (hwf : t.WellFormed) (v : FieldVal info t.align t.Val)
    (hchildren : parent.childrenNamed info.ns (some info.name) = v.elems.map (t.encode lx info.ns
      info.name)) (hroom : alignUp buf structAlign + dynSize ≤ stopper) :
    (∃ w, deserializeDyn info (fun count ↦ t.deserialize info.ns info.name false 0 count parent)
        parent buf stopper = .ok w ∧
      w.out = [(alignUp buf structAlign,
        dynWord t.size (t.offsets SerItems.align) t.words 0 (v.elems.map t.copy))]) ↔
      (info.inBounds v.elems.length = true ∧ (v.elems = [] ∨ t.FitsArray v.elems.length)) ∧
        ∀ e ∈ v.elems, t.Readable lx e := by
  have hlen : (parent.childrenNamed info.ns (some info.name)).length = v.elems.length := by
    rw [hchildren, length_map]
  rw [deserializeDyn, hlen, if_neg (not_lt.mpr hroom)]
  by_cases hbounds : info.inBounds v.elems.length = true
  · rw [hbounds, if_neg (by decide)]
    by_cases hne : v.elems = []
    · rw [if_pos (by rw [hne, length_nil]), hne]
      simp [dynWord, places]
    have hcells := deserialize_cells_iff (fun hlt ↦ h hlt info.ns info.name) hwf hne hchildren
    have hright : ((true = true ∧ (v.elems = [] ∨ t.FitsArray v.elems.length)) ∧
        ∀ e ∈ v.elems, t.Readable lx e) ↔
          t.FitsArray v.elems.length ∧ ∀ e ∈ v.elems, t.Readable lx e := by
      simp [hne]
    rw [if_neg (by simpa using hne), hright, ← hcells]
    constructor
    · rintro ⟨w, hok, hout⟩
      split at hok
      · cases hok
      next hnonneg =>
      obtain ⟨walked, hwalked, hw⟩ := bind_eq_ok.mp hok
      cases hw
      rw [dynWord, cons.injEq, Prod.mk.injEq, Word.dyn.injEq, length_map] at hout
      exact ⟨not_lt.mp hnonneg, hout.1.2.2.2.1, walked, hwalked, by
        rw [hout.1.2.2.2.2, cells, length_map]⟩
    · rintro ⟨hnonneg, hsize, walked, hwalked, hout⟩
      rw [if_neg (not_lt.mpr hnonneg), hwalked]
      refine ⟨_, rfl, ?_⟩
      rw [hsize, hout, dynWord, length_map, cells, length_map]
  · rw [Bool.eq_false_of_not_eq_true hbounds]
    simp

/-! ## Values -/

def FieldVal.copy {info : FieldInfo} {t : SerType} (v : FieldVal info t.align t.Val) :
    FieldVal info t.align t.Val where
  elems := v.elems.map t.copy
  base := 0
  length_eq h := by rw [List.length_map, v.length_eq h]
  aligned _ := Nat.dvd_zero _

theorem field_deserialize_iff (h : t.size < 2 ^ 31 → ∀ ns name, t.ReadsBack lx ns name)
    (hwf : t.WellFormed) (hcount : info.dynamic = false → 0 < info.count) {start : ℕ}
    (hstart : alignUp a (info.align (t.alignBy walkAlign)) = start)
    (hroom : start + info.size t.size ≤ stopper) (hsmall : info.size t.size < 2 ^ 31)
    (haligned : info.dynamic = false → ∀ i < info.count, t.Aligned (start + i * t.size))
    (v : FieldVal info t.align t.Val)
    (hchildren : parent.childrenNamed info.ns (some info.name) = v.elems.map (t.encode lx info.ns
      info.name)) :
    (∃ w, (if info.dynamic then
          deserializeDyn info (fun count ↦ t.deserialize info.ns info.name false 0 count parent)
            parent a stopper
        else t.deserialize info.ns info.name false 0 info.count parent a stopper) = .ok w ∧
      w.out = (info.offsets (t.offsets SerItems.align) t.size start).zip v.copy.words) ↔
      (info.dynamic = true → info.inBounds v.elems.length = true ∧
        (v.elems = [] ∨ t.FitsArray v.elems.length)) ∧ ∀ e ∈ v.elems, t.Readable lx e := by
  rw [FieldInfo.size] at *
  rw [FieldInfo.align] at hstart
  rw [FieldInfo.offsets, FieldVal.words]
  by_cases hdyn : info.dynamic = true
  · rw [if_pos hdyn] at hstart hroom
    rw [if_pos hdyn, if_pos hdyn, if_pos hdyn]
    subst hstart
    simp only [hdyn, forall_const]
    exact deserializeDyn_iff h hwf v hchildren hroom
  · rw [if_neg hdyn] at hstart hroom hsmall
    rw [if_neg hdyn, if_neg hdyn, if_neg hdyn]
    have hstatic := Bool.eq_false_of_not_eq_true hdyn
    have hlen := v.length_eq hstatic
    have hn := hcount hstatic
    have hsize : t.size < 2 ^ 31 := (Nat.le_mul_of_pos_left t.size hn).trans_lt hsmall
    have haligned := haligned hstatic
    rw [← hlen] at hn hroom hsmall haligned ⊢
    have hiff := deserialize_iff (h hsize _ _) hwf (length_pos_iff.mp hn) hsmall
      hchildren hstart haligned hroom
    rw [cells, length_map] at hiff
    simp only [hstatic, Bool.false_eq_true, false_implies, true_and]
    exact hiff

theorem deserialize_spec (lx : Libxml) :
    (∀ t : SerType, t.WellFormed → t.size < 2 ^ 31 → ∀ ns name, t.ReadsBack lx ns name) ∧
    ∀ items : SerItems, items.WellFormed → ∀ parent a v stopper, items.Found lx parent v →
      items.extent a ≤ stopper → items.extent a < a + 2 ^ 31 → items.Aligned a →
      (items.deserialize parent a stopper =
        .ok ((items.offsets SerItems.align a).zip (items.words (items.copy v))) ↔
          items.Readable lx v) := by
  refine induction ?_ ?_ ?_ ?_
  · intro t _ _ ns name a v _ _
    have hread : readLeaf t (leafNode lx ns name v.1) = some v.1 ↔ v.1.Readable lx :=
      readLeaf_leafNode_iff v.2 ns name
    rw [SerType.Readable, ← hread, readElement, storeLeaf, encode]
    split
    · next hnone => simp [hnone]
    · next hsome => simp [hsome, memory, offsets, words, copy]
  · intro items ih hwf hsmall ns name a v hdvd haligned
    have hle := items.extent_le hdvd
    exact ih hwf.2 _ a v _ (SerItems.found_encode hwf.2 ns name v) hle (by omega) haligned
  · intro _ _ a _ _ _ _ _ _
    exact iff_of_true rfl trivial
  intro info t rest ht hrest hwf parent a v stopper hfound hroom hsmall haligned
  obtain ⟨hcount, -, hwt, hwrest⟩ := hwf
  obtain ⟨hsmallRest, hsmallField⟩ := SerItems.extent_lt_of_cons hsmall
  have hstart := info.start_eq t fun hdyn ↦ (haligned.1 hdyn).1
  have hend := rest.le_extent (alignUp a (info.align t.align) + info.size t.size)
  rw [SerItems.extent] at hroom
  have hfield := field_deserialize_iff (ht hwt) hwt hcount hstart (hend.trans hroom) hsmallField
    (fun hdyn ↦ (haligned.1 hdyn).2) v.1 hfound.1
  have hothers := hrest hwrest parent _ v.2 stopper hfound.2 hroom hsmallRest haligned.2
  have hlen := (info.length_offsets t SerItems.align (alignUp a (info.align t.align))).trans
    (FieldVal.length_words v.1.copy).symm
  have hzip : ((SerItems.cons info t rest).offsets SerItems.align a).zip
      ((SerItems.cons info t rest).words ((SerItems.cons info t rest).copy v)) =
      (info.offsets (t.offsets SerItems.align) t.size (alignUp a (info.align t.align))).zip
          v.1.copy.words ++
        (rest.offsets SerItems.align (alignUp a (info.align t.align) + info.size t.size)).zip
          (rest.words (rest.copy v.2)) := by
    rw [SerItems.offsets, t.alignBy_align, ← zip_append hlen]
    rfl
  rw [hzip, SerItems.deserialize, SerItems.Readable, ← and_assoc, ← hfield, ← hothers, bind_eq_ok]
  constructor
  · rintro ⟨field, hok, hmap⟩
    obtain ⟨others, hrest, heq⟩ := map_eq_ok.mp hmap
    obtain ⟨haddr, hbuf⟩ := field_of_deserialize (map_fst_of_deserialize.1 t hwt.inC) hwt.inC
      hcount hsmallField hok
    have hfieldLen := congrArg length haddr
    rw [length_map, info.length_offsets] at hfieldLen
    obtain ⟨hout, rfl⟩ := append_inj heq (by
      rw [hfieldLen, length_zip, info.length_offsets, FieldVal.length_words, min_self])
    rw [hbuf, hstart] at hrest
    exact ⟨⟨field, hok, hout⟩, hrest⟩
  · rintro ⟨⟨field, hok, hout⟩, hrest⟩
    obtain ⟨-, hbuf⟩ := field_of_deserialize (map_fst_of_deserialize.1 t hwt.inC) hwt.inC hcount
      hsmallField hok
    rw [hstart] at hbuf
    refine ⟨field, hok, map_eq_ok.mpr ⟨_, ?_, by rw [hout]⟩⟩
    rw [hbuf, hrest]

end Openwsman
