import Openwsman.Serialize.Elements

/-!
# What serializing writes

Serializing reads the memory at the addresses of the walk. When the structures of a value are
aligned these are the addresses of its fields, and then the elements for the value are written, if
they can be. A dynamic array whose memory does not start at a multiple of eight is read from too far
behind, so that the last element is not there any more.
-/

namespace Openwsman

open Nat SerType SerResult List Layout

variable {lx : Libxml}

theorem SerType.advance_le (t : SerType) {n : ℕ} (hn : 0 < n) (buf : ℕ) :
    buf + t.advance n buf ≤ alignUp buf (t.alignBy walkAlign) + n * t.size := by
  rcases t with t | items
  · rw [advance, alignBy, alignUp, add_assoc]
    exact le_refl _
  have hle : (struct items).size ≤ n * (struct items).size :=
    Nat.le_mul_of_pos_left _ hn
  have hstart := le_alignUp buf structAlign
  rw [advance, alignBy, walkAlign]
  split <;> omega

/-! ## The addresses that are read -/

variable {mem : Memory} {buf stopper : ℕ}

variable {t : SerType}

theorem SerType.eachElement_of_serialize {ns : Option String} {name : String} {n : ℕ}
    (hpos : 0 < t.size) (hn : 0 < n) (hsmall : n * t.size < 2 ^ 31) {w : Walked WsXmlNode}
    (h : t.serialize lx ns name false n mem buf stopper = .ok w) :
    eachElement (fun _ ↦ t.writeElement lx ns name mem) t.size n 0
        (alignUp buf (t.alignBy walkAlign)) = .ok w.out ∧
      w.buf = alignUp buf (t.alignBy walkAlign) + n * t.size := by
  rw [t.serialize_eq lx ns name hpos hn hsmall] at h
  split at h
  · obtain ⟨out, hout, hw⟩ := bind_eq_ok.mp h
    cases hw
    exact ⟨hout, rfl⟩
  · cases h

variable {info : FieldInfo}

theorem serializeDyn_eq_ok {proc : ℕ → Memory → ℕ → ℕ → SerResult (Walked WsXmlNode)}
    {w : Walked WsXmlNode} (h : serializeDyn info proc mem buf stopper = .ok w) :
    (mem.lookup (alignUp buf structAlign)).isSome = true ∧
      w.buf = alignUp buf structAlign + dynSize := by
  rw [serializeDyn] at h
  split at h
  · cases h
  split at h
  · next hlookup =>
    refine ⟨by rw [hlookup, Option.isSome_some], ?_⟩
    split at h
    · cases h
    split at h
    · cases h
      rfl
    · obtain ⟨walked, -, hw⟩ := bind_eq_ok.mp h
      cases hw
      rfl
  · cases h

theorem SerItems.extent_lt_of_cons {rest : SerItems} {b N : ℕ}
    (h : (SerItems.cons info t rest).extent b < b + N) :
    rest.extent (alignUp b (info.align t.align) + info.size t.size) <
        alignUp b (info.align t.align) + info.size t.size + N ∧
      info.size t.size < N := by
  have hstart := le_alignUp b (info.align t.align)
  have hle := rest.le_extent (alignUp b (info.align t.align) + info.size t.size)
  rw [extent] at h
  omega

theorem field_of_serialize
    (ht : t.size < 2 ^ 31 → ∀ ns name mem a out, t.writeElement lx ns name mem a = .ok out → ∀ x ∈
      t.offsets walkAlign a, (mem.lookup x).isSome = true) (hC : t.InC)
    (hcount : info.dynamic = false → 0 < info.count) (hsmall : info.size t.size < 2 ^ 31) {a : ℕ}
    {field : Walked WsXmlNode}
    (h : (if info.dynamic then serializeDyn info (t.serialize lx info.ns info.name false) mem a
      stopper else t.serialize lx info.ns info.name false info.count mem a stopper) = .ok field) :
    (∀ x ∈ info.offsets (t.offsets walkAlign) t.size
        (alignUp a (info.align (t.alignBy walkAlign))), (mem.lookup x).isSome = true) ∧
      field.buf = alignUp a (info.align (t.alignBy walkAlign)) + info.size t.size := by
  rw [FieldInfo.offsets, FieldInfo.align, FieldInfo.size]
  rw [FieldInfo.size] at hsmall
  split at h
  · next hdyn =>
    rw [if_pos hdyn, if_pos hdyn, if_pos hdyn]
    obtain ⟨hsome, hbuf⟩ := serializeDyn_eq_ok h
    refine ⟨fun x hx ↦ ?_, hbuf⟩
    rwa [mem_singleton.mp hx]
  · next hdyn =>
    rw [if_neg hdyn] at hsmall
    rw [if_neg hdyn, if_neg hdyn, if_neg hdyn]
    have hn := hcount (Bool.eq_false_of_not_eq_true hdyn)
    have hsize : t.size < 2 ^ 31 := (Nat.le_mul_of_pos_left t.size hn).trans_lt hsmall
    obtain ⟨heach, hbuf⟩ := eachElement_of_serialize hC.size_pos hn hsmall h
    refine ⟨fun x hx ↦ ?_, hbuf⟩
    obtain ⟨i, hi, hx⟩ := mem_places.mp hx
    exact forall_of_eachElement (fun _ a out ↦ ht hsize _ _ mem a out) heach i hi x hx

theorem isSome_lookup_of_serialize :
    (∀ t : SerType, t.InC → t.size < 2 ^ 31 → ∀ ns name mem a out,
      t.writeElement lx ns name mem a = .ok out →
        ∀ x ∈ t.offsets walkAlign a, (mem.lookup x).isSome = true) ∧
    ∀ items : SerItems, items.InC → ∀ b, items.extent b < b + 2 ^ 31 →
      ∀ mem a stopper out, items.serialize lx mem a stopper = .ok out →
        ∀ x ∈ items.offsets walkAlign a, (mem.lookup x).isSome = true := by
  refine induction ?_ ?_ ?_ ?_
  · intro t _ _ ns name mem a out h x hx
    obtain rfl := mem_singleton.mp hx
    obtain ⟨w, hw, -⟩ := bind_eq_ok.mp h
    rw [readWord] at hw
    split at hw
    · cases hw
    · next hlookup => rw [hlookup, Option.isSome_some]
  · intro items ih hwf hsmall ns name mem a out h
    obtain ⟨fields, hfields, -⟩ := map_eq_ok.mp h
    refine ih hwf.2 0 ?_ mem a _ fields hfields
    have hle := items.extent_le (dvd_zero items.align)
    omega
  · intro _ _ _ _ _ _ _ _ x hx
    exact absurd hx not_mem_nil
  intro info t rest ht hrest hwf b hsmall mem a stopper out h x hx
  obtain ⟨hcount, hwt, hwrest⟩ := hwf
  obtain ⟨hsmallRest, hsmallField⟩ := SerItems.extent_lt_of_cons hsmall
  obtain ⟨field, hfield, hr⟩ := bind_eq_ok.mp h
  obtain ⟨others, hothers, -⟩ := map_eq_ok.mp hr
  have hboth := field_of_serialize (ht hwt) hwt hcount hsmallField hfield
  rw [SerItems.offsets] at hx
  rcases mem_append.mp hx with hx | hx
  · exact hboth.1 x hx
  · rw [hboth.2] at hothers
    exact hrest hwrest _ hsmallRest mem _ stopper others hothers x hx

/-! ## Arrays -/

namespace SerType

variable {t : SerType} {ns : Option String} {name : String}

theorem alignBy_of_size_eq (h : t.size = dynSize) : t.alignBy walkAlign = structAlign := by
  rcases t with t | items
  · revert h
    cases t <;> decide
  · rfl

theorem FitsArray.aligned {n : ℕ} (h : t.FitsArray n) {a : ℕ} (ha : structAlign ∣ a) (i : ℕ) :
    t.Aligned (a + i * t.size) := by
  have hsize : structAlign ∣ i * t.size := by
    rw [h.1]
    exact Dvd.dvd.mul_left (by decide) i
  have hadd := h.2.2.add (Nat.dvd_add ha hsize)
  rwa [zero_add] at hadd

def WritesIn (lx : Libxml) (t : SerType) (ns : Option String) (name : String) (mem : Memory) :
    Prop :=
  ∀ a v, t.align ∣ a → t.Aligned a → Holds mem (t.offsets SerItems.align a) (t.words v) →
    t.Readable lx v → ∀ out, t.writeElement lx ns name mem a = .ok out ↔
      t.Writable v ∧ out = [t.encode lx ns name v]

theorem eachElement_write_iff {mem : Memory} (h : t.WritesIn lx ns name mem) (vs : List t.Val)
    (index : ℕ) {a : ℕ} (hdvd : t.align ∣ a)
    (haligned : ∀ i < vs.length, t.Aligned (a + i * t.size))
    (hholds : Holds mem (places (t.offsets SerItems.align) t.size vs.length a)
      (vs.flatMap t.words)) (hread : ∀ v ∈ vs, t.Readable lx v) (out : List WsXmlNode) :
    eachElement (fun _ ↦ t.writeElement lx ns name mem) t.size vs.length index a = .ok out ↔
      (∀ v ∈ vs, t.Writable v) ∧ out = vs.map (t.encode lx ns name) := by
  induction vs generalizing index a out with
  | nil => simp [eachElement, eq_comm]
  | cons v vs ih =>
    simp only [length_cons, forall_lt_succ_left, zero_mul, add_zero, add_succ_mul] at haligned
    rw [flatMap_cons, length_cons, places] at hholds
    obtain ⟨hv, hvs⟩ := Holds.of_append
      ((t.length_offsets _ a).trans (t.length_words v).symm) hholds
    have hone := h a v hdvd haligned.1 hv (hread v mem_cons_self)
    have hothers := ih (index + 1) (Nat.dvd_add hdvd t.align_dvd_size) haligned.2 hvs
      (fun e he ↦ hread e (mem_cons_of_mem v he))
    rw [length_cons, eachElement, bind_eq_ok]
    simp only [hone, map_eq_ok, hothers, mem_cons, forall_eq_or_imp, map_cons]
    constructor
    · rintro ⟨_, ⟨hw, rfl⟩, _, ⟨hws, rfl⟩, rfl⟩
      exact ⟨⟨hw, hws⟩, rfl⟩
    · rintro ⟨⟨hw, hws⟩, rfl⟩
      exact ⟨_, ⟨hw, rfl⟩, _, ⟨hws, rfl⟩, rfl⟩

variable {vs : List t.Val}

theorem serialize_iff {mem : Memory} (h : t.WritesIn lx ns name mem) (hne : vs ≠ [])
    (hwf : t.WellFormed) (hsmall : vs.length * t.size < 2 ^ 31) (buf : ℕ) {stopper start : ℕ}
    (hstart : alignUp buf (t.alignBy walkAlign) = start)
    (haligned : ∀ i < vs.length, t.Aligned (start + i * t.size))
    (hholds : Holds mem (places (t.offsets SerItems.align) t.size vs.length start) (vs.flatMap
      t.words)) (hread : ∀ v ∈ vs, t.Readable lx v) (hroom : start + vs.length * t.size ≤ stopper)
    (w : Walked WsXmlNode) :
    t.serialize lx ns name false vs.length mem buf stopper = .ok w ↔
      (∀ v ∈ vs, t.Writable v) ∧
        w = ⟨t.advance vs.length buf, start + vs.length * t.size,
          vs.map (t.encode lx ns name)⟩ := by
  have hn : 0 < vs.length := length_pos_iff.mpr hne
  have hdvd : t.align ∣ start := by
    rw [← hstart]
    exact t.align_dvd_alignBy.trans (dvd_alignUp buf (pos_of_dvd_eight t.alignBy_dvd))
  have hle := t.advance_le hn buf
  rw [hstart] at hle
  rw [t.serialize_eq lx ns name hwf.size_pos hn hsmall, if_pos (hle.trans hroom), hstart,
    bind_eq_ok]
  simp only [eachElement_write_iff h vs 0 hdvd haligned hholds hread]
  constructor
  · rintro ⟨_, ⟨hw, rfl⟩, h⟩
    cases h
    exact ⟨hw, rfl⟩
  · rintro ⟨hw, rfl⟩
    exact ⟨_, ⟨hw, rfl⟩, rfl⟩

def cells (t : SerType) (base : ℕ) (vs : List t.Val) : Memory :=
  (places (t.offsets SerItems.align) t.size vs.length base).zip (vs.flatMap t.words)

variable {base : ℕ}

theorem holds_cells (hbase : t.align ∣ base) (vs : List t.Val) :
    Holds (t.cells base vs) (places (t.offsets SerItems.align) t.size vs.length base)
      (vs.flatMap t.words) :=
  holds_zip (t.nodup_places hbase _) (t.length_places _ vs base)

/-- A dynamic array that is serialized starts at a multiple of eight: otherwise all addresses are
moved, and the last one is not in the array. -/
theorem structAlign_dvd_of_serialize (hwf : t.WellFormed) (hne : vs ≠ [])
    (hfit : t.FitsArray vs.length) {stopper : ℕ} (hbase : t.align ∣ base) {w : Walked WsXmlNode}
    (h : t.serialize lx ns name false vs.length (t.cells base vs) base stopper = .ok w) :
    structAlign ∣ base := by
  have hn : 0 < vs.length := length_pos_iff.mpr hne
  have hsmall : vs.length * t.size < 2 ^ 31 := by
    rw [hfit.1, mul_comm]
    exact hfit.2.1
  have hsize : t.size < 2 ^ 31 := hfit.1 ▸ (by decide)
  obtain ⟨heach, -⟩ := eachElement_of_serialize hwf.size_pos hn hsmall h
  rw [alignBy_of_size_eq hfit.1] at heach
  have hread := forall_of_eachElement
    (fun _ a out ↦ isSome_lookup_of_serialize.1 t hwf.inC hsize ns name _ a out) heach
  have hstart : structAlign ∣ alignUp base structAlign := dvd_alignUp base (by decide)
  have hpad : t.align ∣ padding base structAlign :=
    (Nat.dvd_add_right hbase).mp (t.align_dvd.trans hstart)
  have hzero : padding base structAlign = 0 := by
    refine eq_zero_of_add_mem (ne_nil_of_mem (mem_places_self hwf.inC hbase hn)) fun x hx ↦ ?_
    obtain ⟨i, hi, hx⟩ := mem_places.mp hx
    have hmoved : x + padding base structAlign ∈
        t.offsets walkAlign (alignUp base structAlign + i * t.size) := by
      rw [(offsets_walkAlign_eq_iff.1 t hwf.inC _ ?_).mpr (hfit.aligned hstart i), alignUp,
        add_right_comm, t.offsets_add hpad]
      · exact mem_map_of_mem hx
      · exact t.align_dvd_elem (t.align_dvd.trans hstart) i
    obtain ⟨word, hword⟩ := Option.isSome_iff_exists.mp (hread i hi _ hmoved)
    exact mem_of_lookup_zip hword
  rw [alignUp, hzero, add_zero] at hstart
  exact hstart

theorem serialize_cells_iff (h : t.WritesIn lx ns name (t.cells base vs)) (hwf : t.WellFormed)
    (hne : vs ≠ []) (hfit : t.FitsArray vs.length) (hbase : t.align ∣ base)
    (hread : ∀ v ∈ vs, t.Readable lx v) (w : Walked WsXmlNode) :
    t.serialize lx ns name false vs.length (t.cells base vs) base
        (base + toUInt (dynSize * vs.length)) = .ok w ↔
      (structAlign ∣ base ∧ ∀ v ∈ vs, t.Writable v) ∧
        w = ⟨t.advance vs.length base, base + vs.length * t.size,
          vs.map (t.encode lx ns name)⟩ := by
  have hsmall : vs.length * t.size < 2 ^ 31 := by
    rw [hfit.1, mul_comm]
    exact hfit.2.1
  have hroom : base + vs.length * t.size ≤ base + toUInt (dynSize * vs.length) := by
    rw [toUInt, mod_eq_of_lt (hfit.2.1.trans (by decide)), hfit.1, mul_comm]
  have hiff (hdvd : structAlign ∣ base) := serialize_iff h hne hwf hsmall base
    (by rw [alignBy_of_size_eq hfit.1, alignUp_of_dvd hdvd]) (fun i _ ↦ hfit.aligned hdvd i)
    (holds_cells hbase vs) hread hroom w
  constructor
  · intro hok
    have hdvd := structAlign_dvd_of_serialize hwf hne hfit hbase hok
    obtain ⟨hw, heq⟩ := (hiff hdvd).mp hok
    exact ⟨⟨hdvd, hw⟩, heq⟩
  · rintro ⟨⟨hdvd, hw⟩, heq⟩
    exact (hiff hdvd).mpr ⟨hw, heq⟩

end SerType

/-! ## Values -/

theorem serializeDyn_iff (h : t.size < 2 ^ 31 → ∀ ns name mem, t.WritesIn lx ns name mem)
    (hwf : t.WellFormed) (v : FieldVal info t.align t.Val) (hdyn : info.dynamic = true)
    (hlookup : mem.lookup (alignUp buf structAlign) = some (dynWord t.size (t.offsets
      SerItems.align) t.words v.base v.elems)) (hroom : alignUp buf structAlign + dynSize ≤ stopper)
    (hbounds : info.inBounds v.elems.length = true)
    (hfit : v.elems = [] ∨ t.FitsArray v.elems.length) (hread : ∀ e ∈ v.elems, t.Readable lx e)
    (w : Walked WsXmlNode) :
    serializeDyn info (t.serialize lx info.ns info.name false) mem buf stopper = .ok w ↔
      ((v.elems = [] ∨ structAlign ∣ v.base) ∧ ∀ e ∈ v.elems, t.Writable e) ∧
        w = ⟨dynSize + padding buf structAlign, alignUp buf structAlign + dynSize,
          v.elems.map (t.encode lx info.ns info.name)⟩ := by
  rw [serializeDyn, if_neg (not_lt.mpr hroom), hlookup, dynWord]
  dsimp only
  rw [hbounds, if_neg (by decide)]
  rcases hfit with hnil | hfit
  · rw [if_pos (by rw [hnil, length_nil]), hnil]
    simp [eq_comm]
  by_cases hne : v.elems = []
  · rw [if_pos (by rw [hne, length_nil]), hne]
    simp [eq_comm]
  have hsize : t.size < 2 ^ 31 := hfit.1 ▸ (by decide)
  have hcells := t.serialize_cells_iff (h hsize info.ns info.name _) hwf hne hfit
    (v.aligned hdyn) hread
  rw [cells] at hcells
  rw [if_neg (by simpa using hne), bind_eq_ok]
  simp only [hcells]
  constructor
  · rintro ⟨_, ⟨⟨hbase, hw⟩, rfl⟩, heq⟩
    cases heq
    exact ⟨⟨.inr hbase, hw⟩, rfl⟩
  · rintro ⟨⟨hbase, hw⟩, rfl⟩
    exact ⟨_, ⟨⟨hbase.resolve_left hne, hw⟩, rfl⟩, rfl⟩

theorem field_spec (h : t.size < 2 ^ 31 → ∀ ns name mem, t.WritesIn lx ns name mem)
    (hwf : t.WellFormed) (hcount : info.dynamic = false → 0 < info.count) {a start : ℕ}
    (hstart : alignUp a (info.align (t.alignBy walkAlign)) = start)
    (hroom : start + info.size t.size ≤ stopper) (hsmall : info.size t.size < 2 ^ 31)
    (haligned : info.dynamic = false → ∀ i < info.count, t.Aligned (start + i * t.size))
    (v : FieldVal info t.align t.Val)
    (hholds : Holds mem (info.offsets (t.offsets SerItems.align) t.size start) v.words)
    (hdynamic : info.dynamic = true → info.inBounds v.elems.length = true ∧ (v.elems = [] ∨
      t.FitsArray v.elems.length)) (hread : ∀ e ∈ v.elems, t.Readable lx e) :
    ∃ w₀ : Walked WsXmlNode, w₀.buf = start + info.size t.size ∧
      w₀.out = v.elems.map (t.encode lx info.ns info.name) ∧
      ∀ w, (if info.dynamic then
          serializeDyn info (t.serialize lx info.ns info.name false) mem a stopper
        else t.serialize lx info.ns info.name false info.count mem a stopper) = .ok w ↔
        ((info.dynamic = true → v.elems = [] ∨ structAlign ∣ v.base) ∧
          ∀ e ∈ v.elems, t.Writable e) ∧ w = w₀ := by
  rw [FieldInfo.size] at *
  rw [FieldInfo.align] at hstart
  rw [FieldInfo.offsets, FieldVal.words] at hholds
  by_cases hdyn : info.dynamic = true
  · rw [if_pos hdyn] at hstart hroom hholds ⊢
    rw [if_pos hdyn] at hholds
    obtain ⟨hlookup, -⟩ := forall₂_cons.mp hholds
    rw [← hstart] at hlookup hroom ⊢
    obtain ⟨hbounds, hfit⟩ := hdynamic hdyn
    refine ⟨⟨dynSize + padding a structAlign, _, _⟩, rfl, rfl, fun w ↦ ?_⟩
    rw [if_pos hdyn, serializeDyn_iff h hwf v hdyn hlookup hroom hbounds hfit hread]
    simp only [hdyn, forall_const]
    exact Iff.rfl
  · rw [if_neg hdyn] at hstart hroom hholds hsmall ⊢
    rw [if_neg hdyn] at hholds
    have hstatic := Bool.eq_false_of_not_eq_true hdyn
    have hlen := v.length_eq hstatic
    have hn := hcount hstatic
    have hsize : t.size < 2 ^ 31 := (Nat.le_mul_of_pos_left t.size hn).trans_lt hsmall
    have haligned := haligned hstatic
    rw [← hlen] at hn hroom hholds hsmall haligned ⊢
    refine ⟨⟨t.advance v.elems.length a, _, _⟩, rfl, rfl, fun w ↦ ?_⟩
    rw [if_neg hdyn, serialize_iff (h hsize _ _ _) (length_pos_iff.mp hn) hwf hsmall a
      hstart haligned hholds hread hroom]
    simp only [hstatic, Bool.false_eq_true, false_implies, true_and]

theorem serialize_spec (lx : Libxml) :
    (∀ t : SerType, t.WellFormed → t.size < 2 ^ 31 → ∀ ns name mem, t.WritesIn lx ns name mem) ∧
    ∀ items : SerItems, items.WellFormed → ∀ mem a v stopper, items.extent a ≤ stopper →
      items.extent a < a + 2 ^ 31 → items.Aligned a →
      Holds mem (items.offsets SerItems.align a) (items.words v) → items.Readable lx v →
      ∀ out, items.serialize lx mem a stopper = .ok out ↔
        items.Writable v ∧ out = items.encode lx v := by
  refine induction ?_ ?_ ?_ ?_
  · intro t _ _ ns name mem a v _ _ hholds _ out
    obtain ⟨hlookup, -⟩ := forall₂_cons.mp hholds
    have hread : readWord t mem a = .ok v.1 := by
      rw [readWord, hlookup]
      exact if_pos v.2
    rw [writeElement, writeLeaf, hread, ok_bind]
    split
    · next hfits => simp [Writable, encode, hfits, eq_comm]
    · next hfits => simp [Writable, hfits]
  · intro items ih hwf hsmall ns name mem a v hdvd haligned hholds hread out
    have hle := items.extent_le hdvd
    have hfields := ih hwf.2 mem a v _ hle (by omega) haligned hholds hread
    rw [writeElement, map_eq_ok]
    simp only [hfields]
    constructor
    · rintro ⟨_, ⟨hw, rfl⟩, rfl⟩
      exact ⟨hw, rfl⟩
    · rintro ⟨hw, rfl⟩
      exact ⟨_, ⟨hw, rfl⟩, rfl⟩
  · intro _ mem a v stopper _ _ _ _ _ out
    simp [SerItems.serialize, SerItems.Writable, SerItems.encode, eq_comm]
  intro info t rest ht hrest hwf mem a v stopper hroom hsmall haligned hholds hread out
  obtain ⟨hcount, -, hwt, hwrest⟩ := hwf
  obtain ⟨hsmallRest, hsmallField⟩ := SerItems.extent_lt_of_cons hsmall
  have hstart := info.start_eq t fun hdyn ↦ (haligned.1 hdyn).1
  have hend := rest.le_extent (alignUp a (info.align t.align) + info.size t.size)
  rw [SerItems.extent] at hroom
  rw [SerItems.offsets, t.alignBy_align, SerItems.words] at hholds
  obtain ⟨hfirst, hothers⟩ := Holds.of_append
    ((info.length_offsets t _ _).trans (FieldVal.length_words v.1).symm) hholds
  obtain ⟨w₀, hbuf, hout, hfield⟩ := field_spec (ht hwt) hwt hcount hstart (hend.trans hroom)
    hsmallField (fun hdyn ↦ (haligned.1 hdyn).2) v.1 hfirst hread.1 hread.2.1
  have hrest' := hrest hwrest mem _ v.2 stopper hroom hsmallRest haligned.2 hothers hread.2.2
  rw [SerItems.serialize, bind_eq_ok]
  simp only [hfield, map_eq_ok]
  constructor
  · rintro ⟨_, ⟨hw, rfl⟩, others, hok, rfl⟩
    rw [hbuf, hrest'] at hok
    obtain ⟨hws, rfl⟩ := hok
    exact ⟨⟨hw.1, hw.2, hws⟩, by rw [hout, SerItems.encode]⟩
  · rintro ⟨hw, rfl⟩
    refine ⟨w₀, ⟨⟨hw.1, hw.2.1⟩, rfl⟩, rest.encode lx v.2, ?_, by rw [hout, SerItems.encode]⟩
    rw [hbuf, hrest']
    exact ⟨hw.2.2, rfl⟩

end Openwsman
