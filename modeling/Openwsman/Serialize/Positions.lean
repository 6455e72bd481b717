import Openwsman.Serialize.Read

/-!
# Where fields are read and written

The addresses that serializing depends on are those of the walk, and so are the addresses that
deserializing stores at. These are the addresses that the compiler chooses exactly when the
structures are at multiples of eight.
-/

namespace Openwsman

open Nat SerType SerResult List Layout

variable {lx : Libxml}

def SerType.AlignedArray (t : SerType) (n a : ℕ) : Prop :=
  t.alignBy walkAlign ∣ a ∧ ∀ i < n, t.Aligned (a + i * t.size)

def SerType.walkPlaces (t : SerType) (n a : ℕ) : List ℕ :=
  places (t.offsets walkAlign) t.size n (alignUp a (t.alignBy walkAlign))

def SerType.cPlaces (t : SerType) (n a : ℕ) : List ℕ :=
  places (t.offsets SerItems.align) t.size n a

variable {t : SerType} {n a : ℕ}

theorem SerType.walkPlaces_eq_iff (hC : t.InC) (hn : 0 < n) (ha : t.align ∣ a) :
    t.walkPlaces n a = t.cPlaces n a ↔ t.AlignedArray n a := by
  -- the array as the only field of a structure
  have hfield := offsets_walkAlign_eq_iff.2 (.cons { name := "", count := n } t .nil)
    ⟨fun _ ↦ hn, hC, trivial⟩ a
  simp only [SerItems.offsets, SerItems.Aligned, FieldInfo.offsets, FieldInfo.align,
    t.alignBy_align, alignUp_of_dvd ha, Bool.false_eq_true, if_false, append_nil,
    forall_const, and_true] at hfield
  exact hfield

/-! ## What is read -/

variable {mem : Memory}

theorem SerType.serialize_congr (hC : t.InC) {mem' : Memory}
    (ht : ∀ ns name a, (∀ x ∈ t.offsets walkAlign a, mem'.lookup x = mem.lookup x) → t.writeElement
      lx ns name mem' a = t.writeElement lx ns name mem a) (hn : 0 < n)
    (hsmall : n * t.size < 2 ^ 31) (h : ∀ x ∈ t.walkPlaces n a, mem'.lookup x = mem.lookup x)
    (ns : Option String) (name : String) (stopper : ℕ) :
    t.serialize lx ns name false n mem' a stopper =
      t.serialize lx ns name false n mem a stopper := by
  rw [t.serialize_eq lx ns name hC.size_pos hn hsmall,
    t.serialize_eq lx ns name hC.size_pos hn hsmall]
  have heach : eachElement (fun _ ↦ t.writeElement lx ns name mem') t.size n 0
        (alignUp a (t.alignBy walkAlign)) =
      eachElement (fun _ ↦ t.writeElement lx ns name mem) t.size n 0
        (alignUp a (t.alignBy walkAlign)) :=
    eachElement_congr fun i hi ↦ ht ns name _ fun x hx ↦ h x (mem_places.mpr ⟨i, hi, hx⟩)
  rw [heach]

theorem serialize_congr_of_offsets {mem' : Memory} :
    (∀ t : SerType, t.InC → t.size < 2 ^ 31 → ∀ ns name a,
      (∀ x ∈ t.offsets walkAlign a, mem'.lookup x = mem.lookup x) →
        t.writeElement lx ns name mem' a = t.writeElement lx ns name mem a) ∧
    ∀ items : SerItems, items.InC → ∀ b, items.extent b < b + 2 ^ 31 → ∀ a stopper,
      (∀ x ∈ items.offsets walkAlign a, mem'.lookup x = mem.lookup x) →
        items.serialize lx mem' a stopper = items.serialize lx mem a stopper := by
  refine induction ?_ ?_ ?_ ?_
  · intro t _ _ ns name a h
    have hlookup := h a (mem_singleton_self a)
    rw [writeElement, writeElement, writeLeaf, writeLeaf, readWord, readWord, hlookup]
  · intro items ih hC hsmall ns name a h
    have hle := items.extent_le (dvd_zero items.align)
    rw [writeElement, writeElement, ih hC.2 0 (by omega) a _ h]
  · intro _ _ _ a stopper _
    rfl
  intro info t rest ht hrest hC b hsmall a stopper h
  obtain ⟨hcount, hCt, hCrest⟩ := hC
  obtain ⟨hsmallRest, hsmallField⟩ := SerItems.extent_lt_of_cons hsmall
  rw [SerItems.offsets] at h
  rw [SerItems.serialize, SerItems.serialize]
  have hfield : (if info.dynamic then
        serializeDyn info (t.serialize lx info.ns info.name false) mem' a stopper
      else t.serialize lx info.ns info.name false info.count mem' a stopper) =
      if info.dynamic then
        serializeDyn info (t.serialize lx info.ns info.name false) mem a stopper
      else t.serialize lx info.ns info.name false info.count mem a stopper := by
    have hfirst := fun x hx ↦ h x (mem_append_left _ hx)
    rw [FieldInfo.offsets, FieldInfo.align] at hfirst
    rw [FieldInfo.size] at hsmallField
    split
    · next hdyn =>
      rw [if_pos hdyn, if_pos hdyn] at hfirst
      have hlookup : mem'.lookup (alignUp a structAlign) = mem.lookup (alignUp a structAlign) :=
        hfirst _ (mem_singleton_self _)
      rw [serializeDyn, serializeDyn, hlookup]
    · next hdyn =>
      rw [if_neg hdyn] at hsmallField
      rw [if_neg hdyn, if_neg hdyn] at hfirst
      have hn := hcount (Bool.eq_false_of_not_eq_true hdyn)
      have hsize : t.size < 2 ^ 31 := (Nat.le_mul_of_pos_left t.size hn).trans_lt hsmallField
      exact serialize_congr hCt (ht hCt hsize) hn hsmallField hfirst _ _ _
  rw [hfield]
  refine bind_congr_of_ok fun field hok ↦ ?_
  obtain ⟨-, hbuf⟩ := field_of_serialize (isSome_lookup_of_serialize.1 t hCt) hCt hcount
    hsmallField hok
  rw [hrest hCrest _ hsmallRest _ stopper fun x hx ↦ h x (mem_append_right _ ?_)]
  rwa [hbuf] at hx

theorem SerType.reads_serialize_iff (hC : t.InC) (hn : 0 < n) (hsmall : n * t.size < 2 ^ 31)
    {ns : Option String} {name : String} {stopper : ℕ} {w : Walked WsXmlNode}
    (h : t.serialize lx ns name false n mem a stopper = .ok w) (x : ℕ) :
    Reads (fun mem ↦ t.serialize lx ns name false n mem a stopper) mem x ↔
      x ∈ t.walkPlaces n a := by
  have hsize : t.size < 2 ^ 31 := (Nat.le_mul_of_pos_left t.size hn).trans_lt hsmall
  refine reads_iff_mem (fun mem' hsame ↦ ?_) (fun mem' heq y hy ↦ ?_) x
  · exact serialize_congr hC (serialize_congr_of_offsets.1 t hC hsize) hn hsmall hsame ns name
      stopper
  obtain ⟨heach, -⟩ := eachElement_of_serialize hC.size_pos hn hsmall (heq.trans h)
  obtain ⟨i, hi, hy⟩ := mem_places.mp hy
  exact forall_of_eachElement
    (fun _ a out ↦ isSome_lookup_of_serialize.1 t hC hsize ns name mem' a out) heach i hi y hy

/-! ## What is written -/

theorem SerType.map_fst_deserialize (hC : t.InC) (hn : 0 < n) (hsmall : n * t.size < 2 ^ 31)
    {ns : Option String} {name : String} {parent : WsXmlNode} {stopper : ℕ} {w : Walked (ℕ × Word)}
    (h : t.deserialize ns name false 0 n parent a stopper = .ok w) :
    w.out.map Prod.fst = t.walkPlaces n a := by
  have hsize : t.size < 2 ^ 31 := (Nat.le_mul_of_pos_left t.size hn).trans_lt hsmall
  obtain ⟨heach, -⟩ := eachElement_of_deserialize hC.size_pos hn hsmall h
  refine map_fst_of_eachElement (fun _ a m hm ↦ ?_) heach
  obtain ⟨child, hchild⟩ := exists_of_childAt hm
  exact map_fst_of_deserialize.1 t hC hsize child a m hchild

/-! ## Structures -/

section

variable {info : FieldInfo} {items : SerItems}

theorem wsSerialize_struct (hdyn : info.dynamic = false) (mem : Memory) (dataPtr : ℕ) :
    wsSerialize lx info (.struct items) mem dataPtr =
      (SerType.struct items).serialize lx info.ns info.name false 1 mem dataPtr
        (dataPtr + (SerType.struct items).size) := by
  rw [wsSerialize, if_neg (by simp [hdyn]), serialize, serialize]
  simp [doSerializeStruct]

theorem readElement_of_wsDeserialize (hdyn : info.dynamic = false)
    (hC : (SerType.struct items).InC) (hsize : (SerType.struct items).size < 2 ^ 31)
    {parent : WsXmlNode} {index : ℕ} {m : Memory}
    (h : wsDeserialize info (.struct items) parent index = .value (some m)) :
    ∃ child, (SerType.struct items).readElement child 0 = .ok m := by
  have hpos := hC.size_pos
  have hint : toCInt (struct items).size = (struct items).size :=
    toCInt_natCast hsize
  rw [wsDeserialize, hdyn, if_neg Bool.false_ne_true, if_neg Bool.false_ne_true, hint,
    if_neg (by omega)] at h
  rcases hread : (struct items).deserialize info.ns info.name true index info.count parent 0
      (struct items).size with w | code | _
  · rw [hread] at h
    rw [deserialize, doSerializeStruct] at hread
    simp only [or_true, if_true] at hread
    have hret : toCInt (alignUp (items.extent 0) items.align) = (struct items).size := hint
    rw [hret, if_neg (by omega)] at hread
    obtain ⟨out, heach, hw⟩ := bind_eq_ok.mp hread
    rw [if_neg (by omega)] at hw
    obtain rfl := ok.inj hw
    have hout : out = m := by
      have hsome := CResult.value.inj h
      rw [if_pos (Int.natCast_pos.mpr hpos)] at hsome
      exact Option.some.inj hsome
    obtain ⟨first, hfirst, hrest⟩ := bind_eq_ok.mp heach
    obtain ⟨others, hothers, happend⟩ := map_eq_ok.mp hrest
    obtain ⟨child, hchild⟩ := exists_of_childAt hfirst
    obtain rfl := ok.inj hothers
    rw [append_nil] at happend
    rw [if_pos (Int.natCast_pos.mpr hpos)] at hchild
    exact ⟨child, hout ▸ happend ▸ hchild⟩
  · rw [hread] at h
    cases h
  · rw [hread] at h
    cases h

end

def labelledItems : SerItems :=
  .cons { name := "Kind" } (.basic .uint8)
    (.cons { name := "Label" }
      (.struct (.cons { name := "Text" } (.basic .string)
        (.cons { name := "Length" } (.basic .int32) .nil))) .nil)

def labelledMemory : Memory := [(0, .int .uint8 7), (8, .str (some "seven")), (16, .int .int32 5)]

def flaggedItems : SerItems :=
  .cons { name := "Kind" } (.basic .uint8)
    (.cons { name := "Flag" } (.struct (.cons { name := "Value" } (.basic .uint8) .nil)) .nil)

def flaggedNode : WsXmlNode :=
  .element none "List" [] [.element none "Flagged" []
    [.element none "Kind" [] [.text "7"],
      .element none "Flag" [] [.element none "Value" [] [.text "1"]]]]

end Openwsman
