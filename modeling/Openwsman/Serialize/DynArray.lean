import Openwsman.Serialize.RoundTrip

/-!
# Round trips of dynamic arrays

A dynamic array should be written element by element, and what is deserialized should be memory of
the size of the array with the same elements at the same offsets. `do_serialize_dyn_size_array`
takes the size of an element from its own descriptor, which describes the number and the pointer,
and not from the descriptor of the elements. So this is what happens for elements of sixteen bytes
and for no others: for larger ones the end of the array is found to be too early, and for smaller
ones too much memory is allocated.
-/

namespace Openwsman

open Nat SerItems List Layout

section

variable (lx : Libxml) (info : FieldInfo) (t : SerType) (v : FieldVal info t.align t.Val)

def DynArrayCorrect : Prop :=
  ∀ mem buf stopper, alignUp buf structAlign + dynSize ≤ stopper →
    mem.lookup (alignUp buf structAlign) =
      some (dynWord t.size (t.offsets SerItems.align) t.words v.base v.elems) →
    ∃ w, serializeDyn info (t.serialize lx info.ns info.name false) mem buf stopper = .ok w ∧
      w.out = v.elems.map (t.encode lx info.ns info.name) ∧
      ∀ parent buf stopper, alignUp buf structAlign + dynSize ≤ stopper →
        parent.childrenNamed info.ns (some info.name) = w.out →
        ∃ w', deserializeDyn info
            (fun count ↦ t.deserialize info.ns info.name false 0 count parent) parent buf stopper =
              .ok w' ∧
          w'.out = [(alignUp buf structAlign,
            dynWord t.size (t.offsets SerItems.align) t.words 0 (v.elems.map t.copy))]

end

theorem childrenNamed_encode {lx : Libxml} {info : FieldInfo} {t : SerType} (vs : List t.Val) :
    (WsXmlNode.element none "" [] (vs.map (t.encode lx info.ns info.name))).childrenNamed info.ns
      (some info.name) = vs.map (t.encode lx info.ns info.name) := by
  rw [WsXmlNode.childrenNamed, WsXmlNode.elements, WsXmlNode.content, filter_filter, filter_eq_self]
  intro c hc
  obtain ⟨e, -, rfl⟩ := mem_map.mp hc
  rw [t.wsXmlIsNodeQname_encode, info.finds_self, t.isElement_encode, Bool.and_true]

/-- A dynamic array makes the round trip exactly when it is empty, or its elements are sixteen bytes
long, all structures are at multiples of eight, and the elements can be written and read. -/
theorem dynArrayCorrect_iff (lx : Libxml) {info : FieldInfo} {t : SerType} (hwf : t.WellFormed)
    (hdyn : info.dynamic = true) (v : FieldVal info t.align t.Val)
    (hbounds : info.inBounds v.elems.length = true) :
    DynArrayCorrect lx info t v ↔
      v.elems = [] ∨ t.FitsArray v.elems.length ∧ structAlign ∣ v.base ∧
        ∀ e ∈ v.elems, t.Readable lx e ∧ t.Writable e := by
  have hwrites := (serialize_spec lx).1 t hwf
  have hreads := (deserialize_spec lx).1 t hwf
  constructor
  · intro h
    obtain ⟨w, hw, hout, hdeserialize⟩ := h
      [(0, dynWord t.size (t.offsets align) t.words v.base v.elems)] 0 dynSize
      (le_refl _) rfl
    rw [hout] at hdeserialize
    have hback := hdeserialize _ 0 dynSize (le_refl _) (childrenNamed_encode v.elems)
    obtain ⟨⟨-, hfit⟩, hread⟩ := (deserializeDyn_iff hreads hwf v (childrenNamed_encode v.elems)
      (le_refl _)).mp hback
    obtain ⟨⟨hbase, hwrite⟩, -⟩ := (serializeDyn_iff hwrites hwf v hdyn rfl (le_refl _) hbounds
      hfit hread w).mp hw
    by_cases hne : v.elems = []
    · exact .inl hne
    · exact .inr ⟨hfit.resolve_left hne, hbase.resolve_left hne, fun e he ↦
        ⟨hread e he, hwrite e he⟩⟩
  · intro h mem buf stopper hroom hlookup
    have hfit : v.elems = [] ∨ t.FitsArray v.elems.length := h.imp_right And.left
    have hbase : v.elems = [] ∨ structAlign ∣ v.base := h.imp_right fun h ↦ h.2.1
    have helems : ∀ e ∈ v.elems, t.Readable lx e ∧ t.Writable e := by
      rcases h with hnil | h
      · simp [hnil]
      · exact h.2.2
    refine ⟨_, (serializeDyn_iff hwrites hwf v hdyn hlookup hroom hbounds hfit
      (fun e he ↦ (helems e he).1) _).mpr ⟨⟨hbase, fun e he ↦ (helems e he).2⟩, rfl⟩, rfl, ?_⟩
    intro parent buf stopper hroom hchildren
    exact (deserializeDyn_iff hreads hwf v hchildren hroom).mpr
      ⟨⟨hbounds, hfit⟩, fun e he ↦ (helems e he).1⟩

def entriesInfo : FieldInfo := { name := "Entry", mincount := 0, count := 0, dynamic := true }

def pairType : SerType :=
  .struct (.cons { name := "Key" } (.basic .string)
    (.cons { name := "Value" } (.basic .string) .nil))

def textField (name : String) (text : Option String) :
    FieldVal { name := name } (SerType.basic .string).align (SerType.basic .string).Val :=
  single ⟨.str text, rfl⟩ rfl rfl

def pairs : FieldVal entriesInfo pairType.align pairType.Val where
  elems := [(textField _ (some "speed"), textField _ (some "70"), ()),
    (textField _ (some "unit"), textField _ none, ())]
  length_eq h := nomatch h
  aligned _ := Nat.dvd_zero _

theorem dynArrayCorrect_pairs : DynArrayCorrect keepsText entriesInfo pairType pairs := by
  have hplain : pairType.Plain := by
    simp [pairType, SerType.Plain, Plain, hasString, SerType.hasString]
  have hstorable : ∀ e ∈ pairs.elems, pairType.Storable e := by
    refine forall_mem_cons.mpr ⟨⟨?_, ?_, trivial⟩,
      forall_mem_singleton.mpr ⟨?_, forall_mem_singleton.mpr trivial, trivial⟩⟩
    · exact forall_mem_singleton.mpr ⟨by decide, by decide⟩
    · exact forall_mem_singleton.mpr ⟨by decide, by decide⟩
    · exact forall_mem_singleton.mpr ⟨by decide, by decide⟩
  refine (dynArrayCorrect_iff keepsText ?_ rfl pairs rfl).mpr (.inr ⟨?_, dvd_zero _, ?_⟩)
  · simp [pairType, SerType.WellFormed, SerItems.WellFormed, Apart, FieldInfo.finds]
  · exact ⟨by decide, by decide, aligned_of_plain.1 pairType hplain 0⟩
  · intro e he
    exact ⟨(readable_of_storable keepsText).1 pairType hplain e (hstorable e he),
      writable_of_plain.1 pairType hplain e⟩

def tripleType : SerType :=
  .struct (.cons { name := "Key" } (.basic .string) (.cons { name := "Value" } (.basic .string)
    (.cons { name := "Unit" } (.basic .string) .nil)))

def triples : FieldVal entriesInfo tripleType.align tripleType.Val where
  elems := [(textField _ (some "speed"), textField _ (some "70"), textField _ none, ())]
  length_eq h := nomatch h
  aligned _ := Nat.dvd_zero _

/-- An array of such elements is not serialized at all. -/
theorem not_dynArrayCorrect_triples :
    ¬DynArrayCorrect keepsText entriesInfo tripleType triples := by
  intro h
  obtain ⟨w, hw, -⟩ := h [(0, dynWord tripleType.size (tripleType.offsets align)
    tripleType.words triples.base triples.elems)] 0 dynSize (le_refl _) rfl
  have herror : serializeDyn entriesInfo (tripleType.serialize keepsText none "Entry" false)
      [(0, dynWord tripleType.size (tripleType.offsets align) tripleType.words
        triples.base triples.elems)] 0 dynSize = .error wsErrInvalidParameter := rfl
  exact absurd (herror.symm.trans hw) (by simp)

end Openwsman
