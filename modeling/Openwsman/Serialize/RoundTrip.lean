import Openwsman.Serialize.Read

/-!
# Round trips without dynamic arrays

A value of a structure made of narrow numbers, booleans, texts, arrays and structures is
deserialized from what `ws_serialize` makes of it. Every structure contains a text, so the compiler
places it at a multiple of eight as the walk does.

The descriptor that is handed to `ws_serialize` has to be one for a single element: the flag
`SER_HEAD` and the end of the memory, which is behind one element, leave the others out.
-/

namespace Openwsman

open Nat WsXmlNode SerType Bool List Layout

/-! ## Plain types -/

mutual

def SerType.hasString : SerType → Bool
  | .basic t => t == .string
  | .struct items => items.hasString

def SerItems.hasString : SerItems → Bool
  | .nil => false
  | .cons _ t rest => t.hasString || rest.hasString

end

mutual

/-- A type without 64-bit numbers and dynamic arrays, where every structure has a text in it. -/
def SerType.Plain : SerType → Prop
  | .basic t => t ≠ .int64 ∧ t ≠ .uint64
  | .struct items => items.hasString = true ∧ items.Plain

def SerItems.Plain : SerItems → Prop
  | .nil => True
  | .cons info t rest => info.dynamic = false ∧ t.Plain ∧ rest.Plain

end

/-- A value whose text is told from others: a boolean that is zero or one, and a text that is absent
or neither empty nor with an ampersand. -/
def Word.Storable : Word → Prop
  | .int .bool v => v = 0 ∨ v = 1
  | .str (some s) => s ≠ "" ∧ '&' ∉ s.toList
  | _ => True

mutual

def SerType.Storable : (t : SerType) → t.Val → Prop
  | .basic _, w => w.1.Storable
  | .struct items, v => items.Storable v

def SerItems.Storable : (items : SerItems) → items.Val → Prop
  | .nil, _ => True
  | .cons _ t rest, v => (∀ e ∈ v.1.elems, t.Storable e) ∧ rest.Storable v.2

end

theorem align_eq_of_hasString :
    (∀ t : SerType, t.Plain → t.hasString = true → t.align = structAlign) ∧
      ∀ items : SerItems, items.Plain → items.hasString = true → items.align = structAlign := by
  refine induction ?_ ?_ ?_ ?_
  · intro t _ h
    obtain rfl := eq_of_beq h
    rfl
  · intro items ih hplain h
    exact ih hplain.2 h
  · intro _ h
    exact absurd h false_ne_true
  intro info t rest ht hrest hplain h
  have hfield : info.align t.align = t.align := by
    rw [FieldInfo.align, hplain.1, if_neg Bool.false_ne_true]
  have hle {al : ℕ} (hal : al ∣ 8) : al ≤ structAlign := le_of_dvd (by decide) hal
  rw [SerItems.align, hfield]
  rw [SerItems.hasString, or_eq_true] at h
  rcases h with h | h
  · rw [ht hplain.2.1 h]
    exact max_eq_left (hle (align_dvd_eight.2 rest))
  · rw [hrest hplain.2.2 h]
    exact max_eq_right (hle t.align_dvd)

theorem alignBy_of_plain {t : SerType} (h : t.Plain) : t.alignBy walkAlign = t.align := by
  rcases t with t | items
  · rfl
  · exact (align_eq_of_hasString.2 items h.2 h.1).symm

theorem aligned_of_plain :
    (∀ t : SerType, t.Plain → ∀ a, t.Aligned a) ∧
      ∀ items : SerItems, items.Plain → ∀ a, items.Aligned a := by
  refine induction ?_ ?_ ?_ ?_
  · intro t _ a
    exact trivial
  · intro items ih h a
    exact ih h.2 a
  · intro _ a
    exact trivial
  intro info t rest ht hrest h a
  refine ⟨fun hdyn ↦ ⟨?_, fun i _ ↦ ht h.2.1 _⟩, hrest h.2.2 _⟩
  rw [alignBy_of_plain h.2.1]
  exact FieldInfo.dvd_start_of_not_dynamic hdyn t a

/-! ## Values of plain types -/

theorem length_toString_lt {v : ℤ} (hlo : -2 ^ 31 ≤ v) (hhi : v < 2 ^ 32) :
    (toString v).length < 12 := by
  rcases v with n | n
  · rw [show toString (Int.ofNat n) = n.repr from rfl]
    have hle := (length_repr_le_iff (n := n) (k := 10) (by decide)).mpr
      (by have hn : (n : ℤ) < 2 ^ 32 := hhi
          omega)
    omega
  · rw [show toString (Int.negSucc n) = "-" ++ (n + 1).repr from rfl, String.length_append]
    have hle := (length_repr_le_iff (n := n + 1) (k := 10) (by decide)).mpr (by omega)
    have hone : "-".length = 1 := rfl
    omega

theorem fitsText_of_holds {t : BasicType} (h64 : t ≠ .int64) (hu64 : t ≠ .uint64) {w : Word}
    (h : t.holds w = true) : fitsText w = true := by
  rcases w with ⟨t', v⟩ | s | _
  · rw [BasicType.holds, and_eq_true, and_eq_true, and_eq_true, beq_iff_eq,
      decide_eq_true_eq, decide_eq_true_eq] at h
    obtain ⟨⟨⟨rfl, -⟩, hlo⟩, hhi⟩ := h
    have hrange : -2 ^ 31 ≤ t'.range.1 ∧ t'.range.2 < 2 ^ 32 := by
      revert h64 hu64
      cases t' <;> decide
    have hlen := length_toString_lt (hrange.1.trans hlo) (hhi.trans_lt hrange.2)
    cases t' <;> first | rfl | exact decide_eq_true hlen
  · rfl
  · exact absurd h false_ne_true

theorem writable_of_plain :
    (∀ t : SerType, t.Plain → ∀ v, t.Writable v) ∧
      ∀ items : SerItems, items.Plain → ∀ v, items.Writable v := by
  refine induction ?_ ?_ ?_ ?_
  · intro t h v
    exact fitsText_of_holds h.1 h.2 v.2
  · intro items ih h v
    exact ih h.2 v
  · intro _ v
    exact trivial
  · intro info t rest ht hrest h v
    refine ⟨fun hdyn ↦ ?_, fun e _ ↦ ht h.2.1 e, hrest h.2.2 v.2⟩
    exact absurd (h.1.symm.trans hdyn) false_ne_true

theorem Word.Storable.readable {w : Word} (h : w.Storable) (lx : Libxml) : w.Readable lx := by
  rcases w with ⟨t, v⟩ | s | _
  · cases t
    case bool => exact h
    all_goals exact trivial
  · rcases s with _ | s
    · exact trivial
    · exact ⟨lx.kept_of_not_mem h.2, h.1⟩
  · exact trivial

theorem readable_of_storable (lx : Libxml) :
    (∀ t : SerType, t.Plain → ∀ v, t.Storable v → t.Readable lx v) ∧
      ∀ items : SerItems, items.Plain → ∀ v, items.Storable v → items.Readable lx v := by
  refine induction ?_ ?_ ?_ ?_
  · intro t _ v h
    exact h.readable lx
  · intro items ih hplain v h
    exact ih hplain.2 v h
  · intro _ v _
    exact trivial
  · intro info t rest ht hrest hplain v h
    refine ⟨fun hdyn ↦ ?_, fun e he ↦ ht hplain.2.1 e (h.1 e he), hrest hplain.2.2 v.2 h.2⟩
    exact absurd (hplain.1.symm.trans hdyn) false_ne_true

theorem words_copy_of_plain :
    (∀ t : SerType, t.Plain → ∀ v, t.words (t.copy v) = t.words v) ∧
      ∀ items : SerItems, items.Plain → ∀ v, items.words (items.copy v) = items.words v := by
  refine induction ?_ ?_ ?_ ?_
  · intro t _ v
    rfl
  · intro items ih h v
    exact ih h.2 v
  · intro _ v
    rfl
  intro info t rest ht hrest h v
  have hwords : (v.1.elems.map t.copy).flatMap t.words = v.1.elems.flatMap t.words := by
    rw [flatMap_map]
    exact flatMap_congr fun e _ ↦ ht h.2.1 e
  rw [SerItems.words, SerItems.words, if_neg (by simp [h.1]), if_neg (by simp [h.1]),
    SerItems.copy, hrest h.2.2]
  exact congrArg (· ++ rest.words v.2) hwords

/-! ## The round trip -/

namespace SerType

variable (t : SerType) (ns : Option String) (name : String)

/-- For one element the flag `SER_HEAD` makes no difference. -/
theorem serialize_head (lx : Libxml) (mem : Memory) (buf stopper : ℕ) :
    t.serialize lx ns name true 1 mem buf stopper =
      t.serialize lx ns name false 1 mem buf stopper := by
  rcases t with t | items
  · rw [serialize, serialize]
  · rw [serialize, serialize]
    exact doSerializeStruct_head _ _ buf stopper

theorem deserialize_head (parent : WsXmlNode) (buf stopper : ℕ) :
    t.deserialize ns name true 0 1 parent buf stopper =
      t.deserialize ns name false 0 1 parent buf stopper := by
  rcases t with t | items
  · rw [deserialize, deserialize]
  · rw [deserialize, deserialize]
    exact doSerializeStruct_head _ _ buf stopper

theorem advance_pos {t : SerType} (hwf : t.WellFormed) {n : ℕ} (hn : 0 < n) (buf : ℕ) :
    0 < t.advance n buf := by
  have hsize := hwf.size_pos
  have hall : 0 < n * t.size := mul_pos hn hsize
  rcases t with t | items
  · rw [advance]
    exact Nat.add_pos_right _ hall
  rw [advance]
  split
  · exact hall
  · exact hsize

theorem cells_singleton (a : ℕ) (v : t.Val) : t.cells a [v] = t.memory a v := by
  rw [cells_cons]
  exact append_nil _

end SerType

section

variable {info : FieldInfo} {t : SerType} (hcount : info.count = 1) (hdyn : info.dynamic = false)
  (hwf : t.WellFormed) (hsize : t.size < 2 ^ 31)

include hcount hdyn hwf hsize

theorem wsSerialize_memory {lx : Libxml} {dataPtr : ℕ} (hptr : t.alignBy walkAlign ∣ dataPtr)
    (haligned : t.Aligned dataPtr) {v : t.Val} (hread : t.Readable lx v) (hwrite : t.Writable v) :
    wsSerialize lx info t (t.memory dataPtr v) dataPtr =
      .ok ⟨t.advance 1 dataPtr, dataPtr + t.size, [t.encode lx info.ns info.name v]⟩ := by
  have hwrites := (serialize_spec lx).1 t hwf hsize info.ns info.name (t.memory dataPtr v)
  have hholds := holds_cells (t.align_dvd_alignBy.trans hptr) [v]
  rw [t.cells_singleton] at hholds
  have hone : [v].length * t.size = t.size := one_mul t.size
  rw [wsSerialize, if_neg (by simp [hdyn]), hcount, t.serialize_head]
  refine (serialize_iff hwrites (cons_ne_nil v []) hwf (by rwa [hone]) dataPtr
    (alignUp_of_dvd hptr) ?_ hholds ?_ (by rw [hone]) _).mpr ⟨?_, by rw [hone]; rfl⟩
  · simpa using haligned
  · simpa using hread
  · simpa using hwrite

theorem wsDeserialize_encode {lx : Libxml} (haligned : t.Aligned 0) {v : t.Val}
    (hread : t.Readable lx v) {parent : WsXmlNode}
    (hchildren : parent.childrenNamed info.ns (some info.name) =
      [t.encode lx info.ns info.name v]) :
    wsDeserialize info t parent 0 = .value (some (t.memory 0 (t.copy v))) := by
  have hreads := (deserialize_spec lx).1 t hwf hsize info.ns info.name
  have hone : 1 * t.size = t.size := one_mul t.size
  have heach := (eachElement_read_iff hreads hwf hsize [v] 0 (dvd_zero t.align)
    (by simpa using haligned) hchildren).mpr (by simpa using hread)
  have hok : t.deserialize info.ns info.name true 0 1 parent 0 t.size =
      .ok ⟨t.advance 1 0, 0 + 1 * t.size, t.memory 0 (t.copy v)⟩ := by
    rw [t.deserialize_head, deserialize_eq_of_length hwf one_pos (hone.symm ▸ hsize)
      (by rw [hchildren]; rfl) (alignUp_of_dvd (dvd_zero _)) (by omega)]
    rw [map_singleton, t.cells_singleton] at heach
    exact congrArg (SerResult.bind · _) heach
  have hpos : 0 < (t.advance 1 0 : ℤ) := Int.natCast_pos.mpr (advance_pos hwf one_pos 0)
  have hint : ¬toCInt t.size < 0 := by
    rw [toCInt_natCast hsize]
    omega
  rw [wsDeserialize, hdyn, if_neg Bool.false_ne_true, if_neg hint, if_neg Bool.false_ne_true,
    hcount, hok]
  exact congrArg CResult.value (if_pos hpos)

end

theorem childrenNamed_append_encode {lx : Libxml} {info : FieldInfo} {t : SerType} (v : t.Val)
    (ns : Option String) (name : String) (attrs : List WsXmlAttr) {before : List WsXmlNode}
    (h : ∀ c ∈ before, c.isElement = true →
      wsXmlIsNodeQname c info.ns (some info.name) = false) :
    (WsXmlNode.element ns name attrs (before ++ [t.encode lx info.ns info.name v])).childrenNamed
      info.ns (some info.name) = [t.encode lx info.ns info.name v] := by
  have hnone : (before.filter isElement).filter
      (fun c ↦ wsXmlIsNodeQname c info.ns (some info.name)) = [] := by
    rw [filter_eq_nil_iff]
    intro c hc
    rw [mem_filter] at hc
    rw [h c hc.1 hc.2]
    exact false_ne_true
  rw [childrenNamed, elements, content, filter_append,
    filter_append, hnone, nil_append, filter_cons_of_pos (t.isElement_encode _ _ v),
    filter_nil, filter_cons_of_pos, filter_nil]
  rw [t.wsXmlIsNodeQname_encode, info.finds_self]

/-- A value of a plain type is deserialized from what `ws_serialize` makes of it. -/
theorem wsDeserialize_wsSerialize (lx : Libxml) {info : FieldInfo} {t : SerType}
    (hcount : info.count = 1) (hdyn : info.dynamic = false) (hwf : t.WellFormed) (hplain : t.Plain)
    (hsize : t.size < 2 ^ 31) {v : t.Val} (hv : t.Storable v) {dataPtr : ℕ}
    (hptr : t.align ∣ dataPtr) (ns : Option String) (name : String) (attrs : List WsXmlAttr)
    {before : List WsXmlNode} (hbefore : ∀ c ∈ before, c.isElement = true →
      wsXmlIsNodeQname c info.ns (some info.name) = false) :
    ∃ w, wsSerialize lx info t (t.memory dataPtr v) dataPtr = .ok w ∧
      wsDeserialize info t (.element ns name attrs (before ++ w.out)) 0 =
        .value (some (t.memory 0 v)) := by
  have hread := (readable_of_storable lx).1 t hplain v hv
  have hwrite := writable_of_plain.1 t hplain v
  have haligned := aligned_of_plain.1 t hplain
  rw [← alignBy_of_plain hplain] at hptr
  refine ⟨_, wsSerialize_memory hcount hdyn hwf hsize hptr (haligned dataPtr) hread hwrite, ?_⟩
  rw [wsDeserialize_encode hcount hdyn hwf hsize (haligned 0) hread
    (childrenNamed_append_encode v ns name attrs hbefore), memory, memory,
    words_copy_of_plain.1 t hplain]

def gaugeType : SerType :=
  .struct (.cons { name := "Name" } (.basic .string)
    (.cons { name := "Level", mincount := 2, count := 2 } (.basic .int32)
      (.cons { name := "Unit" } (.struct (.cons { name := "On" } (.basic .bool)
        (.cons { name := "Symbol" } (.basic .string) .nil))) .nil)))

def single {info : FieldInfo} {al : ℕ} {α : Type} (a : α) (hcount : info.count = 1)
    (hdyn : info.dynamic = false) : FieldVal info al α where
  elems := [a]
  length_eq _ := hcount.symm
  aligned h := absurd (hdyn.symm.trans h) Bool.false_ne_true

def gauge : gaugeType.Val :=
  (single ⟨.str (some "fan"), rfl⟩ rfl rfl,
    ⟨[⟨.int .int32 (-40), rfl⟩, ⟨.int .int32 70, rfl⟩], 0, fun _ ↦ rfl, fun h ↦ nomatch h⟩,
    single (single ⟨.int .bool 1, rfl⟩ rfl rfl, single ⟨.str none, rfl⟩ rfl rfl, ()) rfl rfl, ())

theorem wsDeserialize_wsSerialize_gauge :
    ∃ w, wsSerialize keepsText { name := "Gauge" } gaugeType (gaugeType.memory 0 gauge) 0 = .ok w ∧
      wsDeserialize { name := "Gauge" } gaugeType (.element none "Gauges" [] ([] ++ w.out)) 0 =
        .value (some (gaugeType.memory 0 gauge)) := by
  refine wsDeserialize_wsSerialize keepsText rfl rfl ?_ ?_ (by decide) ?_ (dvd_zero _)
    none "Gauges" [] (by simp)
  · simp [gaugeType, SerType.WellFormed, SerItems.WellFormed, SerItems.Apart, FieldInfo.finds]
  · simp [gaugeType, Plain, SerItems.Plain, SerItems.hasString, hasString]
  refine ⟨?_, ?_, ?_, trivial⟩
  · exact forall_mem_singleton.mpr ⟨by decide, by decide⟩
  · exact forall_mem_cons.mpr ⟨trivial, forall_mem_singleton.mpr trivial⟩
  · refine forall_mem_singleton.mpr ⟨?_, ?_, trivial⟩
    · exact forall_mem_singleton.mpr (.inr rfl)
    · exact forall_mem_singleton.mpr trivial

/-- Of an array that is not inside a structure `ws_serialize` has room for one element only. -/
theorem wsSerialize_two_levels :
    wsSerialize keepsText { name := "Level", mincount := 2, count := 2 } (.basic .int32)
      [(0, .int .int32 (-40)), (4, .int .int32 70)] 0 = .error wsErrInvalidParameter := rfl

end Openwsman
