import Openwsman.Libc.Decimal
import Openwsman.Serialize.Placement
import Openwsman.Serialize.Walk

/-!
# The elements of a value

`encode` is the XML that a value stands for: an element for each number and text, and an element
with the elements of the fields for each structure. The children of such an element are found again
under their names when the type is well formed.

Not every value can be read back from it. A boolean is written as one of two words, an empty text
cannot be told from an absent one, and libxml2 may change a text with an ampersand. A dynamic array
is allocated as if its elements had the size of an `XmlSerialiseDynamicSizeData`, and they are read
where the walk over structures finds them. `Readable` collects this. `Writable` says what can be
written: numbers that fit into the buffer they are printed to, and arrays whose memory starts where
the walk over structures starts.
-/

namespace Openwsman

open Int Nat Option List Layout

/-! ## Encoding -/

mutual

def SerType.encode (lx : Libxml) (ns : Option String) (name : String) :
    (t : SerType) → t.Val → WsXmlNode
  | .basic _, w => leafNode lx ns name w.1
  | .struct items, v => .element ns name [] (items.encode lx v)

def SerItems.encode (lx : Libxml) : (items : SerItems) → items.Val → List WsXmlNode
  | .nil, _ => []
  | .cons info t rest, v =>
    v.1.elems.map (t.encode lx info.ns info.name) ++ rest.encode lx v.2

end

variable {lx : Libxml}

variable (ns : Option String) (name : String)

theorem SerType.isElement_encode (t : SerType) (v : t.Val) :
    (t.encode lx ns name v).isElement = true := by
  cases t <;> rfl

theorem SerType.wsXmlIsNodeQname_encode (info other : FieldInfo) (t : SerType) (v : t.Val) :
    wsXmlIsNodeQname (t.encode lx other.ns other.name v) info.ns (some info.name) =
      info.finds other := by
  cases t <;> rfl

theorem FieldInfo.finds_self (info : FieldInfo) : info.finds info = true := by
  simp [finds]

theorem SerItems.isElement_of_mem_encode : ∀ (items : SerItems) (v : items.Val),
    ∀ c ∈ items.encode lx v, c.isElement = true
  | .nil, _, c, hc => absurd hc not_mem_nil
  | .cons info t rest, v, c, hc => by
    rw [encode] at hc
    rcases mem_append.mp hc with hc | hc
    · obtain ⟨e, -, rfl⟩ := mem_map.mp hc
      exact t.isElement_encode _ _ e
    · exact isElement_of_mem_encode rest v.2 c hc

theorem SerItems.Apart.not_found {info : FieldInfo} : ∀ {items : SerItems}, items.Apart info →
    ∀ v : items.Val, ∀ c ∈ items.encode lx v,
      wsXmlIsNodeQname c info.ns (some info.name) = false
  | .nil, _, _, c, hc => absurd hc not_mem_nil
  | .cons other t rest, h, v, c, hc => by
    rw [SerItems.encode] at hc
    rcases mem_append.mp hc with hc | hc
    · obtain ⟨e, -, rfl⟩ := mem_map.mp hc
      rw [t.wsXmlIsNodeQname_encode]
      exact h.1.1
    · exact not_found h.2 v.2 c hc

def SerItems.Misses (c : WsXmlNode) : SerItems → Prop
  | .nil => True
  | .cons info _ rest => wsXmlIsNodeQname c info.ns (some info.name) = false ∧ rest.Misses c

theorem SerItems.Apart.misses {info : FieldInfo} (t : SerType) (e : t.Val) :
    ∀ {items : SerItems}, items.Apart info → items.Misses (t.encode lx info.ns info.name e)
  | .nil, _ => trivial
  | .cons other _ rest, h => by
    refine ⟨?_, misses t e h.2⟩
    rw [t.wsXmlIsNodeQname_encode]
    exact h.1.2

def SerItems.Found (lx : Libxml) (parent : WsXmlNode) : (items : SerItems) → items.Val → Prop
  | .nil, _ => True
  | .cons info t rest, v =>
    parent.childrenNamed info.ns (some info.name) =
        v.1.elems.map (t.encode lx info.ns info.name) ∧
      rest.Found lx parent v.2

theorem SerItems.found_of_elements_eq {parent : WsXmlNode} : ∀ {items : SerItems} (v : items.Val)
    (before : List WsXmlNode), items.WellFormed → (∀ c ∈ before, items.Misses c) →
    parent.elements = before ++ items.encode lx v → items.Found lx parent v
  | .nil, _, _, _, _, _ => trivial
  | .cons info t rest, v, before, hwf, hbefore, h => by
    obtain ⟨-, hapart, -, hrest⟩ := hwf
    have hnone : before.filter (fun c ↦ wsXmlIsNodeQname c info.ns (some info.name)) = [] := by
      rw [filter_eq_nil_iff]
      intro c hc
      rw [(hbefore c hc).1]
      exact Bool.false_ne_true
    have hall : (v.1.elems.map (t.encode lx info.ns info.name)).filter
        (fun c ↦ wsXmlIsNodeQname c info.ns (some info.name)) =
          v.1.elems.map (t.encode lx info.ns info.name) := by
      rw [filter_eq_self]
      intro c hc
      obtain ⟨e, -, rfl⟩ := mem_map.mp hc
      rw [t.wsXmlIsNodeQname_encode, info.finds_self]
    have hothers : (rest.encode lx v.2).filter
        (fun c ↦ wsXmlIsNodeQname c info.ns (some info.name)) = [] := by
      rw [filter_eq_nil_iff]
      intro c hc
      rw [hapart.not_found v.2 c hc]
      exact Bool.false_ne_true
    rw [encode] at h
    constructor
    · rw [WsXmlNode.childrenNamed, h, filter_append, filter_append, hnone, hall, hothers,
        nil_append, append_nil]
    refine found_of_elements_eq v.2 (before ++ v.1.elems.map (t.encode lx info.ns info.name)) hrest
      ?_ (by rw [h, append_assoc])
    intro c hc
    rcases mem_append.mp hc with hc | hc
    · exact (hbefore c hc).2
    · obtain ⟨e, -, rfl⟩ := mem_map.mp hc
      exact hapart.misses t e

theorem SerItems.found_encode {items : SerItems} (hwf : items.WellFormed) (ns : Option String)
    (name : String) (v : items.Val) :
    items.Found lx ((SerType.struct items).encode lx ns name v) v := by
  refine found_of_elements_eq v [] hwf (by simp) ?_
  exact filter_eq_self.mpr (items.isElement_of_mem_encode v)

/-! ## Numbers -/

variable (v : ℤ)

theorem ampersand_not_mem_toString : '&' ∉ (toString v).toList := by
  have hdigits (n : ℕ) : '&' ∉ toDigits 10 n := fun h ↦
    absurd (isDigit_of_mem_toDigits h) (by decide)
  rcases v with n | n
  · rw [show (toString (ofNat n)).toList = n.repr.toList from rfl, toList_repr]
    exact hdigits n
  · rw [show (toString (negSucc n)) = (negSucc n).repr from rfl, toList_repr_negSucc,
      mem_cons, not_or]
    exact ⟨by decide, hdigits (n + 1)⟩

theorem readSign_toString :
    readSign (toString v).toList = (decide (v < 0), Nat.toDigits 10 v.natAbs) := by
  rcases v with n | n
  · obtain ⟨c, cs, hdigits, hc⟩ := toDigits_eq_cons n
    rw [show (toString (ofNat n)).toList = n.repr.toList from rfl, toList_repr, hdigits,
      readSign_of_isDigit hc, ← hdigits]
    simp
  · rw [show (toString (negSucc n)) = (negSucc n).repr from rfl, toList_repr_negSucc]
    simp [readSign]

/-- It has no blanks in front, and a minus only when the number is negative. -/
theorem toString_eq_cons :
    ∃ c cs, (toString v).toList = c :: cs ∧ isSpace c = false ∧ (c = '-' → v < 0) := by
  rcases v with n | n
  · obtain ⟨c, cs, hdigits, hc⟩ := toDigits_eq_cons n
    refine ⟨c, cs, ?_, isSpace_eq_false_of_isDigit hc, ?_⟩
    · rw [show (toString (ofNat n)).toList = n.repr.toList from rfl, toList_repr, hdigits]
    · rintro rfl
      exact absurd hc (by decide)
  · refine ⟨'-', toDigits 10 (n + 1), ?_, by decide, fun _ ↦ negSucc_lt_zero n⟩
    rw [show (toString (negSucc n)) = (negSucc n).repr from rfl, toList_repr_negSucc]

theorem readNumber_toString {lo hi v : ℤ} (hlo : lo ≤ v) (hhi : v ≤ hi) :
    readNumber lo hi (toString v).toList = some v := by
  have hdigits : ∀ c ∈ toDigits 10 v.natAbs, isDigit c = true :=
    fun c hc ↦ isDigit_of_mem_toDigits hc
  have htake := takeWhile_isDigit_append hdigits endsNumeral_nil
  have hdrop := dropWhile_isDigit_append hdigits endsNumeral_nil
  rw [append_nil] at htake hdrop
  have hvalue : (if decide (v < 0) = true then -(v.natAbs : ℤ) else v.natAbs) = v := by
    by_cases hneg : v < 0
    · rw [if_pos (decide_eq_true hneg)]
      omega
    · rw [if_neg (by simpa using hneg)]
      omega
  rw [readNumber, readSign_toString]
  dsimp only
  rw [htake, hdrop, digitsValue_toDigits, hvalue]
  have hne : (toDigits 10 v.natAbs).isEmpty = false := by
    rw [isEmpty_eq_false_iff]
    exact toDigits_ne_nil
  simp [hne, not_lt.mpr hlo, not_lt.mpr hhi]

variable {t : BasicType}

theorem storedNumber_of_mem {v : ℤ} (hlo : t.range.1 ≤ v) (hhi : v ≤ t.range.2) :
    storedNumber t v = some v := by
  cases t
  case int32 => rw [storedNumber, toCInt_of_mem hlo (lt_of_le_sub_one hhi)]
  case uint32 => rw [storedNumber, emod_eq_of_lt hlo (lt_of_le_sub_one hhi)]
  case int64 | uint64 => rfl
  all_goals exact if_neg (by omega)

theorem chars_leafNode (w : Word) :
    (leafNode lx ns name w).chars = ((leafText w).map lx.kept).getD "" := by
  rcases h : leafText w with _ | text
  · rw [leafNode, h]
    rfl
  · rw [leafNode, h]
    exact String.append_empty

theorem readInteger_leafNode (ht : t.isInteger = true) {v : ℤ} (hlo : t.range.1 ≤ v)
    (hhi : v ≤ t.range.2) (ns : Option String) (name : String) :
    readInteger t (leafNode lx ns name (.int t v)) = some v := by
  have hchars : (leafNode lx ns name (.int t v)).chars = toString v := by
    have htext : leafText (.int t v) = some (toString v) := by
      cases t <;> first | rfl | exact absurd ht (by decide)
    rw [chars_leafNode, htext, map_some, getD_some,
      lx.kept_of_not_mem (ampersand_not_mem_toString v)]
  obtain ⟨c, cs, htext, hspace, hminus⟩ := toString_eq_cons v
  have hdrop : (toString v).toList.dropWhile isSpace = (toString v).toList := by
    rw [htext, dropWhile_cons, hspace, if_neg Bool.false_ne_true]
  have hunsigned (h : t.isSigned = false) : 0 ≤ v :=
    (BasicType.range_of_not_isSigned ht h).1 ▸ hlo
  have hpresent : ((toString v).toList.isEmpty ||
      !t.isSigned && (toString v).toList.head? == some '-') = false := by
    rw [htext, isEmpty_cons, Bool.false_or, head?_cons]
    by_cases hsigned : t.isSigned = true
    · rw [hsigned]
      rfl
    · rw [Bool.not_eq_true] at hsigned
      have hne : c ≠ '-' := fun h ↦ absurd (hminus h) (not_lt.mpr (hunsigned hsigned))
      simp [hne]
  have hnumber : (if t.isSigned = true then
      readNumber (-2 ^ 63) (2 ^ 63 - 1) (toString v).toList
      else readNumber 0 (2 ^ 64 - 1) (toString v).toList) = some v := by
    split
    · next hsigned =>
      have hrange := BasicType.range_of_isSigned hsigned
      exact readNumber_toString (hrange.1.trans hlo) (hhi.trans hrange.2)
    · next hsigned =>
      have hsigned := Bool.eq_false_of_not_eq_true hsigned
      have hrange := BasicType.range_of_not_isSigned ht hsigned
      exact readNumber_toString (hunsigned hsigned) (hhi.trans hrange.2)
  rw [readInteger, hchars, hdrop, hpresent, if_neg Bool.false_ne_true]
  rw [hnumber]
  exact storedNumber_of_mem hlo hhi

/-! ## Values that are read back -/

def Word.Readable (lx : Libxml) : Word → Prop
  | .int .bool v => v = 0 ∨ v = 1
  | .str (some s) => lx.kept s = s ∧ s ≠ ""
  | _ => True

theorem readLeaf_of_isInteger (ht : t.isInteger = true) (child : WsXmlNode) :
    readLeaf t child = (readInteger t child).map (.int t) := by
  cases t <;> first | rfl | exact absurd ht (by decide)

theorem Word.readable_of_isInteger (ht : t.isInteger = true) (v : ℤ) :
    (Word.int t v).Readable lx := by
  cases t <;> first | exact trivial | exact absurd ht (by decide)

theorem readLeaf_string_iff (s : Option String) (ns : Option String) (name : String) :
    readLeaf .string (leafNode lx ns name (.str s)) = some (.str s) ↔
      (Word.str s).Readable lx := by
  rw [readLeaf, chars_leafNode]
  rcases s with _ | s
  · exact iff_of_true rfl trivial
  rw [show leafText (.str (some s)) = some s from rfl, map_some, getD_some, Word.Readable]
  by_cases hempty : lx.kept s = ""
  · simp [hempty, eq_comm]
  · simp [hempty]
    exact fun h ↦ h ▸ hempty

theorem readLeaf_bool_iff (ns : Option String) (name : String) :
    readLeaf .bool (leafNode lx ns name (.int .bool v)) = some (.int .bool v) ↔ v = 0 ∨ v = 1 := by
  rw [readLeaf, chars_leafNode, leafText, map_some, getD_some]
  by_cases hv : v = 0
  · rw [if_pos hv, lx.kept_of_not_mem (by decide), show readBool "false" = some 0 by decide]
    simp [hv]
  · rw [if_neg hv, lx.kept_of_not_mem (by decide), show readBool "true" = some 1 by decide]
    simp [hv, eq_comm]

theorem readLeaf_leafNode_iff {w : Word} (h : t.holds w = true) (ns : Option String) (name : String)
    :
    readLeaf t (leafNode lx ns name w) = some w ↔ w.Readable lx := by
  rcases w with ⟨t', v⟩ | s | _
  · rw [BasicType.holds, Bool.and_eq_true, Bool.and_eq_true, Bool.and_eq_true, beq_iff_eq,
      decide_eq_true_eq, decide_eq_true_eq] at h
    obtain ⟨⟨⟨rfl, hstring⟩, hlo⟩, hhi⟩ := h
    by_cases ht : t'.isInteger = true
    · refine iff_of_true ?_ (Word.readable_of_isInteger ht v)
      rw [readLeaf_of_isInteger ht, readInteger_leafNode ht hlo hhi ns name, map_some]
    · obtain rfl : t' = .bool := by
        cases t' <;> first | rfl | exact absurd rfl ht | exact absurd hstring (by decide)
      exact readLeaf_bool_iff v ns name
  · obtain rfl : t = .string := eq_of_beq h
    exact readLeaf_string_iff s ns name
  · exact absurd h Bool.false_ne_true

def SerType.FitsArray (t : SerType) (n : ℕ) : Prop :=
  t.size = dynSize ∧ dynSize * n < 2 ^ 31 ∧ t.Aligned 0

mutual

def SerType.Readable (lx : Libxml) : (t : SerType) → t.Val → Prop
  | .basic _, w => w.1.Readable lx
  | .struct items, v => items.Readable lx v

def SerItems.Readable (lx : Libxml) : (items : SerItems) → items.Val → Prop
  | .nil, _ => True
  | .cons info t rest, v =>
    (info.dynamic = true → info.inBounds v.1.elems.length = true ∧
        (v.1.elems = [] ∨ t.FitsArray v.1.elems.length)) ∧
      (∀ e ∈ v.1.elems, t.Readable lx e) ∧ rest.Readable lx v.2

end

mutual

def SerType.Writable : (t : SerType) → t.Val → Prop
  | .basic _, w => fitsText w.1 = true
  | .struct items, v => items.Writable v

def SerItems.Writable : (items : SerItems) → items.Val → Prop
  | .nil, _ => True
  | .cons info t rest, v =>
    (info.dynamic = true → v.1.elems = [] ∨ structAlign ∣ v.1.base) ∧
      (∀ e ∈ v.1.elems, t.Writable e) ∧ rest.Writable v.2

end

end Openwsman
