import Mathlib.Algebra.BigOperators.Group.List.Basic
import Openwsman.Xml.Write

/-!
# Copies of elements

`ws_xml_duplicate_tree` copies an element with its attributes and its children. Text is copied only
where there are no children, and it is written anew. So the copy of an element is the same element
if it has no text beside children and its text has no ampersand (`plain`).

How character data is cut into nodes is of no account: nodes are compared after adjacent character
data was joined (`joined`). A copy has the attributes as they are read (`asRead`), and that of a
document lacks those of the root and a text directly in it.
-/

namespace Openwsman

open Nat Bool List

namespace WsXmlNode

/-! ## Nodes up to the division of text -/

def prependText (s : String) : List WsXmlNode → List WsXmlNode
  | .text t :: l => .text (s ++ t) :: l
  | l => .text s :: l

/-- A node in front of others. Character data is no node if it is empty. -/
def joinText : WsXmlNode → List WsXmlNode → List WsXmlNode
  | .text s, l => if s = "" then l else prependText s l
  | .element ns name attrs content, l => .element ns name attrs content :: l

mutual

def joined : WsXmlNode → WsXmlNode
  | .element ns name attrs content => .element ns name attrs (joinedAll content)
  | .text chars => .text chars

def joinedAll : List WsXmlNode → List WsXmlNode
  | [] => []
  | c :: cs => joinText (joined c) (joinedAll cs)

end

@[simp] theorem joined_element (ns : Option String) (name : String) (attrs : List WsXmlAttr)
    (content : List WsXmlNode) :
    (element ns name attrs content).joined = element ns name attrs (joinedAll content) := by
  rw [joined]

@[simp] theorem joined_text (s : String) : (text s).joined = text s := by
  rw [joined]

variable {l : List WsXmlNode}

theorem joinedAll_of_elements (h : ∀ c ∈ l, c.isElement = true) : joinedAll l = l.map joined := by
  induction l with
  | nil => rw [joinedAll]; rfl
  | cons c l ih =>
    rw [joinedAll, ih fun d hd ↦ h d (mem_cons_of_mem c hd), map_cons]
    cases c with
    | element ns name attrs content => rw [joined_element]; rfl
    | text s => cases h (.text s) mem_cons_self

theorem joinedAll_of_texts (h : ∀ c ∈ l, c.isElement = false) :
    joinedAll l = if charsAll l = "" then [] else [.text (charsAll l)] := by
  induction l with
  | nil => rw [joinedAll, charsAll]; rfl
  | cons c l ih =>
    cases c with
    | element ns name attrs content => cases h _ mem_cons_self
    | text s =>
      rw [joinedAll, ih fun d hd ↦ h d (mem_cons_of_mem _ hd), joined_text, charsAll, chars]
      by_cases hs : s = ""
      · rw [hs, joinText, if_pos rfl, String.empty_append]
      have happend : s ++ charsAll l ≠ "" := by
        intro heq
        exact hs (String.append_eq_empty_iff.mp heq).1
      rw [joinText, if_neg hs, if_neg happend]
      by_cases hl : charsAll l = ""
      · rw [if_pos hl, hl, String.append_empty]
        rfl
      · rw [if_neg hl]
        rfl

theorem joinedAll_of_empty_texts (h : ∀ c ∈ l, c.isElement = false → c = .text "") :
    joinedAll l = (l.filter isElement).map joined := by
  induction l with
  | nil => rw [joinedAll]; rfl
  | cons c l ih =>
    rw [joinedAll, ih fun d hd ↦ h d (mem_cons_of_mem c hd)]
    cases c with
    | element ns name attrs content =>
      rw [filter_cons_of_pos rfl, map_cons, joined_element]
      rfl
    | text s =>
      obtain rfl : s = "" := by
        have hs := h (.text s) mem_cons_self rfl
        injection hs
      rw [filter_cons_of_neg Bool.false_ne_true, joined_text, joinText, if_pos rfl]

/-! ## Plain content -/

mutual

def plain : WsXmlNode → Bool
  | .element _ _ _ content =>
    if content.any isElement then plainAll content else !(charsAll content).toList.contains '&'
  | .text s => s == ""

def plainAll : List WsXmlNode → Bool
  | [] => true
  | c :: cs => c.plain && plainAll cs

end

theorem plainAll_iff : plainAll l = true ↔ ∀ c ∈ l, c.plain = true := by
  induction l with
  | nil => rw [plainAll]; simp
  | cons c l ih => rw [plainAll, and_eq_true, ih, forall_mem_cons]

/-! ## The number of elements -/

mutual

def elementCount : WsXmlNode → ℕ
  | .element _ _ _ content => elementCountAll content + 1
  | .text _ => 0

def elementCountAll : List WsXmlNode → ℕ
  | [] => 0
  | c :: cs => c.elementCount + elementCountAll cs

end

theorem elementCountAll_eq_sum (l : List WsXmlNode) :
    elementCountAll l = (l.map elementCount).sum := by
  induction l with
  | nil => rw [elementCountAll]; rfl
  | cons c l ih => rw [elementCountAll, ih, map_cons, sum_cons]

theorem elementCountAll_append (l l' : List WsXmlNode) :
    elementCountAll (l ++ l') = elementCountAll l + elementCountAll l' := by
  rw [elementCountAll_eq_sum, elementCountAll_eq_sum, elementCountAll_eq_sum, map_append,
    List.sum_append]

theorem elementCountAll_perm {l' : List WsXmlNode} (h : l.Perm l') :
    elementCountAll l = elementCountAll l' := by
  rw [elementCountAll_eq_sum, elementCountAll_eq_sum]
  exact (h.map elementCount).sum_eq

theorem elementCountAll_map {f : WsXmlNode → WsXmlNode}
    (hf : ∀ n, (f n).elementCount = n.elementCount) (l : List WsXmlNode) :
    elementCountAll (l.map f) = elementCountAll l := by
  rw [elementCountAll_eq_sum, elementCountAll_eq_sum, map_map]
  exact congrArg sum (map_congr_left fun n _ ↦ hf n)

theorem elementCountAll_filter (l : List WsXmlNode) :
    elementCountAll (l.filter isElement) = elementCountAll l := by
  induction l with
  | nil => rfl
  | cons c l ih =>
    cases c with
    | element ns name attrs content =>
      rw [filter_cons_of_pos rfl, elementCountAll, ih, elementCountAll]
    | text s =>
      rw [filter_cons_of_neg Bool.false_ne_true, ih, elementCountAll, elementCount, zero_add]

theorem elementCountAll_joinText (c : WsXmlNode) (l : List WsXmlNode) :
    elementCountAll (joinText c l) = c.elementCount + elementCountAll l := by
  cases c with
  | element ns name attrs content => rw [joinText, elementCountAll]
  | text s =>
    rw [joinText, elementCount, zero_add]
    split
    · rfl
    rw [prependText.eq_def]
    split
    · rw [elementCountAll, elementCountAll, elementCount, elementCount]
    · rw [elementCountAll, elementCount, zero_add]

mutual

theorem elementCount_joined : ∀ n : WsXmlNode, n.joined.elementCount = n.elementCount
  | .element ns name attrs content => by
    rw [joined_element, elementCount, elementCount, elementCountAll_joinedAll content]
  | .text s => by rw [joined_text]

theorem elementCountAll_joinedAll :
    ∀ l : List WsXmlNode, elementCountAll (joinedAll l) = elementCountAll l
  | [] => by rw [joinedAll]
  | c :: cs => by
    rw [joinedAll, elementCountAll_joinText, elementCount_joined c, elementCountAll_joinedAll cs,
      elementCountAll]

end

theorem eq_nil_of_elementCountAll_eq_zero (h : ∀ c ∈ l, c.isElement = true)
    (hzero : elementCountAll l = 0) : l = [] := by
  cases l with
  | nil => rfl
  | cons c l =>
    rw [elementCountAll, Nat.add_eq_zero_iff] at hzero
    cases c with
    | element ns name attrs content => cases hzero.1
    | text s => cases h _ mem_cons_self

theorem elementCountAll_elements {n : WsXmlNode} (h : n.isElement = true) :
    elementCountAll n.elements + 1 = n.elementCount := by
  cases n with
  | element ns name attrs content => rw [elements, elementCountAll_filter, elementCount]; rfl
  | text s => cases h

/-! ## Documents as they are read -/

/-- `ws_xml_get_attr_value`. Without a namespace it is `xmlGetProp`, which takes the first attribute
with the local name in whatever namespace. -/
def attrRead (attrs : List WsXmlAttr) (a : WsXmlAttr) : String :=
  (attrs.find? fun b ↦ b.name == a.name && (a.nsUri.isNone || b.nsUri == a.nsUri)).elim ""
    WsXmlAttr.value

mutual

def asRead : WsXmlNode → WsXmlNode
  | .element ns name attrs content =>
    .element ns name (attrs.map fun a ↦ { a with value := attrRead attrs a }) (asReadAll content)
  | .text chars => .text chars

def asReadAll : List WsXmlNode → List WsXmlNode
  | [] => []
  | c :: cs => c.asRead :: asReadAll cs

end

mutual

def unmixed : WsXmlNode → Bool
  | .element _ _ _ content =>
    content.all isElement && unmixedAll content || !content.any isElement
  | .text _ => true

def unmixedAll : List WsXmlNode → Bool
  | [] => true
  | c :: cs => c.unmixed && unmixedAll cs

end

theorem asReadAll_of_texts {content : List WsXmlNode} (h : content.any isElement = false) :
    asReadAll content = content := by
  induction content with
  | nil => rfl
  | cons c cs ih =>
    rw [any_cons, or_eq_false_iff] at h
    cases c with
    | element ns name attrs content => cases h.1
    | text s => rw [asReadAll, asRead, ih h.2]

theorem any_asReadAll (content : List WsXmlNode) :
    (asReadAll content).any isElement = content.any isElement := by
  induction content with
  | nil => rfl
  | cons c cs ih => cases c <;> simp [asReadAll, asRead, isElement, ih]

end WsXmlNode

/-! ## Copies -/

namespace Libxml

open WsXmlNode

variable (lx : Libxml)

/-- The attributes of the root are not copied. -/
def duplicateDoc : WsXmlNode → WsXmlNode
  | .element ns name _ content => .element ns name [] (lx.duplicateChildren content)
  | .text chars => .text chars

theorem duplicateChildren_eq_map (l : List WsXmlNode) :
    lx.duplicateChildren l = (l.filter isElement).map lx.duplicateTree := by
  induction l with
  | nil => rw [duplicateChildren]; rfl
  | cons c l ih =>
    rw [duplicateChildren, filter_cons]
    split
    · rw [ih, map_cons]
    · exact ih

theorem isElement_duplicateTree (n : WsXmlNode) :
    (lx.duplicateTree n).isElement = n.isElement := by
  cases n with
  | element ns name attrs content => rw [duplicateTree]; rfl
  | text s => rw [duplicateTree]

variable {content : List WsXmlNode}

theorem filter_isElement_eq_nil (h : content.any isElement = false) :
    content.filter isElement = [] := by
  rw [filter_eq_nil_iff]
  intro c hc hc'
  exact false_ne_true (h.symm.trans (any_eq_true.mpr ⟨c, hc, hc'⟩))

theorem duplicateTree_of_texts (ns : Option String) (name : String) (attrs : List WsXmlAttr)
    (h : content.any isElement = false) :
    lx.duplicateTree (.element ns name attrs content) =
      .element ns name attrs [.text (lx.kept (charsAll content))] := by
  rw [duplicateTree, duplicateChildren_eq_map, filter_isElement_eq_nil h]
  rfl

theorem duplicateTree_of_elements (ns : Option String) (name : String) (attrs : List WsXmlAttr)
    (h : content.any isElement = true) :
    lx.duplicateTree (.element ns name attrs content) =
      .element ns name attrs (lx.duplicateChildren content) := by
  obtain ⟨c, hc, hc'⟩ := List.any_eq_true.mp h
  have hmem : lx.duplicateTree c ∈ lx.duplicateChildren content := by
    rw [duplicateChildren_eq_map]
    exact mem_map_of_mem (mem_filter.mpr ⟨hc, hc'⟩)
  rw [duplicateTree, if_neg]
  rw [List.isEmpty_iff]
  exact ne_nil_of_mem hmem

mutual

theorem elementCount_duplicateTree :
    ∀ n : WsXmlNode, (lx.duplicateTree n).elementCount = n.elementCount
  | .element ns name attrs content => by
    cases h : content.any isElement with
    | true =>
      rw [lx.duplicateTree_of_elements ns name attrs h, elementCount, elementCount,
        elementCountAll_duplicateChildren content]
    | false =>
      rw [lx.duplicateTree_of_texts ns name attrs h, elementCount, elementCount,
        ← elementCountAll_filter content, filter_isElement_eq_nil h]
      rfl
  | .text s => by rw [duplicateTree]

theorem elementCountAll_duplicateChildren :
    ∀ l : List WsXmlNode, elementCountAll (lx.duplicateChildren l) = elementCountAll l
  | [] => by rw [duplicateChildren]
  | c :: cs => by
    rw [duplicateChildren, elementCountAll]
    split
    · rw [elementCountAll, elementCount_duplicateTree c, elementCountAll_duplicateChildren cs]
    next hc =>
    rw [elementCountAll_duplicateChildren cs]
    cases c with
    | element ns name attrs content => exact absurd rfl hc
    | text s => rw [elementCount, zero_add]

end

mutual

theorem joined_duplicateTree : ∀ n : WsXmlNode, n.isElement = true → n.plain = true →
    (lx.duplicateTree n).joined = n.joined ∧ (lx.duplicateTree n).plain = true
  | .element ns name attrs content => by
    intro _ hplain
    rw [plain] at hplain
    cases h : content.any isElement with
    | true =>
      rw [h, if_pos rfl] at hplain
      obtain ⟨hjoined, hcopies⟩ := joined_duplicateChildren content hplain
      have htexts : ∀ c ∈ content, c.isElement = false → c = .text "" := by
        intro c hc hc'
        have hc'' := plainAll_iff.mp hplain c hc
        cases c with
        | element ns name attrs content => cases hc'
        | text s => rw [plain, beq_iff_eq] at hc''; rw [hc'']
      have hany : (lx.duplicateChildren content).any isElement = true := by
        obtain ⟨c, hc, hc'⟩ := any_eq_true.mp h
        refine any_eq_true.mpr ⟨lx.duplicateTree c, ?_, ?_⟩
        · rw [duplicateChildren_eq_map]
          exact mem_map_of_mem (mem_filter.mpr ⟨hc, hc'⟩)
        · rw [isElement_duplicateTree]
          exact hc'
      rw [lx.duplicateTree_of_elements ns name attrs h, joined_element, joined_element,
        joinedAll_of_empty_texts htexts, ← hjoined, plain, if_pos hany]
      refine ⟨?_, hcopies⟩
      rw [joinedAll_of_elements]
      intro c hc
      rw [duplicateChildren_eq_map, mem_map] at hc
      obtain ⟨d, hd, rfl⟩ := hc
      rw [isElement_duplicateTree]
      exact (mem_filter.mp hd).2
    | false =>
      rw [h, if_neg Bool.false_ne_true] at hplain
      have hamp : '&' ∉ (charsAll content).toList := by simpa using hplain
      have htexts : ∀ c ∈ content, c.isElement = false := by
        intro c hc
        exact eq_false_iff.mpr (filter_eq_nil_iff.mp (filter_isElement_eq_nil h) c hc)
      rw [lx.duplicateTree_of_texts ns name attrs h, lx.kept_of_not_mem hamp, joined_element,
        joined_element, joinedAll_of_texts htexts, joinedAll_of_texts (by simp [isElement])]
      have hchars : charsAll [text (charsAll content)] = charsAll content := by
        rw [charsAll, chars, charsAll, String.append_empty]
      rw [hchars, plain, hchars]
      exact ⟨rfl, hplain⟩
  | .text s => by
    intro h
    cases h

theorem joined_duplicateChildren : ∀ l : List WsXmlNode, plainAll l = true →
    (lx.duplicateChildren l).map joined = (l.filter isElement).map joined ∧
      plainAll (lx.duplicateChildren l) = true
  | [] => by
    intro _
    rw [duplicateChildren]
    exact ⟨rfl, by rw [plainAll]⟩
  | c :: cs => by
    intro hplain
    rw [plainAll, and_eq_true] at hplain
    obtain ⟨ihjoined, ihplain⟩ := joined_duplicateChildren cs hplain.2
    rw [duplicateChildren, filter_cons]
    split
    · next hc =>
      obtain ⟨hjoined, hcopy⟩ := joined_duplicateTree c hc hplain.1
      rw [map_cons, map_cons, hjoined, ihjoined, plainAll, hcopy, ihplain]
      exact ⟨rfl, rfl⟩
    · exact ⟨ihjoined, ihplain⟩

end

/-! ## Copies of documents -/

mutual

/-- Every attribute is read with its own value, and libxml2 keeps every text. -/
def keepsAll : WsXmlNode → Bool
  | .element _ _ attrs content =>
    attrs.all (fun a ↦ attrRead attrs a == a.value) &&
      if content.any isElement then keepsAllOf content
      else lx.kept (charsAll content) == charsAll content
  | .text _ => true

def keepsAllOf : List WsXmlNode → Bool
  | [] => true
  | c :: cs => keepsAll c && keepsAllOf cs

end

theorem map_attrRead_iff (attrs l : List WsXmlAttr) :
    l.map (fun a ↦ { a with value := attrRead attrs a }) = l ↔
      l.all (fun a ↦ attrRead attrs a == a.value) = true := by
  induction l with
  | nil => simp
  | cons a l ih =>
    rw [map_cons, cons.injEq, ih, all_cons, and_eq_true, beq_iff_eq]
    refine and_congr_left fun _ ↦ ⟨fun h ↦ congrArg WsXmlAttr.value h, fun h ↦ ?_⟩
    rw [h]

theorem joinedAll_kept_iff (h : content.any isElement = false) :
    joinedAll [.text (lx.kept (charsAll content))] = joinedAll content ↔
      lx.kept (charsAll content) = charsAll content := by
  have htexts : ∀ c ∈ content, c.isElement = false := fun c hc ↦
    eq_false_iff.mpr (filter_eq_nil_iff.mp (filter_isElement_eq_nil h) c hc)
  rw [joinedAll_of_texts htexts, joinedAll_of_texts (by simp [isElement]), charsAll, chars,
    charsAll, String.append_empty]
  split <;> split <;> simp_all

mutual

theorem joined_duplicateTree_iff : ∀ n : WsXmlNode, n.isElement = true → n.unmixed = true →
    ((lx.duplicateTree n.asRead).joined = n.joined ↔ lx.keepsAll n = true)
  | .element ns name attrs content => by
    intro _ hn
    rw [unmixed] at hn
    rw [asRead, keepsAll, and_eq_true, ← map_attrRead_iff, joined_element]
    cases h : content.any isElement with
    | true =>
      rw [h, Bool.not_true, Bool.or_false, Bool.and_eq_true, all_eq_true] at hn
      rw [lx.duplicateTree_of_elements _ _ _ (by rw [any_asReadAll, h]), joined_element, if_pos rfl,
        ← joined_duplicateChildren_iff content hn.1 hn.2]
      simp
    | false =>
      rw [lx.duplicateTree_of_texts _ _ _ (by rw [any_asReadAll, h]), asReadAll_of_texts h,
        joined_element, if_neg Bool.false_ne_true, beq_iff_eq, ← joinedAll_kept_iff lx h]
      simp
  | .text s => by
    intro h
    cases h

theorem joined_duplicateChildren_iff : ∀ l : List WsXmlNode, (∀ c ∈ l, c.isElement = true) →
    unmixedAll l = true → (joinedAll (lx.duplicateChildren (asReadAll l)) = joinedAll l ↔
      lx.keepsAllOf l = true)
  | [] => by simp [duplicateChildren, asReadAll, keepsAllOf]
  | .text s :: cs => by
    intro h
    cases h (.text s) mem_cons_self
  | .element ns name attrs content :: cs => by
    intro h hn
    obtain ⟨hc, hcs⟩ := forall_mem_cons.mp h
    rw [unmixedAll, and_eq_true] at hn
    rw [keepsAllOf, and_eq_true, ← joined_duplicateTree_iff _ hc hn.1,
      ← joined_duplicateChildren_iff cs hcs hn.2, asReadAll, asRead, duplicateChildren,
      if_pos (by rw [isElement]), joinedAll, joinedAll, duplicateTree, joined_element,
      joined_element]
    simp [joinText]

end

/-- **The copy of a document is equal to it exactly if its root has neither attributes nor a text**,
and everything below is kept. -/
theorem joined_duplicateDoc_iff {ns : Option String} {name : String} {attrs : List WsXmlAttr}
    (h : (WsXmlNode.element ns name attrs content).unmixed = true) :
    (lx.duplicateDoc (WsXmlNode.element ns name attrs content).asRead).joined =
        (WsXmlNode.element ns name attrs content).joined ↔
      attrs = [] ∧ if content.any isElement then lx.keepsAllOf content = true
        else charsAll content = "" := by
  rw [asRead, duplicateDoc, joined_element, joined_element]
  rw [unmixed] at h
  cases hany : content.any isElement with
  | true =>
    rw [hany, Bool.not_true, Bool.or_false, Bool.and_eq_true, all_eq_true] at h
    rw [if_pos rfl, ← joined_duplicateChildren_iff lx content h.1 h.2]
    simp [eq_comm]
  | false =>
    have htexts : ∀ c ∈ content, c.isElement = false := fun c hc ↦
      eq_false_iff.mpr (filter_eq_nil_iff.mp (filter_isElement_eq_nil hany) c hc)
    rw [asReadAll_of_texts hany, duplicateChildren_eq_map, filter_isElement_eq_nil hany,
      map_nil, joinedAll, joinedAll_of_texts htexts, if_neg Bool.false_ne_true]
    by_cases hchars : charsAll content = "" <;> simp [hchars, eq_comm]

def labelledRoot (attrs : List WsXmlAttr) : WsXmlNode :=
  .element (some "urn:x") "r" attrs [.element none "c" [⟨none, "id", "1"⟩] [.text "t"]]

theorem joined_duplicateDoc_labelledRoot :
    (keepsText.duplicateDoc (labelledRoot []).asRead).joined = (labelledRoot []).joined :=
  (keepsText.joined_duplicateDoc_iff (by decide)).mpr ⟨rfl, by decide⟩

theorem joined_duplicateDoc_labelledRoot_ne :
    (keepsText.duplicateDoc (labelledRoot [⟨none, "id", "0"⟩]).asRead).joined ≠
      (labelledRoot [⟨none, "id", "0"⟩]).joined := by
  intro h
  exact absurd (congrArg WsXmlNode.attrs h) (by decide)

end Libxml

end Openwsman
