import Openwsman.Cim.Properties
import Openwsman.Xml.Attributes

/-!
# Adding elements

A new element needs a declaration of its namespace. `xml_parser_ns_find` takes the nearest one that
has the URI, whether or not its prefix is declared anew further in; if there is none, the namespace
is declared at the root, under a prefix that is fixed for the URI or made up from a counter. Other
declarations of this prefix are not looked for, except that `xmlNewNs` refuses one that the root
has. So a foreign document may get an element whose prefix stands for another namespace, or for none
at all, or the element is not added.

`ws_xml_add_child_sort` tries twice if it finds a place before another child, and the second time it
appends the element.
-/

namespace Openwsman

open List KeySort

/-! ## Documents with declarations -/

/-- An element: what is declared on it and on its ancestors below the root, the nearest first, the
prefix it is written with, and the namespace that this stood for when the document was read. -/
structure NsElement where
  inner : List XmlNs
  pfx : Option String
  uri : Option String

structure NsDoc where
  root : List XmlNs
  elements : List NsElement
  prefixIndex : ℕ

/-- The namespace of a prefix: that of its nearest declaration, none if this is empty. The prefix
`xml` needs no declaration. -/
def bound (scope : List XmlNs) (pfx : Option String) : Option String :=
  if pfx = some "xml" then some xmlNsXmlNamespaces
  else ((scope.find? (·.pfx == pfx)).map XmlNs.href).filter (· ≠ "")

namespace NsDoc

variable (d : NsDoc)

/-- A document is written with its declarations and prefixes, and when it is read again every
element has its namespace. -/
def Parsed : Prop := ∀ e ∈ d.elements, bound (e.inner ++ d.root) e.pfx = e.uri

def scopeOf (base : NsElement) : AttrDoc := ⟨[], base.inner, d.root, d.prefixIndex⟩

/-- `xml_parser_node_add` with `XML_LAST_CHILD`: the document and the new element. -/
def xmlParserNodeAdd (base : NsElement) (uri : String) : Option (NsDoc × NsElement) :=
  let (ns, scope) := (d.scopeOf base).xmlParserNsFind (some uri)
  ns.map fun ns ↦
    let new := ⟨base.inner, ns.pfx, some ns.href⟩
    (⟨scope.root, d.elements ++ [new], scope.prefixIndex⟩, new)

/-- When an element can be added: the prefix of the declaration that is found stands for the
namespace, or the prefix that is made up is new to the place and to all elements that are written
with it. -/
def AdmitsChild (base : NsElement) (uri : String) : Prop :=
  let scope := base.inner ++ d.root
  let pfx := some (wsXmlMakeDefaultPrefix uri d.prefixIndex).1
  match scope.find? (·.href == uri) with
  | some ns => bound scope ns.pfx = some uri
  | none => uri = xmlNsXmlNamespaces ∨ (uri ≠ "" ∧ pfx ∉ scope.map XmlNs.pfx ∧
      ∀ e ∈ d.elements, e.pfx = pfx → pfx ∈ e.inner.map XmlNs.pfx)

end NsDoc

/-! ## Prefixes -/

variable {scope : List XmlNs}

theorem find?_pfx_eq_none {pfx : Option String}
    (h : pfx ∉ scope.map XmlNs.pfx) : scope.find? (·.pfx == pfx) = none := by
  rw [find?_eq_none]
  intro ns hns hpfx
  exact h (mem_map.mpr ⟨ns, hns, by simpa using hpfx⟩)

/-- A declaration further out changes nothing for a prefix that is declared, nor for any other
one. -/
theorem bound_append {ns : XmlNs} {pfx : Option String}
    (h : pfx = ns.pfx → pfx ∈ scope.map XmlNs.pfx) :
    bound (scope ++ [ns]) pfx = bound scope pfx := by
  rw [bound, bound, find?_append]
  by_cases hmem : pfx ∈ scope.map XmlNs.pfx
  · obtain ⟨m, hm, hpfx⟩ := mem_map.mp hmem
    have hsome : (scope.find? (·.pfx == pfx)).isSome = true := by
      rw [find?_isSome]
      exact ⟨m, hm, by simp [hpfx]⟩
    rw [Option.or_of_isSome hsome]
  · have hne : (ns.pfx == pfx) = false := by
      rw [beq_eq_false_iff_ne]
      exact fun heq ↦ hmem (h heq.symm)
    rw [find?_singleton, hne, if_neg Bool.false_ne_true, Option.or_none]

theorem bound_append_new {pfx : String} (uri : String) (hxml : pfx ≠ "xml")
    (h : some pfx ∉ scope.map XmlNs.pfx) :
    bound scope (some pfx) = none ∧
      bound (scope ++ [⟨some pfx, uri⟩]) (some pfx) = if uri = "" then none else some uri := by
  have hne : (some pfx : Option String) ≠ some "xml" := fun heq ↦ hxml (Option.some.inj heq)
  rw [bound, bound, if_neg hne, if_neg hne, find?_append, find?_pfx_eq_none h]
  refine ⟨rfl, ?_⟩
  by_cases huri : uri = "" <;> simp [huri]

theorem mem_of_bound {pfx uri : String} (hxml : pfx ≠ "xml")
    (h : bound scope (some pfx) = some uri) : uri ∈ scope.map XmlNs.href := by
  rw [bound, if_neg fun heq ↦ hxml (Option.some.inj heq)] at h
  obtain ⟨ns, hns, rfl⟩ := Option.map_eq_some_iff.mp (Option.filter_eq_some_iff.mp h).1
  exact mem_map_of_mem (mem_of_find?_eq_some hns)

theorem eq_xml_of_wsXmlMakeDefaultPrefix {uri : String} {index : ℕ}
    (h : (wsXmlMakeDefaultPrefix uri index).1 = "xml") : uri = xmlNsXmlNamespaces := by
  rw [wsXmlMakeDefaultPrefix] at h
  cases hlookup : wsNsData.lookup uri with
  | none =>
    rw [hlookup] at h
    have hhead := congrArg String.toList h
    simp at hhead
  | some pfx =>
    rw [hlookup] at h
    obtain rfl : pfx = "xml" := h
    obtain ⟨l, r, hdata, -⟩ := List.lookup_eq_some_iff.mp hlookup
    have hmem : (uri, "xml") ∈ wsNsData := hdata ▸ by simp
    have hdata : ∀ e ∈ wsNsData, e.2 = "xml" → e.1 = xmlNsXmlNamespaces := by decide
    exact hdata _ hmem rfl

namespace NsDoc

variable {d : NsDoc} {base : NsElement} {uri : String}

theorem xmlParserNsFind_of_none (h : (base.inner ++ d.root).find? (·.href == uri) = none)
    {pfx : String} {index : ℕ} (hmade : wsXmlMakeDefaultPrefix uri d.prefixIndex = (pfx, index)) :
    (d.scopeOf base).xmlParserNsFind (some uri) =
      if pfx = "xml" ∧ uri = xmlNsXmlNamespaces then
        (some ⟨some pfx, uri⟩, ⟨[], base.inner, d.root, index⟩)
      else if some pfx ∈ d.root.map XmlNs.pfx then (none, ⟨[], base.inner, d.root, index⟩)
      else (some ⟨some pfx, uri⟩, ⟨[], base.inner, d.root ++ [⟨some pfx, uri⟩], index⟩) := by
  rw [scopeOf, AttrDoc.xmlParserNsFind, h]
  dsimp only
  rw [hmade]

/-- That an element is added as it should be, in terms of the declaration it refers to. -/
theorem added_iff {ns : XmlNs} {scope : AttrDoc}
    (hfind : (d.scopeOf base).xmlParserNsFind (some uri) = (some ns, scope))
    (hhref : ns.href = uri) :
    (∃ d' new, d.xmlParserNodeAdd base uri = some (d', new) ∧
      bound (new.inner ++ d'.root) new.pfx = some uri ∧ d'.Parsed) ↔
      (∀ e ∈ d.elements, bound (e.inner ++ scope.root) e.pfx = e.uri) ∧
        bound (base.inner ++ scope.root) ns.pfx = some uri := by
  simp only [xmlParserNodeAdd, hfind, Option.map_some, Option.some.injEq, Prod.mk.injEq]
  constructor
  · rintro ⟨d', new, ⟨rfl, rfl⟩, hbound, hd'⟩
    exact ⟨fun e he ↦ hd' e (mem_append_left _ he), hbound⟩
  · rintro ⟨hall, hbound⟩
    refine ⟨_, _, ⟨rfl, rfl⟩, hbound, fun e he ↦ ?_⟩
    rcases mem_append.mp he with he | he
    · exact hall e he
    · rw [mem_singleton.mp he, hhref]
      exact hbound

/-- What declaring a prefix at the root means for the new element and the others. -/
theorem declared_iff (hd : d.Parsed) {pfx : String} (hxml : pfx ≠ "xml")
    (hroot : some pfx ∉ d.root.map XmlNs.pfx) (huri : uri ∉ (base.inner ++ d.root).map XmlNs.href) :
    ((∀ e ∈ d.elements, bound (e.inner ++ (d.root ++ [⟨some pfx, uri⟩])) e.pfx = e.uri) ∧
      bound (base.inner ++ (d.root ++ [⟨some pfx, uri⟩])) (some pfx) = some uri) ↔
      uri ≠ "" ∧ some pfx ∉ (base.inner ++ d.root).map XmlNs.pfx ∧
        ∀ e ∈ d.elements, e.pfx = some pfx → some pfx ∈ e.inner.map XmlNs.pfx := by
  simp only [← append_assoc]
  constructor
  · rintro ⟨hall, hbound⟩
    have hnew : some pfx ∉ (base.inner ++ d.root).map XmlNs.pfx := by
      intro hmem
      rw [bound_append fun _ ↦ hmem] at hbound
      exact huri (mem_of_bound hxml hbound)
    have hne : uri ≠ "" := by
      rintro rfl
      rw [(bound_append_new _ hxml hnew).2, if_pos rfl] at hbound
      cases hbound
    refine ⟨hne, hnew, fun e he hpfx ↦ ?_⟩
    by_contra hinner
    -- the element had no namespace, and now it has the new one
    have hscope : some pfx ∉ (e.inner ++ d.root).map XmlNs.pfx := by
      rw [map_append, mem_append, not_or]
      exact ⟨hinner, hroot⟩
    obtain ⟨hbefore, hafter⟩ := bound_append_new uri hxml hscope
    have hsame := (hall e he).trans (hd e he).symm
    rw [hpfx, hbefore, hafter, if_neg hne] at hsame
    cases hsame
  · rintro ⟨hne, hnew, hall⟩
    refine ⟨fun e he ↦ ?_, ?_⟩
    · rw [bound_append fun hpfx ↦ ?_, hd e he]
      rw [map_append, mem_append, hpfx]
      exact .inl (hall e he hpfx)
    · rw [(bound_append_new _ hxml hnew).2, if_neg hne]

/-- **An element can be added exactly under the condition.** Then its prefix stands for its
namespace, and all elements keep theirs. -/
theorem xmlParserNodeAdd_iff (hd : d.Parsed) (base : NsElement) (uri : String) :
    (∃ d' new, d.xmlParserNodeAdd base uri = some (d', new) ∧
      bound (new.inner ++ d'.root) new.pfx = some uri ∧ d'.Parsed) ↔ d.AdmitsChild base uri := by
  rw [AdmitsChild]
  cases hfind : (base.inner ++ d.root).find? (·.href == uri) with
  | some ns =>
    have hhref : ns.href = uri := by simpa using find?_some hfind
    rw [added_iff (by rw [scopeOf, AttrDoc.xmlParserNsFind, hfind]) hhref]
    exact and_iff_right hd
  | none =>
    rcases hmade : wsXmlMakeDefaultPrefix uri d.prefixIndex with ⟨pfx, index⟩
    have hfound := xmlParserNsFind_of_none hfind hmade
    dsimp only
    by_cases hxml : uri = xmlNsXmlNamespaces
    · subst hxml
      obtain rfl : "xml" = pfx := congrArg Prod.fst hmade
      rw [if_pos ⟨rfl, rfl⟩] at hfound
      simp only [added_iff hfound rfl, true_or, iff_true]
      exact ⟨hd, if_pos rfl⟩
    rw [if_neg fun h ↦ hxml h.2] at hfound
    rw [or_iff_right hxml]
    have hpfx : pfx ≠ "xml" := by
      rintro rfl
      exact hxml (eq_xml_of_wsXmlMakeDefaultPrefix (congrArg Prod.fst hmade))
    by_cases hroot : some pfx ∈ d.root.map XmlNs.pfx
    · rw [if_pos hroot] at hfound
      simp [xmlParserNodeAdd, hfound, hroot]
    · rw [if_neg hroot] at hfound
      exact (added_iff hfound rfl).trans (declared_iff hd hpfx hroot (not_mem_href hfind))

def takenPrefix : NsDoc := ⟨[⟨some "wsman", "urn:x"⟩], [⟨[], none, none⟩], 0⟩

theorem parsed_takenPrefix : takenPrefix.Parsed := by
  intro e he
  rw [mem_singleton.mp he]
  rfl

theorem xmlParserNodeAdd_takenPrefix : takenPrefix.Parsed ∧ ¬∃ d' new,
    takenPrefix.xmlParserNodeAdd ⟨[], none, none⟩ xmlNsWsMan = some (d', new) ∧
      bound (new.inner ++ d'.root) new.pfx = some xmlNsWsMan ∧ d'.Parsed := by
  refine ⟨parsed_takenPrefix, ?_⟩
  rintro ⟨d', new, hadd, -⟩
  cases hadd

theorem xmlParserNodeAdd_declared : ∃ d' new,
    takenPrefix.xmlParserNodeAdd ⟨[], none, none⟩ "urn:x" = some (d', new) ∧
      bound (new.inner ++ d'.root) new.pfx = some "urn:x" ∧ d'.Parsed :=
  (xmlParserNodeAdd_iff parsed_takenPrefix ⟨[], none, none⟩ "urn:x").mpr rfl

end NsDoc

/-! ## Sorted insertion -/

structure SortedParent extends AttrDoc where
  children : List WsXmlNode

namespace SortedParent

variable (e : SortedParent)

/-- Whether `make_new_xml_node` makes the element, and the declarations after it has tried. -/
def makeNewXmlNode (d : AttrDoc) (new : WsXmlNode) : Bool × AttrDoc :=
  match new.nsUri with
  | none => (true, d)
  | some uri => ((d.xmlParserNsFind (some uri)).1.isSome, (d.xmlParserNsFind (some uri)).2)

/-- If the element cannot be made before a child, it is tried once more at the end. -/
def addChildSort (new : WsXmlNode) : SortedParent :=
  let (made, d) := makeNewXmlNode e.toAttrDoc new
  if made then ⟨d, wsXmlAddChildSort e.children new⟩
  else if e.children.any (strcmp new.name ·.name < 0) then
    let (made, d) := makeNewXmlNode d new
    ⟨d, if made then e.children ++ [new] else e.children⟩
  else ⟨d, e.children⟩

def AdmitsAll : List WsXmlNode → SortedParent → Prop
  | [], _ => True
  | new :: news, e => (new.nsUri = none ∨ e.Admits ⟨new.nsUri, new.name, ""⟩) ∧
      AdmitsAll news (e.addChildSort new)

variable {e}

theorem children_addChildSort {new : WsXmlNode}
    (h : new.nsUri = none ∨ e.Admits ⟨new.nsUri, new.name, ""⟩) :
    (e.addChildSort new).children = wsXmlAddChildSort e.children new := by
  have hmade : (makeNewXmlNode e.toAttrDoc new).1 = true := by
    rw [makeNewXmlNode]
    cases huri : new.nsUri with
    | none => rfl
    | some uri =>
      rw [huri] at h
      obtain ⟨ns, hns, -⟩ := Option.map_eq_some_iff.mp
        (AttrDoc.xmlParserNsFind_spec (h.resolve_left (Option.some_ne_none uri))).1
      exact Option.isSome_of_mem hns
  rw [addChildSort]
  dsimp only
  rw [hmade, if_pos rfl]

theorem children_foldl_addChildSort {news : List WsXmlNode} (h : AdmitsAll news e) :
    (news.foldl addChildSort e).children = news.foldl wsXmlAddChildSort e.children := by
  induction news generalizing e with
  | nil => rfl
  | cons new news ih => rw [foldl_cons, ih h.2, children_addChildSort h.1, foldl_cons]

theorem AdmitsAll.take {news : List WsXmlNode} (h : AdmitsAll news e) (n : ℕ) :
    AdmitsAll (news.take n) e := by
  induction news generalizing e n with
  | nil => rwa [take_nil]
  | cons new news ih =>
    cases n with
    | zero => trivial
    | succ n => exact ⟨h.1, ih h.2 n⟩

/-- **Sorted insertion sorts**, and it is stable: at any time the children are those that were
inserted, in the order of their names, and those of one name in the order of insertion. -/
theorem sorted_foldl_addChildSort (hempty : e.children = []) {news : List WsXmlNode}
    (h : AdmitsAll news e) (n : ℕ) :
    let children := ((news.take n).foldl addChildSort e).children
    Sorted WsXmlNode.name children ∧
      (∀ k, withKey WsXmlNode.name k children = withKey WsXmlNode.name k (news.take n)) ∧
      children.Perm (news.take n) := by
  have hnil : Sorted WsXmlNode.name ([] : List WsXmlNode) := Pairwise.nil
  obtain ⟨hsorted, hkey⟩ := foldl_wsXmlAddChildSort (news.take n) hnil
  simp only [children_foldl_addChildSort (h.take n), hempty]
  exact ⟨hsorted, hkey, perm_of_withKey_eq hkey⟩

def takenIndex : SortedParent := ⟨⟨[], [], [⟨some "n1", "urn:y"⟩], 0⟩, []⟩

def twoElements (uri : String) : List WsXmlNode :=
  [.element none "b" [] [], .element (some uri) "a" [] []]

/-- As `n1` is taken, `a` does not come before `b` but behind it, with the prefix `n2`. -/
theorem not_sorted_takenIndex :
    ¬Sorted WsXmlNode.name ((twoElements "urn:x").foldl addChildSort takenIndex).children := by
  intro h
  have hle : "b" ≤ "a" := rel_of_pairwise_cons h mem_cons_self
  exact absurd hle (by decide)

theorem sorted_takenIndex :
    Sorted WsXmlNode.name ((twoElements "urn:y").foldl addChildSort takenIndex).children := by
  have h : AdmitsAll (twoElements "urn:y") takenIndex :=
    ⟨.inl rfl, .inr (.inr (.inl (by decide))), trivial⟩
  exact (sorted_foldl_addChildSort rfl h 2).1

end SortedParent

end Openwsman
