import Openwsman.Libc.Memory
import Openwsman.Xml.Copy

/-!
# Attributes

`xml_parser_attr_add` looks for a declaration of the namespace, or for the default namespace if none
is given, and declares it at the root if there is none. An attribute that the element has already is
removed first, and `xml_parser_attr_remove` is wrong in two ways: it cuts the element off from its
parent and its next sibling, which are not those of the attribute, and it frees the attribute twice.
-/

namespace Openwsman

open List WsXmlNode

/-! ## Removing -/

structure XmlElement where
  parent : Option ℕ
  next : Option ℕ
  properties : List ℕ

structure XmlProp where
  parent : ℕ
  nsUri : Option String
  name : String

/-- Elements and attributes by their addresses. There is nothing at the address of an attribute that
was freed. -/
structure XmlHeap where
  element : ℕ → XmlElement
  prop : ℕ → Option XmlProp

namespace XmlHeap

variable (h : XmlHeap)

/-- The attribute is taken out of the list of the element, and the element is given neither a parent
nor a next sibling. -/
def unlinkProp (a e : ℕ) : XmlHeap where
  element n := if n = e then ⟨none, none, (h.element e).properties.erase a⟩ else h.element n
  prop := h.prop

def freeProp (a : ℕ) : CResult XmlHeap :=
  if (h.prop a).isSome then .value { h with prop := fun b ↦ if b = a then none else h.prop b }
  else .undefined

/-- `destroy_attr_private_data` is given the attribute itself, and then `xmlFreeProp`. -/
def xmlParserAttrRemove (a : ℕ) : CResult XmlHeap :=
  match h.prop a with
  | none => .undefined
  | some attr => ((h.unlinkProp a attr.parent).freeProp a).bind fun h ↦ h.freeProp a

def findNodeAttr (e : ℕ) (nsUri : Option String) (name : String) : Option ℕ :=
  (h.element e).properties.find? fun a ↦
    (h.prop a).any fun attr ↦ attr.nsUri == nsUri && attr.name == name

def xmlParserAttrAdd (newProp : XmlHeap → CResult XmlHeap) (e : ℕ) (nsUri : Option String)
    (name : String) : CResult XmlHeap :=
  match h.findNodeAttr e nsUri name with
  | some a => (h.xmlParserAttrRemove a).bind newProp
  | none => newProp h

def ChangedOnly (a : ℕ) (h' : XmlHeap) : Prop :=
  (∀ n, (h'.element n).parent = (h.element n).parent ∧
    (h'.element n).next = (h.element n).next) ∧
    ∀ b, b ≠ a → (h.prop b).isSome → h'.prop b = h.prop b

theorem xmlParserAttrRemove_eq_undefined (a : ℕ) : h.xmlParserAttrRemove a = .undefined := by
  rw [xmlParserAttrRemove]
  cases hprop : h.prop a with
  | none => rfl
  | some attr => simp [freeProp, unlinkProp, hprop]

/-- **No attribute can be removed or replaced.** Whatever attribute of an element it is, its memory
is freed twice; and already before that the element has lost its place. -/
theorem attr_never_changed_alone {a : ℕ} {attr : XmlProp} (hprop : h.prop a = some attr)
    (hmem : a ∈ (h.element attr.parent).properties)
    (hparent : (h.element attr.parent).parent ≠ none) :
    (¬∃ h', h.xmlParserAttrRemove a = .value h' ∧ h.ChangedOnly a h') ∧
      (∀ newProp, ¬∃ h', h.xmlParserAttrAdd newProp attr.parent attr.nsUri attr.name = .value h' ∧
        h.ChangedOnly a h') ∧
      ¬h.ChangedOnly a (h.unlinkProp a attr.parent) := by
  refine ⟨?_, fun newProp ↦ ?_, fun hchanged ↦ ?_⟩
  · simp [xmlParserAttrRemove_eq_undefined]
  · have hfound : (h.findNodeAttr attr.parent attr.nsUri attr.name).isSome = true := by
      rw [findNodeAttr, find?_isSome]
      exact ⟨a, hmem, by simp [hprop]⟩
    obtain ⟨b, hb⟩ := Option.isSome_iff_exists.mp hfound
    simp [xmlParserAttrAdd, hb, xmlParserAttrRemove_eq_undefined]
  · have hlost := (hchanged.1 attr.parent).1
    simp only [unlinkProp, if_pos] at hlost
    exact hparent hlost.symm

def oneProp : XmlHeap where
  element _ := ⟨some 0, none, [7]⟩
  prop a := if a = 7 then some ⟨1, none, "id"⟩ else none

theorem oneProp_never_replaced :
    ¬∃ h', oneProp.xmlParserAttrAdd .value 1 none "id" = .value h' ∧ oneProp.ChangedOnly 7 h' := by
  have hprop : oneProp.prop 7 = some ⟨1, none, "id"⟩ := rfl
  exact (oneProp.attr_never_changed_alone hprop (by decide) (by decide)).2.1 .value

theorem oneProp_not_removed :
    ¬∃ h', oneProp.xmlParserAttrRemove 7 = .value h' ∧ oneProp.ChangedOnly 7 h' := by
  rintro ⟨h', hvalue, -⟩
  cases hvalue

end XmlHeap

/-! ## Adding -/

structure XmlNs where
  pfx : Option String
  href : String
  deriving DecidableEq

def wsXmlMakeDefaultPrefix (uri : String) (prefixIndex : ℕ) : String × ℕ :=
  match wsNsData.lookup uri with
  | some pfx => (pfx, prefixIndex)
  | none => ("n" ++ toString (prefixIndex + 1), prefixIndex + 1)

theorem not_mem_href {scope : List XmlNs} {uri : String}
    (h : scope.find? (·.href == uri) = none) : uri ∉ scope.map XmlNs.href := by
  intro hmem
  obtain ⟨ns, hns, hhref⟩ := mem_map.mp hmem
  exact find?_eq_none.mp h ns hns (by simp [hhref])

/-- An element with its attributes, and what is declared on it and on its ancestors, the root being
the last of them. -/
structure AttrDoc where
  attrs : List WsXmlAttr
  inner : List XmlNs
  root : List XmlNs
  prefixIndex : ℕ

namespace AttrDoc

variable (d : AttrDoc)

/-- Nothing is added without a URI. `xmlNewNs` refuses a prefix that the root declares already, and
it declares nothing for the namespace of XML itself. -/
def xmlParserNsFind : Option String → Option XmlNs × AttrDoc
  | none => ((d.inner ++ d.root).find? (·.pfx.isNone), d)
  | some uri =>
    match (d.inner ++ d.root).find? (·.href == uri) with
    | some ns => (some ns, d)
    | none =>
      let (pfx, index) := wsXmlMakeDefaultPrefix uri d.prefixIndex
      let d := { d with prefixIndex := index }
      if pfx = "xml" ∧ uri = xmlNsXmlNamespaces then (some ⟨some pfx, uri⟩, d)
      else if some pfx ∈ d.root.map XmlNs.pfx then (none, d)
      else (some ⟨some pfx, uri⟩, { d with root := d.root ++ [⟨some pfx, uri⟩] })

def add (a : WsXmlAttr) : CResult AttrDoc :=
  let (ns, d) := d.xmlParserNsFind a.nsUri
  if (d.attrs.find? fun b ↦ b.nsUri == a.nsUri && b.name == a.name).isSome then .undefined
  else .value { d with attrs := d.attrs ++ [{ a with nsUri := ns.map XmlNs.href }] }

def addAll : List WsXmlAttr → AttrDoc → CResult AttrDoc
  | [], d => .value d
  | a :: as, d => (d.add a).bind (addAll as)

def value (uri : Option String) (name : String) : Option String :=
  (d.attrs.find? fun a ↦ a.nsUri == uri && a.name == name).map (attrRead d.attrs)

/-- What goes right when an attribute is added: without a namespace no default namespace is in
scope, and the first attribute of the name, if there is one, has the same value. -/
def Admits (a : WsXmlAttr) : Prop :=
  match a.nsUri with
  | none => (∀ ns ∈ d.inner ++ d.root, ns.pfx ≠ none) ∧
      (d.attrs.find? (·.name == a.name)).all (·.value == a.value) = true
  | some uri => uri = xmlNsXmlNamespaces ∨ uri ∈ (d.inner ++ d.root).map XmlNs.href ∨
      some (wsXmlMakeDefaultPrefix uri d.prefixIndex).1 ∉ d.root.map XmlNs.pfx

def AdmitsAll : List WsXmlAttr → AttrDoc → Prop
  | [], _ => True
  | a :: as, d => d.Admits a ∧ ∀ d', d.add a = .value d' → AdmitsAll as d'

variable {d} {a : WsXmlAttr}

theorem xmlParserNsFind_spec (h : d.Admits a) : (d.xmlParserNsFind a.nsUri).1.map XmlNs.href =
    a.nsUri ∧ (d.xmlParserNsFind a.nsUri).2.attrs = d.attrs := by
  rw [Admits] at h
  cases huri : a.nsUri with
  | none =>
    rw [huri] at h
    have hfind : (d.inner ++ d.root).find? (·.pfx.isNone) = none :=
      find?_eq_none.mpr (by simpa using h.1)
    rw [xmlParserNsFind, hfind]
    exact ⟨rfl, rfl⟩
  | some uri =>
    rw [huri] at h
    rw [xmlParserNsFind]
    cases hfind : (d.inner ++ d.root).find? (·.href == uri) with
    | some ns => exact ⟨by simpa using find?_some hfind, rfl⟩
    | none =>
      have hnew := not_mem_href hfind
      dsimp only
      split_ifs with hxml hroot
      · exact ⟨rfl, rfl⟩
      · rcases h with rfl | h | h
        · have hknown : wsNsData.lookup xmlNsXmlNamespaces = some "xml" := by decide
          exact absurd ⟨by rw [wsXmlMakeDefaultPrefix, hknown], rfl⟩ hxml
        · exact absurd h hnew
        · exact absurd hroot h
      · exact ⟨rfl, rfl⟩

theorem add_eq_value (h : d.Admits a)
    (hnew : ∀ b ∈ d.attrs, ¬(b.nsUri = a.nsUri ∧ b.name = a.name)) :
    ∃ d', d.add a = .value d' ∧ d'.attrs = d.attrs ++ [a] := by
  obtain ⟨hns, hattrs⟩ := xmlParserNsFind_spec h
  have hfind : (d.attrs.find? fun b ↦ b.nsUri == a.nsUri && b.name == a.name) = none :=
    find?_eq_none.mpr (by simpa using hnew)
  rw [add]
  dsimp only
  rw [hattrs, hfind, hns]
  exact ⟨_, rfl, rfl⟩

def Readable (attrs : List WsXmlAttr) : Prop := ∀ a ∈ attrs, attrRead attrs a = a.value

theorem readable_append (h : d.Admits a) (hd : Readable d.attrs)
    (hnew : ∀ b ∈ d.attrs, ¬(b.nsUri = a.nsUri ∧ b.name = a.name)) :
    Readable (d.attrs ++ [a]) := by
  intro b hb
  rw [attrRead, find?_append]
  rcases mem_append.mp hb with hb | hb
  · -- an attribute that was there finds what it has found before
    have hsome : (d.attrs.find? fun c ↦
        c.name == b.name && (b.nsUri.isNone || c.nsUri == b.nsUri)).isSome = true := by
      rw [find?_isSome]
      exact ⟨b, hb, by simp⟩
    rw [Option.or_of_isSome hsome]
    exact hd b hb
  · obtain rfl := mem_singleton.mp hb
    cases hfind : d.attrs.find? fun c ↦
        c.name == b.name && (b.nsUri.isNone || c.nsUri == b.nsUri) with
    | none => simp
    | some c =>
      have hc := find?_some hfind
      rw [Admits] at h
      cases huri : b.nsUri with
      | none =>
        rw [huri] at h
        simp only [huri, Option.isNone_none, Bool.true_or, Bool.and_true] at hfind
        rw [hfind] at h
        simpa using h.2
      | some uri =>
        refine absurd ?_ (hnew c (mem_of_find?_eq_some hfind))
        simpa [huri, and_comm] using hc

theorem addAll_eq_value {as : List WsXmlAttr} (h : AdmitsAll as d) (hd : Readable d.attrs)
    (hnodup : ((d.attrs ++ as).map fun a ↦ (a.nsUri, a.name)).Nodup) :
    ∃ d', addAll as d = .value d' ∧ d'.attrs = d.attrs ++ as ∧ Readable d'.attrs := by
  induction as generalizing d with
  | nil => exact ⟨d, rfl, by simp, hd⟩
  | cons a as ih =>
    have hnew : ∀ b ∈ d.attrs, ¬(b.nsUri = a.nsUri ∧ b.name = a.name) := by
      rw [map_append, map_cons, nodup_append] at hnodup
      intro b hb hkey
      exact hnodup.2.2 _ (mem_map_of_mem hb) _ mem_cons_self (Prod.ext hkey.1 hkey.2)
    obtain ⟨d₁, hd₁, hattrs⟩ := add_eq_value h.1 hnew
    obtain ⟨d₂, hd₂, hattrs₂, hread⟩ := ih (h.2 d₁ hd₁)
      (hattrs ▸ readable_append h.1 hd hnew) (by rwa [hattrs, ← append_cons])
    refine ⟨d₂, ?_, ?_, hread⟩
    · rw [addAll, hd₁]
      exact hd₂
    · rw [hattrs₂, hattrs, ← append_cons]

/-- **Attributes form a map from their names to their values**, if everything goes right when they
are added. -/
theorem value_addAll {as : List WsXmlAttr} (hnone : d.attrs = []) (h : AdmitsAll as d)
    (hnodup : (as.map fun a ↦ (a.nsUri, a.name)).Nodup) :
    ∃ d', addAll as d = .value d' ∧ ∀ uri name, d'.value uri name =
      (as.find? fun a ↦ a.nsUri == uri && a.name == name).map WsXmlAttr.value := by
  obtain ⟨d', hd', hattrs, hread⟩ := addAll_eq_value h (by simp [hnone, Readable])
    (by simpa [hnone] using hnodup)
  rw [hnone, nil_append] at hattrs
  subst hattrs
  refine ⟨d', hd', fun uri name ↦ ?_⟩
  rw [value]
  cases hfind : d'.attrs.find? fun a ↦ a.nsUri == uri && a.name == name with
  | none => rfl
  | some a => exact congrArg some (hread a (mem_of_find?_eq_some hfind))

def defaultScope : AttrDoc := ⟨[], [], [⟨none, "urn:d"⟩], 0⟩

theorem value_addAll_prefixed : ∃ d', addAll [⟨some "urn:x", "id", "1"⟩] defaultScope = .value d' ∧
    ∀ uri name, d'.value uri name = ([⟨some "urn:x", "id", "1"⟩].find? fun a : WsXmlAttr ↦
      a.nsUri == uri && a.name == name).map WsXmlAttr.value :=
  value_addAll rfl ⟨.inr (.inr (by decide)), fun _ _ ↦ trivial⟩ (by decide)

theorem not_value_addAll_default : ¬∃ d', addAll [⟨none, "id", "1"⟩] defaultScope = .value d' ∧
    ∀ uri name, d'.value uri name = ([⟨none, "id", "1"⟩].find? fun a : WsXmlAttr ↦
      a.nsUri == uri && a.name == name).map WsXmlAttr.value := by
  rintro ⟨d', hd', hvalue⟩
  cases hd'
  exact absurd (hvalue none "id") (by decide)

end AttrDoc

end Openwsman
