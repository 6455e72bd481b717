import Openwsman.Lib.Search
import Openwsman.Xml.Node

/-!
# Changing documents

The source changes a document through the handles of its nodes. Here a change is a function of the
document: the first child with a name is changed where it is (`changeFirstChild`), a child is added
behind the others (`wsXmlAddChild`), and both are applied to what the accessors take for the header
and the body.

What is read from a changed document is described by `SameBut`: the element itself and its children
are as before, except those with some names, and what was added carries no attributes. The header of
an envelope may be its body, so `SameBut` holds of both.
-/

namespace Openwsman

open Bool List Search

namespace WsXmlNode

def mapContent (f : List WsXmlNode → List WsXmlNode) : WsXmlNode → WsXmlNode
  | element ns name attrs content => element ns name attrs (f content)
  | text chars => text chars

def isNamed (ns name : String) (n : WsXmlNode) : Bool :=
  n.isElement && wsXmlIsNodeQname n (some ns) (some name)

def tag (n : WsXmlNode) : Bool × Option String × String × List WsXmlAttr :=
  (n.isElement, n.nsUri, n.name, n.attrs)

end WsXmlNode

def wsXmlSetNodeText (text : String) (node : WsXmlNode) : WsXmlNode :=
  node.mapContent fun _ ↦ [.text text]

def wsXmlAddChild (ns name text : String) (node : WsXmlNode) : WsXmlNode :=
  node.mapContent (· ++ [.elem ns name [.text text]])

def changeFirstChild (ns name : String) (f : WsXmlNode → WsXmlNode) (node : WsXmlNode) :
    WsXmlNode :=
  node.mapContent (modifyFirst (WsXmlNode.isNamed ns name) f)

def changeSoapHeader (f : WsXmlNode → WsXmlNode) (root : WsXmlNode) : WsXmlNode :=
  match wsXmlGetSoapHeader root with
  | none => root
  | some _ => root.mapContent (modifyFirst WsXmlNode.isElement f)

def changeSoapBody (f : WsXmlNode → WsXmlNode) (root : WsXmlNode) : WsXmlNode :=
  match wsXmlGetSoapBody root with
  | none => root
  | some _ => root.mapContent (modifyFirst (isSoapBody root) f)

/-! ## One element -/

namespace WsXmlNode

@[simp] theorem tag_mapContent (f : List WsXmlNode → List WsXmlNode) (n : WsXmlNode) :
    (n.mapContent f).tag = n.tag := by
  cases n <;> rfl

variable {n n' : WsXmlNode} {names : List (String × String)}

theorem content_mapContent (h : n.isElement = true)
    (f : List WsXmlNode → List WsXmlNode) : (n.mapContent f).content = f n.content := by
  cases n with
  | element ns name attrs content => rfl
  | text chars => cases h

theorem mapContent_of_not_isElement (h : n.isElement = false)
    (f : List WsXmlNode → List WsXmlNode) : n.mapContent f = n := by
  cases n with
  | element ns name attrs content => cases h
  | text chars => rfl

theorem isElement_of_tag (h : n'.tag = n.tag) : n'.isElement = n.isElement :=
  congrArg Prod.fst h

theorem nsUri_of_tag (h : n'.tag = n.tag) : n'.nsUri = n.nsUri :=
  congrArg (fun t ↦ t.2.1) h

theorem name_of_tag (h : n'.tag = n.tag) : n'.name = n.name :=
  congrArg (fun t ↦ t.2.2.1) h

theorem attrs_of_tag (h : n'.tag = n.tag) : n'.attrs = n.attrs :=
  congrArg (fun t ↦ t.2.2.2) h

theorem wsXmlIsNodeQname_of_tag (h : n'.tag = n.tag) (ns name : Option String) :
    wsXmlIsNodeQname n' ns name = wsXmlIsNodeQname n ns name := by
  rw [wsXmlIsNodeQname, wsXmlIsNodeQname, nsUri_of_tag h, name_of_tag h]

theorem isNamed_of_tag (h : n'.tag = n.tag) (ns name : String) :
    n'.isNamed ns name = n.isNamed ns name := by
  rw [isNamed, isNamed, isElement_of_tag h, wsXmlIsNodeQname_of_tag h]

variable {ns name : String}

theorem isElement_of_isNamed (h : n.isNamed ns name = true) : n.isElement = true :=
  (and_eq_true_iff.mp h).1

theorem childrenNamed_eq_filter (n : WsXmlNode) (ns name : String) :
    n.childrenNamed (some ns) (some name) = n.content.filter (isNamed ns name) := by
  rw [childrenNamed, elements, filter_filter]
  apply filter_congr
  intro c _
  rw [isNamed, Bool.and_comm]

theorem isNamed_iff :
    n.isNamed ns name = true ↔ n.isElement = true ∧ n.nsUri = some ns ∧ n.name = name := by
  rw [isNamed, and_eq_true, wsXmlIsNodeQname_iff]

theorem isNamed_elem (ns name : String) (content : List WsXmlNode) :
    (elem ns name content).isNamed ns name = true :=
  isNamed_iff.mpr ⟨rfl, rfl, rfl⟩

@[simp] theorem content_elem (ns name : String) (content : List WsXmlNode) :
    (elem ns name content).content = content :=
  rfl

theorem wsXmlFirstChild_eq_find? (n : WsXmlNode) (ns name : String) :
    wsXmlFirstChild (some n) ns name = n.content.find? (isNamed ns name) := by
  rw [wsXmlFirstChild, wsXmlGetChild_some, childrenNamed_eq_filter, ← head?_eq_getElem?,
    head?_filter]

theorem isNamed_of_ne {ns' name' : String} (h : n.isNamed ns name = true)
    (hne : (ns', name') ≠ (ns, name)) : n.isNamed ns' name' = false := by
  rw [eq_false_iff]
  intro h'
  obtain ⟨-, hns, hname⟩ := isNamed_iff.mp h
  obtain ⟨-, hns', hname'⟩ := isNamed_iff.mp h'
  obtain rfl := Option.some.inj (hns.symm.trans hns')
  exact hne (by rw [← hname, hname'])

def AllNamed (names : List (String × String)) (l : List WsXmlNode) : Prop :=
  ∀ n ∈ l, ∃ p ∈ names, n.isNamed p.1 p.2 = true

variable {l : List WsXmlNode}

theorem AllNamed.not_isNamed (h : AllNamed names l)
    (hmem : (ns, name) ∉ names) : ∀ n ∈ l, n.isNamed ns name = false := by
  intro n hn
  obtain ⟨p, hp, hnamed⟩ := h n hn
  refine isNamed_of_ne hnamed fun heq ↦ hmem ?_
  rw [heq]
  exact hp

theorem AllNamed.append {l' : List WsXmlNode}
    (h : AllNamed names l) (h' : AllNamed names l') : AllNamed names (l ++ l') := by
  intro n hn
  rcases mem_append.mp hn with hn | hn
  · exact h n hn
  · exact h' n hn

theorem AllNamed.mono {names names' : List (String × String)} (h : AllNamed names l)
    (hsub : names ⊆ names') : AllNamed names' l := by
  intro n hn
  obtain ⟨p, hp, hnamed⟩ := h n hn
  exact ⟨p, hsub hp, hnamed⟩

structure SameBut (names : List (String × String)) (n n' : WsXmlNode) : Prop where
  tag : n'.tag = n.tag
  children : ∀ ns name, (ns, name) ∉ names →
    n'.childrenNamed (some ns) (some name) = n.childrenNamed (some ns) (some name)
  tags : ∃ extra, n'.elements.map WsXmlNode.tag = n.elements.map WsXmlNode.tag ++ extra ∧
    ∀ t ∈ extra, t.2.2.2 = []

namespace SameBut

variable {names names' : List (String × String)} {n n' n'' : WsXmlNode}

theorem refl (names : List (String × String)) (n : WsXmlNode) : SameBut names n n :=
  ⟨rfl, fun _ _ _ ↦ rfl, [], by simp, by simp⟩

theorem trans (h : SameBut names n n') (h' : SameBut names n' n'') : SameBut names n n'' := by
  obtain ⟨extra, htags, hattrs⟩ := h.tags
  obtain ⟨extra', htags', hattrs'⟩ := h'.tags
  refine ⟨h'.tag.trans h.tag, fun ns name hmem ↦ ?_, extra ++ extra', ?_, ?_⟩
  · rw [h'.children ns name hmem, h.children ns name hmem]
  · rw [htags', htags, append_assoc]
  intro t ht
  rcases mem_append.mp ht with ht | ht
  · exact hattrs t ht
  · exact hattrs' t ht

theorem mono (h : SameBut names n n') (hsub : names ⊆ names') : SameBut names' n n' :=
  ⟨h.tag, fun ns name hmem ↦ h.children ns name fun hin ↦ hmem (hsub hin), h.tags⟩

theorem firstChild (h : SameBut names n n') {ns name : String} (hmem : (ns, name) ∉ names) :
    wsXmlFirstChild (some n') ns name = wsXmlFirstChild (some n) ns name := by
  rw [wsXmlFirstChild, wsXmlGetChild_some, wsXmlFirstChild, wsXmlGetChild_some,
    h.children ns name hmem]

end SameBut

end WsXmlNode

open WsXmlNode

variable (text : String)

theorem tag_wsXmlSetNodeText (n : WsXmlNode) : (wsXmlSetNodeText text n).tag = n.tag :=
  tag_mapContent _ n

variable (ns name : String)

theorem tag_wsXmlAddChild (text : String) (n : WsXmlNode) :
    (wsXmlAddChild ns name text n).tag = n.tag :=
  tag_mapContent _ n

theorem tag_changeFirstChild (f : WsXmlNode → WsXmlNode) (n : WsXmlNode) :
    (changeFirstChild ns name f n).tag = n.tag :=
  tag_mapContent _ n

theorem chars_wsXmlSetNodeText {n : WsXmlNode} (h : n.isElement = true) (text : String) :
    (wsXmlSetNodeText text n).chars = text := by
  cases n with
  | element ns name attrs content =>
    change text ++ "" = text
    rw [String.append_empty]
  | text chars => cases h

theorem sameBut_wsXmlAddChild (text : String) (n : WsXmlNode) :
    SameBut [(ns, name)] n (wsXmlAddChild ns name text n) := by
  cases hn : n.isElement with
  | false =>
    rw [wsXmlAddChild, mapContent_of_not_isElement hn]
    exact SameBut.refl _ n
  | true =>
    have hcontent := content_mapContent hn (· ++ [.elem ns name [.text text]])
    refine ⟨tag_mapContent _ n, fun ns' name' hmem ↦ ?_, ?_⟩
    · have hne : (WsXmlNode.elem ns name [.text text]).isNamed ns' name' = false :=
        isNamed_of_ne (isNamed_elem ns name _) (by simpa using hmem)
      rw [childrenNamed_eq_filter, childrenNamed_eq_filter, wsXmlAddChild, hcontent,
        filter_append, filter_cons_of_neg (by simp [hne]), filter_nil,
        append_nil]
    · refine ⟨[(WsXmlNode.elem ns name [.text text]).tag], ?_, ?_⟩
      · rw [elements, wsXmlAddChild, hcontent, filter_append, map_append]
        rfl
      · intro t ht
        rw [mem_singleton.mp ht]
        rfl

theorem firstChild_wsXmlAddChild {ns name : String} {n : WsXmlNode} (h : n.isElement = true)
    (hnone : wsXmlFirstChild (some n) ns name = none) (text : String) :
    wsXmlFirstChild (some (wsXmlAddChild ns name text n)) ns name =
      some (.elem ns name [.text text]) := by
  have hnil : n.childrenNamed (some ns) (some name) = [] := by
    rw [wsXmlFirstChild, wsXmlGetChild_some] at hnone
    simpa using hnone
  rw [childrenNamed_eq_filter] at hnil
  rw [wsXmlFirstChild, wsXmlGetChild_some, childrenNamed_eq_filter, wsXmlAddChild,
    content_mapContent h, filter_append, hnil, filter_cons_of_pos (isNamed_elem ns name _)]
  rfl

section

variable {f : WsXmlNode → WsXmlNode} (hf : ∀ c, (f c).tag = c.tag)

include hf

theorem sameBut_changeFirstChild (ns name : String) (n : WsXmlNode) :
    SameBut [(ns, name)] n (changeFirstChild ns name f n) := by
  cases hn : n.isElement with
  | false =>
    rw [changeFirstChild, mapContent_of_not_isElement hn]
    exact SameBut.refl _ n
  | true =>
    have hcontent := content_mapContent hn (modifyFirst (isNamed ns name) f)
    refine ⟨tag_mapContent _ n, fun ns' name' hmem ↦ ?_, [], ?_, by simp⟩
    · rw [childrenNamed_eq_filter, childrenNamed_eq_filter, changeFirstChild, hcontent]
      apply filter_modifyFirst_of_not
      intro c hc
      have hne : c.isNamed ns' name' = false := isNamed_of_ne hc (by simpa using hmem)
      exact ⟨hne, (isNamed_of_tag (hf c) ns' name').trans hne⟩
    · rw [append_nil, elements, elements, changeFirstChild, hcontent, filter_modifyFirst,
        map_modifyFirst fun c _ ↦ hf c]
      intro c hc
      have helem := isElement_of_isNamed hc
      exact ⟨helem, (isElement_of_tag (hf c)).trans helem⟩

theorem firstChild_changeFirstChild (ns name : String) (n : WsXmlNode) :
    wsXmlFirstChild (some (changeFirstChild ns name f n)) ns name =
      (wsXmlFirstChild (some n) ns name).map f := by
  rw [wsXmlFirstChild_eq_find?, wsXmlFirstChild_eq_find?]
  cases hn : n.isElement with
  | false =>
    rw [changeFirstChild, mapContent_of_not_isElement hn]
    cases n with
    | element ns name attrs content => cases hn
    | text chars => rfl
  | true =>
    rw [changeFirstChild, content_mapContent hn, find?_modifyFirst]
    intro c hc
    exact (isNamed_of_tag (hf c) ns name).trans hc

end

/-! ## The envelope -/

theorem wsXmlGetSoapHeader_eq_find? (root : WsXmlNode) :
    wsXmlGetSoapHeader root =
      (wsXmlGetSoapEnvelope root).bind fun env ↦ env.content.find? isElement := by
  rw [wsXmlGetSoapHeader_eq]
  congr 1
  funext env
  rw [← head?_eq_getElem?, elements, head?_filter]

theorem eq_and_isElement_of_wsXmlGetSoapEnvelope {root env : WsXmlNode}
    (h : wsXmlGetSoapEnvelope root = some env) : env = root ∧ root.isElement = true := by
  obtain ⟨rfl, ns, hns⟩ := wsXmlGetSoapEnvelope_eq_some h
  cases env with
  | element nsUri name attrs content => exact ⟨rfl, rfl⟩
  | text chars => cases hns

theorem wsXmlGetSoapEnvelope_of_tag {root root' : WsXmlNode} (h : root'.tag = root.tag) :
    wsXmlGetSoapEnvelope root' = (wsXmlGetSoapEnvelope root).map fun _ ↦ root' := by
  rw [wsXmlGetSoapEnvelope, wsXmlGetSoapEnvelope, wsXmlIsNodeQname_of_tag h,
    wsXmlIsNodeQname_of_tag h]
  split <;> rfl

theorem isElement_of_isSoapBody {root child : WsXmlNode} (h : isSoapBody root child = true) :
    child.isElement = true := by
  cases child with
  | element ns name attrs content => rfl
  | text chars =>
    rw [isSoapBody, wsXmlIsNodeQname, and_eq_true] at h
    change _ ∧ (some soapBody == some "text") = true at h
    exact absurd h.2 (by decide)

theorem isSoapBody_of_tag {root root' : WsXmlNode} (h : root'.tag = root.tag) :
    isSoapBody root' = isSoapBody root := by
  funext child
  rw [isSoapBody, isSoapBody, nsUri_of_tag h]

/-- Two documents of which the headers and the bodies differ only in the children with some
names. -/
structure DocSameBut (names : List (String × String)) (root root' : WsXmlNode) : Prop where
  tag : root'.tag = root.tag
  header : ∃ g : WsXmlNode → WsXmlNode, (∀ n, SameBut names n (g n)) ∧
    wsXmlGetSoapHeader root' = (wsXmlGetSoapHeader root).map g
  body : ∃ g : WsXmlNode → WsXmlNode, (∀ n, SameBut names n (g n)) ∧
    wsXmlGetSoapBody root' = (wsXmlGetSoapBody root).map g

namespace DocSameBut

variable {names : List (String × String)} {root root' root'' : WsXmlNode}

theorem refl (names : List (String × String)) (root : WsXmlNode) : DocSameBut names root root :=
  ⟨rfl, ⟨id, SameBut.refl names, Option.map_id_apply.symm⟩,
    ⟨id, SameBut.refl names, Option.map_id_apply.symm⟩⟩

theorem trans (h : DocSameBut names root root') (h' : DocSameBut names root' root'') :
    DocSameBut names root root'' := by
  obtain ⟨f, hf, hheader⟩ := h.header
  obtain ⟨f', hf', hheader'⟩ := h'.header
  obtain ⟨g, hg, hbody⟩ := h.body
  obtain ⟨g', hg', hbody'⟩ := h'.body
  refine ⟨h'.tag.trans h.tag, ⟨f' ∘ f, fun n ↦ (hf n).trans (hf' (f n)), ?_⟩,
    ⟨g' ∘ g, fun n ↦ (hg n).trans (hg' (g n)), ?_⟩⟩
  · rw [hheader', hheader, Option.map_map]
  · rw [hbody', hbody, Option.map_map]

theorem mono {names' : List (String × String)} (h : DocSameBut names root root')
    (hsub : names ⊆ names') : DocSameBut names' root root' := by
  obtain ⟨f, hf, hheader⟩ := h.header
  obtain ⟨g, hg, hbody⟩ := h.body
  exact ⟨h.tag, ⟨f, fun n ↦ (hf n).mono hsub, hheader⟩, ⟨g, fun n ↦ (hg n).mono hsub, hbody⟩⟩

theorem firstHeader (h : DocSameBut names root root') {ns name : String}
    (hmem : (ns, name) ∉ names) :
    wsXmlFirstChild (wsXmlGetSoapHeader root') ns name =
      wsXmlFirstChild (wsXmlGetSoapHeader root) ns name := by
  obtain ⟨g, hg, hheader⟩ := h.header
  rw [hheader]
  cases wsXmlGetSoapHeader root with
  | none => rfl
  | some header => exact (hg header).firstChild hmem

theorem firstInBody (h : DocSameBut names root root') {ns name : String}
    (hmem : (ns, name) ∉ names) :
    wsXmlFirstChild (wsXmlGetSoapBody root') ns name =
      wsXmlFirstChild (wsXmlGetSoapBody root) ns name := by
  obtain ⟨g, hg, hbody⟩ := h.body
  rw [hbody]
  cases wsXmlGetSoapBody root with
  | none => rfl
  | some body => exact (hg body).firstChild hmem

end DocSameBut

theorem elements_modifyFirst {root : WsXmlNode} (hroot : root.isElement = true)
    {p : WsXmlNode → Bool} {f : WsXmlNode → WsXmlNode} (hp : ∀ c, p c = true → c.isElement = true)
    (hf : ∀ c, (f c).tag = c.tag) :
    (root.mapContent (modifyFirst p f)).elements = modifyFirst p f root.elements := by
  rw [elements, content_mapContent hroot, filter_modifyFirst, ← elements]
  intro c hc
  exact ⟨hp c hc, (isElement_of_tag (hf c)).trans (hp c hc)⟩

section

variable {f : WsXmlNode → WsXmlNode} (hf : ∀ c, (f c).tag = c.tag) (root : WsXmlNode)

theorem wsXmlGetSoapHeader_modifyFirst (p : WsXmlNode → Bool) :
    wsXmlGetSoapHeader (root.mapContent (modifyFirst p f)) =
      (wsXmlGetSoapEnvelope root).bind fun env ↦
        (modifyFirst p f env.content).find? isElement := by
  rw [wsXmlGetSoapHeader_eq_find?, wsXmlGetSoapEnvelope_of_tag (tag_mapContent _ root)]
  cases henv : wsXmlGetSoapEnvelope root with
  | none => rfl
  | some env =>
    obtain ⟨rfl, hroot⟩ := eq_and_isElement_of_wsXmlGetSoapEnvelope henv
    rw [Option.map_some, Option.bind_some, Option.bind_some, content_mapContent hroot]

include hf

theorem wsXmlGetSoapBody_modifyFirst {p : WsXmlNode → Bool}
    (hp : ∀ c, p c = true → c.isElement = true) :
    wsXmlGetSoapBody (root.mapContent (modifyFirst p f)) =
      (wsXmlGetSoapEnvelope root).bind fun env ↦
        (modifyFirst p f (env.elements.take 2)).find? (isSoapBody env) := by
  have htag := tag_mapContent (modifyFirst p f) root
  rw [wsXmlGetSoapBody_eq, wsXmlGetSoapEnvelope_of_tag htag]
  cases henv : wsXmlGetSoapEnvelope root with
  | none => rfl
  | some env =>
    obtain ⟨rfl, hroot⟩ := eq_and_isElement_of_wsXmlGetSoapEnvelope henv
    rw [Option.map_some, Option.bind_some, Option.bind_some, isSoapBody_of_tag htag,
      elements_modifyFirst hroot hp hf, take_modifyFirst]

variable {names : List (String × String)}

/-- A changed child of the root is seen in the header and in the body, or not at all. -/
theorem docSameBut_modifyFirst (hsame : ∀ n, SameBut names n (f n)) {p : WsXmlNode → Bool}
    (hp : ∀ c, p c = true → c.isElement = true) :
    DocSameBut names root (root.mapContent (modifyFirst p f)) := by
  have hid : ∀ {g : WsXmlNode → WsXmlNode}, (∀ a, g a = a ∨ g a = f a) →
      ∀ n, SameBut names n (g n) := by
    intro g hg n
    rcases hg n with h | h
    · rw [h]
      exact SameBut.refl names n
    · rw [h]
      exact hsame n
  refine ⟨tag_mapContent _ root, ?_, ?_⟩
  · rw [wsXmlGetSoapHeader_modifyFirst, wsXmlGetSoapHeader_eq_find?]
    cases wsXmlGetSoapEnvelope root with
    | none => exact ⟨id, SameBut.refl names, rfl⟩
    | some env =>
      obtain ⟨g, hg, hfind⟩ := find?_modifyFirst_of_same (p := p) (l := env.content)
        fun c ↦ isElement_of_tag (hf c)
      exact ⟨g, hid hg, hfind⟩
  · rw [wsXmlGetSoapBody_modifyFirst hf root hp, wsXmlGetSoapBody_eq]
    cases wsXmlGetSoapEnvelope root with
    | none => exact ⟨id, SameBut.refl names, rfl⟩
    | some env =>
      obtain ⟨g, hg, hfind⟩ := find?_modifyFirst_of_same (p := p) (q := isSoapBody env)
        (l := env.elements.take 2) fun c ↦ wsXmlIsNodeQname_of_tag (hf c) _ _
      exact ⟨g, hid hg, hfind⟩

theorem docSameBut_changeSoapHeader (hsame : ∀ n, SameBut names n (f n)) :
    DocSameBut names root (changeSoapHeader f root) := by
  rw [changeSoapHeader]
  split
  · exact DocSameBut.refl names root
  · exact docSameBut_modifyFirst hf root hsame fun _ h ↦ h

theorem docSameBut_changeSoapBody (hsame : ∀ n, SameBut names n (f n)) :
    DocSameBut names root (changeSoapBody f root) := by
  rw [changeSoapBody]
  split
  · exact DocSameBut.refl names root
  · exact docSameBut_modifyFirst hf root hsame fun _ ↦ isElement_of_isSoapBody

theorem wsXmlGetSoapHeader_changeSoapHeader :
    wsXmlGetSoapHeader (changeSoapHeader f root) = (wsXmlGetSoapHeader root).map f := by
  rw [changeSoapHeader]
  cases hheader : wsXmlGetSoapHeader root with
  | none => exact hheader
  | some header =>
    dsimp only
    rw [← hheader, wsXmlGetSoapHeader_modifyFirst, wsXmlGetSoapHeader_eq_find?]
    cases wsXmlGetSoapEnvelope root with
    | none => rfl
    | some env => exact find?_modifyFirst fun c hc ↦ (isElement_of_tag (hf c)).trans hc

theorem wsXmlGetSoapBody_changeSoapBody :
    wsXmlGetSoapBody (changeSoapBody f root) = (wsXmlGetSoapBody root).map f := by
  rw [changeSoapBody]
  cases hbody : wsXmlGetSoapBody root with
  | none => exact hbody
  | some body =>
    dsimp only
    rw [← hbody, wsXmlGetSoapBody_modifyFirst hf root fun _ ↦ isElement_of_isSoapBody,
      wsXmlGetSoapBody_eq]
    cases henv : wsXmlGetSoapEnvelope root with
    | none => rfl
    | some env =>
      obtain ⟨rfl, -⟩ := eq_and_isElement_of_wsXmlGetSoapEnvelope henv
      exact find?_modifyFirst fun c hc ↦ (wsXmlIsNodeQname_of_tag (hf c) _ _).trans hc

end

end Openwsman
