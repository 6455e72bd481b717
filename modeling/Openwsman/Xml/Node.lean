import Openwsman.Libc.Text
import Openwsman.Xml.Names

/-!
# XML nodes and their accessors

A parsed document as the code reads it through `wsman-xml.c`: an element carries its expanded name,
its attributes and its content, and content is elements and text in document order. Comments and
processing instructions are left out, since no accessor ever returns one.

A node handle may be `NULL` in the source and every accessor accepts that, so the accessors take and
return `Option WsXmlNode`. Namespaces and local names are optional for the same reason: a `NULL`
namespace passed to `ws_xml_get_child` matches every namespace, whereas a `NULL` namespace passed to
`ws_xml_find_node_attr` matches only attributes without one.
-/

namespace Openwsman

open Option List

structure WsXmlAttr where
  nsUri : Option String
  name : String
  value : String
  deriving DecidableEq, Repr

inductive WsXmlNode where
  | element (nsUri : Option String) (name : String) (attrs : List WsXmlAttr)
      (content : List WsXmlNode)
  | text (chars : String)

namespace WsXmlNode

def isElement : WsXmlNode → Bool
  | element .. => true
  | text _ => false

def nsUri : WsXmlNode → Option String
  | element ns _ _ _ => ns
  | text _ => none

def name : WsXmlNode → String
  | element _ n _ _ => n
  | text _ => "text"

def attrs : WsXmlNode → List WsXmlAttr
  | element _ _ as _ => as
  | text _ => []

def content : WsXmlNode → List WsXmlNode
  | element _ _ _ cs => cs
  | text _ => []

/-- The element children in document order, which is what `xml_parser_get_first_child` and
`xml_parser_get_next_child` walk through. -/
def elements (n : WsXmlNode) : List WsXmlNode := n.content.filter isElement

mutual

def chars : WsXmlNode → String
  | element _ _ _ cs => charsAll cs
  | text s => s

def charsAll : List WsXmlNode → String
  | [] => ""
  | c :: cs => c.chars ++ charsAll cs

end

def elem (ns : String) (name : String) (content : List WsXmlNode) : WsXmlNode :=
  element (some ns) name [] content

end WsXmlNode

/-! ## Children -/

def wsXmlIsNodeQname (node : WsXmlNode) (nsUri name : Option String) : Bool :=
  (nsUri.isNone || node.nsUri == nsUri) && (name.isNone || name == some node.name)

def WsXmlNode.childrenNamed (parent : WsXmlNode) (nsUri localName : Option String) :
    List WsXmlNode :=
  parent.elements.filter fun c ↦ wsXmlIsNodeQname c nsUri localName

def wsXmlGetChild (parent : Option WsXmlNode) (index : ℕ) (nsUri localName : Option String) :
    Option WsXmlNode :=
  parent.bind fun p ↦ (p.childrenNamed nsUri localName)[index]?

def wsXmlFirstChild (parent : Option WsXmlNode) (nsUri localName : String) : Option WsXmlNode :=
  wsXmlGetChild parent 0 (some nsUri) (some localName)

def wsXmlGetChildCount (parent : Option WsXmlNode) : ℕ :=
  match parent with
  | none => 0
  | some p => p.elements.length

theorem wsXmlIsNodeQname_iff (node : WsXmlNode) (ns name : String) :
    wsXmlIsNodeQname node (some ns) (some name) = true ↔
      node.nsUri = some ns ∧ node.name = name := by
  rw [wsXmlIsNodeQname, Bool.and_eq_true]
  simp only [isNone_some, Bool.false_or, beq_iff_eq, some.injEq]
  rw [eq_comm (a := name)]

theorem mem_childrenNamed {p c : WsXmlNode} {ns name : String} :
    c ∈ p.childrenNamed (some ns) (some name) ↔
      c ∈ p.elements ∧ c.nsUri = some ns ∧ c.name = name := by
  rw [WsXmlNode.childrenNamed, mem_filter, wsXmlIsNodeQname_iff]

@[simp] theorem wsXmlGetChild_none (i : ℕ) (ns name : Option String) :
    wsXmlGetChild none i ns name = none := rfl

@[simp] theorem wsXmlFirstChild_none (ns name : String) : wsXmlFirstChild none ns name = none := rfl

@[simp] theorem wsXmlGetChild_some (p : WsXmlNode) (i : ℕ) (ns name : Option String) :
    wsXmlGetChild (some p) i ns name = (p.childrenNamed ns name)[i]? := rfl

theorem wsXmlFirstChild_eq_none_iff (p : WsXmlNode) (ns name : String) :
    wsXmlFirstChild (some p) ns name = none ↔
      ∀ c ∈ p.elements, ¬(c.nsUri = some ns ∧ c.name = name) := by
  rw [wsXmlFirstChild, wsXmlGetChild_some, getElem?_eq_none_iff, Nat.le_zero,
    length_eq_zero_iff, eq_nil_iff_forall_not_mem]
  constructor
  · intro h c hc hq
    exact h c (mem_childrenNamed.mpr ⟨hc, hq⟩)
  · intro h c hc
    obtain ⟨hmem, hq⟩ := mem_childrenNamed.mp hc
    exact h c hmem hq

/-! ## Names and text -/

def wsXmlGetNodeNameNs (node : Option WsXmlNode) : Option String := node.bind WsXmlNode.nsUri

def wsXmlGetNodeText (node : Option WsXmlNode) : Option String := node.map WsXmlNode.chars

def wsXmlGetNodeTextSafe (node : Option WsXmlNode) : String := (wsXmlGetNodeText node).getD ""

def wsXmlGetNodeUlong (node : Option WsXmlNode) : ℕ :=
  match wsXmlGetNodeText node with
  | none => 0
  | some text => toULong (atoi text)

def wsDeserializeUint32 (parent : Option WsXmlNode) (index : ℕ) (nameNs name : String) : ℕ :=
  match wsXmlGetChild parent index (some nameNs) (some name) with
  | none => 0
  | some node => wsXmlGetNodeUlong (some node)

/-! ## Attributes -/

def wsXmlFindNodeAttr (node : Option WsXmlNode) (attrNs : Option String) (attrName : String) :
    Option WsXmlAttr :=
  node.bind fun n ↦ n.attrs.find? fun a ↦ a.nsUri == attrNs && a.name == attrName

def wsXmlGetNodeAttr (node : Option WsXmlNode) (index : ℕ) : Option WsXmlAttr :=
  node.bind fun n ↦ n.attrs[index]?

def wsXmlFindAttrValue (node : Option WsXmlNode) (ns : Option String) (attrName : String) :
    Option String :=
  (wsXmlFindNodeAttr node ns attrName).map WsXmlAttr.value

def isXmlValTrue (text : String) : Bool :=
  if (text.toList.dropWhile isDigit).isEmpty then atoi text != 0
  else strcaseEq text "true" || strcaseEq text "yes"

def wsXmlFindAttrBool (node : Option WsXmlNode) (ns : Option String) (attrName : String) : Bool :=
  match wsXmlFindAttrValue node ns attrName with
  | none => false
  | some v => isXmlValTrue v

/-! ## The SOAP envelope -/

def wsXmlGetSoapEnvelope (root : WsXmlNode) : Option WsXmlNode :=
  if wsXmlIsNodeQname root (some xmlNsSoap12) (some soapEnvelope)
      || wsXmlIsNodeQname root (some xmlNsSoap11) (some soapEnvelope) then some root
  else none

/-- For the header the first child is returned although it may have another name. -/
def wsXmlGetSoapElement (root : WsXmlNode) (name : String) : Option WsXmlNode :=
  match wsXmlGetSoapEnvelope root with
  | none => none
  | some env =>
    match wsXmlGetChild (some env) 0 none none with
    | none => none
    | some node =>
      if wsXmlIsNodeQname node env.nsUri (some name) then some node
      else if name == soapHeader then some node
      else
        match wsXmlGetChild (some env) 1 none none with
        | none => none
        | some second =>
          if wsXmlIsNodeQname second env.nsUri (some name) then some second else none

def wsXmlGetSoapHeader (root : WsXmlNode) : Option WsXmlNode := wsXmlGetSoapElement root soapHeader

def wsXmlGetSoapBody (root : WsXmlNode) : Option WsXmlNode := wsXmlGetSoapElement root soapBody

def isSoapBody (root child : WsXmlNode) : Bool :=
  wsXmlIsNodeQname child root.nsUri (some soapBody)

def wsXmlCreateEnvelope (header body : List WsXmlNode) : WsXmlNode :=
  .elem xmlNsSoap12 soapEnvelope
    [.elem xmlNsSoap12 soapHeader header, .elem xmlNsSoap12 soapBody body]

theorem wsXmlGetChild_any (p : WsXmlNode) (i : ℕ) :
    wsXmlGetChild (some p) i none none = p.elements[i]? := by
  rw [wsXmlGetChild_some, WsXmlNode.childrenNamed]
  simp [wsXmlIsNodeQname]

theorem wsXmlGetSoapEnvelope_eq_some {doc env : WsXmlNode}
    (h : wsXmlGetSoapEnvelope doc = some env) : env = doc ∧ ∃ ns, doc.nsUri = some ns := by
  rw [wsXmlGetSoapEnvelope] at h
  split at h
  · next hname =>
    rw [Bool.or_eq_true, wsXmlIsNodeQname_iff, wsXmlIsNodeQname_iff] at hname
    refine ⟨(some.inj h).symm, ?_⟩
    rcases hname with ⟨hns, _⟩ | ⟨hns, _⟩ <;> exact ⟨_, hns⟩
  · cases h

theorem wsXmlGetSoapHeader_eq (doc : WsXmlNode) :
    wsXmlGetSoapHeader doc = (wsXmlGetSoapEnvelope doc).bind fun env ↦ env.elements[0]? := by
  rw [wsXmlGetSoapHeader, wsXmlGetSoapElement]
  cases wsXmlGetSoapEnvelope doc with
  | none => rfl
  | some env =>
    dsimp only
    rw [wsXmlGetChild_any, bind_some]
    cases env.elements[0]? with
    | none => rfl
    | some node => simp

theorem wsXmlGetSoapBody_eq (root : WsXmlNode) :
    wsXmlGetSoapBody root =
      (wsXmlGetSoapEnvelope root).bind fun env ↦ (env.elements.take 2).find? (isSoapBody env) := by
  rw [wsXmlGetSoapBody, wsXmlGetSoapElement]
  cases wsXmlGetSoapEnvelope root with
  | none => rfl
  | some env =>
    dsimp only [bind_some]
    rw [wsXmlGetChild_any, wsXmlGetChild_any]
    rcases env.elements with _ | ⟨a, _ | ⟨b, rest⟩⟩
    · rfl
    · change (if isSoapBody env a = true then some a else none) = _
      rw [take_of_length_le (by simp), find?_cons]
      cases isSoapBody env a <;> rfl
    · change (if isSoapBody env a = true then some a else
        if isSoapBody env b = true then some b else none) = _
      rw [take_succ_cons, take_succ_cons, take_zero, find?_cons, find?_cons]
      cases isSoapBody env a <;> cases isSoapBody env b <;> rfl

mutual

def wsXmlFindInTree (nsUri localName : Option String) : WsXmlNode → Option WsXmlNode
  | .element ns n as cs =>
    if wsXmlIsNodeQname (.element ns n as cs) nsUri localName then some (.element ns n as cs)
    else wsXmlFindInTrees nsUri localName cs
  | .text _ => none

def wsXmlFindInTrees (nsUri localName : Option String) : List WsXmlNode → Option WsXmlNode
  | [] => none
  | c :: cs =>
    (wsXmlFindInTree nsUri localName c).orElse fun _ ↦ wsXmlFindInTrees nsUri localName cs

end

def wsmanGetSoapHeaderElement (root : WsXmlNode) (nsUri name : Option String) : Option WsXmlNode :=
  match wsXmlGetSoapHeader root with
  | none => none
  | some header => if name.isNone then some header else wsXmlFindInTree nsUri name header

end Openwsman
