import Openwsman.Soap.Epr
import Openwsman.Xml.Write

/-!
# Writing endpoint references

`epr_serialize` of `wsman-epr.c`. An embedded reference keeps the resource URI and the selectors
below its own element, under `ReferenceParameters`. Any other reference, the kind whose parts stand
in the header of a message, puts only the address below its own element and the rest beside it.

A reference that is `Epr.complete` is read back with its texts as libxml2 keeps them. The one
exception is a reference that is not embedded and whose own element is called like one of the two
that stand beside it.
-/

namespace Openwsman

open KeyValue Bool List WsXmlNode

/-! ## Writing -/

def Epr.address : Epr → String
  | mk a _ _ => a

def namedSelector (name : String) (content : List WsXmlNode) : WsXmlNode :=
  .element (some xmlNsWsMan) wsmSelector [⟨none, wsmName, name⟩] content

def eprElements (lx : Libxml) (ns eprNodeName : Option String) (embedded : Bool) (address : String)
    (params : List WsXmlNode) : List WsXmlNode :=
  let eprnode :=
    lx.child xmlNsAddressing (if embedded then wsaAddress else wsaTo) (some address) ::
      if embedded then [.elem xmlNsAddressing wsaReferenceParameters params] else []
  (match eprNodeName with
  | none => eprnode
  | some name => [.element ns name [] eprnode]) ++ if embedded then [] else params

mutual

def eprParams (lx : Libxml) : Epr → CResult (List WsXmlNode)
  | .mk _ uri selectors =>
    (eprSelectorNodes lx selectors).bind fun nodes ↦
      .value [lx.child xmlNsWsMan wsmResourceUri (some uri), .elem xmlNsWsMan wsmSelectorSet nodes]

def selectorContent (lx : Libxml) : KeyValue → CResult (List WsXmlNode)
  | .text _ value => .value (lx.content (some value))
  | .epr _ value => nestedElements lx value

/-- `epr_serialize` for a reference in a selector. Nothing is written for `NULL`. -/
def nestedElements (lx : Libxml) : Option Epr → CResult (List WsXmlNode)
  | none => .value []
  | some e =>
    (eprParams lx e).bind fun params ↦
      .value (eprElements lx (some xmlNsAddressing) (some wsaEpr) true e.address params)

/-- The loop over the selectors. A key that is `NULL` makes an empty `Name`. -/
def eprSelectorNodes (lx : Libxml) : List KeyValue → CResult (List WsXmlNode)
  | [] => .value []
  | s :: ss =>
    (selectorContent lx s).bind fun content ↦
      s.key.read.bind fun key ↦
        (eprSelectorNodes lx ss).bind fun nodes ↦
          .value (namedSelector (key.getD "") content :: nodes)

end

def eprSerialize (lx : Libxml) (node : WsXmlNode) (ns eprNodeName : Option String)
    (epr : Option Epr) (embedded : Bool) : CResult WsXmlNode :=
  match epr with
  | none => .value node
  | some e =>
    (eprParams lx e).bind fun params ↦
      .value (node.mapContent (· ++ eprElements lx ns eprNodeName embedded e.address params))

/-! ## What is kept of a reference -/

def isNameKey : Cell (Option String) → Bool
  | .init (some _) => true
  | _ => false

def keyText : Cell (Option String) → String
  | .init (some name) => name
  | _ => ""

mutual

/-- Every selector of a reference has a name and no reference in it is `NULL`. -/
def Epr.complete : Epr → Bool
  | .mk _ _ selectors => KeyValue.completeAll selectors

def KeyValue.complete : KeyValue → Bool
  | .text key _ => isNameKey key
  | .epr key value => isNameKey key && Epr.completeOpt value

def Epr.completeOpt : Option Epr → Bool
  | none => false
  | some e => e.complete

def KeyValue.completeAll : List KeyValue → Bool
  | [] => true
  | s :: ss => s.complete && KeyValue.completeAll ss

end

mutual

/-- A reference with its texts changed. The names of the selectors are attributes and stay. -/
def Epr.mapTexts (f : String → String) : Epr → Epr
  | .mk address uri selectors => .mk (f address) (f uri) (KeyValue.mapTextsAll f selectors)

def KeyValue.mapTexts (f : String → String) : KeyValue → KeyValue
  | .text key value => .text key (f value)
  | .epr key value => .epr key (Epr.mapTextsOpt f value)

def Epr.mapTextsOpt (f : String → String) : Option Epr → Option Epr
  | none => none
  | some e => some (e.mapTexts f)

def KeyValue.mapTextsAll (f : String → String) : List KeyValue → List KeyValue
  | [] => []
  | s :: ss => s.mapTexts f :: KeyValue.mapTextsAll f ss

end

mutual

/-- What becomes of a reference that is written and read: a name that is `NULL` becomes empty, and
a selector with no reference in it becomes one with an empty text. -/
def Epr.readBack (f : String → String) : Epr → Epr
  | .mk address uri selectors => .mk (f address) (f uri) (KeyValue.readBackAll f selectors)

def KeyValue.readBack (f : String → String) : KeyValue → KeyValue
  | .text key value => .text (.init (some (keyText key))) (f value)
  | .epr key none => .text (.init (some (keyText key))) ""
  | .epr key (some e) => .epr (.init (some (keyText key))) (some (e.readBack f))

def KeyValue.readBackAll (f : String → String) : List KeyValue → List KeyValue
  | [] => []
  | s :: ss => s.readBack f :: KeyValue.readBackAll f ss

end

mutual

def Epr.allTexts (p : String → Bool) : Epr → Bool
  | .mk address uri selectors => p address && p uri && KeyValue.allTextsAll p selectors

def KeyValue.allTexts (p : String → Bool) : KeyValue → Bool
  | .text _ value => p value
  | .epr _ value => Epr.allTextsOpt p value

def Epr.allTextsOpt (p : String → Bool) : Option Epr → Bool
  | none => true
  | some e => e.allTexts p

def KeyValue.allTextsAll (p : String → Bool) : List KeyValue → Bool
  | [] => true
  | s :: ss => s.allTexts p && KeyValue.allTextsAll p ss

end

variable (f : String → String)

theorem KeyValue.mapTextsAll_eq_map (ss : List KeyValue) :
    KeyValue.mapTextsAll f ss = ss.map (KeyValue.mapTexts f) := by
  induction ss with
  | nil => rw [mapTextsAll, map_nil]
  | cons s ss ih => rw [mapTextsAll, ih, map_cons]

theorem KeyValue.readBackAll_eq_map (ss : List KeyValue) :
    KeyValue.readBackAll f ss = ss.map (KeyValue.readBack f) := by
  induction ss with
  | nil => rw [readBackAll, map_nil]
  | cons s ss ih => rw [readBackAll, ih, map_cons]

theorem KeyValue.completeAll_iff (ss : List KeyValue) :
    KeyValue.completeAll ss = true ↔ ∀ s ∈ ss, s.complete = true := by
  induction ss with
  | nil => simp [completeAll]
  | cons s ss ih => rw [completeAll, and_eq_true, ih, forall_mem_cons]

theorem KeyValue.allTextsAll_iff (p : String → Bool) (ss : List KeyValue) :
    KeyValue.allTextsAll p ss = true ↔ ∀ s ∈ ss, s.allTexts p = true := by
  induction ss with
  | nil => simp [allTextsAll]
  | cons s ss ih => rw [allTextsAll, and_eq_true, ih, forall_mem_cons]

theorem Epr.mapTexts_of_allTexts {f : String → String} {p : String → Bool}
    (h : ∀ s, p s = true → f s = s) (e : Epr) : e.allTexts p = true → e.mapTexts f = e := by
  induction e using Epr.induction (Q := fun s ↦ s.allTexts p = true → s.mapTexts f = s) with
  | mk address uri ss ih =>
    intro htexts
    rw [Epr.allTexts, and_eq_true, and_eq_true, allTextsAll_iff] at htexts
    rw [Epr.mapTexts, h address htexts.1.1, h uri htexts.1.2, mapTextsAll_eq_map,
      map_congr_left fun s hs ↦ ih s hs (htexts.2 s hs), map_id']
  | text key value htexts =>
    rw [KeyValue.mapTexts, h value htexts]
  | null key _ =>
    rw [KeyValue.mapTexts, Epr.mapTextsOpt]
  | epr key e ih htexts =>
    rw [KeyValue.mapTexts, Epr.mapTextsOpt, ih htexts]

theorem isNameKey_iff {key : Cell (Option String)} :
    isNameKey key = true ↔ ∃ name, key = .init (some name) := by
  constructor
  · intro h
    rcases key with _ | _ | name
    · cases h
    · cases h
    · exact ⟨name, rfl⟩
  · rintro ⟨name, rfl⟩
    rfl

theorem Epr.keysWritten_of_complete (e : Epr) : e.complete = true → e.keysWritten = true := by
  induction e using Epr.induction (Q := fun s ↦ s.complete = true → s.keysWritten = true) with
  | mk address uri ss ih =>
    intro h
    rw [Epr.complete, completeAll_iff] at h
    rw [Epr.keysWritten, keysWrittenAll_iff]
    exact fun s hs ↦ ih s hs (h s hs)
  | text key value h =>
    obtain ⟨name, rfl⟩ := isNameKey_iff.mp h
    rfl
  | null key h =>
    rw [KeyValue.complete, Epr.completeOpt, Bool.and_false] at h
    cases h
  | epr key e ih h =>
    rw [KeyValue.complete, and_eq_true] at h
    obtain ⟨name, rfl⟩ := isNameKey_iff.mp h.1
    rw [KeyValue.keysWritten, Epr.keysWrittenOpt, ih h.2]
    rfl

theorem Epr.complete_readBack (e : Epr) : (e.readBack f).complete = true := by
  induction e using Epr.induction (Q := fun s ↦ (s.readBack f).complete = true) with
  | mk address uri ss ih =>
    rw [Epr.readBack, Epr.complete, readBackAll_eq_map, completeAll_iff]
    exact forall_mem_map.mpr ih
  | text key value =>
    rw [KeyValue.readBack, KeyValue.complete, isNameKey]
  | null key =>
    rw [KeyValue.readBack, KeyValue.complete, isNameKey]
  | epr key e ih =>
    rw [KeyValue.readBack, KeyValue.complete, isNameKey, Epr.completeOpt, ih, Bool.and_self]

theorem Epr.readBack_of_complete (e : Epr) :
    e.complete = true → e.readBack f = e.mapTexts f := by
  induction e using Epr.induction
    (Q := fun s ↦ s.complete = true → s.readBack f = s.mapTexts f) with
  | mk address uri ss ih =>
    intro h
    rw [Epr.complete, completeAll_iff] at h
    rw [Epr.readBack, Epr.mapTexts, readBackAll_eq_map, mapTextsAll_eq_map,
      map_congr_left fun s hs ↦ ih s hs (h s hs)]
  | text key value h =>
    obtain ⟨name, rfl⟩ := isNameKey_iff.mp h
    rw [KeyValue.readBack, KeyValue.mapTexts, keyText]
  | null key h =>
    rw [KeyValue.complete, Epr.completeOpt, Bool.and_false] at h
    cases h
  | epr key e ih h =>
    rw [KeyValue.complete, and_eq_true] at h
    obtain ⟨name, rfl⟩ := isNameKey_iff.mp h.1
    rw [KeyValue.readBack, KeyValue.mapTexts, Epr.mapTextsOpt, keyText, ih h.2]

theorem Epr.readBack_eq_self_iff (e : Epr) :
    e.readBack f = e ↔ e.complete = true ∧ e.mapTexts f = e := by
  constructor
  · intro h
    have hcomplete : e.complete = true := h ▸ e.complete_readBack f
    exact ⟨hcomplete, (e.readBack_of_complete f hcomplete).symm.trans h⟩
  · rintro ⟨hcomplete, htexts⟩
    rw [e.readBack_of_complete f hcomplete, htexts]

/-! ## Reading back what was written -/

def hidesParams (ns eprNodeName : Option String) : Bool :=
  ns == some xmlNsWsMan &&
    (eprNodeName == some wsmResourceUri || eprNodeName == some wsmSelectorSet)

theorem eprSelectors_of_all_named (nested : Option WsXmlNode → Option Epr) {nodes : List WsXmlNode}
    (h : ∀ n ∈ nodes, n.isNamed xmlNsWsMan wsmSelector = true) :
    eprSelectors nested (some (.elem xmlNsWsMan wsmSelectorSet nodes)) =
      nodes.map fun n ↦ eprSelector nested (some n) := by
  have hchildren : (elem xmlNsWsMan wsmSelectorSet nodes).childrenNamed (some xmlNsWsMan)
      (some wsmSelector) = nodes := by
    rw [childrenNamed_eq_filter]
    exact filter_eq_self.mpr h
  have hcount : wsXmlGetChildCount (some (.elem xmlNsWsMan wsmSelectorSet nodes)) =
      nodes.length := by
    change (nodes.filter isElement).length = nodes.length
    rw [filter_eq_self.mpr fun n hn ↦ isElement_of_isNamed (h n hn)]
  rw [eprSelectors, hcount]
  apply ext_getElem
  · simp
  intro i hi hi'
  have hlt : i < nodes.length := by simpa using hi'
  rw [getElem_map, getElem_range, getElem_map, wsXmlGetChild_some, hchildren,
    getElem?_eq_getElem hlt]

section

variable (lx : Libxml) {n : WsXmlNode} {pre : List WsXmlNode} {uri : String}
  {nodes : List WsXmlNode}
  (hn : n.content = pre ++ [lx.child xmlNsWsMan wsmResourceUri (some uri),
    .elem xmlNsWsMan wsmSelectorSet nodes])

include hn

theorem firstChild_resourceUri
    (hpre : ∀ c ∈ pre, c.isNamed xmlNsWsMan wsmResourceUri = false) :
    wsXmlFirstChild (some n) xmlNsWsMan wsmResourceUri =
      some (lx.child xmlNsWsMan wsmResourceUri (some uri)) := by
  rw [wsXmlFirstChild_eq_find?, hn, find?_append,
    find?_eq_none.mpr fun c hc ↦ by simp [hpre c hc], Option.none_or,
    find?_cons_of_pos (lx.isNamed_child _ _ _)]

theorem firstChild_selectorSet
    (hpre : ∀ c ∈ pre, c.isNamed xmlNsWsMan wsmSelectorSet = false) :
    wsXmlFirstChild (some n) xmlNsWsMan wsmSelectorSet =
      some (.elem xmlNsWsMan wsmSelectorSet nodes) := by
  have huri : (lx.child xmlNsWsMan wsmResourceUri (some uri)).isNamed xmlNsWsMan wsmSelectorSet =
      false := lx.isNamed_child_of_ne (by decide) _
  rw [wsXmlFirstChild_eq_find?, hn, find?_append,
    find?_eq_none.mpr fun c hc ↦ by simp [hpre c hc], Option.none_or,
    find?_cons_of_neg (by simp [huri]), find?_cons_of_pos (isNamed_elem _ _ _)]

end

variable {node : WsXmlNode} {ns eprNodeName : Option String} {embedded : Bool}

theorem eprDeserialize_of_content (lx : Libxml) (pre : List WsXmlNode) {eprnode r : WsXmlNode}
    {address uri : String} {nodes rest : List WsXmlNode}
    (heprnode : eprNode (some node) ns eprNodeName = some eprnode)
    (haddress : eprnode.content = lx.child xmlNsAddressing (if embedded then wsaAddress else wsaTo)
      (some address) :: rest) (hr : refParamNode (some node) (some eprnode) embedded = some r)
    (hcontent : r.content = pre ++ [lx.child xmlNsWsMan wsmResourceUri (some uri), .elem xmlNsWsMan
      wsmSelectorSet nodes])
    (hpre : ∀ c ∈ pre, c.isNamed xmlNsWsMan wsmResourceUri = false ∧ c.isNamed xmlNsWsMan
      wsmSelectorSet = false) (hnodes : ∀ n ∈ nodes, n.isNamed xmlNsWsMan wsmSelector = true) :
    eprDeserialize (some node) ns eprNodeName embedded =
      some (.mk (lx.kept address) (lx.kept uri)
        (nodes.map fun n ↦ eprSelector nestedEpr (some n))) := by
  have hfirst : wsXmlFirstChild (some eprnode) xmlNsAddressing
      (if embedded then wsaAddress else wsaTo) =
        some (lx.child xmlNsAddressing (if embedded then wsaAddress else wsaTo)
          (some address)) := by
    rw [wsXmlFirstChild_eq_find?, haddress, find?_cons_of_pos (lx.isNamed_child _ _ _)]
  have huri := firstChild_resourceUri lx hcontent fun c hc ↦ (hpre c hc).1
  have hset := firstChild_selectorSet lx hcontent fun c hc ↦ (hpre c hc).2
  rw [← heprnode] at hr hfirst
  rw [eprDeserialize_eq_some hfirst hr huri, hset, eprSelectors_of_all_named _ hnodes,
    Libxml.chars_child, Libxml.chars_child]

theorem eprNode_of_head {name : String} {attrs : List WsXmlAttr} {own rest : List WsXmlNode}
    (h : node.content = .element ns name attrs own :: rest) :
    eprNode (some node) ns (some name) = some (.element ns name attrs own) := by
  have hqname : wsXmlIsNodeQname (.element ns name attrs own) ns (some name) = true := by
    rw [wsXmlIsNodeQname, and_eq_true]
    exact ⟨by simp [nsUri], by simp [WsXmlNode.name]⟩
  rw [eprNode, wsXmlGetChild_some, childrenNamed, elements, h, filter_cons_of_pos rfl,
    filter_cons, if_pos hqname, getElem?_cons_zero]

theorem isNamed_of_hidesParams {name : String} (h : hidesParams ns (some name) = false)
    (attrs : List WsXmlAttr) (own : List WsXmlNode) :
    (element ns name attrs own).isNamed xmlNsWsMan wsmResourceUri = false ∧
      (element ns name attrs own).isNamed xmlNsWsMan wsmSelectorSet = false := by
  rw [eq_false_iff, eq_false_iff, ne_eq, ne_eq, isNamed_iff, isNamed_iff]
  constructor
  · rintro ⟨-, hns, hname⟩
    rw [show ns = some xmlNsWsMan from hns, show name = wsmResourceUri from hname] at h
    exact absurd h (by decide)
  · rintro ⟨-, hns, hname⟩
    rw [show ns = some xmlNsWsMan from hns, show name = wsmSelectorSet from hname] at h
    exact absurd h (by decide)

theorem eprDeserialize_eprElements (lx : Libxml) (helem : node.isElement = true)
    (hempty : node.content = []) (hhides : embedded = true ∨ hidesParams ns eprNodeName = false)
    (address uri : String) {nodes : List WsXmlNode}
    (hnodes : ∀ n ∈ nodes, n.isNamed xmlNsWsMan wsmSelector = true) :
    eprDeserialize (some (node.mapContent (· ++ eprElements lx ns eprNodeName embedded address
        [lx.child xmlNsWsMan wsmResourceUri (some uri), .elem xmlNsWsMan wsmSelectorSet nodes])))
        ns eprNodeName embedded =
      some (.mk (lx.kept address) (lx.kept uri)
        (nodes.map fun n ↦ eprSelector nestedEpr (some n))) := by
  have hcontent := content_mapContent helem (· ++ eprElements lx ns eprNodeName embedded address
    [lx.child xmlNsWsMan wsmResourceUri (some uri), .elem xmlNsWsMan wsmSelectorSet nodes])
  rw [hempty, nil_append] at hcontent
  generalize node.mapContent _ = node' at hcontent ⊢
  have hto : ∀ c ∈ [lx.child xmlNsAddressing wsaTo (some address)],
      c.isNamed xmlNsWsMan wsmResourceUri = false ∧
        c.isNamed xmlNsWsMan wsmSelectorSet = false := by
    intro c hc
    rw [mem_singleton.mp hc]
    exact ⟨lx.isNamed_child_of_ne (by decide) _, lx.isNamed_child_of_ne (by decide) _⟩
  -- where the own element of the reference is, and where its parameters are
  cases eprNodeName with
  | none =>
    cases embedded with
    | true =>
      refine eprDeserialize_of_content lx [] (r := .elem xmlNsAddressing wsaReferenceParameters _)
        rfl hcontent ?_ rfl (by simp) hnodes
      rw [refParamNode, if_pos rfl, wsXmlFirstChild_eq_find?, hcontent]
      rfl
    | false => exact eprDeserialize_of_content lx _ rfl hcontent rfl hcontent hto hnodes
  | some name =>
    have hown := eprNode_of_head hcontent
    cases embedded with
    | true =>
      refine eprDeserialize_of_content lx [] (r := .elem xmlNsAddressing wsaReferenceParameters _)
        hown rfl ?_ rfl (by simp) hnodes
      rw [refParamNode, if_pos rfl, wsXmlFirstChild_eq_find?]
      rfl
    | false =>
      have hhides := hhides.resolve_left (by decide)
      refine eprDeserialize_of_content lx _ hown rfl rfl hcontent (fun c hc ↦ ?_) hnodes
      rw [mem_singleton.mp hc]
      exact isNamed_of_hidesParams hhides _ _

/-! ## The round trip -/

theorem isNamed_namedSelector (name : String) (content : List WsXmlNode) :
    (namedSelector name content).isNamed xmlNsWsMan wsmSelector = true :=
  isNamed_iff.mpr ⟨rfl, rfl, rfl⟩

theorem eprSelector_named (nested : Option WsXmlNode → Option Epr) (name : String)
    (content : List WsXmlNode) :
    eprSelector nested (some (namedSelector name content)) =
      if (content.find? (isNamed xmlNsAddressing wsaEpr)).isSome then
        .epr (.init (some name)) (nested (some (namedSelector name content)))
      else .text (.init (some name)) (charsAll content) := by
  rw [eprSelector, wsXmlFirstChild_eq_find?]
  rfl

theorem read_eq_value {key : Cell (Option String)} (h : (key != .uninit) = true) :
    ∃ k : Option String, key.read = .value k ∧ k.getD "" = keyText key := by
  rcases key with _ | _ | name
  · cases h
  · exact ⟨none, rfl, rfl⟩
  · exact ⟨some name, rfl, rfl⟩

mutual

theorem exists_eprSelectorNodes (lx : Libxml) : ∀ ss : List KeyValue,
    KeyValue.keysWrittenAll ss = true → ∃ nodes, eprSelectorNodes lx ss = .value nodes ∧
      (∀ n ∈ nodes, n.isNamed xmlNsWsMan wsmSelector = true) ∧
      nodes.map (fun n ↦ eprSelector nestedEpr (some n)) = KeyValue.readBackAll lx.kept ss
  | [], _ => ⟨[], by rw [eprSelectorNodes], by simp, by rw [readBackAll]; rfl⟩
  | s :: ss, h => by
    rw [keysWrittenAll, and_eq_true] at h
    obtain ⟨nodes, hnodes, hnamed, hread⟩ := exists_eprSelectorNodes lx ss h.2
    obtain ⟨content, hkey, hcontent, hselector⟩ := exists_selectorContent lx s h.1
    obtain ⟨k, hk, hname⟩ := read_eq_value hkey
    refine ⟨namedSelector (keyText s.key) content :: nodes, ?_, ?_, ?_⟩
    · rw [eprSelectorNodes, hcontent, CResult.value_bind, hk, CResult.value_bind, hnodes,
        CResult.value_bind, hname]
    · intro n hn
      rcases mem_cons.mp hn with rfl | hn
      · exact isNamed_namedSelector _ content
      · exact hnamed n hn
    · rw [map_cons, hselector, hread, readBackAll]

theorem exists_selectorContent (lx : Libxml) : ∀ s : KeyValue, s.keysWritten = true →
    ∃ content, (s.key != .uninit) = true ∧ selectorContent lx s = .value content ∧
      eprSelector nestedEpr (some (namedSelector (keyText s.key) content)) = s.readBack lx.kept
  | .text key value, h => by
    refine ⟨lx.content (some value), h, by rw [selectorContent], ?_⟩
    rw [eprSelector_named, if_neg (by simp [Libxml.content, isNamed, isElement]), readBack]
    exact congrArg (text _) String.append_empty
  | .epr key none, h => by
    rw [keysWritten, Epr.keysWrittenOpt, Bool.and_true] at h
    refine ⟨[], h, by rw [selectorContent, nestedElements], ?_⟩
    rw [eprSelector_named, readBack]
    rfl
  | .epr key (some e), h => by
    rw [keysWritten, Epr.keysWrittenOpt, Bool.and_eq_true] at h
    obtain ⟨params, hparams, hread⟩ := exists_eprParams lx e h.2
    refine ⟨_, h.1, by rw [selectorContent, nestedElements, hparams, CResult.value_bind], ?_⟩
    rw [eprSelector_named, if_pos (by rfl), readBack]
    have hselector : (namedSelector (keyText key) []).isElement = true := rfl
    exact congrArg (epr _) (hread hselector rfl (some xmlNsAddressing) (some wsaEpr) true
      (.inl rfl))

theorem exists_eprParams (lx : Libxml) : ∀ e : Epr, e.keysWritten = true →
    ∃ params, eprParams lx e = .value params ∧
      ∀ {node : WsXmlNode}, node.isElement = true → node.content = [] →
        ∀ (ns eprNodeName : Option String) (embedded : Bool),
          embedded = true ∨ hidesParams ns eprNodeName = false →
          eprDeserialize (some (node.mapContent
              (· ++ eprElements lx ns eprNodeName embedded e.address params)))
            ns eprNodeName embedded = some (e.readBack lx.kept)
  | .mk address uri selectors, h => by
    rw [Epr.keysWritten] at h
    obtain ⟨nodes, hnodes, hnamed, hread⟩ := exists_eprSelectorNodes lx selectors h
    refine ⟨_, by rw [eprParams, hnodes, CResult.value_bind], ?_⟩
    intro node helem hempty ns eprNodeName embedded hhides
    rw [Epr.readBack, ← hread]
    exact eprDeserialize_eprElements lx helem hempty hhides address uri hnamed

end

mutual

theorem eprParams_of_not_keysWritten (lx : Libxml) :
    ∀ e : Epr, e.keysWritten = false → eprParams lx e = .undefined
  | .mk address uri selectors, h => by
    rw [Epr.keysWritten] at h
    rw [eprParams, eprSelectorNodes_of_not_keysWritten lx selectors h, CResult.undefined_bind]

theorem selectorContent_of_not_keysWritten (lx : Libxml) : ∀ s : KeyValue,
    s.keysWritten = false → selectorContent lx s = .undefined ∨ s.key = .uninit
  | .text key value, h => by
    rw [keysWritten, bne_eq_false_iff_eq] at h
    exact .inr h
  | .epr key none, h => by
    rw [keysWritten, Epr.keysWrittenOpt, Bool.and_true, bne_eq_false_iff_eq] at h
    exact .inr h
  | .epr key (some e), h => by
    rw [keysWritten, Epr.keysWrittenOpt, Bool.and_eq_false_iff, bne_eq_false_iff_eq] at h
    rcases h with h | h
    · exact .inr h
    · rw [selectorContent, nestedElements, eprParams_of_not_keysWritten lx e h]
      exact .inl rfl

theorem eprSelectorNodes_of_not_keysWritten (lx : Libxml) : ∀ ss : List KeyValue,
    KeyValue.keysWrittenAll ss = false → eprSelectorNodes lx ss = .undefined
  | [], h => by
    rw [keysWrittenAll] at h
    cases h
  | s :: ss, h => by
    rw [keysWrittenAll, and_eq_false_iff] at h
    rw [eprSelectorNodes]
    rcases h with h | h
    · rcases selectorContent_of_not_keysWritten lx s h with hcontent | hkey
      · rw [hcontent, CResult.undefined_bind]
      · rw [hkey]
        cases selectorContent lx s <;> rfl
    · rw [eprSelectorNodes_of_not_keysWritten lx ss h]
      cases selectorContent lx s with
      | undefined => rfl
      | value content => cases s.key.read <;> rfl

end

theorem exists_eprSerialize (lx : Libxml) {e : Epr} (hcomplete : e.complete = true)
    (helem : node.isElement = true) (hempty : node.content = [])
    (hhides : embedded = true ∨ hidesParams ns eprNodeName = false) :
    ∃ node', eprSerialize lx node ns eprNodeName (some e) embedded = .value node' ∧
      eprDeserialize (some node') ns eprNodeName embedded = some (e.mapTexts lx.kept) := by
  obtain ⟨params, hparams, hread⟩ := exists_eprParams lx e (e.keysWritten_of_complete hcomplete)
  rw [e.readBack_of_complete lx.kept hcomplete] at hread
  refine ⟨_, ?_, hread helem hempty ns eprNodeName embedded hhides⟩
  rw [eprSerialize, hparams, CResult.value_bind]

def plainText (text : String) : Bool := !text.toList.contains '&'

theorem Libxml.kept_of_plainText (lx : Libxml) (text : String) (h : plainText text = true) :
    lx.kept text = text :=
  lx.kept_of_not_mem (by simpa [plainText] using h)

def ownerEpr : Epr :=
  .mk "http://host/wsman" "http://schema/Link"
    [.text (.init (some "Name")) "eth0",
      .epr (.init (some "Owner")) (some (.mk "http://host/wsman" "http://schema/Owner"
        [.text (.init (some "Id")) "7"]))]

end Openwsman
