import Openwsman.Soap.Parts

/-!
# Headers added to a document

The dispatcher adds elements to the header of a document that a service has made: the message id and
what it relates to, the header that was not understood, the fragment that was asked for. They go to
the end of what `ws_xml_get_soap_header` returns, which is the first child of the envelope whatever
its name. A document that is no envelope stays as it is.

The dispatcher looks at the body before and behind such an edit. As long as no new element is called
`Fault`, what it finds there is the same, even where the first child of the envelope is its body.
-/

namespace Openwsman

open WsXmlNode List

def WsXmlNode.appendContent (new : List WsXmlNode) : WsXmlNode → WsXmlNode
  | element ns n as cs => element ns n as (cs ++ new)
  | text s => text s

def onFirstElement (f : WsXmlNode → WsXmlNode) : List WsXmlNode → List WsXmlNode
  | [] => []
  | c :: cs => if c.isElement then f c :: cs else c :: onFirstElement f cs

def addSoapHeaders (new : List WsXmlNode) (doc : WsXmlDoc) : WsXmlDoc :=
  match doc.root with
  | .element ns n as cs =>
    if (wsXmlGetSoapEnvelope doc.root).isSome then
      { doc with root := .element ns n as (onFirstElement (·.appendContent new) cs) }
    else doc
  | .text _ => doc

theorem onFirstElement_id {f : WsXmlNode → WsXmlNode} (hf : ∀ n, f n = n) (cs : List WsXmlNode) :
    onFirstElement f cs = cs := by
  induction cs with
  | nil => rfl
  | cons c cs ih => rw [onFirstElement, hf, ih, ite_self]

@[simp] theorem addSoapHeaders_nil (doc : WsXmlDoc) : addSoapHeaders [] doc = doc := by
  obtain ⟨root, pre⟩ := doc
  cases root with
  | text s => rfl
  | element ns n as cs =>
    have happend : ∀ n : WsXmlNode, n.appendContent [] = n := by
      intro n
      cases n with
      | element ns n as cs => rw [appendContent, append_nil]
      | text s => rfl
    rw [addSoapHeaders]
    dsimp only
    rw [onFirstElement_id happend, ite_self]

/-! ## Names stay -/

variable (new : List WsXmlNode)

@[simp] theorem appendContent_nsUri (n : WsXmlNode) :
    (n.appendContent new).nsUri = n.nsUri := by
  cases n <;> rfl

@[simp] theorem appendContent_name (n : WsXmlNode) :
    (n.appendContent new).name = n.name := by
  cases n <;> rfl

@[simp] theorem appendContent_isElement (n : WsXmlNode) :
    (n.appendContent new).isElement = n.isElement := by
  cases n <;> rfl

theorem elements_appendContent {n : WsXmlNode} (h : n.isElement = true) :
    (n.appendContent new).elements = n.elements ++ new.filter WsXmlNode.isElement := by
  cases n with
  | element ns nm as cs => exact filter_append ..
  | text s => cases h

@[simp] theorem appendContent_isNodeQname (n : WsXmlNode) (ns name : Option String) :
    wsXmlIsNodeQname (n.appendContent new) ns name = wsXmlIsNodeQname n ns name := by
  rw [wsXmlIsNodeQname, wsXmlIsNodeQname, appendContent_nsUri, appendContent_name]

theorem filter_onFirstElement {f : WsXmlNode → WsXmlNode}
    (hf : ∀ n, (f n).isElement = n.isElement) (cs : List WsXmlNode) :
    (onFirstElement f cs).filter WsXmlNode.isElement =
      (cs.filter WsXmlNode.isElement).modifyHead f := by
  induction cs with
  | nil => rfl
  | cons c cs ih =>
    rw [onFirstElement]
    by_cases hc : c.isElement = true
    · rw [if_pos hc, filter_cons_of_pos (by rw [hf]; exact hc), filter_cons_of_pos hc,
        modifyHead_cons]
    · rw [if_neg hc, filter_cons_of_neg hc, filter_cons_of_neg hc, ih]

theorem mem_elements_isElement {p n : WsXmlNode} (h : n ∈ p.elements) : n.isElement = true :=
  of_mem_filter h

section

variable (new : List WsXmlNode) (doc : WsXmlDoc)

theorem addSoapHeaders_cases :
    (wsXmlGetSoapEnvelope doc.root = none ∧ addSoapHeaders new doc = doc) ∨
      (wsXmlGetSoapEnvelope doc.root = some doc.root ∧
        wsXmlGetSoapEnvelope (addSoapHeaders new doc).root = some (addSoapHeaders new doc).root ∧
        (addSoapHeaders new doc).root.nsUri = doc.root.nsUri ∧
        (addSoapHeaders new doc).root.name = doc.root.name ∧
        (addSoapHeaders new doc).root.elements =
          doc.root.elements.modifyHead (·.appendContent new)) := by
  obtain ⟨root, pre⟩ := doc
  cases henv : wsXmlGetSoapEnvelope root with
  | none =>
    refine .inl ⟨rfl, ?_⟩
    cases root with
    | element ns n as cs => rw [addSoapHeaders]; dsimp only; rw [henv]; rfl
    | text s => rfl
  | some env =>
    have heq := (wsXmlGetSoapEnvelope_eq_some henv).1
    subst heq
    refine .inr ⟨rfl, ?_⟩
    cases env with
    | text s => cases henv
    | element ns n as cs =>
      have hroot : addSoapHeaders new ⟨.element ns n as cs, pre⟩ =
          ⟨.element ns n as (onFirstElement (·.appendContent new) cs), pre⟩ := by
        rw [addSoapHeaders]
        dsimp only
        rw [henv]
        rfl
      rw [hroot]
      refine ⟨?_, rfl, rfl, filter_onFirstElement (appendContent_isElement new) cs⟩
      -- the test for an envelope reads the name only
      rw [wsXmlGetSoapEnvelope] at henv ⊢
      split at henv
      · next h => exact if_pos h
      · cases henv

@[simp] theorem addSoapHeaders_prefixS : (addSoapHeaders new doc).prefixS = doc.prefixS := by
  rw [addSoapHeaders]
  split
  · split <;> rfl
  · rfl

/-! ## The body stays -/

theorem wsXmlGetSoapBody_addSoapHeaders :
    wsXmlGetSoapBody (addSoapHeaders new doc).root = wsXmlGetSoapBody doc.root ∨
      ∃ body, body.isElement = true ∧ wsXmlGetSoapBody doc.root = some body ∧
        wsXmlGetSoapBody (addSoapHeaders new doc).root = some (body.appendContent new) := by
  rcases addSoapHeaders_cases new doc with ⟨-, heq⟩ | ⟨henv, henv', hns, -, helems⟩
  · rw [heq]
    exact .inl rfl
  rw [wsXmlGetSoapBody, wsXmlGetSoapBody, wsXmlGetSoapElement, wsXmlGetSoapElement, henv, henv']
  dsimp only
  rw [wsXmlGetChild_any, wsXmlGetChild_any, wsXmlGetChild_any, wsXmlGetChild_any, helems, hns]
  cases hel : doc.root.elements with
  | nil => exact .inl rfl
  | cons first rest =>
    have hfirst : first.isElement = true := by
      apply mem_elements_isElement (p := doc.root)
      rw [hel]
      exact mem_cons_self
    simp only [modifyHead_cons, getElem?_cons_zero, appendContent_isNodeQname, getElem?_cons_succ]
    by_cases hq : wsXmlIsNodeQname first doc.root.nsUri (some soapBody) = true
    · rw [if_pos hq, if_pos hq]
      exact .inr ⟨first, hfirst, rfl, rfl⟩
    · rw [if_neg hq, if_neg hq, if_neg (by decide), if_neg (by decide)]
      exact .inl rfl

theorem childrenNamed_appendContent {n : WsXmlNode} (hn : n.isElement = true) {name : String}
    (ns : Option String) (h : ∀ c ∈ new, c.name ≠ name) :
    (n.appendContent new).childrenNamed ns (some name) = n.childrenNamed ns (some name) := by
  have hnone : (new.filter isElement).filter (fun c ↦ wsXmlIsNodeQname c ns (some name)) = [] := by
    rw [filter_eq_nil_iff]
    intro c hc
    have hne : name ≠ c.name := (h c (mem_of_mem_filter hc)).symm
    simp [wsXmlIsNodeQname, hne]
  rw [childrenNamed, childrenNamed, elements_appendContent new hn, filter_append, hnone, append_nil]

variable {new}

theorem wsmanIsFaultEnvelope_addSoapHeaders (h : ∀ c ∈ new, c.name ≠ soapFault) :
    wsmanIsFaultEnvelope (addSoapHeaders new doc) = wsmanIsFaultEnvelope doc := by
  rw [wsmanIsFaultEnvelope, wsmanIsFaultEnvelope]
  rcases wsXmlGetSoapBody_addSoapHeaders new doc with heq | ⟨body, hbody, hold, hnew⟩
  · rw [heq]
  · rw [hold, hnew, wsXmlFirstChild, wsXmlFirstChild, wsXmlGetChild_some, wsXmlGetChild_some,
      childrenNamed_appendContent new hbody _ h]

theorem faultCodeValue_addSoapHeaders (h : ∀ c ∈ new, c.name ≠ soapFault) :
    faultCodeValue (addSoapHeaders new doc) = faultCodeValue doc := by
  rw [faultCodeValue, faultCodeValue, addSoapHeaders_prefixS]
  rcases addSoapHeaders_cases new doc with ⟨-, heq⟩ | ⟨-, -, hns, hname, helems⟩
  · rw [heq]
  cases doc.prefixS with
  | none => rfl
  | some ns =>
    dsimp only
    have hq : wsXmlIsNodeQname (addSoapHeaders new doc).root (some ns) (some soapEnvelope) =
        wsXmlIsNodeQname doc.root (some ns) (some soapEnvelope) := by
      rw [wsXmlIsNodeQname, wsXmlIsNodeQname, hns, hname]
    have hbelow : ∀ n : WsXmlNode, n.isElement = true →
        xpathNodes ns [soapFault, soapCode, soapValue] (n.appendContent new) =
          xpathNodes ns [soapFault, soapCode, soapValue] n := by
      intro n hn
      rw [xpathNodes, xpathNodes, childrenNamed_appendContent new hn _ h]
    have hpath : xpathNodes ns [soapBody, soapFault, soapCode, soapValue]
        (addSoapHeaders new doc).root =
          xpathNodes ns [soapBody, soapFault, soapCode, soapValue] doc.root := by
      rw [xpathNodes, xpathNodes, childrenNamed, childrenNamed, helems]
      cases hel : doc.root.elements with
      | nil => rfl
      | cons first rest =>
        have hfirst : first.isElement = true := by
          apply mem_elements_isElement (p := doc.root)
          rw [hel]
          exact mem_cons_self
        rw [modifyHead_cons, filter_cons, filter_cons, appendContent_isNodeQname]
        split
        · rw [flatMap_cons, flatMap_cons, hbelow first hfirst]
        · rfl
    rw [hq, hpath]

end

/-! ## Envelopes of the library -/

@[simp] theorem addSoapHeaders_createEnvelope (new header body : List WsXmlNode)
    (pre : Option String) :
    addSoapHeaders new ⟨wsXmlCreateEnvelope header body, pre⟩ =
      ⟨wsXmlCreateEnvelope (header ++ new) body, pre⟩ := rfl

@[simp] theorem wsXmlGetSoapHeader_createEnvelope (header body : List WsXmlNode) :
    wsXmlGetSoapHeader (wsXmlCreateEnvelope header body) =
      some (.elem xmlNsSoap12 soapHeader header) := rfl

end Openwsman
