import Openwsman.Soap.Envelope

/-!
# The header and the body of a document

Every function that reads an addressing or a control header starts from `ws_xml_get_soap_header` and
goes on to a child of what that returns (`ws_xml_get_child`) or to an element anywhere below it
(`wsman_get_soap_header_element`). The two accessors for the parts of an envelope look at positions
and names together, and differ in what they do when the name is another one.
-/

namespace Openwsman

open Option List

/-! ## Parts -/

def IsPart (doc : WsXmlNode) (name : String) (n : WsXmlNode) : Prop :=
  ∃ env, wsXmlGetSoapEnvelope doc = some env ∧ n ∈ env.elements ∧ n.nsUri = env.nsUri ∧
    n.name = name

inductive WsXmlNode.Within : WsXmlNode → WsXmlNode → Prop where
  | refl (n : WsXmlNode) : Within n n
  | child {n c p : WsXmlNode} (hc : c ∈ p.content) (h : Within n c) : Within n p

theorem wsXmlGetSoapBody_isPart {doc n : WsXmlNode} (h : wsXmlGetSoapBody doc = some n) :
    IsPart doc soapBody n := by
  rw [wsXmlGetSoapBody_eq, bind_eq_some_iff] at h
  obtain ⟨env, henv, hfind⟩ := h
  obtain ⟨rfl, ns, hns⟩ := wsXmlGetSoapEnvelope_eq_some henv
  -- whichever child is returned has been tested for the name
  have hbody : isSoapBody env n = true := find?_some hfind
  rw [isSoapBody, hns, wsXmlIsNodeQname_iff] at hbody
  exact ⟨env, henv, mem_of_mem_take (mem_of_find?_eq_some hfind), hbody.1.trans hns.symm, hbody.2⟩

/-! ## Fields -/

mutual

theorem wsXmlFindInTree_within {ns name : Option String} {f : WsXmlNode} :
    ∀ {n : WsXmlNode}, wsXmlFindInTree ns name n = some f → f.Within n
  | .element nsUri nm as cs => by
    intro h
    rw [wsXmlFindInTree] at h
    split at h
    · cases h
      exact .refl _
    · obtain ⟨c, hc, hf⟩ := wsXmlFindInTrees_within h
      exact .child hc hf
  | .text s => by
    intro h
    rw [wsXmlFindInTree] at h
    cases h

theorem wsXmlFindInTrees_within {ns name : Option String} {f : WsXmlNode} :
    ∀ {cs : List WsXmlNode}, wsXmlFindInTrees ns name cs = some f → ∃ c ∈ cs, f.Within c
  | [] => by
    intro h
    rw [wsXmlFindInTrees] at h
    cases h
  | c :: cs => by
    intro h
    rw [wsXmlFindInTrees] at h
    cases hc : wsXmlFindInTree ns name c with
    | some d =>
      rw [hc, orElse_some] at h
      exact ⟨c, mem_cons_self, some.inj h ▸ wsXmlFindInTree_within hc⟩
    | none =>
      rw [hc, orElse_none] at h
      obtain ⟨d, hd, hf⟩ := wsXmlFindInTrees_within h
      exact ⟨d, mem_cons_of_mem _ hd, hf⟩

end

theorem wsXmlFirstChild_mem {p f : WsXmlNode} {ns name : String}
    (h : wsXmlFirstChild (some p) ns name = some f) :
    f ∈ p.elements ∧ f.nsUri = some ns ∧ f.name = name := by
  rw [wsXmlFirstChild, wsXmlGetChild_some] at h
  exact mem_childrenNamed.mp (mem_of_getElem? h)

theorem headerField_within {doc f : WsXmlNode} {ns name : String}
    (h : wsXmlFirstChild (wsXmlGetSoapHeader doc) ns name = some f ∨
      wsmanGetSoapHeaderElement doc (some ns) (some name) = some f) :
    ∃ n, wsXmlGetSoapHeader doc = some n ∧ f.Within n := by
  rw [wsmanGetSoapHeaderElement] at h
  cases hn : wsXmlGetSoapHeader doc with
  | none => rw [hn] at h; simp at h
  | some n =>
    rw [hn] at h
    refine ⟨n, rfl, ?_⟩
    rcases h with hchild | htree
    · have hmem := (wsXmlFirstChild_mem hchild).1
      exact .child (mem_of_mem_filter hmem) (.refl f)
    · exact wsXmlFindInTree_within htree

/-! ## When header and body are kept apart -/

structure PartsSeparate (doc : WsXmlNode) : Prop where
  header : ∀ n, wsXmlGetSoapHeader doc = some n → IsPart doc soapHeader n
  header_absent : (∀ c, ¬IsPart doc soapHeader c) → wsXmlGetSoapHeader doc = none
  body : ∀ n, wsXmlGetSoapBody doc = some n → IsPart doc soapBody n
  body_absent : (∀ c, ¬IsPart doc soapBody c) → wsXmlGetSoapBody doc = none
  accepted : wsmanIsValidEnvelope doc = none → ∃ n, IsPart doc soapHeader n
  field : ∀ ns name f, wsXmlFirstChild (wsXmlGetSoapHeader doc) ns name = some f ∨
    wsmanGetSoapHeaderElement doc (some ns) (some name) = some f →
      ∃ n, IsPart doc soapHeader n ∧ f.Within n
  not_body : ∀ n, wsXmlGetSoapHeader doc = some n → ¬IsPart doc soapBody n

def headerFirst (doc : WsXmlNode) : Bool :=
  match wsXmlGetSoapEnvelope doc with
  | none => true
  | some env => env.elements[0]?.all fun n ↦ n.nsUri == env.nsUri && n.name == soapHeader

theorem headerFirst_iff (doc : WsXmlNode) :
    headerFirst doc = true ↔ ∀ n, wsXmlGetSoapHeader doc = some n → IsPart doc soapHeader n := by
  rw [headerFirst, wsXmlGetSoapHeader_eq]
  cases henv : wsXmlGetSoapEnvelope doc with
  | none => simp
  | some env =>
    dsimp only
    rw [bind_some]
    cases hfirst : env.elements[0]? with
    | none => simp
    | some first =>
      rw [all_some, Bool.and_eq_true, beq_iff_eq, beq_iff_eq]
      constructor
      · rintro ⟨hns, hname⟩ n hn
        cases hn
        exact ⟨env, henv, mem_of_getElem? hfirst, hns, hname⟩
      · intro h
        obtain ⟨env', henv', _, hns, hname⟩ := h first rfl
        rw [henv] at henv'
        cases henv'
        exact ⟨hns, hname⟩

/-- Header and body are kept apart in exactly the documents in which the header comes first. In any
other envelope its first child, which may be the body, takes the place of the header. -/
theorem partsSeparate_iff_headerFirst (doc : WsXmlNode) :
    PartsSeparate doc ↔ headerFirst doc = true := by
  constructor
  · intro h
    exact (headerFirst_iff doc).mpr h.header
  intro h
  have hheader := (headerFirst_iff doc).mp h
  refine ⟨hheader, ?_, fun n ↦ wsXmlGetSoapBody_isPart, ?_, ?_, ?_, ?_⟩
  · intro habsent
    rw [eq_none_iff_forall_not_mem]
    intro n hn
    exact habsent n (hheader n hn)
  · intro habsent
    rw [eq_none_iff_forall_not_mem]
    intro n hn
    exact habsent n (wsXmlGetSoapBody_isPart hn)
  · intro hvalid
    obtain ⟨-, n, hn⟩ := wsmanIsValidEnvelope_eq_none hvalid
    exact ⟨n, hheader n hn⟩
  · intro ns name f hf
    obtain ⟨n, hn, hwithin⟩ := headerField_within hf
    exact ⟨n, hheader n hn, hwithin⟩
  · intro n hn hbody
    -- a node has only one name
    obtain ⟨_, _, _, _, hname⟩ := hheader n hn
    obtain ⟨_, _, _, _, hname'⟩ := hbody
    exact absurd (hname.symm.trans hname') (by decide)

def headerlessDoc : WsXmlNode :=
  .elem xmlNsSoap12 soapEnvelope
    [.elem xmlNsSoap12 soapBody
      [.elem xmlNsAddressing wsaTo [.text "http://host:5985/wsman"],
        .elem xmlNsAddressing wsaAction
          [.text "http://schemas.xmlsoap.org/ws/2004/09/transfer/Get"],
        .elem xmlNsAddressing wsaReplyTo [.elem xmlNsAddressing wsaAddress [.text wsaToAnonymous]],
        .elem xmlNsWsMan wsmResourceUri [.text "http://schema.openwsman.org/wbem/Linux"]]]

/-- Validation accepts the envelope without a header, and the resource URI is read from its body. -/
theorem not_partsSeparate_headerlessDoc :
    wsmanIsValidEnvelope headerlessDoc = none ∧
      (∀ n, ¬IsPart headerlessDoc soapHeader n) ∧
      wsXmlGetSoapHeader headerlessDoc = wsXmlGetSoapBody headerlessDoc ∧
      (wsXmlFirstChild (wsXmlGetSoapHeader headerlessDoc) xmlNsWsMan wsmResourceUri).isSome = true ∧
      ¬PartsSeparate headerlessDoc := by
  have hvalid : wsmanIsValidEnvelope headerlessDoc = none := by decide
  have hpart : ∀ n, ¬IsPart headerlessDoc soapHeader n := by
    rintro n ⟨env, henv, hmem, _, hname⟩
    obtain ⟨rfl, _⟩ := wsXmlGetSoapEnvelope_eq_some henv
    have hbody : n.name = soapBody := by
      rw [headerlessDoc, WsXmlNode.elements, WsXmlNode.elem, WsXmlNode.content,
        mem_filter, mem_singleton] at hmem
      rw [hmem.1]
      rfl
    exact absurd (hname.symm.trans hbody) (by decide)
  refine ⟨hvalid, hpart, rfl, by decide, ?_⟩
  intro h
  obtain ⟨n, hn⟩ := h.accepted hvalid
  exact hpart n hn

end Openwsman
