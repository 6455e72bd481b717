import Openwsman.Dispatcher.Answer

/-!
# How a response refers to its request

A response is to say with `wsa:RelatesTo` which message it answers, and to have a `wsa:MessageID` of
its own. Its header begins with what the request wants to have back, the children of the reference
properties and reference parameters of `wsa:ReplyTo`, which are copied whatever they are. The
`RelatesTo` is added to them; a fault gets its message id added as well, while for a response the
outbound filter adds one if it finds none.
-/

namespace Openwsman

open Wire WsXmlNode Bool List

variable {ρ σ : Type}

/-! ## Headers by name -/

def headersNamed (name : String) (header : List WsXmlNode) : List WsXmlNode :=
  (header.filter WsXmlNode.isElement).filter fun c ↦
    wsXmlIsNodeQname c (some xmlNsAddressing) (some name)

theorem headersNamed_append (name : String) (as bs : List WsXmlNode) :
    headersNamed name (as ++ bs) = headersNamed name as ++ headersNamed name bs := by
  rw [headersNamed, headersNamed, headersNamed, filter_append, filter_append]

theorem headersNamed_eq_nil {name : String} {header : List WsXmlNode}
    (h : ∀ c ∈ header, c.nsUri ≠ some xmlNsAddressing ∨ c.name ≠ name) :
    headersNamed name header = [] := by
  rw [headersNamed, filter_eq_nil_iff]
  intro c hc hq
  obtain ⟨hns, hname⟩ := (wsXmlIsNodeQname_iff c _ _).mp hq
  rcases h c (mem_of_mem_filter hc) with hne | hne
  · exact hne hns
  · exact hne hname

theorem wsXmlDuplicateTree_isElement (n : WsXmlNode) :
    (wsXmlDuplicateTree n).isElement = n.isElement := by
  cases n with
  | element ns n as cs => rw [wsXmlDuplicateTree]; rfl
  | text s => rw [wsXmlDuplicateTree]

theorem headersNamed_duplicate (name : String) (header : List WsXmlNode) :
    headersNamed name (header.map wsXmlDuplicateTree) =
      (headersNamed name header).map wsXmlDuplicateTree := by
  have hq : ∀ n, wsXmlIsNodeQname (wsXmlDuplicateTree n) (some xmlNsAddressing) (some name) =
      wsXmlIsNodeQname n (some xmlNsAddressing) (some name) := by
    intro n
    rw [wsXmlIsNodeQname, wsXmlIsNodeQname, wsXmlDuplicateTree_nsUri, wsXmlDuplicateTree_name]
  rw [headersNamed, headersNamed, filter_map, filter_map]
  congr 1
  simp only [Function.comp_def, wsXmlDuplicateTree_isElement, hq]

theorem chars_textContent (ns name text : String) :
    (WsXmlNode.elem ns name (textContent text)).chars = text := by
  rw [WsXmlNode.elem, WsXmlNode.chars, textContent]
  split
  · next h =>
    rw [charsAll, beq_iff_eq.mp h]
  · rw [charsAll, charsAll, chars, String.append_empty]

/-! ## The header of a response -/

def replyReferences (doc : WsXmlNode) : List WsXmlNode :=
  (wsmanEprFromRequestToResponse
    (wsXmlFirstChild (wsXmlGetSoapHeader doc) xmlNsAddressing wsaReplyTo)).tail

def noReferenceIds (doc : WsXmlNode) : Bool :=
  (headersNamed wsaRelatesTo (replyReferences doc)).isEmpty &&
    (headersNamed wsaMessageId (replyReferences doc)).isEmpty

structure HasMessageId (doc idNode : WsXmlNode) : Prop where
  identify : wsmanIsIdentifyRequest doc = false
  messageId : ∃ header, wsXmlGetSoapHeader doc = some header ∧
    header.childrenNamed (some xmlNsAddressing) (some wsaMessageId) = [idNode]

def relatesTo (idNode : WsXmlNode) : WsXmlNode :=
  .elem xmlNsAddressing wsaRelatesTo (textContent idNode.chars)

section

variable {doc idNode : WsXmlNode}

theorem headersNamed_responseEnvelopeHeader (h : HasMessageId doc idNode) (action : Option String)
    {name : String} (hto : wsaTo ≠ name) (haction : wsaAction ≠ name) :
    headersNamed name (responseEnvelopeHeader doc action) =
      (headersNamed name (replyReferences doc)).map wsXmlDuplicateTree ++
        headersNamed name [relatesTo idNode] := by
  obtain ⟨header, hheader, hids⟩ := h.messageId
  have hfirst : wsXmlFirstChild (some header) xmlNsAddressing wsaMessageId = some idNode := by
    rw [wsXmlFirstChild, wsXmlGetChild_some, hids]
    rfl
  have hreferences : headersNamed name (wsmanEprFromRequestToResponse
      (wsXmlFirstChild (some header) xmlNsAddressing wsaReplyTo)) =
        headersNamed name (replyReferences doc) := by
    rw [replyReferences, hheader]
    -- the address comes first and has its own name
    obtain ⟨address, rest, heq, hname⟩ : ∃ address rest, wsmanEprFromRequestToResponse
        (wsXmlFirstChild (some header) xmlNsAddressing wsaReplyTo) = address :: rest ∧
          address.name = wsaTo := ⟨_, _, rfl, rfl⟩
    rw [heq, tail_cons, ← singleton_append, headersNamed_append]
    have hnil : headersNamed name [address] = [] := by
      apply headersNamed_eq_nil
      intro c hc
      rw [mem_singleton.mp hc, hname]
      exact .inr hto
    rw [hnil, nil_append]
  rw [responseEnvelopeHeader, h.identify, if_neg Bool.false_ne_true, hheader]
  dsimp only
  rw [hfirst, headersNamed_append, headersNamed_append, headersNamed_duplicate, hreferences]
  have hactions : headersNamed name (responseAction header action) = [] := by
    apply headersNamed_eq_nil
    intro c hc
    refine .inr ?_
    cases action with
    | some action =>
      rw [mem_singleton.mp hc]
      exact haction
    | none =>
      obtain ⟨n, -, rfl⟩ := mem_map.mp hc
      exact haction
  rw [hactions, append_nil]
  rfl

theorem headersNamed_relatesTo (idNode : WsXmlNode) :
    headersNamed wsaRelatesTo [relatesTo idNode] = [relatesTo idNode] ∧
      headersNamed wsaMessageId [relatesTo idNode] = [] := ⟨rfl, rfl⟩

end

/-! ## Documents that refer to their request -/

def CorrelatedHeader (id : String) (header : List WsXmlNode) : Prop :=
  (∃ r, headersNamed wsaRelatesTo header = [r] ∧ r.chars = id) ∧
    ∃ m, headersNamed wsaMessageId header = [m]

def Correlated (id : String) (doc : WsXmlDoc) : Prop :=
  ∃ header, wsXmlGetSoapHeader doc.root = some header ∧
    (∃ r, header.childrenNamed (some xmlNsAddressing) (some wsaRelatesTo) = [r] ∧ r.chars = id) ∧
    ∃ m, header.childrenNamed (some xmlNsAddressing) (some wsaMessageId) = [m]

theorem correlated_createEnvelope_iff (id : String) (header body : List WsXmlNode)
    (pre : Option String) :
    Correlated id ⟨wsXmlCreateEnvelope header body, pre⟩ ↔ CorrelatedHeader id header := by
  rw [Correlated]
  dsimp only
  rw [wsXmlGetSoapHeader_createEnvelope]
  constructor
  · rintro ⟨_, hheader, h⟩
    cases hheader
    exact h
  · intro h
    exact ⟨_, rfl, h⟩

theorem correlatedHeader_append_iff {doc idNode : WsXmlNode} (h : HasMessageId doc idNode)
    (action : Option String) {more : List WsXmlNode} {m : WsXmlNode}
    (hrelates : headersNamed wsaRelatesTo more = []) (hids : headersNamed wsaMessageId more = [m]) :
    CorrelatedHeader idNode.chars (responseEnvelopeHeader doc action ++ more) ↔
      noReferenceIds doc = true := by
  rw [CorrelatedHeader, headersNamed_append, headersNamed_append, hrelates, hids, List.append_nil,
    headersNamed_responseEnvelopeHeader h action (by decide) (by decide),
    headersNamed_responseEnvelopeHeader h action (by decide) (by decide),
    (headersNamed_relatesTo idNode).1, (headersNamed_relatesTo idNode).2, append_nil,
    noReferenceIds, and_eq_true, List.isEmpty_iff, List.isEmpty_iff]
  constructor
  · rintro ⟨⟨r, hr, -⟩, n, hn⟩
    have hlength := congrArg length hr
    have hlength' := congrArg length hn
    simp only [length_append, length_map, length_singleton, Nat.add_eq_right] at hlength hlength'
    exact ⟨length_eq_zero_iff.mp hlength, length_eq_zero_iff.mp hlength'⟩
  · rintro ⟨hr, hn⟩
    rw [hr, hn, map_nil, nil_append, nil_append]
    exact ⟨⟨_, rfl, chars_textContent _ _ _⟩, _, rfl⟩

/-! ## Faults -/

variable {d : WsXmlDoc}

variable {doc : WsXmlNode}

theorem generateFaultDoc_header {lx : Libxml2} {uuid : String} {fault : MsgFault}
    (h : generateFaultDoc lx uuid (some doc) fault = some d) :
    ∃ action body, d = ⟨wsXmlCreateEnvelope (responseEnvelopeHeader doc action ++
      [.elem xmlNsAddressing wsaMessageId [.text uuid]]) body, some xmlNsSoap12⟩ := by
  rw [generateFaultDoc, Option.map_eq_some_iff] at h
  obtain ⟨e, -, rfl⟩ := h
  exact ⟨_, _, rfl⟩

theorem headersNamed_notUnderstood (lx : Libxml2) (n : Option (Option String × String))
    (name : String) : headersNamed name (Wire.notUnderstoodHeaders lx n) = [] := by
  apply headersNamed_eq_nil
  intro c hc
  cases n with
  | none => cases hc
  | some p =>
    rw [mem_singleton.mp hc]
    exact .inl (by decide : (some xmlNsSoap12 : Option String) ≠ some xmlNsAddressing)

def faultHeaders (lx : Libxml2) (uuid : String) (n : Option (Option String × String)) :
    List WsXmlNode :=
  .elem xmlNsAddressing wsaMessageId [.text uuid] :: Wire.notUnderstoodHeaders lx n

theorem headersNamed_faultHeaders (lx : Libxml2) (uuid : String)
    (n : Option (Option String × String)) :
    headersNamed wsaRelatesTo (faultHeaders lx uuid n) = [] ∧
      headersNamed wsaMessageId (faultHeaders lx uuid n) =
        [.elem xmlNsAddressing wsaMessageId [.text uuid]] := by
  rw [faultHeaders, ← singleton_append, headersNamed_append, headersNamed_append,
    headersNamed_notUnderstood, headersNamed_notUnderstood]
  exact ⟨rfl, rfl⟩

theorem addSoapHeaders_generated {lx : Libxml2} {uuid : String} {fault : MsgFault}
    (h : generateFaultDoc lx uuid (some doc) fault = some d) (n : Option (Option String × String)) :
    ∃ action body, addSoapHeaders (Wire.notUnderstoodHeaders lx n) d =
      ⟨wsXmlCreateEnvelope (responseEnvelopeHeader doc action ++ faultHeaders lx uuid n) body,
        some xmlNsSoap12⟩ := by
  obtain ⟨action, body, rfl⟩ := generateFaultDoc_header h
  refine ⟨action, body, ?_⟩
  rw [addSoapHeaders_createEnvelope, append_assoc, singleton_append, faultHeaders]

section

variable {doc idNode : WsXmlNode}

variable {uuid : String} {fault : MsgFault} {d : WsXmlDoc}
  (h : HasMessageId doc idNode)

include h

theorem correlated_fault_iff {lx : Libxml2}
    (hgen : generateFaultDoc lx uuid (some doc) fault = some d)
    (n : Option (Option String × String)) :
    Correlated idNode.chars (addSoapHeaders (Wire.notUnderstoodHeaders lx n) d) ↔
      noReferenceIds doc = true := by
  obtain ⟨action, body, heq⟩ := addSoapHeaders_generated hgen n
  obtain ⟨hrelates, hids⟩ := headersNamed_faultHeaders lx uuid n
  rw [heq, correlated_createEnvelope_iff, correlatedHeader_append_iff h action hrelates hids]

theorem correlated_generated_iff {lx : Libxml2}
    (hgen : generateFaultDoc lx uuid (some doc) fault = some d) :
    Correlated idNode.chars d ↔ noReferenceIds doc = true := by
  have hiff := correlated_fault_iff h hgen none
  rwa [notUnderstoodHeaders, addSoapHeaders_nil] at hiff

/-! ## The addressing filter -/

theorem headersNamed_relatesTo_ne_nil (action : Option String) (more : List WsXmlNode) :
    headersNamed wsaRelatesTo (responseEnvelopeHeader doc action ++ more) ≠ [] := by
  rw [headersNamed_append, headersNamed_responseEnvelopeHeader h action (by decide) (by decide),
    (headersNamed_relatesTo idNode).1]
  simp

theorem addressingHeaders_libraryDocument (uuid : String)
    (action : Option String) (more body : List WsXmlNode) (pre : Option String) :
    Wire.addressingHeaders uuid doc
        ⟨wsXmlCreateEnvelope (responseEnvelopeHeader doc action ++ more) body, pre⟩ =
      if headersNamed wsaMessageId (responseEnvelopeHeader doc action ++ more) = [] then
        [.elem xmlNsAddressing wsaMessageId [.text uuid]]
      else [] := by
  have hrelates := headersNamed_relatesTo_ne_nil h action more
  generalize responseEnvelopeHeader doc action ++ more = header at hrelates
  have hchild : ∀ name, wsXmlFirstChild (some (.elem xmlNsSoap12 soapHeader header))
      xmlNsAddressing name = (headersNamed name header)[0]? := fun name ↦ rfl
  have hheader : wsmanGetSoapHeaderElement (wsXmlCreateEnvelope header body) none none =
      some (.elem xmlNsSoap12 soapHeader header) := rfl
  rw [addressingHeaders, hheader]
  dsimp only
  rw [hchild, hchild, h.identify, Bool.not_false, Bool.and_true]
  have hsome : (headersNamed wsaRelatesTo header)[0]?.isSome = true := by
    cases hcs : headersNamed wsaRelatesTo header with
    | nil => exact absurd hcs hrelates
    | cons c cs => rfl
  have hfirst : (headersNamed wsaMessageId header)[0]?.isNone = true ↔
      headersNamed wsaMessageId header = [] := by
    cases headersNamed wsaMessageId header with
    | nil => exact iff_of_true rfl rfl
    | cons c cs => exact iff_of_false Bool.false_ne_true (cons_ne_nil c cs)
  rw [hsome]
  simp only [hfirst, if_true]
  -- the message id of the request may be found, but there is something that relates to it
  cases wsmanGetSoapHeaderElement doc (some xmlNsAddressing) (some wsaMessageId) <;> rw [append_nil]

theorem delivery_fault (srv : SoapServer ρ σ)
    (hgen : generateFaultDoc srv.lx uuid (some doc) fault = some d)
    (n : Option (Option String × String)) :
    delivery srv doc (addSoapHeaders (Wire.notUnderstoodHeaders srv.lx n) d) =
      addSoapHeaders (Wire.notUnderstoodHeaders srv.lx n) d := by
  have hfault : wsmanIsFaultEnvelope (addSoapHeaders (notUnderstoodHeaders srv.lx n) d) = true := by
    rw [wsmanIsFaultEnvelope_addSoapHeaders _ (notUnderstoodHeaders_name srv.lx n),
      wsmanIsFaultEnvelope_generated hgen]
  obtain ⟨action, body, heq⟩ := addSoapHeaders_generated hgen n
  rw [delivery, wsmanIsFaultEnvelope_addressing, hfault, if_pos rfl, Wire.outboundAddressingFilter,
    heq, addressingHeaders_libraryDocument h, headersNamed_append,
    (headersNamed_faultHeaders srv.lx uuid n).2, if_neg (by simp), addSoapHeaders_nil]

theorem delivery_generated (srv : SoapServer ρ σ)
    (hgen : generateFaultDoc srv.lx uuid (some doc) fault = some d) : delivery srv doc d = d := by
  have hsame := delivery_fault h srv hgen none
  rwa [notUnderstoodHeaders, addSoapHeaders_nil] at hsame

theorem correlated_response (srv : SoapServer ρ σ)
    (hrefs : noReferenceIds doc = true) (action : Option String) (body : List WsXmlNode) :
    Correlated idNode.chars
      (delivery srv doc (wsmanCreateResponseEnvelope doc action body)) := by
  -- the filter adds the message id
  have hfiltered : Wire.outboundAddressingFilter srv.uuid doc
      (wsmanCreateResponseEnvelope doc action body) =
        ⟨wsXmlCreateEnvelope (responseEnvelopeHeader doc action ++
          [.elem xmlNsAddressing wsaMessageId [.text srv.uuid]]) body, some xmlNsSoap12⟩ := by
    have hheaders := addressingHeaders_libraryDocument h srv.uuid action [] body (some xmlNsSoap12)
    have hids : headersNamed wsaMessageId (responseEnvelopeHeader doc action) = [] := by
      rw [noReferenceIds, and_eq_true, List.isEmpty_iff, List.isEmpty_iff] at hrefs
      rw [headersNamed_responseEnvelopeHeader h action (by decide) (by decide), hrefs.2,
        (headersNamed_relatesTo idNode).2]
      rfl
    rw [append_nil, if_pos hids] at hheaders
    rw [Wire.outboundAddressingFilter, wsmanCreateResponseEnvelope, hheaders,
      addSoapHeaders_createEnvelope]
  have hfragment : ∀ name, headersNamed name
      ((wsXmlFirstChild (wsXmlGetSoapHeader doc) xmlNsWsMan wsmFragmentTransfer).toList.map
        wsXmlDuplicateTree) = [] := by
    intro name
    apply headersNamed_eq_nil
    intro c hc
    obtain ⟨f, hf, rfl⟩ := mem_map.mp hc
    obtain ⟨header, hheader, -⟩ := h.messageId
    rw [hheader, Option.mem_toList] at hf
    rw [wsXmlDuplicateTree_nsUri, (wsXmlFirstChild_mem hf).2.1]
    exact .inl (by decide)
  rw [delivery, hfiltered]
  split
  · rw [correlated_createEnvelope_iff]
    exact (correlatedHeader_append_iff h action rfl rfl).mpr hrefs
  rw [Wire.wsmanAddFragementForHeader, addSoapHeaders_createEnvelope,
    correlated_createEnvelope_iff, append_assoc]
  have hids : headersNamed wsaMessageId ([.elem xmlNsAddressing wsaMessageId [.text srv.uuid]] ++
        (wsXmlFirstChild (wsXmlGetSoapHeader doc) xmlNsWsMan wsmFragmentTransfer).toList.map
          wsXmlDuplicateTree) = [.elem xmlNsAddressing wsaMessageId [.text srv.uuid]] := by
    rw [headersNamed_append, hfragment]
    rfl
  refine (correlatedHeader_append_iff h action ?_ hids).mpr hrefs
  rw [headersNamed_append, hfragment]
  rfl

end

/-! ## What is sent -/

inductive LibraryDocument (lx : Libxml2) (inDoc : WsXmlNode) (left : Option WsXmlDoc) :
    WsXmlDoc → Prop
  | response (action : Option String) (body : List WsXmlNode) :
      LibraryDocument lx inDoc left (wsmanCreateResponseEnvelope inDoc action body)
  | fault {uuid : String} {fault : MsgFault} {d : WsXmlDoc}
      (h : generateFaultDoc lx uuid (some inDoc) fault = some d) : LibraryDocument lx inDoc left d
  | untouched {d : WsXmlDoc} (h : left = some d) : LibraryDocument lx inDoc left d

def LibraryService (lx : Libxml2) (service : SoapDispatch ρ → WireCallback σ) : Prop :=
  ∀ disp s op left out, (service disp s op left).2 = some out →
    LibraryDocument lx op.inDoc left out

theorem outDocument_operationOf {srv : SoapServer ρ σ} {ids : List String} {msg : WsmanMessage}
    (hadm : Admitted ids doc) (h : Wire.outDocument srv doc (operationOf ids doc msg) = some d) :
    ∃ fault n d₀, generateFaultDoc srv.lx srv.uuid (some doc) fault = some d₀ ∧
      d = addSoapHeaders (Wire.notUnderstoodHeaders srv.lx n) d₀ := by
  rcases processFiltersInbound_spec ids (createOpEntry (δ := WsXmlDoc) doc msg) with
    ⟨-, ids', size, t, -, heq⟩ | ⟨hnot, -⟩
  · obtain ⟨outDoc, hbehind, hbody⟩ := behindFeatureCheck_createOpEntry (δ := WsXmlDoc) doc msg
    rw [hbehind] at heq
    rw [outDocument, operationOf, heq] at h
    obtain ⟨out, rfl, hout⟩ := Option.bind_eq_some_iff.mp h
    cases out with
    | fault status n =>
      rw [checkDocument, Option.map_eq_some_iff] at hout
      obtain ⟨d₀, hgen, rfl⟩ := hout
      exact ⟨_, n, d₀, hgen, rfl⟩
    | response header body => cases hbody
  · exact absurd hadm hnot

section

variable [DecidableEq ρ] {srv : SoapServer ρ σ} {msg : WsmanMessage} {request : List UInt8}
  {doc idNode : WsXmlNode}

theorem correlated_of_noReferenceIds {ids : List String} {s : σ}
    (hread : srv.lx.readMemory msg.charset request = some doc)
    (h : HasMessageId doc idNode) (hrefs : noReferenceIds doc = true)
    (hlib : LibraryService srv.lx srv.service) {d : WsXmlDoc}
    (hsent : (Wire.dispatchInboundCall srv ids s msg request).sent = some d) :
    Correlated idNode.chars d := by
  rcases sent_cases hsent with
    ⟨fault, n, d₀, hgen, rfl⟩ | ⟨doc', disp, out, hd, hadm, hout, -, rfl⟩
  · rw [hread] at hgen
    exact (correlated_fault_iff h hgen n).mpr hrefs
  obtain rfl := Option.some.inj (hd.read.symm.trans hread)
  have hdoc := hlib _ _ _ _ _ hout
  rw [(operationOf_spec hadm msg).1] at hdoc
  cases hdoc with
  | response action body => exact correlated_response h srv hrefs action body
  | fault hgen =>
    rw [delivery_generated h srv hgen]
    exact (correlated_generated_iff h hgen).mpr hrefs
  | untouched hleft =>
    obtain ⟨fault, n, d₀, hgen, rfl⟩ := outDocument_operationOf hadm hleft
    rw [delivery_fault h srv hgen n]
    exact (correlated_fault_iff h hgen n).mpr hrefs

def faultingService (lx : Libxml2) (uuid : String) : SoapDispatch ρ → WireCallback σ :=
  fun _ s op _ ↦
    (s, generateFaultDoc lx uuid (some op.inDoc) { status := ⟨.wsmanAccessDenied, .wsmanDetailOk⟩ })

omit [DecidableEq ρ] in
theorem faultingService_library (lx : Libxml2) (uuid : String) :
    LibraryService lx (faultingService lx uuid : SoapDispatch ρ → WireCallback σ) := by
  intro disp s op left out h
  rw [faultingService] at h
  dsimp only at h
  exact .fault h

theorem exists_fault_sent (ids : List String) (s : σ)
    (hread : srv.lx.readMemory msg.charset request = some doc) (h : HasMessageId doc idNode)
    (hversion : versionMismatch doc = false)
    (hservice : srv.service = faultingService srv.lx srv.uuid) :
    ∃ fault n d, generateFaultDoc srv.lx srv.uuid (some doc) fault = some d ∧
      (Wire.dispatchInboundCall srv ids s msg request).sent =
        some (addSoapHeaders (Wire.notUnderstoodHeaders srv.lx n) d) := by
  cases hsent : (dispatchInboundCall srv ids s msg request).sent with
  | none =>
    rw [sent_eq_none_iff, hread, Option.any_some, hversion] at hsent
    cases hsent
  | some d =>
    rcases sent_cases hsent with
      ⟨fault, n, d₀, hgen, rfl⟩ | ⟨doc', disp, out, hd, hadm, hout, -, rfl⟩
    · rw [hread] at hgen
      exact ⟨fault, n, d₀, hgen, rfl⟩
    obtain rfl := Option.some.inj (hd.read.symm.trans hread)
    rw [serviceResult, hservice, faultingService, (operationOf_spec hadm msg).1] at hout
    dsimp only at hout
    refine ⟨_, none, _, hout, ?_⟩
    rw [delivery_generated h srv hout, notUnderstoodHeaders, addSoapHeaders_nil]

end

def referringDoc (references : List WsXmlNode) : WsXmlNode :=
  getDoc "http://schema.openwsman.org/wbem/Linux"
    [.elem xmlNsAddressing wsaReplyTo [.elem xmlNsAddressing wsaAddress [.text wsaToAnonymous],
      .elem xmlNsAddressing wsaReferenceParameters references]]

def getMessageId : WsXmlNode := .elem xmlNsAddressing wsaMessageId [.text "uuid:1"]

theorem hasMessageId_referringDoc (references : List WsXmlNode) :
    HasMessageId (referringDoc references) getMessageId := ⟨rfl, _, rfl, rfl⟩

end Openwsman
