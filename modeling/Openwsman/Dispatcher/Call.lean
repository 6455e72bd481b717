import Openwsman.Dispatcher.Operation
import Openwsman.Dispatcher.Routing
import Openwsman.Soap.Headers

/-!
# A call from the bytes of the request to the bytes of the response

`dispatch_inbound_call` on documents: the request is parsed and its envelope validated, a dispatch
entry is searched, the operation runs through the inbound checks, the callback and the outbound
filters, and the document that is left is written out with an HTTP status. Where no document is
left, the fault in the message is made into one at the very end.

The operation is the one of `processInboundOperation`. There an answer is known by the status of its
fault or by its body; here it is a document, with the header that the filters look at and the
namespaces that the HTTP status depends on. So the functions of `wsman-dispatcher.c` that work on
the document have a second version in the namespace `Wire`.
-/

namespace Openwsman

open Option

variable {ρ σ : Type}

/-- The callback of a service, on a state of its own, the operation, and the document that is in
`out_doc` when it is called. It returns the document that is there when it is done. -/
abbrev WireCallback (σ : Type) := σ → SoapOp WsXmlDoc → Option WsXmlDoc → σ × Option WsXmlDoc

/-- What a call depends on: the XML library, the id that `generate_uuid` makes, the endpoints, the
resource URIs of subscriptions, the dispatcher and the services. -/
structure SoapServer (ρ σ : Type) where
  lx : Libxml2
  uuid : String
  mem : ρ → WsDispatchEndPointInfo
  subscriptionUri : String → Option String
  dispatcher : Option (WsManDispatcherInfo ρ)
  service : SoapDispatch ρ → WireCallback σ

/-- What a call leaves: the processed ids, the state of the services, the entry whose callback was
invoked, the fault in the message, the document written into the response, and the HTTP status. -/
structure Call (ρ σ : Type) where
  ids : List String
  service : σ
  invoked : Option (SoapDispatch ρ) := none
  fault : Option MsgFault := none
  sent : Option WsXmlDoc := none
  httpCode : ℕ := 0

namespace Wire

/-! ## Documents of the checks -/

def notUnderstoodHeaders (lx : Libxml2) : Option (Option String × String) → List WsXmlNode
  | none => []
  | some (ns, name) =>
    [.element (some xmlNsSoap12) "NotUnderstood"
      (ns.toList.map fun ns ↦ ⟨none, "qname", makeQname lx ns name⟩) []]

def checkDocument (srv : SoapServer ρ σ) (inDoc : WsXmlNode) : SoapDoc WsXmlDoc → Option WsXmlDoc
  | .fault status notUnderstood =>
    (generateFaultDoc srv.lx srv.uuid (some inDoc) { status := status }).map
      (addSoapHeaders (notUnderstoodHeaders srv.lx notUnderstood))
  | .response _ doc => some doc

def outDocument (srv : SoapServer ρ σ) (inDoc : WsXmlNode) (op : SoapOp WsXmlDoc) :
    Option WsXmlDoc :=
  op.outDoc.bind (checkDocument srv inDoc)

/-! ## The outbound filters -/

def addressingHeaders (uuid : String) (inDoc : WsXmlNode) (doc : WsXmlDoc) : List WsXmlNode :=
  match wsmanGetSoapHeaderElement doc.root none none with
  | none => []
  | some outHeaders =>
    (if (wsXmlFirstChild (some outHeaders) xmlNsAddressing wsaMessageId).isNone &&
        !wsmanIsIdentifyRequest inDoc then
      [.elem xmlNsAddressing wsaMessageId [.text uuid]]
    else []) ++
    (match wsmanGetSoapHeaderElement inDoc (some xmlNsAddressing) (some wsaMessageId) with
    | none => []
    | some inMsgIdNode =>
      if (wsXmlFirstChild (some outHeaders) xmlNsAddressing wsaRelatesTo).isSome then []
      else [.elem xmlNsAddressing wsaRelatesTo (textContent inMsgIdNode.chars)])

def outboundAddressingFilter (uuid : String) (inDoc : WsXmlNode) (doc : WsXmlDoc) : WsXmlDoc :=
  addSoapHeaders (addressingHeaders uuid inDoc doc) doc

def checkEnvelopeSize (lx : Libxml2) (doc : WsXmlDoc) (size : ℕ) (charset : String) : Bool :=
  toUInt size != 0 && decide (toUInt size < toUInt (lx.dumpMemoryEnc charset doc).length)

def outboundControlHeaderFilter (srv : SoapServer ρ σ) (op : SoapOp WsXmlDoc) (doc : WsXmlDoc) :
    Option WsXmlDoc :=
  if checkEnvelopeSize srv.lx doc op.maxsize op.msg.charset then
    generateFaultDoc srv.lx srv.uuid (some op.inDoc)
      { status := ⟨.wsmanEncodingLimit, .wsmanDetailServiceEnvelopeLimit⟩ }
  else some doc

def wsmanAddFragementForHeader (inDoc : WsXmlNode) (doc : WsXmlDoc) : WsXmlDoc :=
  addSoapHeaders
    ((wsXmlFirstChild (wsXmlGetSoapHeader inDoc) xmlNsWsMan wsmFragmentTransfer).toList.map
      wsXmlDuplicateTree) doc

/-! ## The operation -/

def httpCodeFor (doc : WsXmlDoc) : ℕ :=
  if wsmanIsFaultEnvelope doc then wsmanFindHttpcodeForValue doc else wsmanStatusOk

def processInboundOperation (srv : SoapServer ρ σ) (dispatch : SoapDispatch ρ)
    (serviceCallback : Option (WireCallback σ)) (ids : List String) (s : σ) (inDoc : WsXmlNode)
    (msg : WsmanMessage) : Call ρ σ :=
  match serviceCallback with
  | none =>
    { ids := ids, service := s, httpCode := wsmanStatusOk
      fault := some { status := ⟨.wsaActionNotSupported, .owsmanNoDetails⟩ } }
  | some callback =>
    match processFiltersInbound ids (createOpEntry inDoc msg) with
    | (ids, op, true) =>
      match outDocument srv inDoc op with
      | none =>
        { ids := ids, service := s, httpCode := wsmanStatusOk
          fault := some { status := ⟨.wsmanInternalError, .owsmanNoDetails⟩ } }
      | some doc => { ids := ids, service := s, sent := some doc, httpCode := httpCodeFor doc }
    | (ids, op, false) =>
      let (s, out) := callback s op (outDocument srv inDoc op)
      match out with
      | none =>
        { ids := ids, service := s, invoked := some dispatch, httpCode := wsmanStatusOk
          fault := some { status := ⟨.wsaDestinationUnreachable, .wsmanDetailInvalidResourceuri⟩ } }
      | some doc =>
        match outboundControlHeaderFilter srv op (outboundAddressingFilter srv.uuid inDoc doc) with
        | none =>
          { ids := ids, service := s, invoked := some dispatch, httpCode := wsmanStatusOk
            fault := some { status := ⟨.wsmanInternalError, .owsmanNoDetails⟩ } }
        | some doc =>
          let sent :=
            if wsmanIsFaultEnvelope doc then doc else wsmanAddFragementForHeader inDoc doc
          { ids := ids, service := s, invoked := some dispatch, sent := some sent
            httpCode := httpCodeFor doc }

/-! ## The call -/

def dispatcherCreateFault (srv : SoapServer ρ σ) (inDoc : Option WsXmlNode) (call : Call ρ σ) :
    Call ρ σ :=
  match call.fault with
  | none => call
  | some fault =>
    { call with
      sent := (generateFaultDoc srv.lx srv.uuid inDoc fault).orElse fun _ ↦ call.sent
      httpCode := wsmanFindHttpcodeForFaultCode fault.status.faultCode }

variable [DecidableEq ρ]

def dispatchInboundCall (srv : SoapServer ρ σ) (ids : List String) (s : σ) (msg : WsmanMessage)
    (request : List UInt8) : Call ρ σ :=
  let inDoc := srv.lx.readMemory msg.charset request
  dispatcherCreateFault srv inDoc
    (match wsmanBuildInboundEnvelope inDoc, inDoc with
    | none, some doc =>
      match getDispatchEntry srv.mem srv.subscriptionUri srv.dispatcher doc with
      | none =>
        { ids := ids, service := s
          fault := some { status := ⟨.wsaDestinationUnreachable, .wsmanDetailInvalidResourceuri⟩ } }
      | some dispatch =>
        processInboundOperation srv dispatch (some (srv.service dispatch)) ids s doc msg
    | fault, _ => { ids := ids, service := s, fault := fault })

end Wire

def Call.response (call : Call ρ σ) (lx : Libxml2) (charset : String) : List UInt8 :=
  match call.sent with
  | none => []
  | some doc => lx.dumpMemoryEnc charset doc

/-! ## What the checks answer -/

def codedFault (code : WsmanFaultCodeType) : Bool :=
  (faultCodeEntry code).any fun e ↦
    e.code == some faultSenderCode || e.code == some faultReceiverCode

def refusedForHeader (ids : List String) (doc : WsXmlNode) : Bool :=
  messageIdFresh ids doc && featuresSupported doc && (validateMustunderstandHeaders doc).isSome

def CodedOut {δ : Type} (op : SoapOp δ) : Prop :=
  ∀ doc, op.outDoc = some doc →
    ∃ status, doc = .fault status none ∧ codedFault status.faultCode = true

section

variable {δ : Type}

theorem codedOut_generateOpFault (op : SoapOp δ) {c : WsmanFaultCodeType}
    (d : WsmanFaultDetailType) (h : codedFault c = true) : CodedOut (generateOpFault op c d) := by
  intro doc hdoc
  rw [generateOpFault, wsmanGenerateFault] at hdoc
  split at hdoc
  · exact ⟨⟨c, d⟩, (some.inj hdoc).symm, h⟩
  · cases hdoc

theorem codedOut_wsmanIsDuplicateMessageId (ids : List String) {op : SoapOp δ} (h : CodedOut op) :
    CodedOut (wsmanIsDuplicateMessageId ids op).2.1 := by
  rw [wsmanIsDuplicateMessageId]
  split
  · dsimp only
    split
    · exact codedOut_generateOpFault op _ rfl
    · split
      · exact codedOut_generateOpFault op _ rfl
      · exact h
  · split
    · exact codedOut_generateOpFault op _ rfl
    · exact h

theorem codedOut_afterEndTo {op : SoapOp δ} (h : CodedOut op) (enumurate : WsXmlNode) :
    CodedOut (afterEndTo op enumurate) := by
  rw [afterEndTo]
  split
  · exact codedOut_generateOpFault op _ rfl
  · exact h

def Flow.op : Flow δ → SoapOp δ
  | done op _ => op
  | next op _ => op

theorem codedOut_checkEnumerateFeatures {op : SoapOp δ} (h : CodedOut op)
    (header : Option WsXmlNode) (enumurate : WsXmlNode) :
    CodedOut (checkEnumerateFeatures op header enumurate).op := by
  have hend := codedOut_afterEndTo h enumurate
  rw [checkEnumerateFeatures]
  split
  · exact codedOut_generateOpFault _ _ rfl
  · split
    · exact codedOut_generateOpFault _ _ rfl
    · exact hend
  · split
    · exact codedOut_generateOpFault _ _ rfl
    · exact hend
  · split
    · exact codedOut_generateOpFault _ _ rfl
    · exact hend

theorem codedOut_checkSubscribeFeatures {op : SoapOp δ} (h : CodedOut op) (retVal : Bool)
    (subscribe : WsXmlNode) : CodedOut (checkSubscribeFeatures op retVal subscribe).1 := by
  rw [checkSubscribeFeatures]
  split
  · exact codedOut_generateOpFault op _ rfl
  split
  · exact codedOut_generateOpFault op _ rfl
  · split
    · exact codedOut_generateOpFault op _ rfl
    · exact h

theorem codedOut_checkUnsupportedFeatures {op : SoapOp δ} (h : CodedOut op) :
    CodedOut (checkUnsupportedFeatures op).1 := by
  have hsubscribe : ∀ {op : SoapOp δ} (retVal : Bool) (subscribe : Option WsXmlNode), CodedOut op →
        CodedOut (subscribe.elim (op, retVal) (checkSubscribeFeatures op retVal)).1 := by
    intro op retVal subscribe hop
    cases subscribe with
    | none => exact hop
    | some n => exact codedOut_checkSubscribeFeatures hop retVal n
  rw [checkUnsupportedFeatures]
  dsimp only
  split
  · exact codedOut_generateOpFault op _ rfl
  split
  · exact codedOut_generateOpFault op _ rfl
  cases wsXmlFirstChild (wsXmlGetSoapBody op.inDoc) xmlNsEnumeration wsenumEnumerate with
  | none => exact hsubscribe _ _ h
  | some enumurate =>
    dsimp only
    have hflow := codedOut_checkEnumerateFeatures h
      (wsmanGetSoapHeaderElement op.inDoc none none) enumurate
    cases hcheck : checkEnumerateFeatures op (wsmanGetSoapHeaderElement op.inDoc none none)
        enumurate with
    | done op' retVal =>
      rw [hcheck] at hflow
      exact hflow
    | next op' retVal =>
      rw [hcheck] at hflow
      exact hsubscribe _ _ hflow

theorem codedOut_validateControlHeaders {op : SoapOp δ} (h : CodedOut op) :
    CodedOut (validateControlHeaders op).1 := by
  rw [validateControlHeaders]
  split
  · exact codedOut_generateOpFault op _ rfl
  rw [validateOperationTimeout]
  split
  · exact h
  split
  · exact codedOut_generateOpFault _ _ rfl
  split
  · exact codedOut_generateOpFault _ _ rfl
  dsimp only
  split
  · exact codedOut_generateOpFault _ _ rfl
  · exact h

theorem codedOut_checkForDuplicateSelectors {op : SoapOp δ} (h : CodedOut op) :
    CodedOut (checkForDuplicateSelectors op).1 := by
  rw [checkForDuplicateSelectors]
  split
  · exact codedOut_generateOpFault op _ rfl
  · exact h

theorem processFiltersInbound_refused {ids ids' : List String} {op op' : SoapOp δ}
    (hop : CodedOut op) (h : processFiltersInbound ids op = (ids', op', true)) :
    ∃ status notUnderstood, op'.outDoc = some (.fault status notUnderstood) ∧
      ((refusedForHeader ids op.inDoc = true ∧ status.faultCode = .soapFaultMustunderstand) ∨
        (refusedForHeader ids op.inDoc = false ∧ codedFault status.faultCode = true)) := by
  have hcoded : ∀ {op : SoapOp δ}, CodedOut op → HasFault op →
      ∃ status, op.outDoc = some (.fault status none) ∧ codedFault status.faultCode = true := by
    rintro op hop ⟨doc, hdoc, _⟩
    obtain ⟨status, rfl, hstatus⟩ := hop doc hdoc
    exact ⟨status, hdoc, hstatus⟩
  rw [processFiltersInbound] at h
  rw [refusedForHeader]
  rcases wsmanIsDuplicateMessageId_spec ids op with ⟨hid, ids₁, hdup⟩ | ⟨hid, op₁, hdup, ho⟩
  swap
  · have hop₁ := codedOut_wsmanIsDuplicateMessageId ids hop
    simp only [hdup, if_true, Prod.mk.injEq, and_true] at h hop₁
    obtain ⟨-, rfl⟩ := h
    obtain ⟨status, hout, hstatus⟩ := hcoded hop₁ ho
    exact ⟨status, none, hout, .inr ⟨by simp [hid], hstatus⟩⟩
  simp only [hdup, Bool.false_eq_true, if_false] at h
  have hop₁ := codedOut_checkUnsupportedFeatures hop
  rcases checkUnsupportedFeatures_spec op with ⟨hfeat, hcheck⟩ | ⟨hfeat, op₁, hcheck, ho⟩
  swap
  · simp only [hcheck, if_true, Prod.mk.injEq, and_true] at h hop₁
    obtain ⟨-, rfl⟩ := h
    obtain ⟨status, hout, hstatus⟩ := hcoded hop₁ ho
    exact ⟨status, none, hout, .inr ⟨by simp [hfeat], hstatus⟩⟩
  have hin := behindFeatureCheck_inDoc op
  generalize behindFeatureCheck op = op₁ at hcheck hin
  rw [hcheck] at hop₁
  simp only [hcheck, Bool.false_eq_true, if_false] at h
  rw [hid, hfeat, Bool.and_self, Bool.true_and, ← hin]
  cases hmu : validateMustunderstandHeaders op₁.inDoc with
  | some node =>
    simp only [hmu, Prod.mk.injEq, and_true] at h
    obtain ⟨-, rfl⟩ := h
    exact ⟨_, _, rfl, .inl ⟨rfl, rfl⟩⟩
  | none =>
    simp only [hmu] at h
    have hop₂ := codedOut_validateControlHeaders hop₁
    rcases validateControlHeaders_spec op₁ with
      ⟨-, size, t, -, hval⟩ | ⟨-, op₂, hval, ho⟩
    swap
    · simp only [hval, Bool.not_false, if_true, Prod.mk.injEq, and_true] at h hop₂
      obtain ⟨-, rfl⟩ := h
      obtain ⟨status, hout, hstatus⟩ := hcoded hop₂ ho
      exact ⟨status, none, hout, .inr ⟨rfl, hstatus⟩⟩
    rw [hval] at hop₂
    simp only [hval, Bool.not_true, Bool.false_eq_true, if_false, Prod.mk.injEq] at h
    have hop₃ := codedOut_checkForDuplicateSelectors hop₂
    rcases checkForDuplicateSelectors_spec { op₁ with maxsize := size, expires := t } with
      ⟨-, heq⟩ | ⟨-, op₃, heq, ho⟩
    · rw [heq] at h
      exact absurd h.2.2 Bool.false_ne_true
    rw [heq] at h hop₃
    obtain ⟨-, rfl, -⟩ := h
    obtain ⟨status, hout, hstatus⟩ := hcoded hop₃ ho
    exact ⟨status, none, hout, .inr ⟨rfl, hstatus⟩⟩

end

/-! ## The ways a call can end -/

structure Dispatched [DecidableEq ρ] (srv : SoapServer ρ σ) (msg : WsmanMessage)
    (request : List UInt8) (doc : WsXmlNode) (disp : SoapDispatch ρ) : Prop where
  read : srv.lx.readMemory msg.charset request = some doc
  valid : wsmanIsValidEnvelope doc = none
  entry : getDispatchEntry srv.mem srv.subscriptionUri srv.dispatcher doc = some disp

theorem Dispatched.unique [DecidableEq ρ] {srv : SoapServer ρ σ} {msg : WsmanMessage}
    {request : List UInt8} {doc doc' : WsXmlNode} {disp disp' : SoapDispatch ρ}
    (h : Dispatched srv msg request doc disp) (h' : Dispatched srv msg request doc' disp') :
    doc = doc' ∧ disp = disp' := by
  obtain rfl : doc = doc' := some.inj (h.read.symm.trans h'.read)
  exact ⟨rfl, some.inj (h.entry.symm.trans h'.entry)⟩

def operationOf (ids : List String) (doc : WsXmlNode) (msg : WsmanMessage) : SoapOp WsXmlDoc :=
  (processFiltersInbound ids (createOpEntry doc msg)).2.1

def Call.faulted (srv : SoapServer ρ σ) (ids : List String) (s : σ)
    (invoked : Option (SoapDispatch ρ)) (inDoc : Option WsXmlNode) (fault : MsgFault) : Call ρ σ :=
  { ids := ids, service := s, invoked := invoked, fault := some fault
    sent := generateFaultDoc srv.lx srv.uuid inDoc fault
    httpCode := wsmanFindHttpcodeForFaultCode fault.status.faultCode }

@[simp] theorem Call.faulted_sent (srv : SoapServer ρ σ) (ids : List String) (s : σ)
    (invoked : Option (SoapDispatch ρ)) (inDoc : Option WsXmlNode) (fault : MsgFault) :
    (Call.faulted srv ids s invoked inDoc fault).sent =
      generateFaultDoc srv.lx srv.uuid inDoc fault := rfl

def unreachable : MsgFault :=
  { status := ⟨.wsaDestinationUnreachable, .wsmanDetailInvalidResourceuri⟩ }

def tooLong : MsgFault :=
  { status := ⟨.wsmanEncodingLimit, .wsmanDetailServiceEnvelopeLimit⟩ }

def serviceResult (srv : SoapServer ρ σ) (ids : List String) (s : σ) (msg : WsmanMessage)
    (doc : WsXmlNode) (disp : SoapDispatch ρ) : σ × Option WsXmlDoc :=
  srv.service disp s (operationOf ids doc msg)
    (Wire.outDocument srv doc (operationOf ids doc msg))

def tooLongFor (srv : SoapServer ρ σ) (ids : List String) (msg : WsmanMessage) (doc : WsXmlNode)
    (out : WsXmlDoc) : Bool :=
  Wire.checkEnvelopeSize srv.lx (Wire.outboundAddressingFilter srv.uuid doc out)
    (operationOf ids doc msg).maxsize msg.charset

/-- The document that is sent for one of a service. Only a response gets the fragment header. -/
def delivery (srv : SoapServer ρ σ) (doc : WsXmlNode) (out : WsXmlDoc) : WsXmlDoc :=
  let filtered := Wire.outboundAddressingFilter srv.uuid doc out
  if wsmanIsFaultEnvelope filtered then filtered else Wire.wsmanAddFragementForHeader doc filtered

inductive CallEnds [DecidableEq ρ] (srv : SoapServer ρ σ) (ids : List String) (s : σ)
    (msg : WsmanMessage) (request : List UInt8) : Call ρ σ → Prop
  | invalid {fault : MsgFault}
      (h : wsmanBuildInboundEnvelope (srv.lx.readMemory msg.charset request) = some fault) :
      CallEnds srv ids s msg request
        (.faulted srv ids s none (srv.lx.readMemory msg.charset request) fault)
  | unrouted {doc : WsXmlNode} (hread : srv.lx.readMemory msg.charset request = some doc)
      (hvalid : wsmanIsValidEnvelope doc = none)
      (hroute : getDispatchEntry srv.mem srv.subscriptionUri srv.dispatcher doc = none) :
      CallEnds srv ids s msg request (.faulted srv ids s none (some doc) unreachable)
  | refused {doc : WsXmlNode} {disp : SoapDispatch ρ} {ids' : List String} {status : WsmanStatus}
      {notUnderstood : Option (Option String × String)} {d : WsXmlDoc}
      (hd : Dispatched srv msg request doc disp) (hadm : ¬Admitted ids doc)
      (hgen : generateFaultDoc srv.lx srv.uuid (some doc) { status := status } = some d)
      (hstatus :
        (refusedForHeader ids doc = true ∧ status.faultCode = .soapFaultMustunderstand) ∨
          (refusedForHeader ids doc = false ∧ codedFault status.faultCode = true)) :
      CallEnds srv ids s msg request
        { ids := ids', service := s
          sent := some (addSoapHeaders (Wire.notUnderstoodHeaders srv.lx notUnderstood) d)
          httpCode := Wire.httpCodeFor
            (addSoapHeaders (Wire.notUnderstoodHeaders srv.lx notUnderstood) d) }
  | silent {doc : WsXmlNode} {disp : SoapDispatch ρ} {ids' : List String}
      (hd : Dispatched srv msg request doc disp) (hadm : Admitted ids doc)
      (hout : (serviceResult srv ids s msg doc disp).2 = none) :
      CallEnds srv ids s msg request
        (.faulted srv ids' (serviceResult srv ids s msg doc disp).1 (some disp) (some doc)
          unreachable)
  | limited {doc : WsXmlNode} {disp : SoapDispatch ρ} {ids' : List String} {out d : WsXmlDoc}
      (hd : Dispatched srv msg request doc disp) (hadm : Admitted ids doc)
      (hout : (serviceResult srv ids s msg doc disp).2 = some out)
      (hlong : tooLongFor srv ids msg doc out = true)
      (hgen : generateFaultDoc srv.lx srv.uuid (some doc) tooLong = some d) :
      CallEnds srv ids s msg request
        { ids := ids', service := (serviceResult srv ids s msg doc disp).1, invoked := some disp
          sent := some (if wsmanIsFaultEnvelope d then d else Wire.wsmanAddFragementForHeader doc d)
          httpCode := Wire.httpCodeFor d }
  | delivered {doc : WsXmlNode} {disp : SoapDispatch ρ} {ids' : List String} {out : WsXmlDoc}
      (hd : Dispatched srv msg request doc disp) (hadm : Admitted ids doc)
      (hout : (serviceResult srv ids s msg doc disp).2 = some out)
      (hlong : tooLongFor srv ids msg doc out = false) :
      CallEnds srv ids s msg request
        { ids := ids', service := (serviceResult srv ids s msg doc disp).1, invoked := some disp
          sent := some (delivery srv doc out)
          httpCode := Wire.httpCodeFor (Wire.outboundAddressingFilter srv.uuid doc out) }

theorem generateFaultDoc_isSome_iff (lx : Libxml2) (uuid : String) (inDoc : Option WsXmlNode)
    (fault : MsgFault) :
    (generateFaultDoc lx uuid inDoc fault).isSome = fault.status.faultCode.inFaultCodeTable := by
  rw [generateFaultDoc, isSome_map, faultCodeEntry_isSome]

theorem inFaultCodeTable_of_codedFault {code : WsmanFaultCodeType} (h : codedFault code = true) :
    code.inFaultCodeTable = true := by
  rw [codedFault] at h
  rw [← faultCodeEntry_isSome]
  cases hentry : faultCodeEntry code with
  | none => rw [hentry] at h; cases h
  | some e => rfl

theorem operationOf_spec {ids : List String} {doc : WsXmlNode} (hadm : Admitted ids doc)
    (msg : WsmanMessage) :
    (operationOf ids doc msg).inDoc = doc ∧ (operationOf ids doc msg).msg = msg ∧
      controlMaxsize (headerOf doc) = some (operationOf ids doc msg).maxsize ∧
      ∃ ids', processFiltersInbound ids (createOpEntry doc msg) =
        (ids', operationOf ids doc msg, false) := by
  rcases processFiltersInbound_spec ids (createOpEntry (δ := WsXmlDoc) doc msg) with
    ⟨-, ids', size, t, hsize, heq⟩ | ⟨hnot, -⟩
  · obtain ⟨outDoc, hbehind, -⟩ := behindFeatureCheck_createOpEntry (δ := WsXmlDoc) doc msg
    rw [hbehind] at heq
    rw [operationOf, heq]
    exact ⟨rfl, rfl, hsize, ids', rfl⟩
  · exact absurd hadm hnot

theorem processInboundOperation_ends [DecidableEq ρ] {srv : SoapServer ρ σ} {msg : WsmanMessage}
    {request : List UInt8} {doc : WsXmlNode} {disp : SoapDispatch ρ}
    (hd : Dispatched srv msg request doc disp) (ids : List String) (s : σ) :
    CallEnds srv ids s msg request
      (Wire.dispatcherCreateFault srv (some doc)
        (Wire.processInboundOperation srv disp (some (srv.service disp)) ids s doc msg)) := by
  obtain ⟨callback, hcallback⟩ : ∃ callback, srv.service disp = callback := ⟨_, rfl⟩
  rw [hcallback, Wire.processInboundOperation]
  dsimp only
  by_cases hadm : Admitted ids doc
  · obtain ⟨hin, hmsg, -, ids', heq⟩ := operationOf_spec hadm msg
    have hresult : callback s (operationOf ids doc msg)
        (Wire.outDocument srv doc (operationOf ids doc msg)) =
          serviceResult srv ids s msg doc disp := by
      rw [serviceResult, hcallback]
    rw [heq]
    dsimp only
    rw [hresult]
    cases hout : (serviceResult srv ids s msg doc disp).2 with
    | none =>
      have hends : CallEnds srv ids s msg request (.faulted srv ids'
          (serviceResult srv ids s msg doc disp).1 (some disp) (some doc) unreachable) :=
        .silent hd hadm hout
      rw [Call.faulted, unreachable] at hends
      simpa only [Wire.dispatcherCreateFault, orElse_eq_or, or_none] using hends
    | some out =>
      dsimp only
      rw [Wire.outboundControlHeaderFilter, hin, hmsg, ← tooLongFor, ← tooLong]
      cases hlong : tooLongFor srv ids msg doc out with
      | false => exact CallEnds.delivered hd hadm hout hlong
      | true =>
        rw [if_pos rfl]
        obtain ⟨d, hgen⟩ : ∃ d, generateFaultDoc srv.lx srv.uuid (some doc) tooLong = some d := by
          rw [← isSome_iff_exists, generateFaultDoc_isSome_iff]
          rfl
        rw [hgen]
        exact CallEnds.limited hd hadm hout hlong hgen
  · rcases processFiltersInbound_spec ids (createOpEntry (δ := WsXmlDoc) doc msg) with
      ⟨hyes, -⟩ | ⟨-, ids', op', heq, -⟩
    · exact absurd hyes hadm
    have hnew : CodedOut (createOpEntry (δ := WsXmlDoc) doc msg) := by
      intro d hdoc
      cases hdoc
    obtain ⟨status, notUnderstood, hout, hstatus⟩ := processFiltersInbound_refused hnew heq
    -- every fault of the checks has an entry in the table
    have htable : status.faultCode.inFaultCodeTable = true := by
      rcases hstatus with ⟨-, hcode⟩ | ⟨-, hcoded⟩
      · rw [hcode]
        rfl
      · exact inFaultCodeTable_of_codedFault hcoded
    obtain ⟨d, hgen⟩ : ∃ d,
        generateFaultDoc srv.lx srv.uuid (some doc) { status := status } = some d := by
      rw [← isSome_iff_exists, generateFaultDoc_isSome_iff]
      exact htable
    have hdocument : Wire.outDocument srv doc op' =
        some (addSoapHeaders (Wire.notUnderstoodHeaders srv.lx notUnderstood) d) := by
      rw [Wire.outDocument, hout, bind_some, Wire.checkDocument, hgen, map_some]
    rw [heq]
    dsimp only
    rw [hdocument]
    exact CallEnds.refused hd hadm hgen hstatus

theorem dispatchInboundCall_ends [DecidableEq ρ] (srv : SoapServer ρ σ) (ids : List String) (s : σ)
    (msg : WsmanMessage) (request : List UInt8) :
    CallEnds srv ids s msg request (Wire.dispatchInboundCall srv ids s msg request) := by
  rw [Wire.dispatchInboundCall]
  cases henv : wsmanBuildInboundEnvelope (srv.lx.readMemory msg.charset request) with
  | some fault =>
    have hfaulted : CallEnds srv ids s msg request
        (.faulted srv ids s none (srv.lx.readMemory msg.charset request) fault) := .invalid henv
    rw [Call.faulted] at hfaulted
    simpa only [Wire.dispatcherCreateFault, orElse_none, orElse_eq_or, or_none] using hfaulted
  | none =>
    cases hread : srv.lx.readMemory msg.charset request with
    | none => rw [hread] at henv; cases henv
    | some doc =>
      have hvalid : wsmanIsValidEnvelope doc = none := by rwa [hread] at henv
      dsimp only
      cases hroute : getDispatchEntry srv.mem srv.subscriptionUri srv.dispatcher doc with
      | none =>
        have hends : CallEnds srv ids s msg request
            (.faulted srv ids s none (some doc) unreachable) := .unrouted hread hvalid hroute
        rw [Call.faulted, unreachable] at hends
        simpa only [Wire.dispatcherCreateFault, orElse_eq_or, or_none] using hends
      | some disp =>
        exact processInboundOperation_ends ⟨hread, hvalid, hroute⟩ ids s

/-! ## Where a request goes -/

section

variable [DecidableEq ρ] {srv : SoapServer ρ σ} {ids : List String} {s : σ} {msg : WsmanMessage}
  {request : List UInt8} {doc : WsXmlNode}

theorem entry_of_invoked {disp : SoapDispatch ρ}
    (hread : srv.lx.readMemory msg.charset request = some doc)
    (h : (Wire.dispatchInboundCall srv ids s msg request).invoked = some disp) :
    getDispatchEntry srv.mem srv.subscriptionUri srv.dispatcher doc = some disp := by
  have hentry : ∀ {doc' : WsXmlNode} {disp' : SoapDispatch ρ},
      Dispatched srv msg request doc' disp' → some disp' = some disp →
        getDispatchEntry srv.mem srv.subscriptionUri srv.dispatcher doc = some disp := by
    intro doc' disp' hd heq
    obtain rfl : doc' = doc := some.inj (hd.read.symm.trans hread)
    rw [hd.entry, heq]
  have hends := dispatchInboundCall_ends srv ids s msg request
  generalize Wire.dispatchInboundCall srv ids s msg request = call at h hends
  cases hends with
  | invalid _ => cases h
  | unrouted _ _ _ => cases h
  | refused _ _ _ _ => cases h
  | silent hd _ _ => exact hentry hd h
  | limited hd _ _ _ _ => exact hentry hd h
  | delivered hd _ _ _ => exact hentry hd h

theorem dispatchInboundCall_of_admitted {disp : SoapDispatch ρ}
    (hd : Dispatched srv msg request doc disp) (hadm : Admitted ids doc) :
    (Wire.dispatchInboundCall srv ids s msg request).invoked = some disp ∧
      ∀ out, (serviceResult srv ids s msg doc disp).2 = some out →
        tooLongFor srv ids msg doc out = false →
          (Wire.dispatchInboundCall srv ids s msg request).sent = some (delivery srv doc out) := by
  have hends := dispatchInboundCall_ends srv ids s msg request
  generalize Wire.dispatchInboundCall srv ids s msg request = call at hends ⊢
  cases hends with
  | invalid h =>
    rw [hd.read, wsmanBuildInboundEnvelope, hd.valid] at h
    cases h
  | unrouted hread _ hroute =>
    obtain rfl := some.inj (hread.symm.trans hd.read)
    cases hroute.symm.trans hd.entry
  | refused hd' hnot _ _ => exact absurd ((hd'.unique hd).1 ▸ hadm) hnot
  | silent hd' _ hnone =>
    obtain ⟨rfl, rfl⟩ := hd'.unique hd
    refine ⟨rfl, ?_⟩
    intro out hout _
    cases hnone.symm.trans hout
  | limited hd' _ hout' hlong _ =>
    obtain ⟨rfl, rfl⟩ := hd'.unique hd
    refine ⟨rfl, ?_⟩
    intro out hout hshort
    obtain rfl := some.inj (hout'.symm.trans hout)
    rw [hshort] at hlong
    cases hlong
  | delivered hd' _ hout' _ =>
    obtain ⟨rfl, rfl⟩ := hd'.unique hd
    refine ⟨rfl, ?_⟩
    intro out hout _
    obtain rfl := some.inj (hout'.symm.trans hout)
    rfl

theorem dispatchInboundCall_of_invalid {fault : MsgFault}
    (hread : srv.lx.readMemory msg.charset request = some doc)
    (h : wsmanIsValidEnvelope doc = some fault) :
    Wire.dispatchInboundCall srv ids s msg request =
      Call.faulted srv ids s none (some doc) fault := by
  have hbuild : wsmanBuildInboundEnvelope (srv.lx.readMemory msg.charset request) = some fault := by
    rw [hread, wsmanBuildInboundEnvelope, h]
  rw [Wire.dispatchInboundCall, Call.faulted, hbuild, hread]
  simp only [Wire.dispatcherCreateFault, orElse_eq_or, or_none]

theorem dispatchInboundCall_of_unrouted
    (hread : srv.lx.readMemory msg.charset request = some doc)
    (hvalid : wsmanIsValidEnvelope doc = none)
    (hroute : getDispatchEntry srv.mem srv.subscriptionUri srv.dispatcher doc = none) :
    Wire.dispatchInboundCall srv ids s msg request =
      Call.faulted srv ids s none (some doc) unreachable := by
  rw [Wire.dispatchInboundCall, Call.faulted, hread, wsmanBuildInboundEnvelope, hvalid]
  dsimp only
  rw [hroute]
  simp only [Wire.dispatcherCreateFault, unreachable, orElse_eq_or, or_none]

end

/-- The callback that is invoked for a request is the one that its resource URI and its action lead
to, and it is invoked if the checks admit the request. A request with a valid envelope that leads
nowhere is answered with `DestinationUnreachable`, one with an invalid envelope with the fault of
the validation. -/
theorem call_goes_where_routed [DecidableEq ρ] (srv : SoapServer ρ σ)
    (interfaces : List (WsDispatchInterfaceInfo ρ))
    (hrt : wsCreateRuntime srv.mem (some interfaces) = some srv.dispatcher) (ids : List String)
    (s : σ) (msg : WsmanMessage) (request : List UInt8) (doc : WsXmlNode)
    (hread : srv.lx.readMemory msg.charset request = some doc)
    (hid : wsmanIsIdentifyRequest doc = false) (hev : wsmanIsEventRelatedRequest doc = false) :
    (∀ disp, (Wire.dispatchInboundCall srv ids s msg request).invoked = some disp →
        ∃ uri action, wsmanGetResourceUri doc = some uri ∧ wsmanGetAction doc = some action ∧
          RoutesTo srv.mem interfaces uri action disp) ∧
      (∀ uri action disp, wsmanIsValidEnvelope doc = none → Admitted ids doc →
        wsmanGetResourceUri doc = some uri → wsmanGetAction doc = some action →
        RoutesTo srv.mem interfaces uri action disp →
          (Wire.dispatchInboundCall srv ids s msg request).invoked = some disp) ∧
      (wsmanIsValidEnvelope doc = none →
        (∀ uri action disp, wsmanGetResourceUri doc = some uri → wsmanGetAction doc = some action →
          ¬RoutesTo srv.mem interfaces uri action disp) →
        Wire.dispatchInboundCall srv ids s msg request =
          Call.faulted srv ids s none (some doc) unreachable) ∧
      ∀ fault, wsmanIsValidEnvelope doc = some fault →
        Wire.dispatchInboundCall srv ids s msg request =
          Call.faulted srv ids s none (some doc) fault := by
  have hrouted : routedUri srv.subscriptionUri doc = wsmanGetResourceUri doc := by
    rw [routedUri, hev, if_neg Bool.false_ne_true]
  -- a dispatch entry is found for a URI and an action only
  have hentry : ∀ disp,
      getDispatchEntry srv.mem srv.subscriptionUri srv.dispatcher doc = some disp →
      ∃ uri action, wsmanGetResourceUri doc = some uri ∧ wsmanGetAction doc = some action ∧
        RoutesTo srv.mem interfaces uri action disp := by
    intro disp hdisp
    have hsome : ∃ uri action, wsmanGetResourceUri doc = some uri ∧
        wsmanGetAction doc = some action := by
      rw [getDispatchEntry, bind_eq_some_iff] at hdisp
      obtain ⟨info, -, hinfo⟩ := hdisp
      rw [wsmanDispatcher, bind_eq_some_iff] at hinfo
      obtain ⟨ep, hep, -⟩ := hinfo
      rw [routedEndPoint, hid, if_neg Bool.false_ne_true, hrouted] at hep
      cases huri : wsmanGetResourceUri doc with
      | none => rw [huri] at hep; cases hep
      | some uri =>
        cases haction : wsmanGetAction doc with
        | none => rw [huri, haction] at hep; cases hep
        | some action => exact ⟨uri, action, rfl, rfl⟩
    obtain ⟨uri, action, huri, haction⟩ := hsome
    exact ⟨uri, action, huri, haction,
      (getDispatchEntry_eq_some_iff srv.mem hrt hid (hrouted.trans huri) haction disp).mp hdisp⟩
  refine ⟨?_, ?_, ?_, ?_⟩
  · intro disp hinvoked
    exact hentry disp (entry_of_invoked hread hinvoked)
  · intro uri action disp hvalid hadm huri haction hroute
    refine (dispatchInboundCall_of_admitted ⟨hread, hvalid, ?_⟩ hadm).1
    exact (getDispatchEntry_eq_some_iff srv.mem hrt hid (hrouted.trans huri) haction disp).mpr
      hroute
  · intro hvalid hnone
    apply dispatchInboundCall_of_unrouted hread hvalid
    rw [eq_none_iff_forall_not_mem]
    intro disp hdisp
    obtain ⟨uri, action, huri, haction, hroute⟩ := hentry disp hdisp
    exact hnone uri action disp huri haction hroute
  · intro fault hfault
    exact dispatchInboundCall_of_invalid hread hfault

/-! ## A server with one interface -/

def oneDocument (doc : WsXmlNode) : Libxml2 where
  readMemory _ _ := some doc
  dumpMemoryEnc _ _ := [0]
  nsPrefix _ := "n1"
  dumpMemoryEnc_ne_nil _ _ := by simp

def transferGet : String := "http://schemas.xmlsoap.org/ws/2004/09/transfer/Get"

def linuxInterface : WsDispatchInterfaceInfo ℕ :=
  { wsmanResourceUri := some "http://schema.openwsman.org/wbem/Linux", endPoints := [0] }

def linuxServer (doc : WsXmlNode) (out : Option WsXmlDoc) : SoapServer ℕ Unit where
  lx := oneDocument doc
  uuid := "uuid:2"
  mem _ := { flags := wsDispTypeDirectGet, inAction := some transferGet }
  subscriptionUri _ := none
  dispatcher := some ⟨[linuxInterface], [(0, ⟨.serviceEndPoint, 0⟩)]⟩
  service _ s _ _ := (s, out)

def getDoc (uri : String) (more : List WsXmlNode) : WsXmlNode :=
  wsXmlCreateEnvelope
    ([.elem xmlNsAddressing wsaTo [.text "http://host:5985/wsman"],
      .elem xmlNsAddressing wsaAction [.text transferGet],
      .elem xmlNsAddressing wsaMessageId [.text "uuid:1"],
      .elem xmlNsWsMan wsmResourceUri [.text uri]] ++ more) []

def replyToAnonymous : WsXmlNode :=
  .elem xmlNsAddressing wsaReplyTo [.elem xmlNsAddressing wsaAddress [.text wsaToAnonymous]]

theorem call_goes_where_routed_linuxServer :
    ∃ uri action, wsmanGetResourceUri (getDoc "http://schema.openwsman.org/wbem/Linux"
        [replyToAnonymous]) = some uri ∧
      wsmanGetAction (getDoc "http://schema.openwsman.org/wbem/Linux" [replyToAnonymous]) =
        some action ∧
      RoutesTo (linuxServer (getDoc "http://schema.openwsman.org/wbem/Linux" [replyToAnonymous])
        none).mem [linuxInterface] uri action ⟨.serviceEndPoint, 0⟩ :=
  (call_goes_where_routed
    (linuxServer (getDoc "http://schema.openwsman.org/wbem/Linux" [replyToAnonymous]) none)
    [linuxInterface] (by rfl) [] () {} [] _ rfl (by decide) (by decide)).1 _ (by decide)

/-- A request without `wsa:ReplyTo` for a resource URI that no interface serves is answered with
another fault than `DestinationUnreachable`, since its envelope is validated first. -/
theorem unrouted_call_not_unreachable :
    wsCreateRuntime (linuxServer (getDoc "urn:other" []) none).mem (some [linuxInterface]) =
        some (linuxServer (getDoc "urn:other" []) none).dispatcher ∧
      wsmanIsIdentifyRequest (getDoc "urn:other" []) = false ∧
      wsmanIsEventRelatedRequest (getDoc "urn:other" []) = false ∧
      (∀ action disp, ¬RoutesTo (linuxServer (getDoc "urn:other" []) none).mem [linuxInterface]
        "urn:other" action disp) ∧
      wsmanGetResourceUri (getDoc "urn:other" []) = some "urn:other" ∧
      (Wire.dispatchInboundCall (linuxServer (getDoc "urn:other" []) none) [] () {} []).fault =
        some { status := ⟨.wsaMessageInformationHeaderRequired, .wsmanDetailOk⟩ } := by
  refine ⟨rfl, by decide, by decide, ?_, by decide, by decide⟩
  rintro action disp ⟨ifc, ep, hfirst, -⟩
  have hifc : ifc = linuxInterface := List.mem_singleton.mp hfirst.mem
  rcases hfirst.holds with huri | ⟨huri, -⟩
  · rw [hifc] at huri
    exact absurd huri (by decide)
  · rw [hifc] at huri
    cases huri

end Openwsman
