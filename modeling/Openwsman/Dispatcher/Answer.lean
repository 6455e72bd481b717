import Openwsman.Dispatcher.Call

/-!
# The answer and its HTTP status

Every way out of a call is meant to leave a document for the client and an HTTP status that fits it.
A fault in the message becomes a document through the table of faults and gets its status from
there; a document that the operation left gets its status from the text of its fault code. The two
agree on the codes for sender and receiver. They do not on the third code of the table, and there is
a fault of the envelope that has no entry at all.
-/

namespace Openwsman

open Wire Option List

variable {ρ σ : Type}

/-! ## Faults that the table makes -/

section Generated

variable {lx : Libxml2} {uuid : String} {inDoc : Option WsXmlNode} {fault : MsgFault} {d : WsXmlDoc}

theorem generateFaultDoc_eq_some (h : generateFaultDoc lx uuid inDoc fault = some d) :
    ∃ e header reason detail, faultCodeEntry fault.status.faultCode = some e ∧
      d = ⟨wsXmlCreateEnvelope header [faultElement lx e reason detail], some xmlNsSoap12⟩ := by
  rw [generateFaultDoc, map_eq_some_iff] at h
  obtain ⟨e, hentry, rfl⟩ := h
  exact ⟨e, _, _, _, hentry, rfl⟩

theorem wsmanIsFaultEnvelope_generated (h : generateFaultDoc lx uuid inDoc fault = some d) :
    wsmanIsFaultEnvelope d = true := by
  obtain ⟨e, header, reason, detail, -, rfl⟩ := generateFaultDoc_eq_some h
  rfl

theorem head?_xpathNodes_cons {ns step : String} {path : List String} {n c v : WsXmlNode}
    {rest : List WsXmlNode} (hel : n.elements = c :: rest)
    (hq : wsXmlIsNodeQname c (some ns) (some step) = true)
    (hv : (xpathNodes ns path c).head? = some v) :
    (xpathNodes ns (step :: path) n).head? = some v := by
  rw [xpathNodes, WsXmlNode.childrenNamed, hel, filter_cons, if_pos hq, flatMap_cons,
    head?_append, hv, some_or]

theorem faultCodeValue_generated {e : WsmanFaultCodeEntry}
    (hentry : faultCodeEntry fault.status.faultCode = some e)
    (h : generateFaultDoc lx uuid inDoc fault = some d) :
    faultCodeValue d = e.code.map (makeQname lx xmlNsSoap12) := by
  obtain ⟨e', header, reason, detail, hentry', rfl⟩ := generateFaultDoc_eq_some h
  obtain rfl : e' = e := some.inj (hentry'.symm.trans hentry)
  -- the steps below the body lead to first children
  have hpath : (xpathNodes xmlNsSoap12 [soapBody, soapFault, soapCode, soapValue]
      (wsXmlCreateEnvelope header [faultElement lx e' reason detail])).head? =
        some (.elem xmlNsSoap12 soapValue
          (e'.code.toList.map fun c ↦ .text (makeQname lx xmlNsSoap12 c))) := by
    have hbody : xpathNodes xmlNsSoap12 [soapBody, soapFault, soapCode, soapValue]
        (wsXmlCreateEnvelope header [faultElement lx e' reason detail]) =
          xpathNodes xmlNsSoap12 [soapFault, soapCode, soapValue]
            (.elem xmlNsSoap12 soapBody [faultElement lx e' reason detail]) ++ [] := rfl
    rw [hbody, append_nil]
    refine head?_xpathNodes_cons rfl rfl ?_
    refine head?_xpathNodes_cons rfl rfl ?_
    refine head?_xpathNodes_cons rfl rfl ?_
    cases e'.code <;> rfl
  have hroot : wsXmlIsNodeQname (wsXmlCreateEnvelope header [faultElement lx e' reason detail])
      (some xmlNsSoap12) (some soapEnvelope) = true := rfl
  rw [faultCodeValue]
  dsimp only
  rw [if_pos hroot, hpath, bind_some]
  cases e'.code with
  | none => rfl
  | some c => simp [directText, WsXmlNode.content, WsXmlNode.elem]

theorem makeQname_soap12 (lx : Libxml2) (name : String) :
    makeQname lx xmlNsSoap12 name = "s:" ++ name := by
  have hprefix : wsNsData.lookup xmlNsSoap12 = some "s" := rfl
  have hcolon : "s" ++ ":" = "s:" := rfl
  rw [makeQname, hprefix, getD_some, hcolon]

def uncodedFault (doc : WsXmlDoc) : Bool :=
  wsmanIsFaultEnvelope doc && faultCodeValue doc != some faultReceiverCodeNs &&
    faultCodeValue doc != some faultSenderCodeNs

theorem uncodedFault_generated (h : generateFaultDoc lx uuid inDoc fault = some d) :
    uncodedFault d = !codedFault fault.status.faultCode := by
  obtain ⟨e, -, -, -, hentry, -⟩ := generateFaultDoc_eq_some h
  rw [uncodedFault, wsmanIsFaultEnvelope_generated h, faultCodeValue_generated hentry h, codedFault,
    hentry, any_some, Bool.true_and]
  cases e.code with
  | none => rfl
  | some c =>
    have hsender : faultSenderCodeNs = "s:" ++ faultSenderCode := rfl
    have hreceiver : faultReceiverCodeNs = "s:" ++ faultReceiverCode := rfl
    rw [map_some, makeQname_soap12, hsender, hreceiver, Bool.eq_iff_iff]
    simp only [Bool.and_eq_true, bne_iff_ne, ne_eq, some.injEq, String.append_right_inj,
      Bool.not_eq_true', Bool.or_eq_false_iff, beq_eq_false_iff_ne]
    exact and_comm

end Generated

/-! ## Headers do not touch the status -/

theorem uncodedFault_addSoapHeaders {new : List WsXmlNode} (doc : WsXmlDoc)
    (h : ∀ c ∈ new, c.name ≠ soapFault) :
    uncodedFault (addSoapHeaders new doc) = uncodedFault doc := by
  rw [uncodedFault, uncodedFault, wsmanIsFaultEnvelope_addSoapHeaders doc h,
    faultCodeValue_addSoapHeaders doc h]

theorem notUnderstoodHeaders_name (lx : Libxml2) (n : Option (Option String × String)) :
    ∀ c ∈ Wire.notUnderstoodHeaders lx n, c.name ≠ soapFault := by
  intro c hc
  cases n with
  | none => cases hc
  | some p =>
    obtain rfl := mem_singleton.mp hc
    exact (by decide : "NotUnderstood" ≠ soapFault)

theorem addressingHeaders_name (uuid : String) (inDoc : WsXmlNode) (doc : WsXmlDoc) :
    ∀ c ∈ Wire.addressingHeaders uuid inDoc doc, c.name ≠ soapFault := by
  intro c hc
  rw [addressingHeaders] at hc
  split at hc
  · cases hc
  rcases mem_append.mp hc with hc | hc
  · split at hc
    · obtain rfl := mem_singleton.mp hc
      exact (by decide : wsaMessageId ≠ soapFault)
    · cases hc
  · split at hc
    · cases hc
    split at hc
    · cases hc
    · obtain rfl := mem_singleton.mp hc
      exact (by decide : wsaRelatesTo ≠ soapFault)

theorem fragmentHeaders_name (inDoc : WsXmlNode) :
    ∀ c ∈ (wsXmlFirstChild (wsXmlGetSoapHeader inDoc) xmlNsWsMan wsmFragmentTransfer).toList.map
      wsXmlDuplicateTree, c.name ≠ soapFault := by
  intro c hc
  obtain ⟨f, hf, rfl⟩ := mem_map.mp hc
  rw [mem_toList] at hf
  rw [wsXmlDuplicateTree_name]
  cases hheader : wsXmlGetSoapHeader inDoc with
  | none => rw [hheader] at hf; cases hf
  | some header =>
    rw [hheader] at hf
    rw [(wsXmlFirstChild_mem hf).2.2]
    decide

@[simp] theorem wsmanIsFaultEnvelope_addressing (uuid : String) (inDoc : WsXmlNode)
    (doc : WsXmlDoc) :
    wsmanIsFaultEnvelope (Wire.outboundAddressingFilter uuid inDoc doc) =
      wsmanIsFaultEnvelope doc :=
  wsmanIsFaultEnvelope_addSoapHeaders doc (addressingHeaders_name uuid inDoc doc)

@[simp] theorem wsmanIsFaultEnvelope_fragment (inDoc : WsXmlNode) (doc : WsXmlDoc) :
    wsmanIsFaultEnvelope (Wire.wsmanAddFragementForHeader inDoc doc) = wsmanIsFaultEnvelope doc :=
  wsmanIsFaultEnvelope_addSoapHeaders doc (fragmentHeaders_name inDoc)

@[simp] theorem wsmanIsFaultEnvelope_delivery (srv : SoapServer ρ σ) (inDoc : WsXmlNode)
    (out : WsXmlDoc) :
    wsmanIsFaultEnvelope (delivery srv inDoc out) = wsmanIsFaultEnvelope out := by
  rw [delivery]
  split
  · exact wsmanIsFaultEnvelope_addressing _ _ _
  · rw [wsmanIsFaultEnvelope_fragment, wsmanIsFaultEnvelope_addressing]

/-! ## Faults of the envelope -/

def versionMismatch (doc : WsXmlNode) : Bool :=
  doc.name == soapEnvelope && doc.nsUri.any (· != xmlNsSoap12)

variable {fault : MsgFault} {doc : WsXmlNode} {inDoc : Option WsXmlNode}

theorem inFaultCodeTable_of_validateHeaderFields {header : WsXmlNode}
    (h : validateHeaderFields header = some fault) :
    fault.status.faultCode.inFaultCodeTable = true := by
  rw [validateHeaderFields] at h
  split at h
  · cases h; rfl
  split at h
  · cases h; rfl
  split at h
  · cases h; rfl
  split at h
  · cases h; rfl
  · cases h

theorem inFaultCodeTable_of_invalid (h : wsmanIsValidEnvelope doc = some fault) :
    fault.status.faultCode.inFaultCodeTable = !versionMismatch doc := by
  rw [wsmanIsValidEnvelope] at h
  rw [versionMismatch]
  dsimp only at h
  by_cases hname : doc.name = soapEnvelope
  swap
  · rw [if_pos (by simpa using hname)] at h
    cases h
    simp [hname, WsmanFaultCodeType.inFaultCodeTable]
  rw [if_neg (by simp [hname])] at h
  rw [hname, beq_self_eq_true, Bool.true_and]
  cases hns : doc.nsUri with
  | none =>
    rw [hns] at h
    cases h
    rfl
  | some ns =>
    rw [hns] at h
    dsimp only at h
    rw [any_some]
    by_cases hsoap : (ns != xmlNsSoap12) = true
    · rw [if_pos hsoap] at h
      cases h
      rw [hsoap]
      rfl
    · rw [if_neg hsoap] at h
      rw [Bool.eq_false_of_not_eq_true hsoap, Bool.not_false]
      split at h
      · cases h; rfl
      split at h
      · cases h; rfl
      · split at h
        · exact inFaultCodeTable_of_validateHeaderFields h
        · cases h

theorem versionMismatch_of_valid (h : wsmanIsValidEnvelope doc = none) :
    versionMismatch doc = false := by
  rw [versionMismatch, (wsmanIsValidEnvelope_eq_none h).1]
  simp

theorem inFaultCodeTable_of_buildInboundEnvelope
    (h : wsmanBuildInboundEnvelope inDoc = some fault) :
    fault.status.faultCode.inFaultCodeTable = !inDoc.any versionMismatch := by
  cases inDoc with
  | none => cases h; rfl
  | some doc => exact inFaultCodeTable_of_invalid h

/-! ## What is sent -/

section

variable (srv : SoapServer ρ σ) (msg : WsmanMessage) (request : List UInt8)

def IsGeneratedFault (doc : WsXmlDoc) : Prop :=
  ∃ fault notUnderstood d,
    generateFaultDoc srv.lx srv.uuid (srv.lx.readMemory msg.charset request) fault = some d ∧
      doc = addSoapHeaders (Wire.notUnderstoodHeaders srv.lx notUnderstood) d

variable {srv msg request}

variable {d : WsXmlDoc}

theorem isGeneratedFault_of_generated {fault : MsgFault}
    (h : generateFaultDoc srv.lx srv.uuid (srv.lx.readMemory msg.charset request) fault = some d) :
    IsGeneratedFault srv msg request d := by
  refine ⟨fault, none, d, h, ?_⟩
  rw [notUnderstoodHeaders, addSoapHeaders_nil]

theorem IsGeneratedFault.isFaultEnvelope (h : IsGeneratedFault srv msg request d) :
    wsmanIsFaultEnvelope d = true := by
  obtain ⟨fault, notUnderstood, d₀, hgen, rfl⟩ := h
  rw [wsmanIsFaultEnvelope_addSoapHeaders _ (notUnderstoodHeaders_name srv.lx _)]
  exact wsmanIsFaultEnvelope_generated hgen

variable [DecidableEq ρ] {ids : List String} {s : σ}

theorem sent_cases (hsent : (Wire.dispatchInboundCall srv ids s msg request).sent = some d) :
    IsGeneratedFault srv msg request d ∨
      ∃ doc disp out, Dispatched srv msg request doc disp ∧ Admitted ids doc ∧
        (serviceResult srv ids s msg doc disp).2 = some out ∧
        tooLongFor srv ids msg doc out = false ∧ d = delivery srv doc out := by
  have hends := dispatchInboundCall_ends srv ids s msg request
  generalize dispatchInboundCall srv ids s msg request = call at hends hsent
  cases hends with
  | invalid _ =>
    rw [Call.faulted_sent] at hsent
    exact .inl (isGeneratedFault_of_generated hsent)
  | unrouted hread _ _ =>
    rw [Call.faulted_sent, ← hread] at hsent
    exact .inl (isGeneratedFault_of_generated hsent)
  | refused hd _ hgen _ =>
    cases hsent
    rw [← hd.read] at hgen
    exact .inl ⟨_, _, _, hgen, rfl⟩
  | silent hd _ _ =>
    rw [Call.faulted_sent, ← hd.read] at hsent
    exact .inl (isGeneratedFault_of_generated hsent)
  | limited hd _ _ _ hgen =>
    rw [wsmanIsFaultEnvelope_generated hgen, if_pos rfl] at hsent
    cases hsent
    rw [← hd.read] at hgen
    exact .inl (isGeneratedFault_of_generated hgen)
  | delivered hd hadm hout hshort =>
    cases hsent
    exact .inr ⟨_, _, _, hd, hadm, hout, hshort, rfl⟩

theorem delivered_of_not_fault
    (hsent : (Wire.dispatchInboundCall srv ids s msg request).sent = some d)
    (hfault : wsmanIsFaultEnvelope d = false) :
    ∃ doc disp out, Dispatched srv msg request doc disp ∧ Admitted ids doc ∧
      (serviceResult srv ids s msg doc disp).2 = some out ∧
      tooLongFor srv ids msg doc out = false ∧ d = delivery srv doc out := by
  rcases sent_cases hsent with hgen | hdelivered
  · rw [hgen.isFaultEnvelope] at hfault
    cases hfault
  · exact hdelivered

omit [DecidableEq ρ] in
theorem sent_faulted_eq_none_iff {ids' : List String} {s' : σ} {invoked : Option (SoapDispatch ρ)}
    {inDoc : Option WsXmlNode} {fault : MsgFault} :
    (Call.faulted srv ids' s' invoked inDoc fault).sent = none ↔
      fault.status.faultCode.inFaultCodeTable = false := by
  rw [Call.faulted_sent, ← generateFaultDoc_isSome_iff srv.lx srv.uuid inDoc,
    isSome_eq_false_iff, isNone_iff_eq_none]

theorem sent_eq_none_iff (srv : SoapServer ρ σ) (ids : List String) (s : σ) (msg : WsmanMessage)
    (request : List UInt8) :
    (Wire.dispatchInboundCall srv ids s msg request).sent = none ↔
      (srv.lx.readMemory msg.charset request).any versionMismatch = true := by
  have hmatch : ∀ {doc : WsXmlNode}, srv.lx.readMemory msg.charset request = some doc →
      wsmanIsValidEnvelope doc = none →
        ¬(srv.lx.readMemory msg.charset request).any versionMismatch = true := by
    intro doc hread hvalid
    rw [hread, any_some, versionMismatch_of_valid hvalid]
    exact Bool.false_ne_true
  have hends := dispatchInboundCall_ends srv ids s msg request
  generalize dispatchInboundCall srv ids s msg request = call at hends
  cases hends with
  | invalid h =>
    rw [sent_faulted_eq_none_iff, inFaultCodeTable_of_buildInboundEnvelope h, Bool.not_eq_false']
  | unrouted hread hvalid _ =>
    rw [sent_faulted_eq_none_iff]
    exact iff_of_false Bool.noConfusion (hmatch hread hvalid)
  | silent hd _ _ =>
    rw [sent_faulted_eq_none_iff]
    exact iff_of_false Bool.noConfusion (hmatch hd.read hd.valid)
  | refused hd _ _ _ => exact iff_of_false (some_ne_none _) (hmatch hd.read hd.valid)
  | limited hd _ _ _ _ => exact iff_of_false (some_ne_none _) (hmatch hd.read hd.valid)
  | delivered hd _ _ _ => exact iff_of_false (some_ne_none _) (hmatch hd.read hd.valid)

end

/-! ## Every request is answered -/

section

variable (srv : SoapServer ρ σ) (ids : List String) (s : σ) (msg : WsmanMessage)
  (request : List UInt8)

variable [DecidableEq ρ]

def IsServiceDocument (doc : WsXmlDoc) : Prop :=
  ∃ inDoc disp out, Dispatched srv msg request inDoc disp ∧
    (serviceResult srv ids s msg inDoc disp).2 = some out ∧ doc = delivery srv inDoc out

def IsAnswered (call : Call ρ σ) : Prop :=
  call.response srv.lx msg.charset ≠ [] ∧
    ∃ doc, call.response srv.lx msg.charset = srv.lx.dumpMemoryEnc msg.charset doc ∧
      (IsServiceDocument srv ids s msg request doc ∨ IsGeneratedFault srv msg request doc)

variable {srv ids s msg request}

theorem answered_of_sent {call : Call ρ σ} {doc : WsXmlDoc} (hsent : call.sent = some doc)
    (h : IsServiceDocument srv ids s msg request doc ∨ IsGeneratedFault srv msg request doc) :
    IsAnswered srv ids s msg request call := by
  have hresponse : call.response srv.lx msg.charset = srv.lx.dumpMemoryEnc msg.charset doc := by
    rw [Call.response, hsent]
  refine ⟨?_, doc, hresponse, h⟩
  rw [hresponse]
  exact srv.lx.dumpMemoryEnc_ne_nil msg.charset doc

end

/-- A call ends with a response that is the document of the service or a generated fault, for every
request but an `Envelope` in a namespace other than that of SOAP 1.2: its fault has no entry in the
table, and the response stays empty. -/
theorem answered_iff_not_versionMismatch [DecidableEq ρ] (srv : SoapServer ρ σ) (ids : List String)
    (s : σ) (msg : WsmanMessage) (request : List UInt8) :
    IsAnswered srv ids s msg request (Wire.dispatchInboundCall srv ids s msg request) ↔
      (srv.lx.readMemory msg.charset request).any versionMismatch = false := by
  rw [← Bool.not_eq_true, ← sent_eq_none_iff srv ids s msg request]
  cases hsent : (dispatchInboundCall srv ids s msg request).sent with
  | none =>
    refine iff_of_false ?_ (not_not.mpr rfl)
    rintro ⟨hne, -⟩
    rw [Call.response, hsent] at hne
    exact hne rfl
  | some d =>
    refine iff_of_true (answered_of_sent hsent ?_) (some_ne_none d)
    rcases sent_cases hsent with hgen | ⟨doc, disp, out, hd, -, hout, -, rfl⟩
    · exact .inr hgen
    · exact .inl ⟨doc, disp, out, hd, hout, rfl⟩

/-- A request in a SOAP 1.1 envelope gets an empty response. -/
theorem not_answered_soap11 :
    ¬IsAnswered
        (linuxServer (.elem "http://schemas.xmlsoap.org/soap/envelope/" soapEnvelope []) none)
        [] () {} []
        (Wire.dispatchInboundCall
          (linuxServer (.elem "http://schemas.xmlsoap.org/soap/envelope/" soapEnvelope []) none)
          [] () {} []) ∧
      (Wire.dispatchInboundCall
          (linuxServer (.elem "http://schemas.xmlsoap.org/soap/envelope/" soapEnvelope []) none)
          [] () {} []).response
        (linuxServer (.elem "http://schemas.xmlsoap.org/soap/envelope/" soapEnvelope []) none).lx
        "UTF-8" = [] :=
  ⟨fun h ↦ h.1 rfl, rfl⟩

/-! ## The status fits the answer -/

structure StatusFits (call : Call ρ σ) : Prop where
  fault : call.sent.any wsmanIsFaultEnvelope = true → wsmanStatusBadRequest ≤ call.httpCode
  other : call.sent.any wsmanIsFaultEnvelope = false → call.httpCode = wsmanStatusOk

def LeavesUncodedFault (srv : SoapServer ρ σ) (ids : List String) (s : σ) (msg : WsmanMessage)
    (doc : WsXmlNode) (disp : SoapDispatch ρ) : Prop :=
  Admitted ids doc ∧ ∃ out, (serviceResult srv ids s msg doc disp).2 = some out ∧
    uncodedFault out = true ∧ tooLongFor srv ids msg doc out = false

/-- The causes of a status that does not fit: the version of the envelope, a header that is not
understood, and a fault of the service with another code. -/
def Misreported [DecidableEq ρ] (srv : SoapServer ρ σ) (ids : List String) (s : σ)
    (msg : WsmanMessage) (request : List UInt8) : Prop :=
  (srv.lx.readMemory msg.charset request).any versionMismatch = true ∨
    ∃ doc disp, Dispatched srv msg request doc disp ∧
      (refusedForHeader ids doc = true ∨ LeavesUncodedFault srv ids s msg doc disp)

theorem not_admitted_of_refusedForHeader {ids : List String}
    (h : refusedForHeader ids doc = true) : ¬Admitted ids doc := by
  intro hadm
  rw [refusedForHeader, hadm.understood, isSome_none, Bool.and_false] at h
  cases h

theorem statusFits_faulted_iff {srv : SoapServer ρ σ} {ids : List String} {s : σ}
    {invoked : Option (SoapDispatch ρ)} :
    StatusFits (.faulted srv ids s invoked inDoc fault) ↔
      fault.status.faultCode.inFaultCodeTable = true := by
  have herror := wsmanStatusBadRequest_le_httpcode fault.status.faultCode
  rw [← generateFaultDoc_isSome_iff srv.lx srv.uuid inDoc]
  cases hgen : generateFaultDoc srv.lx srv.uuid inDoc fault with
  | none =>
    -- nothing is sent, with an error status
    refine iff_of_false ?_ Bool.false_ne_true
    intro h
    have hok : wsmanFindHttpcodeForFaultCode fault.status.faultCode = wsmanStatusOk :=
      h.other (by rw [Call.faulted, hgen]; rfl)
    rw [hok] at herror
    exact absurd herror (by decide)
  | some d =>
    refine iff_of_true ⟨fun _ ↦ herror, ?_⟩ rfl
    intro hother
    rw [Call.faulted, hgen, any_some, wsmanIsFaultEnvelope_generated hgen] at hother
    cases hother

theorem statusFits_sent_iff {call : Call ρ σ} {doc out : WsXmlDoc} (hsent : call.sent = some doc)
    (hfault : wsmanIsFaultEnvelope doc = wsmanIsFaultEnvelope out)
    (hcode : call.httpCode = Wire.httpCodeFor out) :
    StatusFits call ↔ uncodedFault out = false := by
  rw [httpCodeFor] at hcode
  rw [uncodedFault]
  cases hout : wsmanIsFaultEnvelope out with
  | false =>
    rw [hout, if_neg Bool.false_ne_true] at hcode
    refine iff_of_true ⟨?_, fun _ ↦ hcode⟩ rfl
    intro h
    rw [hsent, any_some, hfault, hout] at h
    cases h
  | true =>
    rw [hout, if_pos rfl, wsmanFindHttpcodeForValue] at hcode
    have hany : call.sent.any wsmanIsFaultEnvelope = true := by
      rw [hsent, any_some, hfault, hout]
    have hiff : StatusFits call ↔ wsmanStatusBadRequest ≤ call.httpCode := by
      constructor
      · intro h
        exact h.fault hany
      intro h
      refine ⟨fun _ ↦ h, ?_⟩
      intro hother
      rw [hany] at hother
      cases hother
    rw [hiff, hcode, Bool.true_and]
    by_cases hreceiver : faultCodeValue out = some faultReceiverCodeNs
    · rw [hreceiver]
      exact iff_of_true (by decide) (by decide)
    by_cases hsender : faultCodeValue out = some faultSenderCodeNs
    · rw [hsender]
      exact iff_of_true (by decide) (by decide)
    · simp [hreceiver, hsender, wsmanStatusBadRequest, wsmanStatusOk]

section

variable [DecidableEq ρ] {srv : SoapServer ρ σ} {ids : List String} {s : σ} {msg : WsmanMessage}
  {request : List UInt8} {doc : WsXmlNode} {disp : SoapDispatch ρ}

theorem misreported_iff_of_not_dispatched
    (hnot : ∀ doc disp, ¬Dispatched srv msg request doc disp) :
    Misreported srv ids s msg request ↔
      (srv.lx.readMemory msg.charset request).any versionMismatch = true := by
  constructor
  · rintro (hversion | ⟨doc, disp, hd, -⟩)
    · exact hversion
    · exact absurd hd (hnot doc disp)
  · intro hversion
    exact .inl hversion

theorem misreported_iff_of_dispatched (hd : Dispatched srv msg request doc disp) :
    Misreported srv ids s msg request ↔
      refusedForHeader ids doc = true ∨ LeavesUncodedFault srv ids s msg doc disp := by
  constructor
  · rintro (hversion | ⟨doc', disp', hd', hcause⟩)
    · rw [hd.read, any_some, versionMismatch_of_valid hd.valid] at hversion
      cases hversion
    · obtain ⟨rfl, rfl⟩ := hd'.unique hd
      exact hcause
  · intro hcause
    exact .inr ⟨doc, disp, hd, hcause⟩

theorem misreported_iff_of_admitted (hd : Dispatched srv msg request doc disp)
    (hadm : Admitted ids doc) :
    Misreported srv ids s msg request ↔
      ∃ out, (serviceResult srv ids s msg doc disp).2 = some out ∧ uncodedFault out = true ∧
        tooLongFor srv ids msg doc out = false := by
  rw [misreported_iff_of_dispatched hd]
  constructor
  · rintro (hrefused | ⟨-, hleaves⟩)
    · exact absurd hadm (not_admitted_of_refusedForHeader hrefused)
    · exact hleaves
  · intro hleaves
    exact .inr ⟨hadm, hleaves⟩

end

/-- The HTTP status fits the answer, except in three cases: an envelope of another version, a header
that is not understood, and a fault of the service with a code other than sender or receiver. -/
theorem statusFits_iff_not_misreported [DecidableEq ρ] (srv : SoapServer ρ σ) (ids : List String)
    (s : σ) (msg : WsmanMessage) (request : List UInt8) :
    StatusFits (Wire.dispatchInboundCall srv ids s msg request) ↔
      ¬Misreported srv ids s msg request := by
  have hends := dispatchInboundCall_ends srv ids s msg request
  generalize Wire.dispatchInboundCall srv ids s msg request = call at hends
  cases hends with
  | invalid h =>
    have hnot : ∀ doc disp, ¬Dispatched srv msg request doc disp := by
      intro doc disp hd
      rw [hd.read, wsmanBuildInboundEnvelope, hd.valid] at h
      cases h
    rw [statusFits_faulted_iff, inFaultCodeTable_of_buildInboundEnvelope h,
      misreported_iff_of_not_dispatched hnot, Bool.not_eq_true', Bool.not_eq_true]
  | unrouted hread hvalid hroute =>
    have hnot : ∀ doc disp, ¬Dispatched srv msg request doc disp := by
      intro doc disp hd
      obtain rfl := some.inj (hd.read.symm.trans hread)
      cases hroute.symm.trans hd.entry
    rw [statusFits_faulted_iff, misreported_iff_of_not_dispatched hnot, hread, any_some,
      versionMismatch_of_valid hvalid]
    exact iff_of_true rfl Bool.false_ne_true
  | refused hd hadm hgen hstatus =>
    rw [statusFits_sent_iff rfl rfl rfl,
      uncodedFault_addSoapHeaders _ (notUnderstoodHeaders_name srv.lx _),
      uncodedFault_generated hgen, misreported_iff_of_dispatched hd, Bool.not_eq_false']
    rcases hstatus with ⟨hrefused, hcode⟩ | ⟨hrefused, hcoded⟩
    · refine iff_of_false ?_ (not_not.mpr (.inl hrefused))
      dsimp only
      rw [hcode]
      decide
    · refine iff_of_true hcoded ?_
      rintro (hrefused' | ⟨hadm', -⟩)
      · rw [hrefused] at hrefused'
        cases hrefused'
      · exact hadm hadm'
  | silent hd hadm hout =>
    rw [statusFits_faulted_iff, misreported_iff_of_admitted hd hadm]
    refine iff_of_true rfl ?_
    rintro ⟨out, hsome, -⟩
    rw [hout] at hsome
    cases hsome
  | limited hd hadm hout hlong hgen =>
    have hfault := wsmanIsFaultEnvelope_generated hgen
    rw [hfault, if_pos rfl, statusFits_sent_iff rfl rfl rfl, uncodedFault_generated hgen,
      misreported_iff_of_admitted hd hadm]
    refine iff_of_true rfl ?_
    rintro ⟨out, hsome, -, hshort⟩
    obtain rfl := some.inj (hsome.symm.trans hout)
    rw [hlong] at hshort
    cases hshort
  | delivered hd hadm hout hshort =>
    have haddressing : ∀ {doc out}, uncodedFault (Wire.outboundAddressingFilter srv.uuid doc out) =
        uncodedFault out := fun {doc out} ↦
      uncodedFault_addSoapHeaders out (addressingHeaders_name srv.uuid doc out)
    rw [statusFits_sent_iff rfl (by simp) rfl, haddressing, misreported_iff_of_admitted hd hadm,
      ← Bool.not_eq_true, not_iff_not]
    constructor
    · intro hcoded
      exact ⟨_, hout, hcoded, hshort⟩
    · rintro ⟨out', hsome, hcoded, -⟩
      obtain rfl := some.inj (hsome.symm.trans hout)
      exact hcoded

def unknownHeaderDoc : WsXmlNode :=
  getDoc "http://schema.openwsman.org/wbem/Linux"
    [replyToAnonymous,
      .element (some "urn:x") "Extension" [⟨some xmlNsSoap12, soapMustUnderstand, "true"⟩] []]

/-- The fault for it is sent with the status for success, although its entry says otherwise. -/
theorem not_statusFits_unknownHeaderDoc :
    ¬StatusFits (Wire.dispatchInboundCall (linuxServer unknownHeaderDoc none) [] () {} []) ∧
      (Wire.dispatchInboundCall (linuxServer unknownHeaderDoc none) [] () {} []).sent.any
        wsmanIsFaultEnvelope = true ∧
      (Wire.dispatchInboundCall (linuxServer unknownHeaderDoc none) [] () {} []).httpCode =
        wsmanStatusOk ∧
      wsmanFindHttpcodeForFaultCode .soapFaultMustunderstand = wsmanStatusBadRequest := by
  have hfault : (dispatchInboundCall (linuxServer unknownHeaderDoc none) [] () {} []).sent.any
      wsmanIsFaultEnvelope = true := by decide
  have hcode : (dispatchInboundCall (linuxServer unknownHeaderDoc none) [] () {} []).httpCode =
      wsmanStatusOk := by decide
  refine ⟨?_, hfault, hcode, by decide⟩
  intro h
  have herror := h.fault hfault
  rw [hcode] at herror
  exact absurd herror (by decide)

end Openwsman
