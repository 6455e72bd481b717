import Openwsman.Dispatcher.Inbound

/-!
# An operation from the request to the answer

`process_inbound_operation` of `wsman-dispatcher.c`: the inbound checks, the callback of the
service, the two outbound filters that every server registers, and the response.

The service is a parameter: a callback on a state of its own that leaves a document in `out_doc` or
does not touch it. So is `dump`, the length of a document in bytes once it is written in a charset
(`ws_xml_dump_memory_enc`), and the id that `generate_uuid` makes. Filters may only make a document
longer or replace it by a fault, and that is all that is needed of them. The header of a fault is
not kept, so the first filter leaves a fault alone.
-/

namespace Openwsman

open Option

variable {δ σ : Type}

/-! ## The outbound filters -/

/-- A limit of zero is none, and only the low 32 bits of it are looked at. -/
def checkEnvelopeSize (dump : String → SoapDoc δ → ℕ) (doc : SoapDoc δ) (size : ℕ)
    (charset : String) : Bool :=
  toUInt size != 0 && decide (toUInt size < toUInt (dump charset doc))

def addressingHeader (uuid : String) (inDoc : WsXmlNode) (header : List WsXmlNode) :
    List WsXmlNode :=
  let header :=
    if !hasHeader header xmlNsAddressing wsaMessageId && !wsmanIsIdentifyRequest inDoc then
      header ++ [.elem xmlNsAddressing wsaMessageId [.text uuid]]
    else header
  match wsmanGetSoapHeaderElement inDoc (some xmlNsAddressing) (some wsaMessageId) with
  | none => header
  | some inMsgIdNode =>
    if !hasHeader header xmlNsAddressing wsaRelatesTo then
      header ++ [.elem xmlNsAddressing wsaRelatesTo [.text inMsgIdNode.chars]]
    else header

def outboundAddressingFilter (uuid : String) (inDoc : WsXmlNode) : SoapDoc δ → SoapDoc δ
  | .fault status notUnderstood => .fault status notUnderstood
  | .response header body => .response (addressingHeader uuid inDoc header) body

def outboundControlHeaderFilter (dump : String → SoapDoc δ → ℕ) (op : SoapOp δ) (doc : SoapDoc δ) :
    Option (SoapDoc δ) :=
  if checkEnvelopeSize dump doc op.maxsize op.msg.charset then
    wsmanGenerateFault .wsmanEncodingLimit .wsmanDetailServiceEnvelopeLimit
  else some doc

def wsmanAddFragementForHeader (inDoc : WsXmlNode) : SoapDoc δ → SoapDoc δ
  | .fault status notUnderstood => .fault status notUnderstood
  | .response header body =>
    .response (header ++
      (wsXmlFirstChild (wsXmlGetSoapHeader inDoc) xmlNsWsMan wsmFragmentTransfer).toList) body

def deliver (dump : String → SoapDoc δ → ℕ) (uuid : String) (op : SoapOp δ) (doc : SoapDoc δ) :
    Option (SoapDoc δ) :=
  match outboundControlHeaderFilter dump op (outboundAddressingFilter uuid op.inDoc doc) with
  | none => wsmanGenerateFault .wsmanInternalError .owsmanNoDetails
  | some doc => some (wsmanAddFragementForHeader op.inDoc doc)

/-- What the client gets once the callback has returned. A callback that leaves no document leaves
`out_doc` as it was. -/
def respond (dump : String → SoapDoc δ → ℕ) (uuid : String) (op : SoapOp δ)
    (doc : Option (SoapDoc δ)) : Option (SoapDoc δ) :=
  match doc.orElse fun _ ↦ op.outDoc with
  | none => wsmanGenerateFault .wsaDestinationUnreachable .wsmanDetailInvalidResourceuri
  | some doc => deliver dump uuid op doc

/-! ## The operation -/

abbrev ServiceCallback (σ δ : Type) := σ → SoapOp δ → σ × Option (SoapDoc δ)

/-- What is left of an operation: the processed ids and the state of the service, whether its
callback was invoked, and the answer to the client. -/
structure Handled (σ δ : Type) where
  ids : List String
  service : σ
  invoked : Bool
  response : Option (SoapDoc δ)

def createOpEntry (inDoc : WsXmlNode) (msg : WsmanMessage) : SoapOp δ :=
  { inDoc := inDoc, msg := msg }

def processInboundOperation (dump : String → SoapDoc δ → ℕ) (uuid : String)
    (serviceCallback : Option (ServiceCallback σ δ)) (ids : List String) (s : σ)
    (inDoc : WsXmlNode) (msg : WsmanMessage) : Handled σ δ :=
  match serviceCallback with
  | none => ⟨ids, s, false, wsmanGenerateFault .wsaActionNotSupported .owsmanNoDetails⟩
  | some callback =>
    match processFiltersInbound ids (createOpEntry inDoc msg) with
    | (ids, op, true) =>
      ⟨ids, s, false,
        op.outDoc.orElse fun _ ↦ wsmanGenerateFault .wsmanInternalError .owsmanNoDetails⟩
    | (ids, op, false) =>
      let (s, doc) := callback s op
      ⟨ids, s, true, respond dump uuid op doc⟩

/-! ## What the client gets -/

def SoapDoc.body : SoapDoc δ → Option δ
  | fault .. => none
  | response _ b => some b

variable (doc : SoapDoc δ)

theorem SoapDoc.body_eq_none_iff : doc.body = none ↔ doc.isFault = true := by
  cases doc <;> simp [SoapDoc.body]

theorem wsmanGenerateFault_body {c : WsmanFaultCodeType} {d : WsmanFaultDetailType}
    {doc : SoapDoc δ} (h : wsmanGenerateFault c d = some doc) : doc.body = none := by
  rw [wsmanGenerateFault] at h
  split at h
  · cases h; rfl
  · simp at h

variable (uuid : String) (inDoc : WsXmlNode)

@[simp] theorem outboundAddressingFilter_body (doc : SoapDoc δ) :
    (outboundAddressingFilter uuid inDoc doc).body = doc.body := by
  cases doc <;> rfl

@[simp] theorem wsmanAddFragementForHeader_body (doc : SoapDoc δ) :
    (wsmanAddFragementForHeader inDoc doc).body = doc.body := by
  cases doc <;> rfl

def rejectedOutbound (dump : String → SoapDoc δ → ℕ) (uuid : String) (op : SoapOp δ)
    (doc : SoapDoc δ) : Bool :=
  checkEnvelopeSize dump (outboundAddressingFilter uuid op.inDoc doc) op.maxsize op.msg.charset

variable (dump : String → SoapDoc δ → ℕ)

theorem deliver_spec (uuid : String) (op : SoapOp δ) (doc : SoapDoc δ) :
    ∃ answer, deliver dump uuid op doc = some answer ∧
      answer.body = if rejectedOutbound dump uuid op doc then none else doc.body := by
  rw [deliver, outboundControlHeaderFilter, ← rejectedOutbound]
  cases rejectedOutbound dump uuid op doc with
  | true => exact ⟨_, rfl, rfl⟩
  | false => exact ⟨_, rfl, by simp⟩

/-- The client always gets an answer. It has a body if the service left one that is not too long. -/
theorem respond_spec (uuid : String) (op : SoapOp δ) (hop : op.outDoc.bind SoapDoc.body = none)
    (out : Option (SoapDoc δ)) :
    ∃ answer, respond dump uuid op out = some answer ∧
      answer.body =
        out.bind fun doc ↦ if rejectedOutbound dump uuid op doc then none else doc.body := by
  cases out with
  | some doc => exact deliver_spec dump uuid op doc
  | none =>
    rw [respond, orElse_none]
    cases hdoc : op.outDoc with
    | none => exact ⟨_, rfl, rfl⟩
    | some doc =>
      -- only a fault is there before the service is called
      rw [hdoc, bind_some] at hop
      obtain ⟨answer, hanswer, hbody⟩ := deliver_spec dump uuid op doc
      refine ⟨answer, hanswer, ?_⟩
      rw [hbody, hop, ite_self, bind_none]

/-- The checks leave nothing but a fault in a request that they let pass. -/
theorem behindFeatureCheck_createOpEntry (msg : WsmanMessage) :
    ∃ outDoc, behindFeatureCheck (createOpEntry (δ := δ) inDoc msg) =
        { inDoc := inDoc, msg := msg, outDoc := outDoc } ∧ outDoc.bind SoapDoc.body = none := by
  rw [behindFeatureCheck]
  split
  · exact ⟨none, rfl, rfl⟩
  rw [afterEndTo]
  split
  · exact ⟨_, rfl, rfl⟩
  · exact ⟨none, rfl, rfl⟩

theorem processInboundOperation_spec (uuid : String) (callback : ServiceCallback σ δ)
    (ids : List String) (s : σ) (inDoc : WsXmlNode) (msg : WsmanMessage) :
    (Admitted ids inDoc ∧ ∃ ids' size t, controlMaxsize (headerOf inDoc) = some size ∧
        let op :=
          { behindFeatureCheck (createOpEntry inDoc msg) with maxsize := size, expires := t }
        processInboundOperation dump uuid (some callback) ids s inDoc msg =
          ⟨ids', (callback s op).1, true, respond dump uuid op (callback s op).2⟩) ∨
      (¬Admitted ids inDoc ∧ ∃ ids' fault, fault.isFault = true ∧
        processInboundOperation dump uuid (some callback) ids s inDoc msg =
          ⟨ids', s, false, some fault⟩) := by
  rw [processInboundOperation]
  rcases processFiltersInbound_spec ids (createOpEntry (δ := δ) inDoc msg) with
    ⟨hadm, ids', size, t, hsize, heq⟩ | ⟨hadm, ids', op', heq, hout⟩
  · exact .inl ⟨hadm, ids', size, t, hsize, by simp only [heq]⟩
  · obtain ⟨doc, hdoc, hfault⟩ := hout
    exact .inr ⟨hadm, ids', doc, hfault, by simp only [heq, hdoc, orElse_some]⟩

theorem invoked_iff_admitted (uuid : String) (callback : ServiceCallback σ δ) (ids : List String)
    (s : σ) (inDoc : WsXmlNode) (msg : WsmanMessage) :
    (processInboundOperation dump uuid (some callback) ids s inDoc msg).invoked = true ↔
      Admitted ids inDoc := by
  rcases processInboundOperation_spec dump uuid callback ids s inDoc msg with
    ⟨hadm, ids', size, t, _, heq⟩ | ⟨hadm, ids', doc, _, heq⟩
  · rw [heq]
    exact ⟨fun _ ↦ hadm, fun _ ↦ rfl⟩
  · rw [heq]
    exact ⟨fun h ↦ absurd h (by simp), fun h ↦ absurd h hadm⟩

theorem processInboundOperation_map {τ : Type} (f : σ → τ) (callback : ServiceCallback σ δ)
    (callback' : ServiceCallback τ δ)
    (h : ∀ s op, callback' (f s) op = (f (callback s op).1, (callback s op).2))
    (dump : String → SoapDoc δ → ℕ) (uuid : String) (ids : List String) (s : σ) (inDoc : WsXmlNode)
    (msg : WsmanMessage) :
    processInboundOperation dump uuid (some callback') ids (f s) inDoc msg =
      let r := processInboundOperation dump uuid (some callback) ids s inDoc msg
      ⟨r.ids, f r.service, r.invoked, r.response⟩ := by
  rw [processInboundOperation, processInboundOperation]
  dsimp only
  split
  · rfl
  · rw [h]

end Openwsman
