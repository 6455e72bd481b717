import Openwsman.Cim.Instances
import Openwsman.Dispatcher.Routing

/-!
# The endpoints for instances

`CimResource_Get_EP`, `CimResource_Put_EP`, `CimResource_Create_EP`, `CimResource_Delete_EP` and
`CimResource_Custom_EP`. Each of them connects to the CIMOM, lets `verify_class_namespace` judge the
resource URI, and then runs its operation with a status that the operation may set and set again. At
the end the response is the envelope or, if the status is a fault, that fault.

Four of the endpoints end when the resource URI is rejected. The one for Put only sets the status
and goes on, so the operation is sent nevertheless and overwrites the status.
-/

namespace Openwsman

variable {κ μ : Type}

/-! ## The endpoints -/

/-- What an endpoint does: the verdict of `verify_class_namespace`, if it was asked, and the program
that leads to the response. It calls nothing before. -/
structure EndpointRun (κ μ : Type) where
  verified : Option Bool
  program : CimProgram (Option (SoapDoc (CimBody κ μ)))

def endpointDoc (inDoc : WsXmlNode) (body : CimBody κ μ) (status : WsmanStatus) :
    Option (SoapDoc (CimBody κ μ)) :=
  if status.ok then some (.response (responseHeader inDoc) body)
  else wsmanGenerateFault status.faultCode status.faultDetailCode

def invalidResourceUri : WsmanStatus :=
  ⟨.wsaDestinationUnreachable, .wsmanDetailInvalidResourceuri⟩

def endpointFault (op : SoapOp (CimBody κ μ)) (verified : Option Bool) (status : WsmanStatus) :
    EndpointRun κ μ :=
  ⟨verified, return endpointDoc op.inDoc .empty status⟩

def endpointOperation (op : SoapOp (CimBody κ μ)) (verified : Bool)
    (operation : CimProgram (CimBody κ μ × WsmanStatus)) : EndpointRun κ μ :=
  ⟨some verified, do
    let (body, status) ← operation
    return endpointDoc op.inDoc body status⟩

section

variable (cfg : CimConfig) (peer : CimPeer κ μ)

def withSession (op : SoapOp (CimBody κ μ)) (k : CimSession → EndpointRun κ μ) : EndpointRun κ μ :=
  if peer.connects op.msg.authData then
    match cimSession cfg op.inDoc with
    | .undefined => ⟨none, Traced.ofOption none⟩
    | .value session => k session
  else endpointFault op none ⟨.wsaEndpointUnavailable, .wsmanDetailOk⟩

def ifVerified (op : SoapOp (CimBody κ μ)) (session : CimSession)
    (operation : CimProgram (CimBody κ μ × WsmanStatus)) : EndpointRun κ μ :=
  if verifyClassNamespace session.client then endpointOperation op true operation
  else endpointFault op (some false) invalidResourceUri

def CimSession.ofCimClass (session : CimSession) : Bool :=
  strstr (session.client.resourceUri.getD "") xmlNsCimClass

def cimResourceDeleteEP (op : SoapOp (CimBody κ μ)) : EndpointRun κ μ :=
  withSession cfg peer op fun session ↦ ifVerified op session do
    let status ←
      if session.ofCimClass then cimDeleteInstanceFromEnum peer session {}
      else cimDeleteInstance peer session {}
    return (.empty, status)

def cimResourceGetEP (op : SoapOp (CimBody κ μ)) : EndpointRun κ μ :=
  withSession cfg peer op fun session ↦ ifVerified op session <|
    if session.ofCimClass then
      cimGetInstanceFromEnum peer session (wsmanGetFragmentString op.inDoc) {}
    else cimGetInstance peer session (wsmanGetFragmentString op.inDoc) {}

def actionSupported (doc : WsXmlNode) (session : CimSession) : Bool :=
  match wsmanGetAction doc, session.client.resourceUri with
  | some action, some uri => strstr action uri
  | _, _ => true

def cimResourceCustomEP (op : SoapOp (CimBody κ μ)) : EndpointRun κ μ :=
  withSession cfg peer op fun session ↦
    if actionSupported op.inDoc session then
      ifVerified op session (cimInvokeMethod peer session {})
    else endpointFault op none ⟨.wsaActionNotSupported, .owsmanNoDetails⟩

def createResource (op : SoapOp (CimBody κ μ)) (session : CimSession) :
    CimProgram (CimBody κ μ × WsmanStatus) :=
  let inBody := wsXmlGetSoapBody op.inDoc
  if (wsXmlGetChild inBody 0 none none).isNone then
    return (.empty, ⟨.wsmanSchemaValidationError, .wsmanDetailOk⟩)
  else
    match wsmanGetFragmentString op.inDoc with
    | some fragstr =>
      if (wsXmlFirstChild inBody xmlNsWsMan wsmXmlFragment).isSome then
        cimCreateInstance peer session inBody (some fragstr) {}
      else return (.empty, {})
    | none =>
      if (wsXmlGetChild inBody 0 session.client.resourceUri session.client.requestedClass).isSome ||
          (wsXmlGetChild inBody 0 (some (session.client.resourceUri.getD "(null)" ++ ".xsd"))
            session.client.requestedClass).isSome then
        cimCreateInstance peer session inBody none {}
      else return (.empty, ⟨.wxfInvalidRepresentation, .wsmanDetailInvalidNamespace⟩)

def cimResourceCreateEP (op : SoapOp (CimBody κ μ)) : EndpointRun κ μ :=
  withSession cfg peer op fun session ↦ ifVerified op session (createResource peer op session)

def putResourceWith (op : SoapOp (CimBody κ μ)) (session : CimSession) (status : WsmanStatus) :
    CimProgram (CimBody κ μ × WsmanStatus) :=
  let inBody := wsXmlGetSoapBody op.inDoc
  if (wsXmlGetChild inBody 0 none none).isSome then
    cimPutInstance peer session inBody (wsmanGetFragmentString op.inDoc) status
  else return (.empty, ⟨.wxfInvalidRepresentation, .wsmanDetailMissingValues⟩)

def cimResourcePutEP (op : SoapOp (CimBody κ μ)) : EndpointRun κ μ :=
  withSession cfg peer op fun session ↦
    if verifyClassNamespace session.client then
      endpointOperation op true (putResourceWith peer op session {})
    else endpointOperation op false (putResourceWith peer op session invalidResourceUri)

inductive CimEndpoint where
  | get | put | create | delete | custom
  deriving DecidableEq, Repr

def CimEndpoint.call : CimEndpoint → SoapOp (CimBody κ μ) → EndpointRun κ μ
  | get => cimResourceGetEP cfg peer
  | put => cimResourcePutEP cfg peer
  | create => cimResourceCreateEP cfg peer
  | delete => cimResourceDeleteEP cfg peer
  | custom => cimResourceCustomEP cfg peer

end

/-! ## What happens behind a rejection -/

def CimCall.isOperation : CimCall → Bool
  | getClass _ | createInstance .. | setInstance .. | deleteInstance _ | invokeMethod .. => true
  | enumInstanceNames _ | enumClassNames _ | getInstance _ => false

def StopsAfterRejection (run : EndpointRun κ μ) (past : List CimCall) : Prop :=
  run.verified = some false →
    (∀ call ∈ run.program.trace past, call.isOperation = false) ∧
      run.program.result past =
        some (some (.fault invalidResourceUri none))

def Rejected (cfg : CimConfig) (peer : CimPeer κ μ) (op : SoapOp (CimBody κ μ)) : Prop :=
  peer.connects op.msg.authData = true ∧
    ∃ session, cimSession cfg op.inDoc = .value session ∧
      verifyClassNamespace session.client = false

section

variable {cfg : CimConfig} {peer : CimPeer κ μ} {op : SoapOp (CimBody κ μ)}

theorem stopsAfterRejection_withSession {k : CimSession → EndpointRun κ μ} {past : List CimCall}
    (h : ∀ session, cimSession cfg op.inDoc = .value session →
      peer.connects op.msg.authData = true → StopsAfterRejection (k session) past) :
    StopsAfterRejection (withSession cfg peer op k) past := by
  rw [withSession]
  split
  · next hconnects =>
    cases hsession : cimSession cfg op.inDoc with
    | undefined =>
      intro hverified
      cases hverified
    | value session => exact h session hsession hconnects
  · intro hverified
    cases hverified

theorem stopsAfterRejection_ifVerified (session : CimSession)
    (operation : CimProgram (CimBody κ μ × WsmanStatus)) (past : List CimCall) :
    StopsAfterRejection (ifVerified op session operation) past := by
  rw [ifVerified]
  split
  · intro hverified
    cases hverified
  intro _
  rw [endpointFault, Traced.trace_pure, Traced.result_pure]
  refine ⟨?_, rfl⟩
  intro call hcall
  cases hcall

theorem putResourceWith_cases (peer : CimPeer κ μ) (op : SoapOp (CimBody κ μ))
    (session : CimSession) (status : WsmanStatus) (past : List CimCall) :
    (∃ detail, putResourceWith peer op session status =
        pure (.empty, ⟨.wxfInvalidRepresentation, detail⟩)) ∨
      (putResourceWith peer op session status).result past = none ∨
      .getClass session.classPath ∈ (putResourceWith peer op session status).trace past := by
  unfold putResourceWith
  dsimp only
  split
  · rw [cimPutInstance]
    split
    · exact .inl ⟨_, rfl⟩
    next resource _ =>
    cases hpath : session.instancePath with
    | undefined =>
      apply Or.inr
      apply Or.inl
      rw [Traced.result_bind, CResult.traced, Traced.result_ofOption, Option.bind_none]
    | value path =>
      -- nothing is called before the class is asked for
      apply Or.inr
      apply Or.inr
      rw [Traced.trace_bind, CResult.traced, Traced.trace_ofOption, Traced.result_ofOption,
        List.nil_append, List.append_nil, Option.elim_some]
      apply Traced.mem_trace_bind
      rw [cimGetClass]
      exact Traced.mem_trace_bind (Traced.mem_trace_act _ _)
  · exact .inl ⟨_, rfl⟩

theorem not_stopsAfterRejection_put (session : CimSession) (past : List CimCall) :
    ¬StopsAfterRejection
      (endpointOperation op false (putResourceWith peer op session invalidResourceUri)) past := by
  intro hstops
  obtain ⟨hcalls, hresult⟩ := hstops rfl
  rcases putResourceWith_cases peer op session invalidResourceUri past with
    ⟨detail, heq⟩ | hnone | hcall
  · rw [endpointOperation, heq, Traced.result_bind, Traced.result_pure] at hresult
    cases hresult
  · rw [endpointOperation, Traced.result_bind, hnone] at hresult
    cases hresult
  · exact Bool.noConfusion (hcalls _ (Traced.mem_trace_bind hcall))

theorem stopsAfterRejection_put_iff (past : List CimCall) :
    StopsAfterRejection (cimResourcePutEP cfg peer op) past ↔ ¬Rejected cfg peer op := by
  constructor
  · rintro hstops ⟨hconnects, session, hsession, hverify⟩
    rw [cimResourcePutEP, withSession, if_pos hconnects, hsession] at hstops
    simp only [hverify] at hstops
    exact not_stopsAfterRejection_put session past hstops
  · intro haccepted
    apply stopsAfterRejection_withSession
    intro session hsession hconnects
    have hverify : verifyClassNamespace session.client = true :=
      eq_true_of_ne_false fun hverify ↦ haccepted ⟨hconnects, session, hsession, hverify⟩
    rw [if_pos hverify]
    intro hverified
    cases hverified

end

def unknownSchemaDoc : WsXmlNode :=
  wsXmlCreateEnvelope
    [.elem xmlNsAddressing wsaAction [.text "http://schemas.xmlsoap.org/ws/2004/09/transfer/Put"],
      .elem xmlNsWsMan wsmResourceUri [.text "http://example.org/Linux_Disk"]]
    [.elem "http://example.org/Linux_Disk" "Linux_Disk"
      [.elem "http://example.org/Linux_Disk" "Label" [.text "data"]]]

def diskPeer : CimPeer Unit Unit where
  connects _ := true
  getClass _ := (none, some ⟨[⟨"Label", true, none⟩]⟩)
  enumInstanceNames _ := (none, [])
  enumClassNames _ := (none, some [])
  getInstance _ := (none, some ())
  createInstance _ := (none, none)
  setInstance _ := none
  deleteInstance _ := none
  invokeMethod _ := (none, ())
  pathChars _ := none

def unknownSchemaPut : EndpointRun Unit Unit :=
  CimEndpoint.put.call {} diskPeer { inDoc := unknownSchemaDoc, msg := {} }

def diskPath : CimPath := .mk "root/cimv2" (some "Linux_Disk") []

end Openwsman
