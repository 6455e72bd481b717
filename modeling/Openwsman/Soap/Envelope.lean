import Openwsman.Soap.FaultTable
import Openwsman.Soap.Message

/-!
# Envelopes as documents

`SoapDoc` keeps of an answer what the services look at. This module has the documents themselves:
the response envelope and the fault envelope that `wsman-soap-envelope.c` builds from a request,
what the dispatcher reads off a document before it is sent, and the validation of the envelope of a
request.

A document is its root element, together with the namespace that the prefix `s` stands for in it:
the HTTP status of a fault is found with an XPath expression that uses this prefix.
-/

namespace Openwsman

/-! ## Documents -/

structure WsXmlDoc where
  root : WsXmlNode
  /-- The namespace that the prefix `s` is bound to where XPath expressions are evaluated. -/
  prefixS : Option String := some xmlNsSoap12

structure Libxml2 where
  readMemory : String → List UInt8 → Option WsXmlNode
  dumpMemoryEnc : String → WsXmlDoc → List UInt8
  nsPrefix : String → String
  dumpMemoryEnc_ne_nil : ∀ charset doc, dumpMemoryEnc charset doc ≠ []

def makeQname (lx : Libxml2) (uri name : String) : String :=
  (wsNsData.lookup uri).getD (lx.nsPrefix uri) ++ ":" ++ name

def textContent (s : String) : List WsXmlNode := if s == "" then [] else [.text s]

mutual

/-- The text of an element is copied only if it has no element children. -/
def wsXmlDuplicateTree : WsXmlNode → WsXmlNode
  | .element ns n as cs =>
    let copies := wsXmlDuplicateChildren cs
    .element ns n as
      (if copies.isEmpty then textContent (WsXmlNode.element ns n as cs).chars else copies)
  | .text s => .text s

def wsXmlDuplicateChildren : List WsXmlNode → List WsXmlNode
  | [] => []
  | c :: cs =>
    if c.isElement then wsXmlDuplicateTree c :: wsXmlDuplicateChildren cs
    else wsXmlDuplicateChildren cs

end

@[simp] theorem wsXmlDuplicateTree_nsUri (n : WsXmlNode) :
    (wsXmlDuplicateTree n).nsUri = n.nsUri := by
  cases n with
  | element ns n as cs => rw [wsXmlDuplicateTree]; rfl
  | text s => rw [wsXmlDuplicateTree]

@[simp] theorem wsXmlDuplicateTree_name (n : WsXmlNode) :
    (wsXmlDuplicateTree n).name = n.name := by
  cases n with
  | element ns n as cs => rw [wsXmlDuplicateTree]; rfl
  | text s => rw [wsXmlDuplicateTree]

/-! ## The response envelope -/

def responseAction (srcHeader : WsXmlNode) (action : Option String) : List WsXmlNode :=
  match action with
  | some action => [.elem xmlNsAddressing wsaAction (textContent action)]
  | none =>
    (wsXmlFirstChild (some srcHeader) xmlNsAddressing wsaAction).toList.map fun n ↦
      .elem xmlNsAddressing wsaAction [.text (n.chars ++ wsfwResponseStr)]

def responseEnvelopeHeader (rqstDoc : WsXmlNode) (action : Option String) : List WsXmlNode :=
  if wsmanIsIdentifyRequest rqstDoc then []
  else
    match wsXmlGetSoapHeader rqstDoc with
    | none => []
    | some srcHeader =>
      (wsmanEprFromRequestToResponse
          (wsXmlFirstChild (some srcHeader) xmlNsAddressing wsaReplyTo)).map wsXmlDuplicateTree ++
        responseAction srcHeader action ++
        (wsXmlFirstChild (some srcHeader) xmlNsAddressing wsaMessageId).toList.map fun n ↦
          .elem xmlNsAddressing wsaRelatesTo (textContent n.chars)

def wsmanCreateResponseEnvelope (rqstDoc : WsXmlNode) (action : Option String)
    (body : List WsXmlNode) : WsXmlDoc :=
  { root := wsXmlCreateEnvelope (responseEnvelopeHeader rqstDoc action) body }

/-! ## The fault envelope -/

def faultElement (lx : Libxml2) (e : WsmanFaultCodeEntry) (reason detail : Option String) :
    WsXmlNode :=
  let qname (ns name : Option String) : List WsXmlNode :=
    match ns, name with
    | some ns, some name => [.text (makeQname lx ns name)]
    | none, some name => [.text name]
    | _, none => []
  let subCode :=
    match e.subCode with
    | none | some "" => []
    | some s =>
      [.elem xmlNsSoap12 soapSubcode
        [.elem xmlNsSoap12 soapValue (qname e.subCodeNs (some s))]]
  let reasonNode :=
    reason.toList.map fun r ↦ .elem xmlNsSoap12 soapReason
      [.element (some xmlNsSoap12) soapText [⟨some xmlNsXmlNamespaces, soapLang, "en"⟩]
        (textContent r)]
  let detailNode :=
    detail.toList.map fun d ↦ .elem xmlNsSoap12 soapDetail
      [.elem xmlNsWsMan soapFaultDetail [.text (xmlNsWsmanFaultDetail ++ "/" ++ d)]]
  .elem xmlNsSoap12 soapFault
    (.elem xmlNsSoap12 soapCode
        (.elem xmlNsSoap12 soapValue (qname (some xmlNsSoap12) e.code) :: subCode) ::
      (reasonNode ++ detailNode))

def wsmanCreateFaultEnvelope (lx : Libxml2) (uuid : String) (rqstDoc : Option WsXmlNode)
    (e : WsmanFaultCodeEntry) (reason detail : Option String) : WsXmlDoc :=
  let header :=
    match rqstDoc with
    | none => []
    | some rqstDoc => responseEnvelopeHeader rqstDoc e.faultAction
  { root := wsXmlCreateEnvelope (header ++ [.elem xmlNsAddressing wsaMessageId [.text uuid]])
      [faultElement lx e reason detail] }

structure MsgFault where
  status : WsmanStatus
  faultMsg : Option String := none
  deriving DecidableEq, Repr

def generateFaultDoc (lx : Libxml2) (uuid : String) (inDoc : Option WsXmlNode)
    (fault : MsgFault) : Option WsXmlDoc :=
  (faultCodeEntry fault.status.faultCode).map fun e ↦
    wsmanCreateFaultEnvelope lx uuid inDoc e (fault.faultMsg.orElse fun _ ↦ e.reason)
      (faultDetailText fault.status.faultDetailCode)

/-! ## What the dispatcher reads off a document -/

def wsmanIsFaultEnvelope (doc : WsXmlDoc) : Bool :=
  (wsXmlFirstChild (wsXmlGetSoapBody doc.root) xmlNsSoap12 soapFault).isSome

/-- The elements at the end of a path of names in one namespace, in document order. -/
def xpathNodes (ns : String) : List String → WsXmlNode → List WsXmlNode
  | [], n => [n]
  | step :: path, n =>
    (n.childrenNamed (some ns) (some step)).flatMap (xpathNodes ns path)

def directText (n : WsXmlNode) : Option String :=
  let texts := n.content.filterMap fun
    | .text s => some s
    | .element .. => none
  if texts.isEmpty then none else some (texts.foldl (· ++ ·) "")

def faultCodeValue (doc : WsXmlDoc) : Option String :=
  match doc.prefixS with
  | none => none
  | some ns =>
    if wsXmlIsNodeQname doc.root (some ns) (some soapEnvelope) then
      (xpathNodes ns [soapBody, soapFault, soapCode, soapValue] doc.root).head?.bind directText
    else none

def wsmanFindHttpcodeForValue (doc : WsXmlDoc) : ℕ :=
  if faultCodeValue doc == some faultReceiverCodeNs then wsmanStatusInternalServerError
  else if faultCodeValue doc == some faultSenderCodeNs then wsmanStatusBadRequest
  else wsmanStatusOk

/-! ## The envelope of a request -/

def wsmanIsEventRelatedRequest (doc : WsXmlNode) : Bool :=
  match wsXmlGetNodeText (wsXmlFirstChild (wsXmlGetSoapHeader doc) xmlNsAddressing wsaAction) with
  | none => false
  | some action =>
    action == evtActionUnsubscribe || action == evtActionRenew || action == evtActionPull

/-- The part of `wsman_is_valid_envelope` for the header of a request that is neither an Identify
nor about a subscription. -/
def validateHeaderFields (header : WsXmlNode) : Option MsgFault :=
  if (wsXmlFirstChild (some header) xmlNsWsMan wsmResourceUri).isNone then
    some { status := ⟨.wsaDestinationUnreachable, .wsmanDetailInvalidResourceuri⟩ }
  else if (wsXmlFirstChild (some header) xmlNsAddressing wsaAction).isNone then
    some { status := ⟨.wsaActionNotSupported, .wsmanDetailOk⟩ }
  else if (wsXmlFirstChild (some header) xmlNsAddressing wsaReplyTo).isNone then
    some { status := ⟨.wsaMessageInformationHeaderRequired, .wsmanDetailOk⟩ }
  else if (wsXmlFirstChild (some header) xmlNsAddressing wsaTo).isNone then
    some { status := ⟨.wsaDestinationUnreachable, .wsmanDetailOk⟩ }
  else none

def wsmanIsValidEnvelope (doc : WsXmlNode) : Option MsgFault :=
  let invalid (msg : String) : Option MsgFault :=
    some { status := ⟨.wsaInvalidMessageInformationHeader, .wsmanDetailOk⟩, faultMsg := some msg }
  if doc.name != soapEnvelope then invalid "No Envelope"
  else
    match doc.nsUri with
    | none => some { status := ⟨.wsmanInternalError, .wsmanDetailOk⟩ }
    | some soapNsUri =>
      if soapNsUri != xmlNsSoap12 then
        some { status := ⟨.soapFaultVersionMismatch, .wsmanDetailOk⟩ }
      else if (wsXmlGetSoapBody doc).isNone then invalid "No Body"
      else
        match wsXmlGetSoapHeader doc with
        | none => invalid "No Header"
        | some header =>
          if !wsmanIsIdentifyRequest doc && !wsmanIsEventRelatedRequest doc then
            validateHeaderFields header
          else none

theorem wsmanIsValidEnvelope_eq_none {doc : WsXmlNode} (h : wsmanIsValidEnvelope doc = none) :
    doc.nsUri = some xmlNsSoap12 ∧ ∃ header, wsXmlGetSoapHeader doc = some header := by
  rw [wsmanIsValidEnvelope] at h
  dsimp only at h
  split at h
  · cases h
  split at h
  · cases h
  next ns hns =>
  split at h
  · cases h
  next hsoap =>
  split at h
  · cases h
  split at h
  · cases h
  · next header hheader =>
    rw [bne_iff_ne, not_not] at hsoap
    exact ⟨hsoap ▸ hns, header, hheader⟩

def wsmanBuildInboundEnvelope (doc : Option WsXmlNode) : Option MsgFault :=
  match doc with
  | none => some { status := ⟨.wsaInvalidMessageInformationHeader, .wsmanDetailOk⟩ }
  | some doc => wsmanIsValidEnvelope doc

end Openwsman
