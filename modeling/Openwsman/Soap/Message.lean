import Openwsman.Soap.Faults
import Openwsman.Xml.Node

/-!
# Messages, operations and response documents

The parts of `WsmanMessage` and `op_t` that the modelled functions read or write, and the documents
they produce. A response document is kept as its header elements together with a body of a type
that the service chooses; a fault is kept as the status it was made from, since nothing reads it
again but the function that writes it to the client.

Allocations are taken to succeed throughout, so a document that the source creates exists.
-/

namespace Openwsman

structure WsmanAuth where
  username : Option String := none
  password : Option String := none
  deriving DecidableEq, Repr

structure WsmanMessage where
  charset : String := "UTF-8"
  authData : WsmanAuth := {}
  deriving DecidableEq, Repr

inductive SoapDoc (δ : Type) where
  | fault (status : WsmanStatus) (notUnderstood : Option (Option String × String))
  | response (header : List WsXmlNode) (body : δ)

namespace SoapDoc

variable {δ : Type}

def isFault : SoapDoc δ → Bool
  | fault .. => true
  | response .. => false

@[simp] theorem isFault_fault (s : WsmanStatus) (n : Option (Option String × String)) :
    (fault s n : SoapDoc δ).isFault = true := rfl

@[simp] theorem isFault_response (h : List WsXmlNode) (b : δ) :
    (response h b : SoapDoc δ).isFault = false := rfl

end SoapDoc

def wsmanGenerateFault {δ : Type} (code : WsmanFaultCodeType) (detail : WsmanFaultDetailType) :
    Option (SoapDoc δ) :=
  if code.inFaultCodeTable then some (.fault ⟨code, detail⟩ none) else none

structure SoapOp (δ : Type) where
  inDoc : WsXmlNode
  msg : WsmanMessage
  outDoc : Option (SoapDoc δ) := none
  maxsize : ℕ := 0
  expires : ℤ := 0

def wsmanIsIdentifyRequest (doc : WsXmlNode) : Bool :=
  (wsXmlFirstChild (wsXmlGetSoapBody doc) xmlNsWsmanId wsmidIdentify).isSome

/-! ## The header of a response -/

def wsmanEprFromRequestToResponse (epr : Option WsXmlNode) : List WsXmlNode :=
  let address :=
    match wsXmlFirstChild epr xmlNsAddressing wsaAddress with
    | none => wsaToAnonymous
    | some node => node.chars
  let children (name : String) : List WsXmlNode :=
    match wsXmlFirstChild epr xmlNsAddressing name with
    | none => []
    | some node => node.elements
  .elem xmlNsAddressing wsaTo [.text address] ::
    (children wsaReferenceProperties ++ children wsaReferenceParameters)

def responseHeader (rqstDoc : WsXmlNode) : List WsXmlNode :=
  if wsmanIsIdentifyRequest rqstDoc then []
  else
    match wsXmlGetSoapHeader rqstDoc with
    | none => []
    | some srcHeader =>
      wsmanEprFromRequestToResponse (wsXmlFirstChild (some srcHeader) xmlNsAddressing wsaReplyTo) ++
        ((wsXmlFirstChild (some srcHeader) xmlNsAddressing wsaAction).toList.map fun n ↦
          .elem xmlNsAddressing wsaAction [.text (n.chars ++ wsfwResponseStr)]) ++
        (wsXmlFirstChild (some srcHeader) xmlNsAddressing wsaMessageId).toList.map fun n ↦
          .elem xmlNsAddressing wsaRelatesTo [.text n.chars]

def hasHeader (header : List WsXmlNode) (ns name : String) : Bool :=
  header.any fun n ↦ wsXmlIsNodeQname n (some ns) (some name)

end Openwsman
