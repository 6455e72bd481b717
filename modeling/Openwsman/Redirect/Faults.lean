import Openwsman.Dispatcher.Answer
import Openwsman.Redirect.Enumeration

/-!
# Faults of the remote server

The redirect plugin makes a fault of its own from one that the remote server sends. It reads the
code off the subcode with `wsman_get_fault_status_from_doc`, which knows the local name only: of
codes with the same name it finds the first. A fault without a subcode leaves the status as it was,
and then there is nothing to answer with.

The remote server is an openwsman too, and its document arrives as it was sent.
-/

namespace Openwsman

open Option List

/-! ## Reading a fault -/

/-- The text at `FAULT_SUBCODE_VALUE_XPATH`. -/
def faultSubcodeValue (doc : WsXmlDoc) : Option String :=
  doc.prefixS.bind fun ns ↦
    if wsXmlIsNodeQname doc.root (some ns) (some soapEnvelope) then
      (xpathNodes ns [soapBody, soapFault, soapCode, soapSubcode, soapValue] doc.root).head?.bind
        directText
    else none

/-- The last entry of the table has no subcode to compare with. -/
def findSubCode (subcodeValueMsg : String) (status : WsmanStatus) :
    List WsmanFaultCodeEntry → CResult WsmanStatus
  | [] => .value status
  | e :: table =>
    (strcmpEq subcodeValueMsg e.subCode).bind fun found ↦
      if found then .value { faultCode := e.faultCode }
      else findSubCode subcodeValueMsg status table

def wsmanGetFaultStatusFromDoc (doc : WsXmlDoc) (status : WsmanStatus) : CResult WsmanStatus :=
  (faultSubcodeValue doc).elim (.value status) fun subcodeValue ↦
    if ':' ∈ subcodeValue.toList then
      findSubCode (String.ofList (subcodeValue.toList.dropWhile (· != ':')).tail) status
        faultCodeTable
    else .value status

/-! ## The code that arrives -/

/-- The first code of the table with the same local name, or none without a subcode. -/
def redirectedCode : WsmanFaultCodeType → WsmanFaultCodeType
  | .wsmanCannotProcessFilter => .wsenCannotProcessFilter
  | .wsmanTimedOut => .wsenTimedOut
  | .wsmbPolymorphismModeNotSupported => .wsmanUnsupportedFeature
  | .wseFilteringNotSupported => .wsenFilteringNotSupported
  | .soapFaultMustunderstand | .wsmanUnknown => .wsmanRcOk
  | code => code

def WsmanFaultCodeEntry.subCodeText (lx : Libxml2) (e : WsmanFaultCodeEntry) : Option String :=
  e.subCode.bind fun s ↦
    if s = "" then none else some ((e.subCodeNs.map (makeQname lx · s)).getD s)

theorem faultSubcodeValue_eq {header content rest : List WsXmlNode} {v : WsXmlNode}
    (hv : (xpathNodes xmlNsSoap12 [soapSubcode, soapValue]
      (.elem xmlNsSoap12 soapCode content)).head? = some v) :
    faultSubcodeValue ⟨wsXmlCreateEnvelope header [.elem xmlNsSoap12 soapFault
      (.elem xmlNsSoap12 soapCode content :: rest)], some xmlNsSoap12⟩ = directText v := by
  have hbody : xpathNodes xmlNsSoap12 [soapBody, soapFault, soapCode, soapSubcode, soapValue]
      (wsXmlCreateEnvelope header [.elem xmlNsSoap12 soapFault
        (.elem xmlNsSoap12 soapCode content :: rest)]) =
      xpathNodes xmlNsSoap12 [soapFault, soapCode, soapSubcode, soapValue]
        (.elem xmlNsSoap12 soapBody [.elem xmlNsSoap12 soapFault
          (.elem xmlNsSoap12 soapCode content :: rest)]) ++ [] := rfl
  have hroot (body : List WsXmlNode) : wsXmlIsNodeQname (wsXmlCreateEnvelope header body)
      (some xmlNsSoap12) (some soapEnvelope) = true := rfl
  rw [faultSubcodeValue, bind_some, if_pos (hroot _), hbody, append_nil,
    head?_xpathNodes_cons rfl rfl (head?_xpathNodes_cons rfl rfl hv), bind_some]

section Generated

variable {lx : Libxml2} {uuid : String} {inDoc : Option WsXmlNode} {fault : MsgFault} {d : WsXmlDoc}

theorem faultSubcodeValue_generated (h : generateFaultDoc lx uuid inDoc fault = some d) :
    ∃ e ∈ faultCodeTable, e.faultCode = fault.status.faultCode ∧
      faultSubcodeValue d = e.subCodeText lx := by
  obtain ⟨e, header, reason, detail, hentry, rfl⟩ := generateFaultDoc_eq_some h
  refine ⟨e, mem_of_find?_eq_some hentry, by simpa using find?_some hentry, ?_⟩
  obtain ⟨code, http, action, ns, c, subCode, why⟩ := e
  cases subCode with
  | none => cases reason <;> cases detail <;> rfl
  | some s =>
    by_cases hs : s = ""
    · subst hs
      cases reason <;> cases detail <;> rfl
    · have hvalue (text : String) :
          directText (.elem xmlNsSoap12 soapValue [.text text]) = some text := by
        simp [directText, WsXmlNode.content, WsXmlNode.elem]
      rw [WsmanFaultCodeEntry.subCodeText, bind_some, if_neg hs]
      cases ns <;> simp only [faultElement] <;> exact (faultSubcodeValue_eq rfl).trans (hvalue _)

theorem findSubCode_of_mem (lx : Libxml2) {e : WsmanFaultCodeEntry} (he : e ∈ faultCodeTable) :
    (e.subCodeText lx = none ∧ redirectedCode e.faultCode = .wsmanRcOk) ∨
      ∃ p s, ':' ∉ p.toList ∧ e.subCodeText lx = some (p ++ ":" ++ s) ∧
        findSubCode s {} faultCodeTable = .value { faultCode := redirectedCode e.faultCode } := by
  -- the part that is read off the table
  have htable : ∀ e ∈ faultCodeTable,
      e.subCode.getD "" = "" ∧ redirectedCode e.faultCode = .wsmanRcOk ∨
        e.subCode.getD "" ≠ "" ∧
          (∃ p ∈ e.subCodeNs.bind fun ns ↦ wsNsData.lookup ns, ':' ∉ p.toList) ∧
          findSubCode (e.subCode.getD "") {} faultCodeTable =
            .value { faultCode := redirectedCode e.faultCode } := by
    decide +kernel
  obtain ⟨code, http, action, ns, c, subCode, why⟩ := e
  rcases htable _ he with ⟨hsub, hok⟩ | ⟨hsub, ⟨p, hns, hp⟩, hfind⟩
  · cases subCode with
    | none => exact .inl ⟨rfl, hok⟩
    | some s => exact .inl ⟨if_pos hsub, hok⟩
  · cases subCode with
    | none => exact absurd rfl hsub
    | some s =>
      obtain ⟨ns', rfl, hlookup⟩ := bind_eq_some_iff.mp hns
      refine .inr ⟨p, s, hp, ?_, hfind⟩
      have hs : s ≠ "" := hsub
      rw [WsmanFaultCodeEntry.subCodeText, bind_some, if_neg hs, map_some, getD_some, makeQname,
        hlookup, getD_some]

theorem wsmanGetFaultStatusFromDoc_generated (h : generateFaultDoc lx uuid inDoc fault = some d) :
    wsmanGetFaultStatusFromDoc d {} =
      .value { faultCode := redirectedCode fault.status.faultCode } := by
  obtain ⟨e, he, hcode, hvalue⟩ := faultSubcodeValue_generated h
  rw [wsmanGetFaultStatusFromDoc, hvalue, ← hcode]
  rcases findSubCode_of_mem lx he with ⟨htext, hok⟩ | ⟨p, s, hp, htext, hfind⟩
  · rw [htext, hok]
    rfl
  · have hbehind : (p ++ ":" ++ s).toList.dropWhile (· != ':') = ':' :: s.toList := by
      rw [String.toList_append, String.toList_append, append_assoc, dropWhile_append_of_pos
        fun c hc ↦ bne_iff_ne.mpr (ne_of_mem_of_not_mem hc hp)]
      rfl
    rw [htext, elim_some, if_pos (by simp), hbehind, tail_cons, String.ofList_toList, hfind]

end Generated

end Openwsman
