import Openwsman.Soap.Message
import Openwsman.Xml.Duration

/-!
# The inbound checks

`process_filters` of `wsman-dispatcher.c` runs five checks on a request before the service is
called. A check that refuses puts a fault into `out_doc` and returns nonzero. No server registers
filters of its own for the inbound direction, so the filter chains in front of the checks are empty.

Every check is a function from the operation to the operation and to whether it refuses. Its
specification says when it lets a request pass and what it then does to the operation, and that
there is a fault when it refuses. One check does more than that: `check_unsupported_features`
forgets the refusal of a `wsen:EndTo` when it goes on to look at a filter, and keeps the fault.
-/

namespace Openwsman

open List

variable {δ : Type}

def generateOpFault (op : SoapOp δ) (faultCode : WsmanFaultCodeType)
    (faultDetail : WsmanFaultDetailType) : SoapOp δ :=
  { op with outDoc := wsmanGenerateFault faultCode faultDetail }

def refuse (op : SoapOp δ) (faultCode : WsmanFaultCodeType) (faultDetail : WsmanFaultDetailType) :
    SoapOp δ × Bool :=
  (generateOpFault op faultCode faultDetail, true)

/-! ## Duplicate message ids -/

def rememberMsgId (ids : List String) (msgId : String) : List String :=
  ids.drop (ids.length + 1 - processedMsgIdMaxSize) ++ [msgId]

def wsmanIsDuplicateMessageId (ids : List String) (op : SoapOp δ) :
    List String × SoapOp δ × Bool :=
  match wsXmlFirstChild (wsmanGetSoapHeaderElement op.inDoc none none) xmlNsAddressing
      wsaMessageId with
  | some msgIdNode =>
    let msgId := msgIdNode.chars
    if msgId == "" then
      (ids, refuse op .wsaInvalidMessageInformationHeader .wsmanDetailOk)
    else if ids.contains msgId then
      (ids, refuse op .wsaInvalidMessageInformationHeader .wsaDetailDuplicateMessageId)
    else (rememberMsgId ids msgId, op, false)
  | none =>
    if !wsmanIsIdentifyRequest op.inDoc then
      (ids, refuse op .wsaMessageInformationHeaderRequired .wsmanDetailOk)
    else (ids, op, false)

/-! ## Unsupported features -/

def isSupportedDialect (dialect : String) : Bool :=
  dialect == wsmAssociationFilterDialect || dialect == wsmXpathFilterDialect ||
    dialect == wsmWqlFilterDialect || dialect == wsmCqlFilterDialect ||
    dialect == wsmSelectorFilterDialect

def isSupportedDeliveryMode (mode : String) : Bool :=
  strcaseEq mode wseventDeliveryModePush || strcaseEq mode wseventDeliveryModePushWithAck ||
    strcaseEq mode wseventDeliveryModeEvents || strcaseEq mode wseventDeliveryModePull

/-- How a part of `check_unsupported_features` ends: with a jump to the end of the function, or by
falling through to the next part. Both carry the value of `retVal`. -/
inductive Flow (δ : Type) where
  | done (op : SoapOp δ) (retVal : Bool)
  | next (op : SoapOp δ) (retVal : Bool)

def requestedDialect (filterNode : WsXmlNode) : String :=
  (wsXmlFindAttrValue (some filterNode) none wsmDialect).getD wsmXpathFilterDialect

def hasEndTo (enumurate : WsXmlNode) : Bool :=
  (wsXmlFirstChild (some enumurate) xmlNsEnumeration wsenumEndTo).isSome

def afterEndTo (op : SoapOp δ) (enumurate : WsXmlNode) : SoapOp δ :=
  if hasEndTo enumurate then
    generateOpFault op .wsmanUnsupportedFeature .wsmanDetailAddressingMode
  else op

def asksForAllClasses (header : Option WsXmlNode) : Bool :=
  wsXmlGetNodeText (wsXmlFirstChild header xmlNsWsMan wsmResourceUri) == some cimAllAvailableClasses

/-- There is no jump behind `wsen:EndTo`, and a filter overwrites `retVal`. -/
def checkEnumerateFeatures (op : SoapOp δ) (header : Option WsXmlNode) (enumurate : WsXmlNode) :
    Flow δ :=
  let op := afterEndTo op enumurate
  match wsXmlFirstChild (some enumurate) xmlNsEnumeration wsenumFilter,
      wsXmlFirstChild (some enumurate) xmlNsWsMan wsmFilter with
  | some _, some _ => .done (generateOpFault op .wsenCannotProcessFilter .wsmanDetailOk) true
  | some f, none | none, some f =>
    if !isSupportedDialect (requestedDialect f) then
      .done (generateOpFault op .wsenFilterDialectRequestedUnavailable .wsmanDetailOk) true
    else .next op false
  | none, none =>
    if asksForAllClasses header then
      .done (generateOpFault op .wsmanUnsupportedFeature .wsmanDetailFilteringRequired) true
    else .next op (hasEndTo enumurate)

def checkSubscribeFeatures (op : SoapOp δ) (retVal : Bool) (subscribe : WsXmlNode) :
    SoapOp δ × Bool :=
  match wsXmlFirstChild (some subscribe) xmlNsEventing wseventDelivery with
  | none => refuse op .wseInvalidMessage .wsmanDetailOk
  | some n =>
    if (wsXmlFindAttrValue (some n) none wseventDeliveryMode).any
        (fun mode ↦ !isSupportedDeliveryMode mode) then
      refuse op .wseDeliveryModeRequestedUnavailable .wsmanDetailOk
    else if (wsXmlFirstChild (some n) xmlNsWsMan wsmConnectionRetry).isSome then
      refuse op .wsmanUnsupportedFeature .wsmanDetailDeliveryRetries
    else (op, retVal)

def localeMustUnderstand (header : Option WsXmlNode) : Bool :=
  match wsXmlFirstChild header xmlNsWsMan wsmLocale with
  | none => false
  | some n => wsXmlFindAttrValue (some n) (some xmlNsSoap12) soapMustUnderstand == some "true"

def checkUnsupportedFeatures (op : SoapOp δ) : SoapOp δ × Bool :=
  let header := wsmanGetSoapHeaderElement op.inDoc none none
  let body := wsXmlGetSoapBody op.inDoc
  if (wsXmlFirstChild header xmlNsAddressing wsaFaultTo).isSome then
    refuse op .wsmanUnsupportedFeature .wsmanDetailAddressingMode
  else if localeMustUnderstand header then refuse op .wsmanUnsupportedFeature .wsmanDetailLocale
  else
    let flow : Flow δ :=
      match wsXmlFirstChild body xmlNsEnumeration wsenumEnumerate with
      | none => .next op false
      | some enumurate => checkEnumerateFeatures op header enumurate
    match flow with
    | .done op retVal => (op, retVal)
    | .next op retVal =>
      (wsXmlFirstChild body xmlNsEventing wseventSubscribe).elim (op, retVal)
        (checkSubscribeFeatures op retVal)

/-! ## Headers that must be understood -/

def muHeaders : List (String × String) :=
  [(xmlNsAddressing, wsaTo), (xmlNsAddressing, wsaMessageId), (xmlNsAddressing, wsaRelatesTo),
    (xmlNsAddressing, wsaAction), (xmlNsAddressing, wsaReplyTo), (xmlNsAddressing, wsaFrom),
    (xmlNsWsMan, wsmResourceUri), (xmlNsWsMan, wsmSelectorSet), (xmlNsWsMan, wsmMaxEnvelopeSize),
    (xmlNsWsMan, wsmOperationTimeout), (xmlNsWsMan, wsmFragmentTransfer),
    (xmlNsTrust, wstIssuedTokens)]

def isMuHeader (header : WsXmlNode) : Bool :=
  muHeaders.any fun e ↦ header.nsUri == some e.1 && header.name == e.2

/-- The attribute is looked up in the namespace of the header element. -/
def validateMustunderstandHeaders (inDoc : WsXmlNode) : Option WsXmlNode :=
  match wsmanGetSoapHeaderElement inDoc none none with
  | none => none
  | some header =>
    header.elements.find? fun child ↦
      wsXmlFindAttrBool (some child) (wsXmlGetNodeNameNs (some header)) soapMustUnderstand &&
        !isMuHeader child

def generateNotunderstoodFault (op : SoapOp δ) (notUnderstoodHeader : WsXmlNode) : SoapOp δ :=
  { op with
    outDoc := some (.fault ⟨.soapFaultMustunderstand, .wsmanDetailOk⟩
      (some (notUnderstoodHeader.nsUri, notUnderstoodHeader.name))) }

/-! ## Control headers -/

/-- A `MaxEnvelopeSize` that need not be understood leaves the zero of a new operation. -/
def controlMaxsize (header : Option WsXmlNode) : Option ℕ :=
  match wsXmlFirstChild header xmlNsWsMan wsmMaxEnvelopeSize with
  | none => some wsmanMaxEnvelopeSize
  | some maxsize =>
    if wsXmlFindAttrValue (some maxsize) (some xmlNsSoap12) soapMustUnderstand == some "true" then
      let size := wsDeserializeUint32 header 0 xmlNsWsMan wsmMaxEnvelopeSize
      if size < wsmanMinimalEnvelopeSizeRequest then none else some size
    else some 0

def validateOperationTimeout (op : SoapOp δ) (header : Option WsXmlNode) : SoapOp δ × Bool :=
  match wsXmlFirstChild header xmlNsWsMan wsmOperationTimeout with
  | none => (op, true)
  | some child =>
    match wsDeserializeDuration child.chars with
    | none =>
      (generateOpFault op .wsaInvalidMessageInformationHeader .wsmanDetailOperationTimeout, false)
    | some duration =>
      if duration ≤ 0 then (generateOpFault op .wsmanTimedOut .wsmanDetailOk, false)
      else
        let op := { op with expires := duration }
        if wsXmlFindAttrBool (some child) (wsXmlGetNodeNameNs header) soapMustUnderstand then
          (generateOpFault op .wsmanUnsupportedFeature .wsmanDetailOperationTimeout, false)
        else (op, true)

def validateControlHeaders (op : SoapOp δ) : SoapOp δ × Bool :=
  let header := wsmanGetSoapHeaderElement op.inDoc none none
  match controlMaxsize header with
  | none => (generateOpFault op .wsmanEncodingLimit .wsmanDetailMinimumEnvelopeLimit, false)
  | some maxsize => validateOperationTimeout { op with maxsize := maxsize } header

/-! ## Duplicate selectors -/

def hasDuplicateName (seen : List String) : List String → Bool
  | [] => false
  | name :: names => seen.contains name || hasDuplicateName (name :: seen) names

def selectorNames (header : Option WsXmlNode) : List String :=
  match wsXmlFirstChild header xmlNsWsMan wsmSelectorSet with
  | none => []
  | some node =>
    (node.childrenNamed (some xmlNsWsMan) (some wsmSelector)).filterMap fun selector ↦
      wsXmlFindAttrValue (some selector) none wsmName

def checkForDuplicateSelectors (op : SoapOp δ) : SoapOp δ × Bool :=
  if hasDuplicateName [] (selectorNames (wsmanGetSoapHeaderElement op.inDoc none none)) then
    refuse op .wsmanInvalidSelectors .wsmanDetailDuplicateSelectors
  else (op, false)

/-! ## When the checks let a request pass -/

def headerOf (doc : WsXmlNode) : Option WsXmlNode := wsmanGetSoapHeaderElement doc none none

def enumerateOf (doc : WsXmlNode) : Option WsXmlNode :=
  wsXmlFirstChild (wsXmlGetSoapBody doc) xmlNsEnumeration wsenumEnumerate

def messageIdFresh (ids : List String) (doc : WsXmlNode) : Bool :=
  match wsXmlFirstChild (headerOf doc) xmlNsAddressing wsaMessageId with
  | some node => node.chars != "" && !ids.contains node.chars
  | none => wsmanIsIdentifyRequest doc

def enumerateSupported (header : Option WsXmlNode) (enumurate : WsXmlNode) : Bool :=
  match wsXmlFirstChild (some enumurate) xmlNsEnumeration wsenumFilter,
      wsXmlFirstChild (some enumurate) xmlNsWsMan wsmFilter with
  | some _, some _ => false
  | some f, none | none, some f => isSupportedDialect (requestedDialect f)
  | none, none =>
    !asksForAllClasses header && !hasEndTo enumurate

def deliverySupported (delivery : WsXmlNode) : Bool :=
  (wsXmlFindAttrValue (some delivery) none wseventDeliveryMode).all isSupportedDeliveryMode &&
    (wsXmlFirstChild (some delivery) xmlNsWsMan wsmConnectionRetry).isNone

def subscribeSupported (subscribe : WsXmlNode) : Bool :=
  match wsXmlFirstChild (some subscribe) xmlNsEventing wseventDelivery with
  | none => false
  | some n => deliverySupported n

def bodySupported (doc : WsXmlNode) : Bool :=
  (enumerateOf doc).all (enumerateSupported (headerOf doc)) &&
    (wsXmlFirstChild (wsXmlGetSoapBody doc) xmlNsEventing wseventSubscribe).all subscribeSupported

def headersSupported (doc : WsXmlNode) : Bool :=
  (wsXmlFirstChild (headerOf doc) xmlNsAddressing wsaFaultTo).isNone &&
    !localeMustUnderstand (headerOf doc)

def featuresSupported (doc : WsXmlNode) : Bool := headersSupported doc && bodySupported doc

def timeoutValid (header : Option WsXmlNode) (child : WsXmlNode) : Bool :=
  (wsDeserializeDuration child.chars).any (0 < ·) &&
    !wsXmlFindAttrBool (some child) (wsXmlGetNodeNameNs header) soapMustUnderstand

def controlHeadersValid (doc : WsXmlNode) : Bool :=
  (controlMaxsize (headerOf doc)).isSome &&
    (wsXmlFirstChild (headerOf doc) xmlNsWsMan wsmOperationTimeout).all
      (timeoutValid (headerOf doc))

/-! ## What the checks do -/

variable (op : SoapOp δ)

def HasFault (op : SoapOp δ) : Prop := ∃ doc, op.outDoc = some doc ∧ doc.isFault = true

theorem hasFault_generateOpFault {op : SoapOp δ} {c : WsmanFaultCodeType} {d : WsmanFaultDetailType}
    (h : c.inFaultCodeTable = true) : HasFault (generateOpFault op c d) :=
  ⟨.fault ⟨c, d⟩ none, by simp [generateOpFault, wsmanGenerateFault, h], rfl⟩

theorem wsmanIsDuplicateMessageId_spec (ids : List String) (op : SoapOp δ) :
    (messageIdFresh ids op.inDoc = true ∧
        ∃ ids', wsmanIsDuplicateMessageId ids op = (ids', op, false)) ∨
      (messageIdFresh ids op.inDoc = false ∧ ∃ op',
        wsmanIsDuplicateMessageId ids op = (ids, op', true) ∧ HasFault op') := by
  rw [wsmanIsDuplicateMessageId, messageIdFresh, headerOf]
  cases wsXmlFirstChild (wsmanGetSoapHeaderElement op.inDoc none none) xmlNsAddressing
      wsaMessageId with
  | none =>
    cases wsmanIsIdentifyRequest op.inDoc with
    | true => exact .inl ⟨rfl, _, rfl⟩
    | false => exact .inr ⟨rfl, _, rfl, hasFault_generateOpFault rfl⟩
  | some node =>
    dsimp only
    by_cases hempty : node.chars = ""
    · rw [hempty]
      exact .inr ⟨rfl, _, rfl, hasFault_generateOpFault rfl⟩
    rw [if_neg (by simpa using hempty), bne_iff_ne.mpr hempty, Bool.true_and]
    cases ids.contains node.chars with
    | true => exact .inr ⟨rfl, _, rfl, hasFault_generateOpFault rfl⟩
    | false => exact .inl ⟨rfl, _, rfl⟩

theorem checkSubscribeFeatures_spec (retVal : Bool) (subscribe : WsXmlNode) :
    (subscribeSupported subscribe = true ∧
        checkSubscribeFeatures op retVal subscribe = (op, retVal)) ∨
      (subscribeSupported subscribe = false ∧ ∃ op',
        checkSubscribeFeatures op retVal subscribe = (op', true) ∧ HasFault op') := by
  rw [checkSubscribeFeatures, subscribeSupported]
  cases wsXmlFirstChild (some subscribe) xmlNsEventing wseventDelivery with
  | none => exact .inr ⟨rfl, _, rfl, hasFault_generateOpFault rfl⟩
  | some n =>
    dsimp only
    rw [deliverySupported]
    by_cases hmode : (wsXmlFindAttrValue (some n) none wseventDeliveryMode).all
        isSupportedDeliveryMode = true
    · have hany : (wsXmlFindAttrValue (some n) none wseventDeliveryMode).any
          (fun mode ↦ !isSupportedDeliveryMode mode) = false := by
        cases hattr : wsXmlFindAttrValue (some n) none wseventDeliveryMode with
        | none => rfl
        | some mode => rw [hattr] at hmode; simpa using hmode
      rw [hmode, hany, if_neg (by simp), Bool.true_and]
      cases wsXmlFirstChild (some n) xmlNsWsMan wsmConnectionRetry with
      | none => exact .inl ⟨rfl, rfl⟩
      | some r => exact .inr ⟨rfl, _, rfl, hasFault_generateOpFault rfl⟩
    · have hany : (wsXmlFindAttrValue (some n) none wseventDeliveryMode).any
          (fun mode ↦ !isSupportedDeliveryMode mode) = true := by
        cases hattr : wsXmlFindAttrValue (some n) none wseventDeliveryMode with
        | none => rw [hattr] at hmode; exact absurd rfl hmode
        | some mode => rw [hattr] at hmode; simpa using hmode
      rw [hany, if_pos rfl, Bool.eq_false_of_not_eq_true hmode, Bool.false_and]
      exact .inr ⟨rfl, _, rfl, hasFault_generateOpFault rfl⟩

@[simp] theorem afterEndTo_inDoc (enumurate : WsXmlNode) :
    (afterEndTo op enumurate).inDoc = op.inDoc := by
  rw [afterEndTo]
  split <;> rfl

/-- Where the Enumerate part falls through, the fault for an `EndTo` is still there. -/
theorem checkEnumerateFeatures_spec (header : Option WsXmlNode) (enumurate : WsXmlNode) :
    (enumerateSupported header enumurate = false ∧ ∃ op',
        checkEnumerateFeatures op header enumurate = .done op' true ∧ HasFault op') ∨
      (enumerateSupported header enumurate = true ∧
        checkEnumerateFeatures op header enumurate = .next (afterEndTo op enumurate) false) ∨
      (enumerateSupported header enumurate = false ∧ hasEndTo enumurate = true ∧
        checkEnumerateFeatures op header enumurate = .next (afterEndTo op enumurate) true) := by
  -- With one filter the verdict is that of its dialect, whatever an `EndTo` has left.
  have hone : ∀ f : WsXmlNode, (isSupportedDialect (requestedDialect f) = false ∧
      ∃ op', (if !isSupportedDialect (requestedDialect f) then
          Flow.done (generateOpFault (afterEndTo op enumurate)
            .wsenFilterDialectRequestedUnavailable .wsmanDetailOk) true
        else .next (afterEndTo op enumurate) false) = .done op' true ∧ HasFault op') ∨
      (isSupportedDialect (requestedDialect f) = true ∧
        (if !isSupportedDialect (requestedDialect f) then
          Flow.done (generateOpFault (afterEndTo op enumurate)
            .wsenFilterDialectRequestedUnavailable .wsmanDetailOk) true
        else .next (afterEndTo op enumurate) false) = .next (afterEndTo op enumurate) false) := by
    intro f
    cases isSupportedDialect (requestedDialect f) with
    | false => exact .inl ⟨rfl, _, rfl, hasFault_generateOpFault rfl⟩
    | true => exact .inr ⟨rfl, rfl⟩
  rw [checkEnumerateFeatures, enumerateSupported]
  cases wsXmlFirstChild (some enumurate) xmlNsEnumeration wsenumFilter with
  | some f =>
    cases wsXmlFirstChild (some enumurate) xmlNsWsMan wsmFilter with
    | some g => exact .inl ⟨rfl, _, rfl, hasFault_generateOpFault rfl⟩
    | none => exact (hone f).imp id .inl
  | none =>
    cases wsXmlFirstChild (some enumurate) xmlNsWsMan wsmFilter with
    | some g => exact (hone g).imp id .inl
    | none =>
      dsimp only
      cases asksForAllClasses header with
      | true => exact .inl ⟨rfl, _, rfl, hasFault_generateOpFault rfl⟩
      | false =>
        cases hasEndTo enumurate with
        | true => exact .inr (.inr ⟨rfl, rfl, rfl⟩)
        | false => exact .inr (.inl ⟨rfl, rfl⟩)

def behindFeatureCheck (op : SoapOp δ) : SoapOp δ :=
  match enumerateOf op.inDoc with
  | none => op
  | some enumurate => afterEndTo op enumurate

@[simp] theorem behindFeatureCheck_inDoc : (behindFeatureCheck op).inDoc = op.inDoc := by
  rw [behindFeatureCheck]
  split
  · rfl
  · exact afterEndTo_inDoc op _

theorem hasFault_afterEndTo {enumurate : WsXmlNode} (h : hasEndTo enumurate = true) :
    HasFault (afterEndTo op enumurate) := by
  rw [afterEndTo, if_pos h]
  exact hasFault_generateOpFault rfl

theorem subscribePart_spec (retVal : Bool) (subscribe : Option WsXmlNode)
    (hret : retVal = true → HasFault op) :
    (retVal = false ∧ subscribe.all subscribeSupported = true ∧
        subscribe.elim (op, retVal) (checkSubscribeFeatures op retVal) = (op, false)) ∨
      ((retVal = true ∨ subscribe.all subscribeSupported = false) ∧ ∃ op',
        subscribe.elim (op, retVal) (checkSubscribeFeatures op retVal) = (op', true) ∧
          HasFault op') := by
  cases subscribe with
  | none =>
    cases retVal with
    | false => exact .inl ⟨rfl, rfl, rfl⟩
    | true => exact .inr ⟨.inl rfl, op, rfl, hret rfl⟩
  | some n =>
    rcases checkSubscribeFeatures_spec op retVal n with ⟨hs, heq⟩ | ⟨hs, op', heq, hout⟩
    · cases retVal with
      | false => exact .inl ⟨rfl, hs, heq⟩
      | true => exact .inr ⟨.inl rfl, op, heq, hret rfl⟩
    · exact .inr ⟨.inr hs, op', heq, hout⟩

theorem checkUnsupportedFeatures_spec :
    (featuresSupported op.inDoc = true ∧
        checkUnsupportedFeatures op = (behindFeatureCheck op, false)) ∨
      (featuresSupported op.inDoc = false ∧ ∃ op',
        checkUnsupportedFeatures op = (op', true) ∧ HasFault op') := by
  rw [checkUnsupportedFeatures, featuresSupported, headersSupported, bodySupported,
    behindFeatureCheck, headerOf, enumerateOf]
  cases wsXmlFirstChild (wsmanGetSoapHeaderElement op.inDoc none none) xmlNsAddressing
      wsaFaultTo with
  | some n => exact .inr ⟨rfl, _, rfl, hasFault_generateOpFault rfl⟩
  | none =>
    cases localeMustUnderstand (wsmanGetSoapHeaderElement op.inDoc none none) with
    | true => exact .inr ⟨rfl, _, rfl, hasFault_generateOpFault rfl⟩
    | false =>
      rw [Option.isSome_none, if_neg Bool.false_ne_true, if_neg Bool.false_ne_true]
      -- Both headers are in order; what is left is the body.
      set header := wsmanGetSoapHeaderElement op.inDoc none none
      set subscribe := wsXmlFirstChild (wsXmlGetSoapBody op.inDoc) xmlNsEventing wseventSubscribe
      cases wsXmlFirstChild (wsXmlGetSoapBody op.inDoc) xmlNsEnumeration wsenumEnumerate with
      | none =>
        rcases subscribePart_spec op false subscribe (by simp) with
          ⟨_, hs, heq⟩ | ⟨hs, op', heq, ho⟩
        · exact .inl ⟨by simp [hs], heq⟩
        · exact .inr ⟨by simpa using hs, op', heq, ho⟩
      | some enumurate =>
        rcases checkEnumerateFeatures_spec op header enumurate with
          ⟨he, op', hflow, ho⟩ | ⟨he, hflow⟩ | ⟨he, hend, hflow⟩
        · exact .inr ⟨by simp [he], op', by simp [hflow], ho⟩
        · rcases subscribePart_spec (afterEndTo op enumurate) false subscribe (by simp) with
            ⟨_, hs, heq⟩ | ⟨hs, op', heq, ho⟩
          · refine .inl ⟨by simp [he, hs], ?_⟩
            simp only [hflow]
            exact heq
          · refine .inr ⟨by simpa [he] using hs, op', ?_, ho⟩
            simp only [hflow]
            exact heq
        · rcases subscribePart_spec (afterEndTo op enumurate) true subscribe
            (fun _ ↦ hasFault_afterEndTo op hend) with ⟨hf, _⟩ | ⟨_, op', heq, ho⟩
          · exact absurd hf (by simp)
          · refine .inr ⟨by simp [he], op', ?_, ho⟩
            simp only [hflow]
            exact heq

theorem validateOperationTimeout_spec (header : Option WsXmlNode) :
    ((wsXmlFirstChild header xmlNsWsMan wsmOperationTimeout).all (timeoutValid header) = true ∧
        ∃ t, validateOperationTimeout op header = ({ op with expires := t }, true)) ∨
      ((wsXmlFirstChild header xmlNsWsMan wsmOperationTimeout).all (timeoutValid header) = false ∧
        ∃ op', validateOperationTimeout op header = (op', false) ∧ HasFault op') := by
  rw [validateOperationTimeout]
  cases wsXmlFirstChild header xmlNsWsMan wsmOperationTimeout with
  | none => exact .inl ⟨rfl, op.expires, rfl⟩
  | some child =>
    dsimp only
    rw [Option.all_some, timeoutValid]
    cases wsDeserializeDuration child.chars with
    | none => exact .inr ⟨rfl, _, rfl, hasFault_generateOpFault rfl⟩
    | some duration =>
      dsimp only
      by_cases hpos : duration ≤ 0
      · refine .inr ⟨by simp [hpos], _, if_pos hpos, hasFault_generateOpFault rfl⟩
      rw [if_neg hpos, Option.any_some, decide_eq_true (not_le.mp hpos), Bool.true_and]
      cases wsXmlFindAttrBool (some child) (wsXmlGetNodeNameNs header) soapMustUnderstand with
      | true => exact .inr ⟨rfl, _, rfl, hasFault_generateOpFault rfl⟩
      | false => exact .inl ⟨rfl, _, rfl⟩

theorem validateControlHeaders_spec :
    (controlHeadersValid op.inDoc = true ∧ ∃ size t,
        controlMaxsize (headerOf op.inDoc) = some size ∧
        validateControlHeaders op = ({ op with maxsize := size, expires := t }, true)) ∨
      (controlHeadersValid op.inDoc = false ∧ ∃ op',
        validateControlHeaders op = (op', false) ∧ HasFault op') := by
  rw [validateControlHeaders, controlHeadersValid, headerOf]
  cases controlMaxsize (wsmanGetSoapHeaderElement op.inDoc none none) with
  | none => exact .inr ⟨rfl, _, rfl, hasFault_generateOpFault rfl⟩
  | some size =>
    rcases validateOperationTimeout_spec { op with maxsize := size }
      (wsmanGetSoapHeaderElement op.inDoc none none) with ⟨hv, t, heq⟩ | ⟨hv, op', heq, ho⟩
    · exact .inl ⟨by simp [hv], size, t, rfl, heq⟩
    · exact .inr ⟨by simp [hv], op', heq, ho⟩

theorem hasDuplicateName_eq_false_iff (names seen : List String) :
    hasDuplicateName seen names = false ↔ names.Nodup ∧ ∀ n ∈ names, n ∉ seen := by
  induction names generalizing seen with
  | nil => simp [hasDuplicateName]
  | cons name names ih =>
    rw [hasDuplicateName, Bool.or_eq_false_iff, ih, nodup_cons]
    simp only [contains_eq_mem, decide_eq_false_iff_not, mem_cons, not_or]
    grind

theorem checkForDuplicateSelectors_spec :
    ((selectorNames (headerOf op.inDoc)).Nodup ∧ checkForDuplicateSelectors op = (op, false)) ∨
      (¬(selectorNames (headerOf op.inDoc)).Nodup ∧ ∃ op',
        checkForDuplicateSelectors op = (op', true) ∧ HasFault op') := by
  have hiff := hasDuplicateName_eq_false_iff (selectorNames (headerOf op.inDoc)) []
  simp only [not_mem_nil, not_false_eq_true, implies_true, and_true] at hiff
  rw [checkForDuplicateSelectors, ← hiff, headerOf]
  cases hasDuplicateName [] (selectorNames (wsmanGetSoapHeaderElement op.inDoc none none)) with
  | false => exact .inl ⟨rfl, rfl⟩
  | true => exact .inr ⟨by simp, _, rfl, hasFault_generateOpFault rfl⟩

/-! ## All checks -/

def processFiltersInbound (ids : List String) (op : SoapOp δ) : List String × SoapOp δ × Bool :=
  let (ids, op, duplicate) := wsmanIsDuplicateMessageId ids op
  if duplicate then (ids, op, true)
  else
    let (op, unsupported) := checkUnsupportedFeatures op
    if unsupported then (ids, op, true)
    else
      match validateMustunderstandHeaders op.inDoc with
      | some notUnderstood => (ids, generateNotunderstoodFault op notUnderstood, true)
      | none =>
        let (op, valid) := validateControlHeaders op
        if !valid then (ids, op, true)
        else
          let (op, duplicate) := checkForDuplicateSelectors op
          (ids, op, duplicate)

structure Admitted (ids : List String) (doc : WsXmlNode) : Prop where
  messageId : messageIdFresh ids doc = true
  features : featuresSupported doc = true
  understood : validateMustunderstandHeaders doc = none
  control : controlHeadersValid doc = true
  selectors : (selectorNames (headerOf doc)).Nodup

/-- **The inbound checks.** They let exactly the admitted requests pass, with the limit for the
response and the expiry time set and otherwise as the feature check left them. A request that is
refused has a fault. -/
theorem processFiltersInbound_spec (ids : List String) (op : SoapOp δ) :
    (Admitted ids op.inDoc ∧ ∃ ids' size t, controlMaxsize (headerOf op.inDoc) = some size ∧
        processFiltersInbound ids op =
          (ids', { behindFeatureCheck op with maxsize := size, expires := t }, false)) ∨
      (¬Admitted ids op.inDoc ∧ ∃ ids' op',
        processFiltersInbound ids op = (ids', op', true) ∧ HasFault op') := by
  rw [processFiltersInbound]
  rcases wsmanIsDuplicateMessageId_spec ids op with ⟨hid, ids', hdup⟩ | ⟨hid, op', hdup, ho⟩
  swap
  · exact .inr ⟨fun h ↦ by simp [h.messageId] at hid, ids, op', by simp [hdup], ho⟩
  simp only [hdup, Bool.false_eq_true, if_false]
  rcases checkUnsupportedFeatures_spec op with ⟨hfeat, hcheck⟩ | ⟨hfeat, op', hcheck, ho⟩
  swap
  · exact .inr ⟨fun h ↦ by simp [h.features] at hfeat, ids', op', by simp [hcheck], ho⟩
  -- From here on everything is about the operation that the feature check passed on.
  have hin := behindFeatureCheck_inDoc op
  generalize behindFeatureCheck op = op₁ at hcheck hin ⊢
  rw [← hin] at hid hfeat ⊢
  simp only [hcheck, Bool.false_eq_true, if_false]
  cases hmu : validateMustunderstandHeaders op₁.inDoc with
  | some node => exact .inr ⟨fun h ↦ by simp [h.understood] at hmu, ids', _, rfl, _, rfl, rfl⟩
  | none =>
    rcases validateControlHeaders_spec op₁ with
      ⟨hctl, size, t, hsize, hval⟩ | ⟨hctl, op', hval, ho⟩
    swap
    · exact .inr ⟨fun h ↦ by simp [h.control] at hctl, ids', op', by simp [hval], ho⟩
    simp only [hval, Bool.not_true, Bool.false_eq_true, if_false]
    rcases checkForDuplicateSelectors_spec { op₁ with maxsize := size, expires := t } with
      ⟨hsel, heq⟩ | ⟨hsel, op', heq, ho⟩
    · exact .inl ⟨⟨hid, hfeat, hmu, hctl, hsel⟩, ids', size, t, hsize, by simp [heq]⟩
    · exact .inr ⟨fun h ↦ hsel h.selectors, ids', op', by rw [heq], ho⟩

end Openwsman
