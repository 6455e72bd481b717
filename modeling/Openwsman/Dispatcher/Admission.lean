import Openwsman.Dispatcher.Operation

/-!
# What a dispatched request satisfies

This module reads off the conjunction of the checks of `process_filters` what holds of a request at
the only place where a callback is invoked, and when the verdict of the checks and the fault
document that they leave disagree.

All lookups of the checks are by name and take the first element. What they guarantee is therefore
about the first `OperationTimeout`, the selectors of the first `SelectorSet` and the first
`Delivery` of the first `Subscribe`; only the test of `mustUnderstand` goes through every header.
-/

namespace Openwsman

open WsXmlNode Option

variable {δ σ : Type}

/-! ## The conditions, one by one -/

theorem isMuHeader_iff (header : WsXmlNode) :
    isMuHeader header = true ↔ ∃ e ∈ muHeaders, header.nsUri = some e.1 ∧ header.name = e.2 := by
  rw [isMuHeader, List.any_eq_true]
  simp only [Bool.and_eq_true, beq_iff_eq]

theorem validateMustunderstandHeaders_eq_none_iff (doc : WsXmlNode) :
    validateMustunderstandHeaders doc = none ↔
      ∀ header, headerOf doc = some header → ∀ child ∈ header.elements,
        wsXmlFindAttrBool (some child) header.nsUri soapMustUnderstand = true →
          ∃ e ∈ muHeaders, child.nsUri = some e.1 ∧ child.name = e.2 := by
  rw [validateMustunderstandHeaders, ← headerOf]
  cases headerOf doc with
  | none => simp
  | some header =>
    simp only [List.find?_eq_none, wsXmlGetNodeNameNs, bind_some, Bool.and_eq_true,
      Bool.not_eq_true', not_and, Bool.not_eq_false, isMuHeader_iff, some.injEq, forall_eq']

theorem messageIdFresh_iff (ids : List String) (doc : WsXmlNode) :
    messageIdFresh ids doc = true ↔
      (wsXmlFirstChild (headerOf doc) xmlNsAddressing wsaMessageId = none ∧
          wsmanIsIdentifyRequest doc = true) ∨
        ∃ node, wsXmlFirstChild (headerOf doc) xmlNsAddressing wsaMessageId = some node ∧
          node.chars ≠ "" ∧ node.chars ∉ ids := by
  rw [messageIdFresh]
  cases wsXmlFirstChild (headerOf doc) xmlNsAddressing wsaMessageId <;> simp

theorem timeoutValid_iff (header : Option WsXmlNode) (child : WsXmlNode) :
    timeoutValid header child = true ↔
      (∃ duration, wsDeserializeDuration child.chars = some duration ∧ 0 < duration) ∧
        wsXmlFindAttrBool (some child) (wsXmlGetNodeNameNs header) soapMustUnderstand = false := by
  rw [timeoutValid, Bool.and_eq_true, any_eq_true]
  simp

theorem deliverySupported_iff (delivery : WsXmlNode) :
    deliverySupported delivery = true ↔
      (∀ mode, wsXmlFindAttrValue (some delivery) none wseventDeliveryMode = some mode →
          isSupportedDeliveryMode mode = true) ∧
        wsXmlFirstChild (some delivery) xmlNsWsMan wsmConnectionRetry = none := by
  rw [deliverySupported, Bool.and_eq_true, all_eq_true, isNone_iff_eq_none]

theorem subscribeSupported_iff (subscribe : WsXmlNode) :
    subscribeSupported subscribe = true ↔
      ∃ delivery, wsXmlFirstChild (some subscribe) xmlNsEventing wseventDelivery = some delivery ∧
        deliverySupported delivery = true := by
  rw [subscribeSupported]
  cases wsXmlFirstChild (some subscribe) xmlNsEventing wseventDelivery <;> simp

theorem locale_not_mem_muHeaders {child : WsXmlNode} (hns : child.nsUri = some xmlNsWsMan)
    (hname : child.name = wsmLocale) :
    ¬∃ e ∈ muHeaders, child.nsUri = some e.1 ∧ child.name = e.2 := by
  rw [hns, hname]
  rintro ⟨e, he, hens, hename⟩
  have hsome : muHeaders.all (fun e ↦ !(e.2 == wsmLocale)) = true := by decide
  have := List.all_eq_true.mp hsome e he
  rw [← hename] at this
  simp at this

/-! ## Soundness of the admission -/

structure Admissible (ids : List String) (doc : WsXmlNode) : Prop where
  understood : ∀ header, headerOf doc = some header → ∀ child ∈ header.elements,
    wsXmlFindAttrBool (some child) header.nsUri soapMustUnderstand = true →
      ∃ e ∈ muHeaders, child.nsUri = some e.1 ∧ child.name = e.2
  messageId :
    (wsXmlFirstChild (headerOf doc) xmlNsAddressing wsaMessageId = none ∧
        wsmanIsIdentifyRequest doc = true) ∨
      ∃ node, wsXmlFirstChild (headerOf doc) xmlNsAddressing wsaMessageId = some node ∧
        node.chars ≠ "" ∧ node.chars ∉ ids
  noFaultTo : ∀ header, headerOf doc = some header → ∀ child ∈ header.elements,
    ¬(child.nsUri = some xmlNsAddressing ∧ child.name = wsaFaultTo)
  locale : ∀ header, headerOf doc = some header → ∀ child ∈ header.elements,
    child.nsUri = some xmlNsWsMan → child.name = wsmLocale →
      wsXmlFindAttrBool (some child) header.nsUri soapMustUnderstand = false
  /-- The first `wsman:Locale` is not marked with the attribute of SOAP 1.2 either, whatever the
  version of the envelope. -/
  localeSoap12 : ∀ child, wsXmlFirstChild (headerOf doc) xmlNsWsMan wsmLocale = some child →
    wsXmlFindAttrValue (some child) (some xmlNsSoap12) soapMustUnderstand ≠ some "true"
  timeout : ∀ child, wsXmlFirstChild (headerOf doc) xmlNsWsMan wsmOperationTimeout = some child →
    (∃ duration, wsDeserializeDuration child.chars = some duration ∧ 0 < duration) ∧
      wsXmlFindAttrBool (some child) (wsXmlGetNodeNameNs (headerOf doc)) soapMustUnderstand = false
  selectors : (selectorNames (headerOf doc)).Nodup
  subscribe : ∀ node, wsXmlFirstChild (wsXmlGetSoapBody doc) xmlNsEventing wseventSubscribe =
    some node → ∃ delivery,
      wsXmlFirstChild (some node) xmlNsEventing wseventDelivery = some delivery ∧
      (∀ mode, wsXmlFindAttrValue (some delivery) none wseventDeliveryMode = some mode →
        isSupportedDeliveryMode mode = true) ∧
      wsXmlFirstChild (some delivery) xmlNsWsMan wsmConnectionRetry = none

theorem Admitted.admissible {ids : List String} {doc : WsXmlNode} (h : Admitted ids doc) :
    Admissible ids doc := by
  have hmu := (validateMustunderstandHeaders_eq_none_iff doc).mp h.understood
  obtain ⟨hheaders, hbody⟩ := Bool.and_eq_true_iff.mp h.features
  obtain ⟨hfault, hlocale⟩ := Bool.and_eq_true_iff.mp hheaders
  obtain ⟨_, hsub⟩ := Bool.and_eq_true_iff.mp hbody
  obtain ⟨_, htimeout⟩ := Bool.and_eq_true_iff.mp h.control
  refine ⟨hmu, (messageIdFresh_iff ids doc).mp h.messageId, ?_, ?_, ?_, ?_, h.selectors, ?_⟩
  · intro header hheader
    rw [isNone_iff_eq_none, hheader, wsXmlFirstChild_eq_none_iff] at hfault
    exact hfault
  · -- A locale that must be understood would have been reported as not understood.
    intro header hheader child hchild hns hname
    by_contra hmust
    exact locale_not_mem_muHeaders hns hname
      (hmu header hheader child hchild (Bool.eq_true_of_not_eq_false hmust))
  · intro child hchild
    rw [localeMustUnderstand, hchild] at hlocale
    simpa using hlocale
  · intro child hchild
    rw [hchild] at htimeout
    exact (timeoutValid_iff _ child).mp htimeout
  · intro node hnode
    rw [hnode] at hsub
    obtain ⟨delivery, hdel, hok⟩ := (subscribeSupported_iff node).mp hsub
    exact ⟨delivery, hdel, (deliverySupported_iff delivery).mp hok⟩

def clientHeader (more : List WsXmlNode) : List WsXmlNode :=
  [.elem xmlNsAddressing wsaTo [.text "http://host:5985/wsman"],
    .elem xmlNsAddressing wsaAction [.text (xmlNsEnumeration ++ "/Enumerate")],
    .elem xmlNsAddressing wsaMessageId [.text "uuid:1"],
    .elem xmlNsAddressing wsaReplyTo [.elem xmlNsAddressing wsaAddress [.text wsaToAnonymous]],
    .elem xmlNsWsMan wsmResourceUri [.text "http://schema.openwsman.org/wbem/Linux"]] ++ more

def enumerateDoc (more content : List WsXmlNode) : WsXmlNode :=
  wsXmlCreateEnvelope (clientHeader more) [.elem xmlNsEnumeration wsenumEnumerate content]

def plainOperation (inDoc : WsXmlNode) : Handled Unit Unit :=
  processInboundOperation (fun _ _ ↦ 0) "uuid:2" (some fun s _ ↦ (s, none)) [] () inDoc {}

def secondTimeoutDoc : WsXmlNode :=
  enumerateDoc [.elem xmlNsWsMan wsmOperationTimeout [.text "PT60S"],
    .elem xmlNsWsMan wsmOperationTimeout [.text "soon"]] []

def onlyFilter (enumurate : WsXmlNode) : Option WsXmlNode :=
  match wsXmlFirstChild (some enumurate) xmlNsEnumeration wsenumFilter,
      wsXmlFirstChild (some enumurate) xmlNsWsMan wsmFilter with
  | some f, none | none, some f => some f
  | _, _ => none

def EndToSlips (ids : List String) (doc : WsXmlNode) : Prop :=
  ∃ enumurate, enumerateOf doc = some enumurate ∧ hasEndTo enumurate = true ∧
    (∃ f, onlyFilter enumurate = some f ∧ isSupportedDialect (requestedDialect f) = true) ∧
    messageIdFresh ids doc = true ∧ headersSupported doc = true ∧
    (wsXmlFirstChild (wsXmlGetSoapBody doc) xmlNsEventing wseventSubscribe).all
      subscribeSupported = true ∧
    validateMustunderstandHeaders doc = none ∧ controlHeadersValid doc = true ∧
    (selectorNames (headerOf doc)).Nodup

theorem enumerateSupported_of_hasEndTo {header : Option WsXmlNode} {enumurate : WsXmlNode}
    (h : hasEndTo enumurate = true) :
    enumerateSupported header enumurate = true ↔
      ∃ f, onlyFilter enumurate = some f ∧ isSupportedDialect (requestedDialect f) = true := by
  rw [enumerateSupported, onlyFilter, h]
  cases wsXmlFirstChild (some enumurate) xmlNsEnumeration wsenumFilter <;>
    cases wsXmlFirstChild (some enumurate) xmlNsWsMan wsmFilter <;> simp

theorem endToSlips_iff (ids : List String) (doc : WsXmlNode) :
    EndToSlips ids doc ↔
      Admitted ids doc ∧ ∃ enumurate, enumerateOf doc = some enumurate ∧
        hasEndTo enumurate = true := by
  constructor
  · rintro ⟨e, he, hend, hfilter, hid, hheaders, hsub, hmu, hctl, hsel⟩
    refine ⟨⟨hid, ?_, hmu, hctl, hsel⟩, e, he, hend⟩
    have hsupp : enumerateSupported (headerOf doc) e = true :=
      (enumerateSupported_of_hasEndTo hend).mpr hfilter
    simp [featuresSupported, bodySupported, hheaders, hsub, he, hsupp]
  · rintro ⟨h, e, he, hend⟩
    obtain ⟨hheaders, hbody⟩ := Bool.and_eq_true_iff.mp h.features
    obtain ⟨henum, hsub⟩ := Bool.and_eq_true_iff.mp hbody
    rw [he] at henum
    exact ⟨e, he, hend, (enumerateSupported_of_hasEndTo hend).mp henum, h.messageId, hheaders, hsub,
      h.understood, h.control, h.selectors⟩

theorem behindFeatureCheck_outDoc_isSome_iff (inDoc : WsXmlNode) (msg : WsmanMessage) :
    (behindFeatureCheck (createOpEntry (δ := δ) inDoc msg)).outDoc.isSome = true ↔
      ∃ enumurate, enumerateOf inDoc = some enumurate ∧ hasEndTo enumurate = true := by
  have hdoc : enumerateOf (createOpEntry (δ := δ) inDoc msg).inDoc = enumerateOf inDoc := rfl
  rw [behindFeatureCheck, hdoc]
  cases enumerateOf inDoc with
  | none => simp [createOpEntry]
  | some e =>
    cases hend : hasEndTo e with
    | true =>
      obtain ⟨doc, hdoc, _⟩ := hasFault_afterEndTo (createOpEntry (δ := δ) inDoc msg) hend
      simp [hend, hdoc]
    | false => simp [afterEndTo, hend, createOpEntry]

/-- **Verdict and fault.** A request is refused exactly when a check left a fault, and no Enumerate
with an `EndTo` is dispatched, for all requests but those of `EndToSlips`. -/
theorem refused_iff_fault_iff (dump : String → SoapDoc δ → ℕ) (uuid : String)
    (callback : ServiceCallback σ δ) (ids : List String) (s : σ) (inDoc : WsXmlNode)
    (msg : WsmanMessage) :
    (((processInboundOperation dump uuid (some callback) ids s inDoc msg).invoked = false ↔
          (processFiltersInbound ids (createOpEntry (δ := δ) inDoc msg)).2.1.outDoc.isSome = true) ∧
        ∀ enumurate, enumerateOf inDoc = some enumurate → hasEndTo enumurate = true →
          (processInboundOperation dump uuid (some callback) ids s inDoc msg).invoked = false) ↔
      ¬EndToSlips ids inDoc := by
  have hinv := invoked_iff_admitted dump uuid callback ids s inDoc msg
  have hfault := behindFeatureCheck_outDoc_isSome_iff (δ := δ) inDoc msg
  rw [endToSlips_iff]
  -- A refused request has its fault; a dispatched one has one exactly if an `EndTo` left it.
  rcases processFiltersInbound_spec ids (createOpEntry (δ := δ) inDoc msg) with
    ⟨hadm, ids', size, t, _, heq⟩ | ⟨hadm, ids', op', heq, doc, hout, _⟩
  · have hadm : Admitted ids inDoc := hadm
    rw [heq, hinv.mpr hadm]
    simp only [Bool.true_eq_false, false_iff, hfault, hadm, true_and, imp_false]
    refine ⟨fun h ↦ h.1, fun h ↦ ⟨h, fun e he hend ↦ h ⟨e, he, hend⟩⟩⟩
  · have hadm : ¬Admitted ids inDoc := hadm
    have hnot : (processInboundOperation dump uuid (some callback) ids s inDoc msg).invoked =
        false :=
      Bool.eq_false_of_not_eq_true (mt hinv.mp hadm)
    rw [heq, hnot]
    simp [hadm, hout]

def endToDoc : WsXmlNode :=
  enumerateDoc [] [.elem xmlNsEnumeration wsenumEndTo
      [.elem xmlNsAddressing wsaAddress [.text "http://client/end"]],
    .elem xmlNsWsMan wsmFilter [.text "//*"]]

/-- It is dispatched, with a fault in its operation. -/
theorem endTo_with_filter_dispatched :
    (enumerateOf endToDoc).any hasEndTo = true ∧
      (plainOperation endToDoc).invoked = true ∧
      (processFiltersInbound [] (createOpEntry (δ := Unit) endToDoc {})).2.1.outDoc =
        some (.fault ⟨.wsmanUnsupportedFeature, .wsmanDetailAddressingMode⟩ none) :=
  ⟨rfl, rfl, rfl⟩

end Openwsman
