import Openwsman.Dispatcher.Admission
import Openwsman.Eventing.Expiry

/-!
# The stored request

The request that is kept in the file of a subscription differs from the one that came in the text of
its Expires and in the `FormerUID` header. This module shows that every function on the way of a
request to its subscription reads the same from both, except for these two: the validation of the
envelope, routing, the inbound checks and `create_subs_info`.
-/

namespace Openwsman

open Option List WsXmlNode

def stampedNames : List (String × String) :=
  [(xmlNsEventing, wseventSubscribe), (xmlNsOpenwsman, "FormerUID")]

theorem tag_addFormerUid (id : String) (header : WsXmlNode) :
    (addFormerUid id header).tag = header.tag := by
  rw [addFormerUid]
  split
  · exact tag_wsXmlAddChild _ _ _ header
  · rfl

theorem sameBut_addFormerUid (id : String) (header : WsXmlNode) :
    SameBut [(xmlNsOpenwsman, "FormerUID")] header (addFormerUid id header) := by
  rw [addFormerUid]
  split
  · exact sameBut_wsXmlAddChild _ _ _ header
  · exact SameBut.refl _ header

theorem docSameBut_setExpires (text : String) (doc : WsXmlNode) :
    DocSameBut [(xmlNsEventing, wseventSubscribe)] doc (setExpires text doc) := by
  apply docSameBut_changeSoapBody (tag_changeFirstChild _ _ _)
  intro body
  exact sameBut_changeFirstChild (tag_changeFirstChild _ _ _) _ _ body

theorem docSameBut_addFormerUid (id : String) (doc : WsXmlNode) :
    DocSameBut [(xmlNsOpenwsman, "FormerUID")] doc (changeSoapHeader (addFormerUid id) doc) :=
  docSameBut_changeSoapHeader (tag_addFormerUid id) doc (sameBut_addFormerUid id)

theorem docSameBut_storedRequest (text id : String) (doc : WsXmlNode) :
    DocSameBut stampedNames doc (storedRequest text id doc) :=
  ((docSameBut_setExpires text doc).mono (by simp [stampedNames])).trans
    ((docSameBut_addFormerUid id _).mono (by simp [stampedNames]))

/-! ## On the way to the stub -/

theorem headerOf_eq (doc : WsXmlNode) : headerOf doc = wsXmlGetSoapHeader doc := by
  rw [headerOf, wsmanGetSoapHeaderElement]
  cases wsXmlGetSoapHeader doc <;> rfl

section

variable {doc doc' : WsXmlNode} (h : DocSameBut stampedNames doc doc')

include h

theorem wsmanIsIdentifyRequest_of_sameBut :
    wsmanIsIdentifyRequest doc' = wsmanIsIdentifyRequest doc := by
  rw [wsmanIsIdentifyRequest, wsmanIsIdentifyRequest, h.firstInBody (by decide)]

theorem wsmanIsEventRelatedRequest_of_sameBut :
    wsmanIsEventRelatedRequest doc' = wsmanIsEventRelatedRequest doc := by
  rw [wsmanIsEventRelatedRequest, wsmanIsEventRelatedRequest, h.firstHeader (by decide)]

theorem wsmanGetResourceUri_of_sameBut : wsmanGetResourceUri doc' = wsmanGetResourceUri doc := by
  rw [wsmanGetResourceUri, wsmanGetResourceUri, h.firstHeader (by decide)]

theorem wsmanBuildInboundEnvelope_of_sameBut :
    wsmanBuildInboundEnvelope (some doc') = wsmanBuildInboundEnvelope (some doc) := by
  obtain ⟨g, hg, hheader⟩ := h.header
  obtain ⟨f, hf, hbody⟩ := h.body
  have hfields : ∀ header, validateHeaderFields (g header) = validateHeaderFields header := by
    intro header
    rw [validateHeaderFields, validateHeaderFields, (hg header).firstChild (by decide),
      (hg header).firstChild (by decide), (hg header).firstChild (by decide),
      (hg header).firstChild (by decide)]
  rw [wsmanBuildInboundEnvelope, wsmanBuildInboundEnvelope, wsmanIsValidEnvelope,
    wsmanIsValidEnvelope, name_of_tag h.tag, nsUri_of_tag h.tag, hheader, hbody,
    wsmanIsIdentifyRequest_of_sameBut h, wsmanIsEventRelatedRequest_of_sameBut h, isNone_map]
  cases wsXmlGetSoapHeader doc with
  | none => rfl
  | some header =>
    rw [map_some]
    dsimp only
    rw [hfields]

theorem getDispatchEntry_of_sameBut {ρ : Type} [DecidableEq ρ] {mem : ρ → WsDispatchEndPointInfo}
    {dispatcher : Option (WsManDispatcherInfo ρ)}
    (hevent : wsmanIsEventRelatedRequest doc = false) (uris uris' : String → Option String) :
    getDispatchEntry mem uris' dispatcher doc' = getDispatchEntry mem uris dispatcher doc := by
  have haction : wsmanGetAction doc' = wsmanGetAction doc := by
    rw [wsmanGetAction, wsmanGetAction, h.firstHeader (by decide)]
  have huri : routedUri uris' doc' = routedUri uris doc := by
    rw [routedUri, routedUri, wsmanIsEventRelatedRequest_of_sameBut h, hevent,
      wsmanGetResourceUri_of_sameBut h]
    rfl
  rw [getDispatchEntry, getDispatchEntry]
  apply Option.bind_congr
  intro dispInfo _
  rw [wsmanDispatcher, wsmanDispatcher, routedEndPoint, routedEndPoint,
    wsmanIsIdentifyRequest_of_sameBut h, huri, haction]

theorem messageIdFresh_of_sameBut (ids : List String) :
    messageIdFresh ids doc' = messageIdFresh ids doc := by
  rw [messageIdFresh, messageIdFresh, headerOf_eq, headerOf_eq, h.firstHeader (by decide),
    wsmanIsIdentifyRequest_of_sameBut h]

theorem headersSupported_of_sameBut : headersSupported doc' = headersSupported doc := by
  rw [headersSupported, headersSupported, headerOf_eq, headerOf_eq, localeMustUnderstand,
    localeMustUnderstand, h.firstHeader (by decide), h.firstHeader (by decide)]

theorem understood_of_sameBut (hnone : validateMustunderstandHeaders doc = none) :
    validateMustunderstandHeaders doc' = none := by
  rw [validateMustunderstandHeaders_eq_none_iff, headerOf_eq] at hnone ⊢
  obtain ⟨g, hg, hheader⟩ := h.header
  intro header' hheader' child' hchild' hmust
  rw [hheader, map_eq_some_iff] at hheader'
  obtain ⟨header, hsome, rfl⟩ := hheader'
  obtain ⟨extra, htags, hattrs⟩ := (hg header).tags
  have hmem : child'.tag ∈ (g header).elements.map tag := mem_map_of_mem hchild'
  rw [htags, mem_append] at hmem
  rw [nsUri_of_tag (hg header).tag] at hmust
  rcases hmem with hmem | hmem
  · obtain ⟨child, hchild, htag⟩ := mem_map.mp hmem
    have hsame : wsXmlFindAttrBool (some child') header.nsUri soapMustUnderstand =
        wsXmlFindAttrBool (some child) header.nsUri soapMustUnderstand := by
      rw [wsXmlFindAttrBool, wsXmlFindAttrBool, wsXmlFindAttrValue, wsXmlFindAttrValue,
        wsXmlFindNodeAttr, wsXmlFindNodeAttr, bind_some, bind_some, attrs_of_tag htag]
    rw [hsame] at hmust
    rw [← nsUri_of_tag htag, ← name_of_tag htag]
    exact hnone header hsome child hchild hmust
  · -- what was added carries no attributes
    have hempty : child'.attrs = [] := hattrs _ hmem
    rw [wsXmlFindAttrBool, wsXmlFindAttrValue, wsXmlFindNodeAttr, bind_some, hempty] at hmust
    cases hmust

theorem controlHeadersValid_of_sameBut : controlHeadersValid doc' = controlHeadersValid doc := by
  obtain ⟨g, hg, hheader⟩ := h.header
  rw [controlHeadersValid, controlHeadersValid, headerOf_eq, headerOf_eq, hheader]
  cases wsXmlGetSoapHeader doc with
  | none => rfl
  | some header =>
    have hns : wsXmlGetNodeNameNs (some (g header)) = wsXmlGetNodeNameNs (some header) :=
      nsUri_of_tag (hg header).tag
    have hmax : controlMaxsize (some (g header)) = controlMaxsize (some header) := by
      rw [controlMaxsize, controlMaxsize, (hg header).firstChild (by decide), wsDeserializeUint32,
        wsDeserializeUint32, ← wsXmlFirstChild, ← wsXmlFirstChild,
        (hg header).firstChild (by decide)]
    have htimeout : timeoutValid (some (g header)) = timeoutValid (some header) := by
      funext child
      rw [timeoutValid, timeoutValid, hns]
    rw [map_some, hmax, htimeout, (hg header).firstChild (by decide)]

theorem selectorNames_of_sameBut :
    selectorNames (headerOf doc') = selectorNames (headerOf doc) := by
  rw [headerOf_eq, headerOf_eq, selectorNames, selectorNames, h.firstHeader (by decide)]

theorem admitted_of_sameBut {ids ids' : List String} (hadm : Admitted ids doc)
    (hsubscribe : (subscribeOf doc').all subscribeSupported =
      (subscribeOf doc).all subscribeSupported) :
    Admitted ids' doc' ↔ messageIdFresh ids' doc = true := by
  refine ⟨fun h' ↦ (messageIdFresh_of_sameBut h ids').symm.trans h'.messageId, fun hfresh ↦ ?_⟩
  have hbody : bodySupported doc' = bodySupported doc := by
    have hall : enumerateSupported (headerOf doc') = enumerateSupported (headerOf doc) := by
      funext node
      rw [enumerateSupported, enumerateSupported, asksForAllClasses, asksForAllClasses, headerOf_eq,
        headerOf_eq, h.firstHeader (by decide)]
    rw [bodySupported, bodySupported, enumerateOf, enumerateOf, h.firstInBody (by decide), hall,
      ← subscribeOf, ← subscribeOf, hsubscribe]
  have hfeatures : featuresSupported doc' = true := by
    rw [featuresSupported, headersSupported_of_sameBut h, hbody]
    exact hadm.features
  refine ⟨(messageIdFresh_of_sameBut h ids').trans hfresh, hfeatures,
    understood_of_sameBut h hadm.understood, ?_, ?_⟩
  · rw [controlHeadersValid_of_sameBut h]
    exact hadm.control
  · rw [selectorNames_of_sameBut h]
    exact hadm.selectors

end

/-! ## In the stub -/

def stampSubscribe (text : String) : WsXmlNode → WsXmlNode :=
  changeFirstChild xmlNsEventing wseventExpires (wsXmlSetNodeText text)

theorem sameBut_stampSubscribe (text : String) (subscribe : WsXmlNode) :
    SameBut [(xmlNsEventing, wseventExpires)] subscribe (stampSubscribe text subscribe) :=
  sameBut_changeFirstChild (tag_wsXmlSetNodeText text) _ _ subscribe

section

variable (text id : String) (doc : WsXmlNode)

theorem subscribeOf_storedRequest :
    subscribeOf (storedRequest text id doc) = (subscribeOf doc).map (stampSubscribe text) := by
  have hsame := (docSameBut_addFormerUid id (setExpires text doc)).firstInBody
    (show (xmlNsEventing, wseventSubscribe) ∉ _ by decide)
  rw [subscribeOf, storedRequest, hsame, ← subscribeOf, subscribeOf_setExpires]
  rfl

theorem expiresOf_storedRequest :
    expiresOf (storedRequest text id doc) = (expiresOf doc).map (wsXmlSetNodeText text) := by
  rw [expiresOf, expiresOf, subscribeOf_storedRequest]
  cases subscribeOf doc with
  | none => rfl
  | some subscribe =>
    rw [map_some]
    exact firstChild_changeFirstChild (tag_wsXmlSetNodeText text) _ _ subscribe

theorem subscribeSupported_stampSubscribe (subscribe : WsXmlNode) :
    subscribeSupported (stampSubscribe text subscribe) = subscribeSupported subscribe := by
  rw [subscribeSupported, subscribeSupported,
    (sameBut_stampSubscribe text subscribe).firstChild (by decide)]

theorem all_subscribeSupported_storedRequest :
    (subscribeOf (storedRequest text id doc)).all subscribeSupported =
      (subscribeOf doc).all subscribeSupported := by
  rw [subscribeOf_storedRequest]
  cases subscribeOf doc with
  | none => rfl
  | some subscribe => exact subscribeSupported_stampSubscribe text subscribe

theorem formerUid_storedRequest {header : WsXmlNode}
    (hheader : wsXmlGetSoapHeader doc = some header) :
    formerUid (storedRequest text id doc) = some ((formerUid doc).getD id) := by
  have hset := docSameBut_setExpires text doc
  have hsame : formerUid (setExpires text doc) = formerUid doc := by
    rw [formerUid, formerUid, hset.firstHeader (by decide)]
  obtain ⟨g, hg, hheader'⟩ := hset.header
  rw [hheader, map_some] at hheader'
  rw [← hsame, formerUid, formerUid, storedRequest,
    wsXmlGetSoapHeader_changeSoapHeader (tag_addFormerUid id), hheader', map_some, addFormerUid]
  cases hformer : wsXmlFirstChild (some (g header)) xmlNsOpenwsman "FormerUID" with
  | none =>
    have helem : (g header).isElement = true := by
      rw [wsXmlGetSoapHeader_eq_find?, bind_eq_some_iff] at hheader'
      obtain ⟨env, -, hfind⟩ := hheader'
      exact find?_some hfind
    rw [isNone_none, if_pos rfl, firstChild_wsXmlAddChild helem hformer]
    change some (id ++ "") = some id
    rw [String.append_empty]
  | some node =>
    rw [isNone_some, if_neg Bool.false_ne_true, hformer]
    rfl

end

theorem SubscribeParts.stored {host : EventHost} {doc subNode : WsXmlNode}
    {uri soapNs : String} {parts : DeliveryParts}
    (h : SubscribeParts host doc subNode uri soapNs parts) (text id : String) :
    SubscribeParts host (storedRequest text id doc) (stampSubscribe text subNode) uri soapNs
      parts := by
  have hdoc := docSameBut_storedRequest text id doc
  have hsub := sameBut_stampSubscribe text subNode
  constructor
  · rw [wsmanGetResourceUri_of_sameBut hdoc, h.uri]
  · rw [subscribeOf_storedRequest, h.subscribe, map_some]
  · rw [nsUri_of_tag hdoc.tag, h.soapNs]
  · rw [hsub.firstChild (by decide), h.delivery]
  · rw [wsmanParseCredentials, hdoc.firstHeader (by decide), ← wsmanParseCredentials, h.credentials]
  have hfilter :
      wsmanParseEventRequest (storedRequest text id doc) (stampSubscribe text subNode) =
        wsmanParseEventRequest doc subNode := by
    rw [wsmanParseEventRequest, wsmanParseEventRequest, filterDeserialize, filterDeserialize,
      filterDeserialize, filterDeserialize, hsub.firstChild (by decide),
      hsub.firstChild (by decide), isExistingFilterEpr, isExistingFilterEpr,
      hdoc.firstHeader (by decide), hdoc.firstHeader (by decide)]
  rw [hfilter, h.filter]

end Openwsman
