import Openwsman.Dispatcher.Operation
import Openwsman.Dispatcher.Routing
import Openwsman.Enumeration.Info
import Openwsman.Xml.Datetime
import Openwsman.Xml.Edit

/-!
# Subscriptions

`create_subs_info` of `wsman-soap.c` makes a subscription of a Subscribe request, with
`wsman_parse_credentials` and `wsman_parse_event_request` of `wsman-soap-envelope.c`; the three
stubs for Subscribe, Renew and Unsubscribe work on the list of subscriptions, and the functions of
`wsman-subscription-repository.c` keep a copy of the Subscribe request in a file.

A subscription has an id, and its file is named after the id. Renew and Unsubscribe find a
subscription by comparing ids without regard to case, but Renew updates the file with the name
written as in the request.

The endpoint of the plugin is a parameter: for the subscription it is given it either refuses with
a status or accepts. It does not change the subscription. Whether a URI can be parsed
(`u_uri_parse`), the local time and the length of documents are parameters of the server.
-/

namespace Openwsman

open Option CResult KeyedTable Search

/-! ## Subscriptions -/

inductive DeliveryMode where
  | push | pushWithAck | events | pull
  deriving DecidableEq, Repr

structure SubsFlags where
  unsubscribe : Bool := false
  notificationPending : Bool := false
  cancelled : Bool := false
  deriving DecidableEq, Repr

structure WsSubscribeInfo where
  flags : SubsFlags := {}
  heartbeatCountdown : ℤ := 0
  subsId : String
  soapNs : String
  uri : String
  eprNotifyto : Option String
  expires : ℕ
  deliveryMode : DeliveryMode
  heartbeatInterval : ℕ := 0
  eventSentLastTime : Bool := false
  authData : WsmanAuth := {}
  deriving DecidableEq, Repr

def euidlen : ℕ := 64

def timeExpired (lt now : ℕ) : Bool := lt != 0 && !decide (now < lt)

structure SubsFile where
  id : String
  doc : WsXmlNode

abbrev SubsRepository := Table SubsFile.id

structure EventState where
  subs : List WsSubscribeInfo
  repo : SubsRepository

inductive EventResponse where
  | subscribe (address expires context : Option String) (identifier : String)
  | renew (expires : String)
  | unsubscribe
  deriving DecidableEq, Repr

abbrev EventDoc := SoapDoc EventResponse

structure EventHost where
  dump : String → EventDoc → ℕ
  zone : TimeZone
  uriParses : String → Bool

/-- The answer of the endpoint of a plugin: the status with which it refuses, if it does. -/
abbrev EventEndPoint := WsSubscribeInfo → Option WsmanStatus

/-! ## Reading a Subscribe request -/

def subscribeOf (doc : WsXmlNode) : Option WsXmlNode :=
  wsXmlFirstChild (wsXmlGetSoapBody doc) xmlNsEventing wseventSubscribe

def expiresOf (doc : WsXmlNode) : Option WsXmlNode :=
  wsXmlFirstChild (subscribeOf doc) xmlNsEventing wseventExpires

def subscribeExpires (zone : TimeZone) (now : ℕ) (expires : Option WsXmlNode) :
    Except WsmanFaultCodeType ℕ :=
  match expires with
  | none => .ok 0
  | some node =>
    match wsmanSetExpiretime (xmlDatetime zone) node.chars now with
    | .error code => .error code
    | .ok t => if timeExpired t now then .error .wseInvalidExpirationTime else .ok t

/-- Every text that is not one of the first three modes means Pull. -/
def deliveryModeOf (delivery : Option WsXmlNode) : DeliveryMode :=
  match wsXmlFindAttrValue delivery none wseventDeliveryMode with
  | none => .push
  | some mode =>
    if strcaseEq mode wseventDeliveryModePush then .push
    else if strcaseEq mode wseventDeliveryModePushWithAck then .pushWithAck
    else if strcaseEq mode wseventDeliveryModeEvents then .events
    else .pull

def heartbeatsOf (delivery : Option WsXmlNode) : Except WsmanFaultCodeType ℕ :=
  match wsXmlFirstChild delivery xmlNsWsMan wsmHeartbeats with
  | none => .ok 0
  | some node =>
    if node.chars.toList.head? == some 'P' then
      match wsDeserializeDuration node.chars with
      | none => .error .wsenInvalidExpirationTime
      | some timeout => .ok (toULong (timeout * 1000))
    else .ok 0

def destinationReachable (uriParses : String → Bool) (url : String) : Bool :=
  strstr url "http" && uriParses url

def profileKnown (delivery : Option WsXmlNode) : Bool :=
  (wsXmlFindAttrValue (wsXmlFirstChild delivery xmlNsWsMan wsmAuth) none wsmProfile).all
    fun profile ↦ wsmanSecurityProfiles.any (strcaseEq profile)

def notifyToAddress (delivery : Option WsXmlNode) : Option String :=
  wsXmlGetNodeText
    (wsXmlFirstChild (wsXmlFirstChild delivery xmlNsEventing wseventNotifyTo) xmlNsAddressing
      wsaAddress)

def eventSink (uriParses : String → Bool) (delivery : Option WsXmlNode) :
    Except WsmanStatus String :=
  match notifyToAddress delivery with
  | none => .error ⟨.wseInvalidMessage, .wsmanDetailOk⟩
  | some address =>
    if address == "" then .error ⟨.wseInvalidMessage, .wsmanDetailOk⟩
    else if !destinationReachable uriParses address then
      .error ⟨.wsmanEventDeliverToUnusable, .wsmanDetailOk⟩
    else if !profileKnown delivery then
      .error ⟨.wsmanInvalidOptions, .wsmanDetailAutherizationMode⟩
    else .ok address

structure DeliveryParts where
  deliveryMode : DeliveryMode
  heartbeatInterval : ℕ
  eprNotifyto : Option String

def deliveryParts (uriParses : String → Bool) (delivery : Option WsXmlNode) :
    Except WsmanStatus DeliveryParts :=
  match heartbeatsOf delivery with
  | .error code => .error ⟨code, .wsmanDetailOk⟩
  | .ok interval =>
    match deliveryModeOf delivery with
    | .pull => .ok ⟨.pull, interval, none⟩
    | mode =>
      match eventSink uriParses delivery with
      | .error status => .error status
      | .ok address => .ok ⟨mode, interval, some address⟩

/-- One turn of `wsman_parse_credentials`: the fault that it sets. The address is compared with that
of the event sink, which is missing when the subscription is pulled. -/
def tokenFault (notifyto : Option String) (tnode : WsXmlNode) : CResult (Option WsmanStatus) :=
  let badAddress : CResult Bool :=
    match wsXmlGetNodeText (wsXmlFirstChild (wsXmlFirstChild
        (wsXmlFirstChild (some tnode) xmlNsPolicy wspAppliesTo) xmlNsAddressing wsaEpr)
        xmlNsAddressing wsaAddress) with
    | none => .value false
    | some address => (strcmpEq address notifyto).bind fun same ↦ .value !same
  badAddress.bind fun bad ↦
    if bad then .value (some ⟨.wsmanInvalidParameter, .wsmanDetailInvalidAddress⟩)
    else
      match wsXmlGetNodeText (wsXmlFirstChild (some tnode) xmlNsTrust wstTokenType) with
      | none => .value (some ⟨.wsmanInvalidOptions, .wstDetailUnsupportedTokentype⟩)
      | some type =>
        if type == wstUsernameToken || type == wstCertificateThumbprint then .value none
        else .value (some ⟨.wsmanInvalidOptions, .wstDetailUnsupportedTokentype⟩)

def tokenFaults (notifyto : Option String) : List WsXmlNode → CResult (Option WsmanStatus)
  | [] => .value none
  | tnode :: tnodes =>
    (tokenFault notifyto tnode).bind fun
      | some status => .value (some status)
      | none => tokenFaults notifyto tnodes

def wsmanParseCredentials (doc : WsXmlNode) (notifyto : Option String) :
    CResult (Option WsmanStatus) :=
  match wsXmlFirstChild (wsXmlGetSoapHeader doc) xmlNsTrust wstIssuedTokens with
  | none => .value none
  | some snode =>
    tokenFaults notifyto
      (snode.childrenNamed (some xmlNsTrust) (some wstRequestSecurityTokenResponse))

def isExistingFilterEpr (header : Option WsXmlNode) : Bool :=
  match wsXmlGetNodeText (wsXmlFirstChild header xmlNsWsMan wsmResourceUri) with
  | none => false
  | some uri =>
    uri != cimAllAvailableClasses && (wsXmlFirstChild header xmlNsWsMan wsmSelectorSet).isSome

def wsmanParseEventRequest (doc subscribe : WsXmlNode) : CResult (Option WsmanFaultCodeType) :=
  (filterDeserialize (some subscribe) xmlNsWsMan).bind fun wsmanF ↦
    (filterDeserialize (some subscribe) xmlNsEventing).bind fun wseF ↦
      .value
        (match wsmanF, wseF with
        | some _, some _ => some .wseInvalidMessage
        | some f, none | none, some f =>
          if f.dialect == wsmCqlFilterDialect || f.dialect == wsmWqlFilterDialect then none
          else some .wseFilteringNotSupported
        | none, none =>
          if isExistingFilterEpr (wsXmlGetSoapHeader doc) then none
          else some .wseFilteringNotSupported)

def formerUid (doc : WsXmlNode) : Option String :=
  wsXmlGetNodeText (wsXmlFirstChild (wsXmlGetSoapHeader doc) xmlNsOpenwsman "FormerUID")

/-- An id that fills `subsId` is not ended by a zero byte. -/
def copyId (text : String) : CResult String :=
  if text.utf8ByteSize < euidlen then .value text else .undefined

def newSubsId (doc : WsXmlNode) (uuid : String) : CResult String :=
  copyId ((formerUid doc).getD uuid)

def createSubsInfo {δ : Type} (host : EventHost) (op : SoapOp δ) (uuid : String) (now : ℕ) :
    CResult (Except WsmanStatus WsSubscribeInfo) :=
  (uStrdup (wsmanGetResourceUri op.inDoc)).bind fun uri ↦
    match subscribeOf op.inDoc with
    | none => .value (.error ⟨.wseInvalidMessage, .wsmanDetailOk⟩)
    | some subNode =>
      (uStrdup op.inDoc.nsUri).bind fun soapNs ↦
        match subscribeExpires host.zone now (expiresOf op.inDoc) with
        | .error code => .value (.error ⟨code, .wsmanDetailOk⟩)
        | .ok expires =>
          match deliveryParts host.uriParses
              (wsXmlFirstChild (some subNode) xmlNsEventing wseventDelivery) with
          | .error status => .value (.error status)
          | .ok parts =>
            (wsmanParseCredentials op.inDoc parts.eprNotifyto).bind fun
              | some status => .value (.error status)
              | none =>
                (wsmanParseEventRequest op.inDoc subNode).bind fun
                  | some code => .value (.error ⟨code, .wsmanDetailOk⟩)
                  | none =>
                    (storedAuth op.msg.authData).bind fun auth ↦
                      (newSubsId op.inDoc uuid).bind fun id ↦
                        .value (.ok
                          { subsId := id, soapNs := soapNs, uri := uri, expires := expires
                            eprNotifyto := parts.eprNotifyto
                            deliveryMode := parts.deliveryMode
                            heartbeatInterval := parts.heartbeatInterval
                            heartbeatCountdown := toTimeT parts.heartbeatInterval
                            authData := auth })

/-! ## The repository -/

def setExpires (text : String) : WsXmlNode → WsXmlNode :=
  changeSoapBody (changeFirstChild xmlNsEventing wseventSubscribe
    (changeFirstChild xmlNsEventing wseventExpires (wsXmlSetNodeText text)))

def addFormerUid (id : String) (header : WsXmlNode) : WsXmlNode :=
  if (wsXmlFirstChild (some header) xmlNsOpenwsman "FormerUID").isNone then
    wsXmlAddChild xmlNsOpenwsman "FormerUID" id header
  else header

def storedRequest (text id : String) (doc : WsXmlNode) : WsXmlNode :=
  changeSoapHeader (addFormerUid id) (setExpires text doc)

def localSubscriptionOpSave (repo : SubsRepository) (uuid : String) (doc : WsXmlNode) :
    SubsRepository :=
  repo.put ⟨uuid, doc⟩

def localSubscriptionOpUpdate (repo : SubsRepository) (uuid expire : String) : SubsRepository :=
  match repo.lookup uuid with
  | none => repo
  | some file => repo.replace { file with doc := setExpires expire file.doc }

def localSubscriptionOpDelete (repo : SubsRepository) (uuid : String) : SubsRepository :=
  repo.erase uuid

/-! ## The stubs -/

abbrev EventStub := EventState → SoapOp EventResponse → CResult (EventState × Option EventDoc)

def EventState.subscribed (s : EventState) (info : WsSubscribeInfo) (doc : WsXmlNode)
    (text : String) : EventState where
  subs := s.subs ++ [info]
  repo := localSubscriptionOpSave s.repo info.subsId (storedRequest text info.subsId doc)

theorem EventState.lookup_subscribed (s : EventState) (info : WsSubscribeInfo) (doc : WsXmlNode)
    (text k : String) :
    (s.subscribed info doc text).repo.lookup k =
      if info.subsId = k then some ⟨info.subsId, storedRequest text info.subsId doc⟩
      else s.repo.lookup k :=
  KeyedTable.Table.lookup_put _ _ _

/-- The source goes on to look for reference parameters in the node that it has not found. -/
def replyProperties (doc : WsXmlNode) : List WsXmlNode :=
  match wsXmlFirstChild (wsXmlFirstChild (wsXmlGetSoapHeader doc) xmlNsAddressing wsaReplyTo)
      xmlNsAddressing wsaReferenceProperties with
  | none => []
  | some node => node.elements

def subscribeResponse (doc : WsXmlNode) (info : WsSubscribeInfo) : EventDoc :=
  .response (responseHeader doc ++ replyProperties doc)
    (.subscribe
      (wsXmlGetNodeText (wsXmlFirstChild (wsXmlGetSoapHeader doc) xmlNsAddressing wsaTo))
      (if info.expires != 0 then wsXmlGetNodeText (expiresOf doc) else none)
      (if info.deliveryMode = .pull then some ("uuid:" ++ info.subsId) else none)
      ("uuid:" ++ info.subsId))

/-- After a fault without an entry in the table it goes on as if there were a subscription. -/
def wseSubscribeStub (host : EventHost) (endPoint : EventEndPoint) (uuid : String) (now : ℕ) :
    EventStub :=
  fun s op ↦
    (createSubsInfo host op uuid now).bind fun
      | .error status =>
        match wsmanGenerateFault status.faultCode status.faultDetailCode with
        | none => .undefined
        | some doc => .value (s, some doc)
      | .ok info =>
        match endPoint info with
        | some status =>
          .value (s, wsmanGenerateFault status.faultCode status.faultDetailCode)
        | none =>
          (wsmanExpiretime2xmldatetime host.zone info.expires).bind fun text ↦
            .value (s.subscribed info op.inDoc text, some (subscribeResponse op.inDoc info))

def identifierOf (doc : WsXmlNode) : Option String :=
  wsXmlGetNodeText (wsXmlFirstChild (wsXmlGetSoapHeader doc) xmlNsEventing wseventIdentifier)

/-- A shorter text is read behind its end. -/
def behindScheme (uuid : String) : CResult String :=
  if uuid.length < 5 then .undefined else .value (String.ofList (uuid.toList.drop 5))

theorem behindScheme_uuid (id : String) : behindScheme ("uuid:" ++ id) = .value id := by
  have hlength : ¬("uuid:" ++ id).length < 5 := by
    rw [String.length_append, show "uuid:".length = 5 by decide]
    omega
  rw [behindScheme, if_neg hlength, String.toList_append]
  exact congrArg value String.ofList_toList

def hasSubsId (id : String) (info : WsSubscribeInfo) : Bool := strcaseEq info.subsId id

/-- The search of a stub for the subscription with an identifier: the text behind `uuid:` and the
subscription. The identifier is looked at only if there are subscriptions. -/
def searchSubs (subs : List WsSubscribeInfo) (uuid : String) :
    CResult (Option (String × WsSubscribeInfo)) :=
  if subs.isEmpty then .value none
  else
    (behindScheme uuid).bind fun id ↦ .value ((subs.find? (hasSubsId id)).map fun info ↦ (id, info))

def WsSubscribeInfo.withExpires (info : WsSubscribeInfo) (expires : ℕ) : WsSubscribeInfo :=
  { info with expires := expires }

def EventState.renewed (s : EventState) (id : String) (expires : ℕ) (text : String) :
    EventState where
  subs := modifyFirst (hasSubsId id) (·.withExpires expires) s.subs
  repo := localSubscriptionOpUpdate s.repo id text

def renewText (doc : WsXmlNode) : Option String :=
  wsXmlGetNodeText
    (wsXmlFirstChild (wsXmlFirstChild (wsXmlGetSoapBody doc) xmlNsEventing wseventRenew)
      xmlNsEventing wseventExpires)

def renewExpires (zone : TimeZone) (now : ℕ) (text : Option String) : Except WsmanFaultCodeType ℕ :=
  match text with
  | none => .error .wsenInvalidExpirationTime
  | some text => wsmanSetExpiretime (xmlDatetime zone) text now

def renewResponse (doc : WsXmlNode) : EventDoc :=
  .response (responseHeader doc) (.renew ((renewText doc).getD ""))

def wseRenewStub (host : EventHost) (endPoint : EventEndPoint) (now : ℕ) : EventStub :=
  fun s op ↦
    match identifierOf op.inDoc with
    | none => .value (s, wsmanGenerateFault .wseInvalidMessage .wsmanDetailMissingValues)
    | some uuid =>
      (searchSubs s.subs uuid).bind fun
        | none => .value (s, wsmanGenerateFault .wseUnableToRenew .wsmanDetailOk)
        | some (id, info) =>
          match renewExpires host.zone now (renewText op.inDoc) with
          | .error _ => .value (s, none)
          | .ok expires =>
            (wsmanExpiretime2xmldatetime host.zone expires).bind fun text ↦
              .value (s.renewed id expires text,
                match endPoint (info.withExpires expires) with
                | some status => wsmanGenerateFault status.faultCode status.faultDetailCode
                | none => some (renewResponse op.inDoc))

def WsSubscribeInfo.unsubscribed (info : WsSubscribeInfo) : WsSubscribeInfo :=
  { info with flags := { info.flags with unsubscribe := true } }

def wseUnsubscribeStub (endPoint : EventEndPoint) : EventStub :=
  fun s op ↦
    match identifierOf op.inDoc with
    | none => .value (s, none)
    | some uuid =>
      (searchSubs s.subs uuid).bind fun
        | none => .value (s, wsmanGenerateFault .wsmanInvalidParameter .wsmanDetailInvalidValue)
        | some (id, info) =>
          match endPoint info with
          | some status =>
            .value (s, wsmanGenerateFault status.faultCode status.faultDetailCode)
          | none =>
            .value ({ s with subs := modifyFirst (hasSubsId id) (·.unsubscribed) s.subs },
              some (.response (responseHeader op.inDoc) .unsubscribe))

def eventCallback (stub : EventStub) : ServiceCallback (CResult EventState) EventResponse :=
  fun s op ↦
    match s.bind fun s ↦ stub s op with
    | .undefined => (.undefined, none)
    | .value (s, doc) => (.value s, doc)

/-! ## What is read from a Subscribe -/

theorem eventSink_eq_ok {uriParses : String → Bool} {delivery : Option WsXmlNode}
    {address : String} :
    eventSink uriParses delivery = .ok address ↔
      notifyToAddress delivery = some address ∧ address ≠ "" ∧
        destinationReachable uriParses address = true ∧ profileKnown delivery = true := by
  rw [eventSink]
  rcases notifyToAddress delivery with _ | text
  · simp
  constructor
  · intro h
    dsimp only at h
    split at h
    · cases h
    next hne =>
    split at h
    · cases h
    next hreachable =>
    split at h
    · cases h
    next hknown =>
    cases h
    exact ⟨rfl, by simpa using hne, by simpa using hreachable, by simpa using hknown⟩
  · rintro ⟨h, hne, hreachable, hknown⟩
    obtain rfl := some.inj h
    simp [hne, hreachable, hknown]

theorem deliveryParts_eq_ok {uriParses : String → Bool} {delivery : Option WsXmlNode}
    {parts : DeliveryParts} :
    deliveryParts uriParses delivery = .ok parts ↔
      parts.deliveryMode = deliveryModeOf delivery ∧
        heartbeatsOf delivery = .ok parts.heartbeatInterval ∧
        ((parts.deliveryMode = .pull ∧ parts.eprNotifyto = none) ∨
          (parts.deliveryMode ≠ .pull ∧ ∃ address, parts.eprNotifyto = some address ∧
            eventSink uriParses delivery = .ok address)) := by
  obtain ⟨mode, interval, notifyto⟩ := parts
  rw [deliveryParts]
  rcases heartbeatsOf delivery with code | interval'
  · simp
  · dsimp only
    cases deliveryModeOf delivery <;> cases eventSink uriParses delivery <;> simp <;> grind

structure SubscribeParts (host : EventHost) (doc subNode : WsXmlNode) (uri soapNs : String)
    (parts : DeliveryParts) : Prop where
  uri : wsmanGetResourceUri doc = some uri
  subscribe : subscribeOf doc = some subNode
  soapNs : doc.nsUri = some soapNs
  delivery : deliveryParts host.uriParses
    (wsXmlFirstChild (some subNode) xmlNsEventing wseventDelivery) = .ok parts
  credentials : wsmanParseCredentials doc parts.eprNotifyto = .value none
  filter : wsmanParseEventRequest doc subNode = .value none

def subscriptionOf (id uri soapNs : String) (expires : ℕ) (parts : DeliveryParts)
    (auth : WsmanAuth) : WsSubscribeInfo where
  subsId := id
  soapNs := soapNs
  uri := uri
  expires := expires
  eprNotifyto := parts.eprNotifyto
  deliveryMode := parts.deliveryMode
  heartbeatInterval := parts.heartbeatInterval
  heartbeatCountdown := toTimeT parts.heartbeatInterval
  authData := auth

section

variable {δ : Type} {host : EventHost} {op : SoapOp δ} {uuid : String} {now : ℕ}

theorem createSubsInfo_of_parts {subNode : WsXmlNode} {uri soapNs : String} {parts : DeliveryParts}
    (h : SubscribeParts host op.inDoc subNode uri soapNs parts) :
    createSubsInfo host op uuid now =
      match subscribeExpires host.zone now (expiresOf op.inDoc) with
      | .error code => .value (.error ⟨code, .wsmanDetailOk⟩)
      | .ok expires =>
        (storedAuth op.msg.authData).bind fun auth ↦
          (newSubsId op.inDoc uuid).bind fun id ↦
            .value (.ok (subscriptionOf id uri soapNs expires parts auth)) := by
  rw [createSubsInfo, h.uri, h.subscribe, h.soapNs]
  dsimp only [uStrdup, value_bind]
  cases subscribeExpires host.zone now (expiresOf op.inDoc) with
  | error code => rfl
  | ok expires =>
    dsimp only
    rw [h.delivery]
    dsimp only
    rw [h.credentials, value_bind, h.filter, value_bind]
    rfl

theorem createSubsInfo_ok {info : WsSubscribeInfo}
    (h : createSubsInfo host op uuid now = .value (.ok info)) :
    ∃ subNode parts, SubscribeParts host op.inDoc subNode info.uri info.soapNs parts ∧
      subscribeExpires host.zone now (expiresOf op.inDoc) = .ok info.expires ∧
      newSubsId op.inDoc uuid = .value info.subsId ∧
      info = subscriptionOf info.subsId info.uri info.soapNs info.expires parts info.authData := by
  rw [createSubsInfo, bind_eq_value] at h
  obtain ⟨uri, huri, h⟩ := h
  cases hsub : subscribeOf op.inDoc with
  | none => rw [hsub] at h; cases h
  | some subNode =>
    rw [hsub] at h
    dsimp only at h
    rw [bind_eq_value] at h
    obtain ⟨soapNs, hns, h⟩ := h
    split at h
    · cases h
    next expires hexpires =>
    split at h
    · cases h
    next parts hparts =>
    rw [bind_eq_value] at h
    obtain ⟨fault, hcred, h⟩ := h
    cases fault with
    | some status => cases h
    | none =>
      rw [bind_eq_value] at h
      obtain ⟨code, hfilter, h⟩ := h
      cases code with
      | some code => cases h
      | none =>
        rw [bind_eq_value] at h
        obtain ⟨auth, _, h⟩ := h
        rw [bind_eq_value] at h
        obtain ⟨id, hid, h⟩ := h
        cases h
        refine ⟨subNode, parts, ⟨?_, hsub, ?_, hparts, hcred, hfilter⟩, hexpires, hid, rfl⟩
        · cases hdoc : wsmanGetResourceUri op.inDoc with
          | none => rw [hdoc] at huri; cases huri
          | some uri' => rw [hdoc] at huri; cases huri; rfl
        · cases hdoc : op.inDoc.nsUri with
          | none => rw [hdoc] at hns; cases hns
          | some ns => rw [hdoc] at hns; cases hns; rfl

theorem newSubsId_eq_value {doc : WsXmlNode} {id : String} (h : newSubsId doc uuid = .value id) :
    id = (formerUid doc).getD uuid ∧ id.utf8ByteSize < euidlen := by
  rw [newSubsId, copyId] at h
  split at h
  · next hsize =>
    cases h
    exact ⟨rfl, hsize⟩
  · cases h

end

/-! ## What the stubs do -/

theorem body_wsmanGenerateFault {δ : Type} (c : WsmanFaultCodeType) (d : WsmanFaultDetailType) :
    (wsmanGenerateFault c d : Option (SoapDoc δ)).bind SoapDoc.body = none := by
  cases h : (wsmanGenerateFault c d : Option (SoapDoc δ)) with
  | none => rfl
  | some doc => exact wsmanGenerateFault_body h

section

variable {host : EventHost} {endPoint : EventEndPoint} {uuid : String} {now : ℕ}
  {s s' : EventState} {op : SoapOp EventResponse} {out : Option EventDoc}

theorem wseSubscribeStub_cases
    (h : wseSubscribeStub host endPoint uuid now s op = .value (s', out)) :
    (s' = s ∧ out.bind SoapDoc.body = none) ∨
      ∃ info text, createSubsInfo host op uuid now = .value (.ok info) ∧ endPoint info = none ∧
        wsmanExpiretime2xmldatetime host.zone info.expires = .value text ∧
        s' = s.subscribed info op.inDoc text ∧ out = some (subscribeResponse op.inDoc info) := by
  rw [wseSubscribeStub, bind_eq_value] at h
  obtain ⟨created, hcreate, h⟩ := h
  cases created with
  | error status =>
    dsimp only at h
    cases hdoc : (wsmanGenerateFault status.faultCode status.faultDetailCode :
        Option EventDoc) with
    | none => rw [hdoc] at h; cases h
    | some doc =>
      rw [hdoc] at h
      cases h
      exact .inl ⟨rfl, wsmanGenerateFault_body hdoc⟩
  | ok info =>
    dsimp only at h
    cases hep : endPoint info with
    | some status =>
      rw [hep] at h
      cases h
      exact .inl ⟨rfl, body_wsmanGenerateFault _ _⟩
    | none =>
      rw [hep] at h
      obtain ⟨text, htext, h⟩ := bind_eq_value.mp h
      cases h
      exact .inr ⟨info, text, hcreate, hep, htext, rfl, rfl⟩

def renewTarget (subs : List WsSubscribeInfo) (doc : WsXmlNode) :
    CResult (Option (String × WsSubscribeInfo)) :=
  match identifierOf doc with
  | none => .value none
  | some uuid => searchSubs subs uuid

def renewAnswer (endPoint : EventEndPoint) (doc : WsXmlNode) (info : WsSubscribeInfo)
    (expires : ℕ) : Option EventDoc :=
  match endPoint (info.withExpires expires) with
  | some status => wsmanGenerateFault status.faultCode status.faultDetailCode
  | none => some (renewResponse doc)

/-- A Renew leaves everything as it was and has no response, or it has changed the expiry time of
the subscription that it names, whatever the answer is. -/
theorem wseRenewStub_cases (h : wseRenewStub host endPoint now s op = .value (s', out)) :
    (s' = s ∧ out.bind SoapDoc.body = none ∧
        ∀ id info, renewTarget s.subs op.inDoc = .value (some (id, info)) →
          ∀ expires, renewExpires host.zone now (renewText op.inDoc) ≠ .ok expires) ∨
      ∃ id info expires text, renewTarget s.subs op.inDoc = .value (some (id, info)) ∧
        renewExpires host.zone now (renewText op.inDoc) = .ok expires ∧
        wsmanExpiretime2xmldatetime host.zone expires = .value text ∧
        s' = s.renewed id expires text ∧ out = renewAnswer endPoint op.inDoc info expires := by
  rw [wseRenewStub] at h
  rw [renewTarget]
  cases hid : identifierOf op.inDoc with
  | none =>
    rw [hid] at h
    cases h
    exact .inl ⟨rfl, body_wsmanGenerateFault _ _, fun id info heq ↦ by cases heq⟩
  | some uuid =>
    rw [hid] at h
    obtain ⟨target, htarget, h⟩ := bind_eq_value.mp h
    cases target with
    | none =>
      cases h
      refine .inl ⟨rfl, body_wsmanGenerateFault _ _, fun id info heq ↦ ?_⟩
      cases htarget.symm.trans heq
    | some target =>
      obtain ⟨id, info⟩ := target
      dsimp only at h
      cases hexpires : renewExpires host.zone now (renewText op.inDoc) with
      | error code =>
        rw [hexpires] at h
        cases h
        exact .inl ⟨rfl, rfl, fun _ _ _ expires heq ↦ by cases heq⟩
      | ok expires =>
        rw [hexpires] at h
        obtain ⟨text, htext, h⟩ := bind_eq_value.mp h
        cases h
        exact .inr ⟨id, info, expires, text, htarget, rfl, htext, rfl, rfl⟩

theorem renewTarget_eq_some {subs : List WsSubscribeInfo} {doc : WsXmlNode} {id : String}
    {info : WsSubscribeInfo} (h : renewTarget subs doc = .value (some (id, info))) :
    subs.find? (hasSubsId id) = some info := by
  rw [renewTarget] at h
  split at h
  · cases h
  rw [searchSubs] at h
  split at h
  · cases h
  obtain ⟨id', _, h⟩ := bind_eq_value.mp h
  obtain ⟨found, hfound, heq⟩ := map_eq_some_iff.mp (value.inj h)
  cases heq
  exact hfound

end

/-! ## Through the dispatcher -/

def eventRequest (host : EventHost) (stub : EventStub) (uuid : String) (ids : List String)
    (s : EventState) (doc : WsXmlNode) (msg : WsmanMessage) :
    Handled (CResult EventState) EventResponse :=
  processInboundOperation host.dump uuid (some (eventCallback stub)) ids (.value s) doc msg

def responseTooLong (host : EventHost) (uuid : String) (doc : WsXmlNode) (msg : WsmanMessage)
    (response : EventDoc) : Bool :=
  checkEnvelopeSize host.dump (outboundAddressingFilter uuid doc response)
    ((controlMaxsize (headerOf doc)).getD 0) msg.charset

def answerBody {σ : Type} (handled : Handled σ EventResponse) : Option EventResponse :=
  handled.response.bind SoapDoc.body

theorem eventRequest_cases (host : EventHost) (stub : EventStub) (uuid : String)
    (ids : List String) (s : EventState) (doc : WsXmlNode) (msg : WsmanMessage) :
    (Admitted ids doc ∧ ∃ op : SoapOp EventResponse, op.inDoc = doc ∧ op.msg = msg ∧
        ((stub s op = .undefined ∧ (eventRequest host stub uuid ids s doc msg).service =
            .undefined) ∨
          ∃ s' out, stub s op = .value (s', out) ∧
            (eventRequest host stub uuid ids s doc msg).service = .value s' ∧
            answerBody (eventRequest host stub uuid ids s doc msg) = out.bind fun d ↦
              if responseTooLong host uuid doc msg d then none else d.body)) ∨
      (¬Admitted ids doc ∧ (eventRequest host stub uuid ids s doc msg).service = .value s ∧
        answerBody (eventRequest host stub uuid ids s doc msg) = none) := by
  rcases processInboundOperation_spec host.dump uuid (eventCallback stub) ids (.value s) doc msg
    with ⟨hadm, ids', size, t, hsize, heq⟩ | ⟨hadm, ids', fault, hfault, heq⟩
  · refine .inl ⟨hadm, ?_⟩
    obtain ⟨outDoc, hop, hbody⟩ := behindFeatureCheck_createOpEntry (δ := EventResponse) doc msg
    rw [hop] at heq
    dsimp only at heq
    refine ⟨⟨doc, msg, outDoc, size, t⟩, rfl, rfl, ?_⟩
    rw [eventRequest, heq]
    dsimp only
    rw [eventCallback]
    dsimp only [value_bind]
    cases hstub : stub s ⟨doc, msg, outDoc, size, t⟩ with
    | undefined => exact .inl ⟨rfl, rfl⟩
    | value result =>
      obtain ⟨s', out⟩ := result
      refine .inr ⟨s', out, rfl, rfl, ?_⟩
      obtain ⟨answer, hanswer, hanswerBody⟩ :=
        respond_spec host.dump uuid ⟨doc, msg, outDoc, size, t⟩ hbody out
      rw [answerBody]
      dsimp only
      rw [hanswer, bind_some, hanswerBody]
      apply Option.bind_congr
      intro d _
      rw [rejectedOutbound, responseTooLong, hsize, getD_some]
  · refine .inr ⟨hadm, ?_, ?_⟩
    · rw [eventRequest, heq]
    · rw [answerBody, eventRequest, heq, bind_some, (SoapDoc.body_eq_none_iff _).mpr hfault]

end Openwsman
