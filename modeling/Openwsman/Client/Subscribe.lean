import Openwsman.Client.Envelope
import Openwsman.Eventing.Security
import Openwsman.Soap.FilterWrite
import Openwsman.Xml.Seconds

/-!
# Subscribe requests of the client

`wsman_set_subscribe_options` of `wsman-client.c` writes the options of a subscription: the
credentials for the event sink into the header, and into the body how events are to be delivered and
how long. What the server makes of the request is `createSecuredSubs`.

The pointer to the Delivery is overwritten with the one to the element for the security mode, so the
interval between heartbeats is written below that element when there is one, where the server does
not look for it. The server also looks at the address and at the security mode only when events are
not pulled.
-/

namespace Openwsman

open List WsXmlNode

/-! ## Options -/

/-- The fields of `client_opt_t` that are read for a Subscribe. The two times are `float`s; only
whole numbers of seconds are considered. Without a security mode it is `WSMAN_DELIVERY_SEC_AUTO`. -/
structure SubscribeOptions where
  deliveryMode : DeliveryMode := .push
  deliveryUri : Option String := none
  deliverySecMode : Option SecurityProfile := none
  heartbeatInterval : ℕ := 0
  expires : ℕ := 0
  deliveryUsername : Option String := none
  deliveryPassword : Option String := none
  deliveryCertificatethumbprint : Option String := none
  reference : Option String := none
  sendBookmark : Bool := false

def DeliveryMode.uri : DeliveryMode → String
  | push => wseventDeliveryModePush
  | pushWithAck => wseventDeliveryModePushWithAck
  | events => wseventDeliveryModeEvents
  | pull => wseventDeliveryModePull

namespace SubscribeOptions

variable (lx : Libxml) (options : SubscribeOptions)

/-! ## Credentials -/

def tokenResponse (type : String) (token more : List WsXmlNode) : WsXmlNode :=
  .elem xmlNsTrust wstRequestSecurityTokenResponse
    ([lx.child xmlNsTrust wstTokenType (some type),
      .elem xmlNsTrust wstRequestedSecurityToken token,
      .elem xmlNsPolicy wspAppliesTo
        [.elem xmlNsAddressing wsaEpr [lx.child xmlNsAddressing wsaAddress options.deliveryUri]]] ++
      more)

def hasUser : Bool := options.deliveryUsername.isSome || options.deliveryPassword.isSome

/-- The reference properties that the client gives. A text that is no document leaves them empty. -/
def referenceProperties : List WsXmlNode :=
  options.reference.toList.map fun reference ↦
    .elem xmlNsAddressing wsaReferenceProperties
      ((lx.readMemory reference).toList.map lx.duplicateTree)

/-- The reference properties that go into a token: without an address to notify, `node2` is still
the last token. -/
def strayProperties : List WsXmlNode :=
  if options.deliveryUri.isSome then [] else options.referenceProperties lx

def thumbprintToken : List WsXmlNode :=
  options.deliveryCertificatethumbprint.toList.map fun thumbprint ↦
    options.tokenResponse lx wstCertificateThumbprint
      [lx.child xmlNsWsMan wsmCertificateThumbprint (some thumbprint)]
      (if options.hasUser then [] else options.strayProperties lx)

def usernameToken : List WsXmlNode :=
  if options.hasUser then
    [options.tokenResponse lx wstUsernameToken
      [.elem xmlNsSe wsseUsernameToken
        ((options.deliveryUsername.toList.map fun username ↦
            lx.child xmlNsSe wsseUsername (some username)) ++
          options.deliveryPassword.toList.map fun password ↦
            lx.child xmlNsSe wssePassword (some password))]
      (options.strayProperties lx)]
  else []

def issuedTokens : List WsXmlNode :=
  if options.deliveryCertificatethumbprint.isSome || options.hasUser then
    [.element (some xmlNsTrust) wstIssuedTokens [⟨some xmlNsSoap12, soapMustUnderstand, "true"⟩]
      (options.thumbprintToken lx ++ options.usernameToken lx)]
  else []

/-! ## The body -/

def spanNode (ns name : String) (seconds : ℕ) : List WsXmlNode :=
  if seconds = 0 then [] else [lx.child ns name (some (secondsText seconds))]

def notifyToNode : List WsXmlNode :=
  options.deliveryUri.toList.map fun uri ↦
    .elem xmlNsEventing wseventNotifyTo
      (lx.child xmlNsAddressing wsaAddress (some uri) :: options.referenceProperties lx)

def authNode : List WsXmlNode :=
  let heartbeats := spanNode lx xmlNsWsMan wsmHeartbeats options.heartbeatInterval
  match options.deliverySecMode with
  | none => heartbeats
  | some profile =>
    [.element (some xmlNsWsMan) wsmAuth [⟨none, wsmProfile, profile.uri⟩] heartbeats]

def deliveryNode : WsXmlNode :=
  .element (some xmlNsEventing) wseventDelivery
    [⟨none, wseventDeliveryMode, options.deliveryMode.uri⟩]
    (options.notifyToNode lx ++ options.authNode lx)

def subscribeNode : WsXmlNode :=
  .elem xmlNsEventing wseventSubscribe
    (options.deliveryNode lx :: spanNode lx xmlNsEventing wseventExpires options.expires)

def bookmarkNode : List WsXmlNode :=
  if options.sendBookmark then [lx.child xmlNsWsMan wsmSendBookmarks none] else []

end SubscribeOptions

def wsmanSetSubscribeOptions (lx : Libxml) (options : SubscribeOptions) (filter : Option Filter)
    (header : List WsXmlNode) : CResult WsXmlNode :=
  let node := options.subscribeNode lx
  let filtered : CResult WsXmlNode :=
    match filter with
    | none => .value node
    | some filter =>
      (filterSerialize lx node filter xmlNsWsMan).bind fun written ↦ .value (written.getD node)
  filtered.bind fun node ↦
    .value (wsXmlCreateEnvelope (header ++ options.issuedTokens lx)
      [node.mapContent (· ++ options.bookmarkNode lx)])

theorem exists_wsmanSetSubscribeOptions {lx : Libxml} {options : SubscribeOptions}
    {filter : Option Filter} {header : List WsXmlNode} {doc : WsXmlNode}
    (h : wsmanSetSubscribeOptions lx options filter header = .value doc) :
    ∃ rest, AllNamed [(xmlNsWsMan, wsmFilter), (xmlNsWsMan, wsmSendBookmarks)] rest ∧
      doc = wsXmlCreateEnvelope (header ++ options.issuedTokens lx)
        [(options.subscribeNode lx).mapContent (· ++ rest)] := by
  have hmarks : AllNamed [(xmlNsWsMan, wsmFilter), (xmlNsWsMan, wsmSendBookmarks)]
      (options.bookmarkNode lx) := by
    intro n hn
    rw [SubscribeOptions.bookmarkNode] at hn
    split at hn
    · rw [mem_singleton.mp hn]
      exact ⟨_, mem_cons_of_mem _ mem_cons_self, lx.isNamed_child _ _ _⟩
    · cases hn
  unfold wsmanSetSubscribeOptions at h
  rcases filter with _ | filter
  · exact ⟨_, hmarks, (CResult.value.inj h).symm⟩
  dsimp only at h
  rw [filterSerialize] at h
  cases hcontent : filterContent lx filter with
  | undefined => rw [hcontent] at h; cases h
  | value content =>
    rw [hcontent] at h
    rcases content with _ | content
    · exact ⟨_, hmarks, (CResult.value.inj h).symm⟩
    have hdoc := (CResult.value.inj h).symm
    refine ⟨filterElement xmlNsWsMan filter.dialect content :: options.bookmarkNode lx, ?_,
      hdoc.trans ?_⟩
    · intro n hn
      rcases mem_cons.mp hn with rfl | hn
      · exact ⟨_, mem_cons_self, isNamed_iff.mpr ⟨rfl, rfl, rfl⟩⟩
      · exact hmarks n hn
    · change wsXmlCreateEnvelope _ [elem _ _ ((_ ++ [_]) ++ _)] = _
      rw [append_assoc]
      rfl

/-! ## What the server reads -/

namespace SubscribeOptions

variable (lx : Libxml) (options : SubscribeOptions)

theorem find?_spanNode (ns name : String) (seconds : ℕ) :
    (spanNode lx ns name seconds).find? (isNamed ns name) =
      if seconds = 0 then none else some (lx.child ns name (some (secondsText seconds))) := by
  rw [spanNode]
  split
  · rfl
  · exact find?_cons_of_pos (lx.isNamed_child _ _ _)

theorem find?_spanNode_of_ne {ns name ns' name' : String} (h : (ns', name') ≠ (ns, name))
    (seconds : ℕ) : (spanNode lx ns name seconds).find? (isNamed ns' name') = none := by
  rw [spanNode]
  split
  · rfl
  · rw [find?_cons_of_neg (by rw [lx.isNamed_child_of_ne h]; decide)]
    rfl

theorem find?_notifyToNode_of_ne {ns name : String}
    (h : (ns, name) ≠ (xmlNsEventing, wseventNotifyTo)) :
    (options.notifyToNode lx).find? (isNamed ns name) = none := by
  rw [notifyToNode]
  rcases options.deliveryUri with _ | uri
  · rfl
  · exact (find?_cons_of_neg (by rw [isNamed_of_ne (isNamed_elem _ _ _) h]; decide)).trans rfl

theorem strcaseEq_ofList (l l' : List Char) :
    strcaseEq (String.ofList l) (String.ofList l') =
      (l.map Char.toLower == l'.map Char.toLower) := by
  rw [strcaseEq, String.toList_ofList, String.toList_ofList]

theorem deliveryModeOf_deliveryNode :
    deliveryModeOf (some (options.deliveryNode lx)) = options.deliveryMode := by
  have hattr : wsXmlFindAttrValue (some (options.deliveryNode lx)) none wseventDeliveryMode =
      some options.deliveryMode.uri := rfl
  rw [deliveryModeOf, hattr]
  dsimp only
  cases options.deliveryMode with
  | push => rw [DeliveryMode.uri, strcaseEq_self, if_pos rfl]
  | pushWithAck =>
    have hpush : strcaseEq wseventDeliveryModePushWithAck wseventDeliveryModePush = false :=
      (strcaseEq_ofList _ _).trans (by decide)
    rw [DeliveryMode.uri, hpush, strcaseEq_self]
    rfl
  | events =>
    have hpush : strcaseEq wseventDeliveryModeEvents wseventDeliveryModePush = false :=
      (strcaseEq_ofList _ _).trans (by decide)
    have hack : strcaseEq wseventDeliveryModeEvents wseventDeliveryModePushWithAck = false :=
      (strcaseEq_ofList _ _).trans (by decide)
    rw [DeliveryMode.uri, hpush, hack, strcaseEq_self]
    rfl
  | pull =>
    have hpush : strcaseEq wseventDeliveryModePull wseventDeliveryModePush = false :=
      (strcaseEq_ofList _ _).trans (by decide)
    have hack : strcaseEq wseventDeliveryModePull wseventDeliveryModePushWithAck = false :=
      (strcaseEq_ofList _ _).trans (by decide)
    have hevents : strcaseEq wseventDeliveryModePull wseventDeliveryModeEvents = false :=
      (strcaseEq_ofList _ _).trans (by decide)
    rw [DeliveryMode.uri, hpush, hack, hevents]
    rfl

theorem notifyToAddress_deliveryNode :
    notifyToAddress (some (options.deliveryNode lx)) = options.deliveryUri.map lx.kept := by
  rw [notifyToAddress, wsXmlFirstChild_eq_find?]
  change wsXmlGetNodeText (wsXmlFirstChild
    ((options.notifyToNode lx ++ options.authNode lx).find? _) _ _) = _
  rw [find?_append, notifyToNode]
  rcases options.deliveryUri with _ | uri
  · have hauth : (options.authNode lx).find? (isNamed xmlNsEventing wseventNotifyTo) = none := by
      rw [authNode]
      split
      · exact find?_spanNode_of_ne lx (by decide) _
      · rfl
    rw [hauth]
    rfl
  · exact congrArg some (lx.chars_child _ _ _)

theorem heartbeatsNode_deliveryNode :
    wsXmlFirstChild (some (options.deliveryNode lx)) xmlNsWsMan wsmHeartbeats =
      if options.deliverySecMode.isSome ∨ options.heartbeatInterval = 0 then none
      else some (lx.child xmlNsWsMan wsmHeartbeats
        (some (secondsText options.heartbeatInterval))) := by
  rw [wsXmlFirstChild_eq_find?]
  change (options.notifyToNode lx ++ options.authNode lx).find? _ = _
  rw [find?_append, options.find?_notifyToNode_of_ne lx (by decide), Option.none_or, authNode]
  rcases options.deliverySecMode with _ | profile
  · simp only [find?_spanNode, Option.isSome_none, Bool.false_eq_true, false_or]
  · rw [if_pos (.inl rfl)]
    rfl

theorem profile_deliveryNode :
    (wsXmlFindAttrValue (wsXmlFirstChild (some (options.deliveryNode lx)) xmlNsWsMan wsmAuth) none
      wsmProfile) = options.deliverySecMode.map SecurityProfile.uri := by
  rw [wsXmlFirstChild_eq_find?]
  change wsXmlFindAttrValue ((options.notifyToNode lx ++ options.authNode lx).find? _) _ _ = _
  rw [find?_append, options.find?_notifyToNode_of_ne lx (by decide), Option.none_or, authNode]
  rcases options.deliverySecMode with _ | profile
  · dsimp only
    rw [find?_spanNode_of_ne lx (by decide)]
    rfl
  · rfl

/-! ### Time spans -/

theorem chars_spanChild (ns name : String) (seconds : ℕ) :
    (lx.child ns name (some (secondsText seconds))).chars = secondsText seconds := by
  rw [lx.chars_child, lx.kept_of_not_mem (not_mem_secondsText seconds)]

theorem heartbeats_eq_iff {interval : ℕ}
    (h : heartbeatsOf (some (options.deliveryNode lx)) = .ok interval) :
    interval = 1000 * options.heartbeatInterval ↔
      options.heartbeatInterval < 2 ^ 31 ∧
        (options.deliverySecMode ≠ none → options.heartbeatInterval = 0) := by
  rw [heartbeatsOf, heartbeatsNode_deliveryNode] at h
  by_cases hnone : options.deliverySecMode.isSome ∨ options.heartbeatInterval = 0
  · rw [if_pos hnone] at h
    obtain rfl : 0 = interval := Except.ok.inj h
    rw [← Option.isSome_iff_ne_none]
    constructor
    · intro hzero
      exact ⟨by omega, fun _ ↦ by omega⟩
    rintro ⟨-, hzero⟩
    rcases hnone with hmode | hinterval
    · rw [hzero hmode]
    · rw [hinterval]
  · rw [if_neg hnone] at h
    obtain ⟨hmode, hpos⟩ := not_or.mp hnone
    dsimp only at h
    rw [chars_spanChild, head?_secondsText, if_pos (by decide)] at h
    split at h
    · cases h
    next timeout hread =>
    obtain rfl := Except.ok.inj h
    rw [eq_secondsRead hread, toULong_secondsRead_mul (Nat.pos_of_ne_zero hpos)]
    simp [Option.not_isSome_iff_eq_none.mp hmode]

theorem expires_eq_iff {zone : TimeZone} {now expires : ℕ} (hnow : 0 < now) (hlong : now < 2 ^ 63)
    (h : subscribeExpires zone now ((spanNode lx xmlNsEventing wseventExpires options.expires).find?
      (isNamed xmlNsEventing wseventExpires)) = .ok expires) :
    expires = (if options.expires = 0 then 0 else now + options.expires) ↔
      options.expires < 2 ^ 31 := by
  rw [find?_spanNode] at h
  by_cases hzero : options.expires = 0
  · rw [if_pos hzero] at h
    obtain rfl : 0 = expires := Except.ok.inj h
    simp [hzero]
  · rw [if_neg hzero, subscribeExpires, chars_spanChild, wsmanSetExpiretime, head?_secondsText,
      if_pos (by decide)] at h
    rw [if_neg hzero, ← toULong_add_secondsRead hnow hlong]
    split at h
    · cases h
    next t hset =>
    split at h
    · cases h
    obtain rfl := Except.ok.inj h
    split at hset
    · cases hset
    next timeout hread =>
    rw [← eq_secondsRead hread, Except.ok.inj hset]

/-! ### Credentials -/

theorem tokenType_tokenResponse {type : String} (h : '&' ∉ type.toList)
    (token more : List WsXmlNode) :
    wsXmlGetNodeText (wsXmlFirstChild (some (options.tokenResponse lx type token more)) xmlNsTrust
      wstTokenType) = some type := by
  refine congrArg some (Eq.trans (lx.chars_child xmlNsTrust wstTokenType type) ?_)
  exact lx.kept_of_not_mem h

theorem tokenSecurity_thumbprint (security : DeliverySecurity) (thumbprint : String)
    (more : List WsXmlNode) :
    tokenSecurity security (options.tokenResponse lx wstCertificateThumbprint
        [lx.child xmlNsWsMan wsmCertificateThumbprint (some thumbprint)] more) =
      { security with certificateThumbprint := some (lx.kept thumbprint) } := by
  have htype : '&' ∉ wstCertificateThumbprint.toList := by
    rw [wstCertificateThumbprint, String.toList_ofList]
    decide
  rw [tokenSecurity, tokenType_tokenResponse lx options htype]
  dsimp only
  rw [if_neg (by decide), if_pos (by decide),
    ← lx.chars_child xmlNsWsMan wsmCertificateThumbprint thumbprint]
  rfl

theorem tokenSecurity_username (security : DeliverySecurity) (more : List WsXmlNode) :
    tokenSecurity security (options.tokenResponse lx wstUsernameToken
        [.elem xmlNsSe wsseUsernameToken
          ((options.deliveryUsername.toList.map fun username ↦
              lx.child xmlNsSe wsseUsername (some username)) ++
            options.deliveryPassword.toList.map fun password ↦
              lx.child xmlNsSe wssePassword (some password))] more) =
      { security with
        username := (options.deliveryUsername.map lx.kept).or security.username
        password := (options.deliveryPassword.map lx.kept).or security.password } := by
  have htype : '&' ∉ wstUsernameToken.toList := by
    rw [wstUsernameToken, String.toList_ofList]
    decide
  rw [tokenSecurity, tokenType_tokenResponse lx options htype]
  dsimp only
  rw [if_pos (by decide)]
  have huser (username : String) : (lx.child xmlNsSe wsseUsername (some username)).chars =
      lx.kept username := lx.chars_child _ _ _
  have hpass (password : String) : (lx.child xmlNsSe wssePassword (some password)).chars =
      lx.kept password := lx.chars_child _ _ _
  rcases options.deliveryUsername with _ | username <;>
    rcases options.deliveryPassword with _ | password
  · rfl
  · rw [Option.map_some, ← hpass]
    rfl
  · rw [Option.map_some, ← huser]
    rfl
  · rw [Option.map_some, Option.map_some, ← hpass, ← huser]
    rfl

def writtenSecurity (profile : Option SecurityProfile) : DeliverySecurity where
  deliveryAuthType := profile
  username := options.deliveryUsername.map lx.kept
  password := options.deliveryPassword.map lx.kept
  certificateThumbprint := options.deliveryCertificatethumbprint.map lx.kept

theorem foldl_tokenSecurity (profile : Option SecurityProfile) :
    (options.thumbprintToken lx ++ options.usernameToken lx).foldl tokenSecurity
        { deliveryAuthType := profile } =
      options.writtenSecurity lx profile := by
  have hthumb : (options.thumbprintToken lx).foldl tokenSecurity { deliveryAuthType := profile } =
      { deliveryAuthType := profile
        certificateThumbprint := options.deliveryCertificatethumbprint.map lx.kept } := by
    rw [thumbprintToken]
    rcases options.deliveryCertificatethumbprint with _ | thumbprint
    · rfl
    · rw [Option.toList_some, map_singleton, foldl_cons, foldl_nil,
        tokenSecurity_thumbprint, Option.map_some]
  rw [foldl_append, hthumb, usernameToken, writtenSecurity]
  split
  · rw [foldl_cons, foldl_nil, tokenSecurity_username, Option.or_none, Option.or_none]
  next huser =>
  rw [hasUser, Bool.or_eq_true, not_or, Option.not_isSome_iff_eq_none,
    Option.not_isSome_iff_eq_none] at huser
  rw [huser.1, huser.2]
  rfl

theorem isNamed_tokens :
    ∀ n ∈ options.thumbprintToken lx ++ options.usernameToken lx,
      n.isNamed xmlNsTrust wstRequestSecurityTokenResponse = true := by
  intro n hn
  rw [thumbprintToken, usernameToken, mem_append, mem_map] at hn
  rcases hn with ⟨thumbprint, -, rfl⟩ | hn
  · exact isNamed_elem _ _ _
  split at hn
  · rw [mem_singleton.mp hn]
    exact isNamed_elem _ _ _
  · cases hn

theorem securityTokens_envelope {header body : List WsXmlNode}
    (hheader : AllNamed requestNames header) :
    securityTokens (wsXmlCreateEnvelope (header ++ options.issuedTokens lx) body) =
      options.thumbprintToken lx ++ options.usernameToken lx := by
  have hget : wsXmlGetSoapHeader (wsXmlCreateEnvelope (header ++ options.issuedTokens lx) body) =
      some (.elem xmlNsSoap12 soapHeader (header ++ options.issuedTokens lx)) := rfl
  have hnone : header.find? (isNamed xmlNsTrust wstIssuedTokens) = none :=
    find?_eq_none.mpr fun n hn ↦ by
      simp [hheader.not_isNamed (show (xmlNsTrust, wstIssuedTokens) ∉ requestNames by decide) n hn]
  rw [securityTokens, hget, wsXmlFirstChild_eq_find?, content_elem, find?_append, hnone,
    Option.none_or, issuedTokens]
  by_cases htokens : (options.deliveryCertificatethumbprint.isSome || options.hasUser) = true
  · rw [if_pos htokens]
    refine (childrenNamed_eq_filter _ _ _).trans ?_
    exact filter_eq_self.mpr (options.isNamed_tokens lx)
  · rw [if_neg htokens]
    rw [Bool.or_eq_true, not_or, Option.not_isSome_iff_eq_none] at htokens
    have huser : options.usernameToken lx = [] := if_neg htokens.2
    rw [thumbprintToken, htokens.1, huser]
    rfl

theorem deliverySecurity_envelope {header rest : List WsXmlNode}
    (hheader : AllNamed requestNames header) (mode : DeliveryMode) :
    deliverySecurity (wsXmlCreateEnvelope (header ++ options.issuedTokens lx)
        [(options.subscribeNode lx).mapContent (· ++ rest)]) mode =
      options.writtenSecurity lx (if mode = .pull then none else options.deliverySecMode) := by
  have hprofile : deliveryProfile mode (some (options.deliveryNode lx)) =
      if mode = .pull then none else options.deliverySecMode := by
    rw [deliveryProfile, profile_deliveryNode]
    rcases options.deliverySecMode with _ | profile
    · rfl
    · rw [Option.map_some, Option.bind_some, SecurityProfile.ofText_uri]
  rw [deliverySecurity, options.securityTokens_envelope lx hheader, ← hprofile]
  exact options.foldl_tokenSecurity lx _

def texts : List String :=
  [options.deliveryUri, options.deliveryUsername, options.deliveryPassword,
    options.deliveryCertificatethumbprint].filterMap id

end SubscribeOptions

structure SameSubscription (options : SubscribeOptions) (now : ℕ) (info : WsSubscribeInfo)
    (security : DeliverySecurity) : Prop where
  deliveryMode : info.deliveryMode = options.deliveryMode
  notifyTo : info.eprNotifyto = options.deliveryUri
  authType : security.deliveryAuthType = options.deliverySecMode
  heartbeatInterval : info.heartbeatInterval = 1000 * options.heartbeatInterval
  expires : info.expires = if options.expires = 0 then 0 else now + options.expires
  username : security.username = options.deliveryUsername
  password : security.password = options.deliveryPassword
  certificateThumbprint : security.certificateThumbprint = options.deliveryCertificatethumbprint

theorem SubscribeOptions.forall_texts_iff {lx : Libxml} (options : SubscribeOptions) :
    (∀ text ∈ options.texts, lx.kept text = text) ↔
      options.deliveryUri.map lx.kept = options.deliveryUri ∧
        options.deliveryUsername.map lx.kept = options.deliveryUsername ∧
        options.deliveryPassword.map lx.kept = options.deliveryPassword ∧
        options.deliveryCertificatethumbprint.map lx.kept =
          options.deliveryCertificatethumbprint := by
  have hkept (text : Option String) :
      text.map lx.kept = text ↔ ∀ t, some t = text → lx.kept t = t := by
    rcases text with _ | t <;> simp
  rw [hkept, hkept, hkept, hkept]
  simp [texts, or_imp, forall_and]

theorem createSecuredSubs_eq_ok_of_options {δ : Type} {lx : Libxml} {options : SubscribeOptions}
    {filter : Option Filter} {header : List WsXmlNode} (hheader : AllNamed requestNames header)
    {host : EventHost} {op : SoapOp δ} {newId : String} {now : ℕ} {info : WsSubscribeInfo}
    {security : DeliverySecurity}
    (hdoc : wsmanSetSubscribeOptions lx options filter header = .value op.inDoc)
    (hcreate : createSecuredSubs host op newId now = .value (.ok (info, security))) :
    info.deliveryMode = options.deliveryMode ∧
      info.eprNotifyto =
        (if options.deliveryMode = .pull then none else options.deliveryUri.map lx.kept) ∧
      heartbeatsOf (some (options.deliveryNode lx)) = .ok info.heartbeatInterval ∧
      subscribeExpires host.zone now ((SubscribeOptions.spanNode lx xmlNsEventing wseventExpires
        options.expires).find? (isNamed xmlNsEventing wseventExpires)) = .ok info.expires ∧
      security =
        options.writtenSecurity lx
          (if options.deliveryMode = .pull then none else options.deliverySecMode) := by
  obtain ⟨rest, hrest, hdoc⟩ := exists_wsmanSetSubscribeOptions hdoc
  obtain ⟨hsubs, rfl⟩ := createSecuredSubs_eq_ok.mp hcreate
  obtain ⟨subNode, parts, hparts, hexpires, -, hinfo⟩ := createSubsInfo_ok hsubs
  have hsub : subscribeOf op.inDoc = some ((options.subscribeNode lx).mapContent (· ++ rest)) := by
    rw [hdoc]
    rfl
  obtain rfl := Option.some.inj (hparts.subscribe.symm.trans hsub)
  have hdelivery : deliveryParts host.uriParses (some (options.deliveryNode lx)) = .ok parts :=
    hparts.delivery
  obtain ⟨hmode, hbeats, hsink⟩ := deliveryParts_eq_ok.mp hdelivery
  rw [SubscribeOptions.deliveryModeOf_deliveryNode] at hmode
  have hinfoMode : info.deliveryMode = options.deliveryMode := by
    rw [hinfo]
    exact hmode
  have hexpiresNode : expiresOf op.inDoc = (SubscribeOptions.spanNode lx xmlNsEventing
      wseventExpires options.expires).find? (isNamed xmlNsEventing wseventExpires) := by
    have hnone : rest.find? (isNamed xmlNsEventing wseventExpires) = none :=
      find?_eq_none.mpr fun n hn ↦ by
        have hname : isNamed xmlNsEventing wseventExpires n = false :=
          hrest.not_isNamed (by decide) n hn
        simp [hname]
    rw [expiresOf, hsub, wsXmlFirstChild_eq_find?]
    change (options.deliveryNode lx :: (SubscribeOptions.spanNode lx xmlNsEventing wseventExpires
      options.expires ++ rest)).find? _ = _
    rw [find?_cons_of_neg Bool.false_ne_true, find?_append, hnone, Option.or_none]
  refine ⟨hinfoMode, ?_, ?_, ?_, ?_⟩
  · have hnotify : info.eprNotifyto = parts.eprNotifyto := by rw [hinfo]; rfl
    rw [hnotify, ← hmode]
    rcases hsink with ⟨hpull, hnone⟩ | ⟨hpush, address, haddress, hsink⟩
    · rw [hnone, if_pos hpull]
    · rw [haddress, if_neg hpush, ← SubscribeOptions.notifyToAddress_deliveryNode]
      exact (eventSink_eq_ok.mp hsink).1.symm
  · rw [hinfo]
    exact hbeats
  · rw [← hexpiresNode]
    exact hexpires
  · rw [hdoc, SubscribeOptions.deliverySecurity_envelope lx options hheader, hinfoMode]

/-- **When a subscription is the one that the client asked for**: libxml2 keeps the texts, the times
fit an `int`, heartbeats are asked for only without a security mode, and neither an address nor a
security mode is given with events that are pulled. -/
theorem sameSubscription_iff {δ : Type} (lx : Libxml)
    (action replyTo resourceUri toUri : Option String) (uuid : String)
    (headerOptions : HeaderOptions) (header : List WsXmlNode)
    (hheader : wsmcBuildEnvelope lx action replyTo resourceUri toUri uuid headerOptions =
      .value (wsXmlCreateEnvelope header []))
    (requestOptions : RequestOptions) (options : SubscribeOptions) (filter : Option Filter)
    (host : EventHost) (op : SoapOp δ)
    (hdoc : wsmanSetSubscribeOptions lx options filter (header ++ optionSet lx requestOptions) =
      .value op.inDoc)
    (newId : String) (now : ℕ) (hnow : 0 < now) (hlong : now < 2 ^ 63) (info : WsSubscribeInfo)
    (security : DeliverySecurity)
    (hcreate : createSecuredSubs host op newId now = .value (.ok (info, security))) :
    SameSubscription options now info security ↔
      (∀ text ∈ options.texts, lx.kept text = text) ∧
        options.heartbeatInterval < 2 ^ 31 ∧ options.expires < 2 ^ 31 ∧
        (options.deliverySecMode ≠ none → options.heartbeatInterval = 0) ∧
        (options.deliveryMode = .pull →
          options.deliveryUri = none ∧ options.deliverySecMode = none) := by
  obtain ⟨hmode, hnotify, hbeats, hexpires, rfl⟩ := createSecuredSubs_eq_ok_of_options
    ((allNamed_of_wsmcBuildEnvelope hheader).append (allNamed_optionSet lx requestOptions))
    hdoc hcreate
  have hinterval := options.heartbeats_eq_iff lx hbeats
  have htime := options.expires_eq_iff lx hnow hlong hexpires
  rw [options.forall_texts_iff]
  constructor
  · intro same
    have haddress := hnotify.symm.trans same.notifyTo
    have hprofile := same.authType
    have hbeat := hinterval.mp same.heartbeatInterval
    refine ⟨⟨?_, same.username, same.password, same.certificateThumbprint⟩, hbeat.1,
      htime.mp same.expires, hbeat.2, fun hpull ↦ ?_⟩
    · split at haddress
      · rw [← haddress]
        rfl
      · exact haddress
    · rw [if_pos hpull] at haddress hprofile
      exact ⟨haddress.symm, hprofile.symm⟩
  · rintro ⟨⟨huri, husername, hpassword, hthumbprint⟩, hbeat, hexpire, hauth, hpull⟩
    refine ⟨hmode, ?_, ?_, hinterval.mpr ⟨hbeat, hauth⟩, htime.mpr hexpire, husername, hpassword,
      hthumbprint⟩
    · rw [hnotify, huri]
      split
      · next h => exact (hpull h).1.symm
      · rfl
    · rw [SubscribeOptions.writtenSecurity]
      split
      · next h => exact (hpull h).2.symm
      · rfl

/-! ## A subscription to alarms -/

def alarmOptions (heartbeatInterval : ℕ) : SubscribeOptions where
  deliveryUri := some "http://sink"
  deliverySecMode := some .httpBasic
  heartbeatInterval := heartbeatInterval
  expires := 3600
  deliveryUsername := some "joe"
  deliveryPassword := some "secret"
  deliveryCertificatethumbprint := some "7F"

def alarmFilter : Filter where
  dialect := wsmWqlFilterDialect
  query := some "select * from Alarm"

def alarmRequest (heartbeatInterval : ℕ) : WsXmlNode :=
  wsXmlCreateEnvelope
    (envelopeHeaders keepsText none none (some "urn:alarms") none "uuid:1" {} ++
      (alarmOptions heartbeatInterval).issuedTokens keepsText)
    [((alarmOptions heartbeatInterval).subscribeNode keepsText).mapContent
      (· ++ [filterElement xmlNsWsMan wsmWqlFilterDialect [.text "select * from Alarm"]])]

def sinkHost : EventHost where
  dump _ _ := 0
  zone := .fixed 0
  uriParses _ := true

def alarmSubscription : WsSubscribeInfo where
  subsId := "alarms"
  soapNs := xmlNsSoap12
  uri := "urn:alarms"
  eprNotifyto := some "http://sink"
  expires := 1700003600
  deliveryMode := .push

def alarmSecurity : DeliverySecurity where
  deliveryAuthType := some .httpBasic
  username := some "joe"
  password := some "secret"
  certificateThumbprint := some "7F"

def alarmOp (heartbeatInterval : ℕ) : SoapOp Unit where
  inDoc := alarmRequest heartbeatInterval
  msg := {}

variable (heartbeatInterval : ℕ)

theorem subscribeExpires_alarmRequest :
    subscribeExpires sinkHost.zone 1700000000 (expiresOf (alarmRequest heartbeatInterval)) =
      .ok 1700003600 := by
  have hread : wsDeserializeDuration (secondsText 3600) = some 3600 := by
    rw [wsDeserializeDuration_secondsText, if_pos (by decide), secondsRead_of_lt (by decide)]
    rfl
  have hnode : expiresOf (alarmRequest heartbeatInterval) =
      some (keepsText.child xmlNsEventing wseventExpires (some (secondsText 3600))) := rfl
  rw [hnode, subscribeExpires, SubscribeOptions.chars_spanChild, wsmanSetExpiretime,
    head?_secondsText, if_pos (by decide), hread]
  rfl

theorem deliveryParts_alarmOptions :
    deliveryParts sinkHost.uriParses
        (some ((alarmOptions heartbeatInterval).deliveryNode keepsText)) =
      .ok ⟨.push, 0, some "http://sink"⟩ := by
  have hbeats : heartbeatsOf (some ((alarmOptions heartbeatInterval).deliveryNode keepsText)) =
      .ok 0 := by
    rw [heartbeatsOf, SubscribeOptions.heartbeatsNode_deliveryNode, if_pos (.inl rfl)]
  have hprofile : profileKnown (some ((alarmOptions heartbeatInterval).deliveryNode keepsText)) =
      true := by
    have hmode : (alarmOptions heartbeatInterval).deliverySecMode = some .httpBasic := rfl
    rw [profileKnown, SubscribeOptions.profile_deliveryNode, hmode, Option.map_some,
      Option.all_some, ← SecurityProfile.isSome_ofText, SecurityProfile.ofText_uri,
      Option.isSome_some]
  refine deliveryParts_eq_ok.mpr ⟨?_, hbeats, .inr ⟨by decide, _, rfl, ?_⟩⟩
  · exact ((alarmOptions heartbeatInterval).deliveryModeOf_deliveryNode keepsText).symm
  · exact eventSink_eq_ok.mpr
      ⟨(alarmOptions heartbeatInterval).notifyToAddress_deliveryNode keepsText, by decide,
        by decide, hprofile⟩

theorem subscribeParts_alarmRequest :
    SubscribeParts sinkHost (alarmRequest heartbeatInterval)
      (((alarmOptions heartbeatInterval).subscribeNode keepsText).mapContent
        (· ++ [filterElement xmlNsWsMan wsmWqlFilterDialect [.text "select * from Alarm"]]))
      "urn:alarms" xmlNsSoap12 ⟨.push, 0, some "http://sink"⟩ where
  uri := rfl
  subscribe := rfl
  soapNs := rfl
  delivery := deliveryParts_alarmOptions heartbeatInterval
  credentials := rfl
  filter := rfl

theorem createSecuredSubs_alarmRequest :
    createSecuredSubs sinkHost (alarmOp heartbeatInterval) "alarms" 1700000000 =
      .value (.ok (alarmSubscription, alarmSecurity)) := by
  refine createSecuredSubs_eq_ok.mpr ⟨?_, ?_⟩
  · have hparts : SubscribeParts sinkHost (alarmOp heartbeatInterval).inDoc _ _ _ _ :=
      subscribeParts_alarmRequest heartbeatInterval
    have hexpires : subscribeExpires sinkHost.zone 1700000000
        (expiresOf (alarmOp heartbeatInterval).inDoc) = .ok 1700003600 :=
      subscribeExpires_alarmRequest heartbeatInterval
    rw [createSubsInfo_of_parts hparts, hexpires]
    rfl
  · have hheader : AllNamed requestNames
        (envelopeHeaders keepsText none none (some "urn:alarms") none "uuid:1" {}) :=
      (allNamed_envelopeHeaders _ _ _ _ _ _ _).mono fun p hp ↦
        mem_cons_of_mem _ (mem_cons_of_mem _ hp)
    exact ((alarmOptions heartbeatInterval).deliverySecurity_envelope keepsText hheader .push).symm

theorem sameSubscription_alarmOptions :
    createSecuredSubs sinkHost (alarmOp 0) "alarms" 1700000000 =
        .value (.ok (alarmSubscription, alarmSecurity)) ∧
      SameSubscription (alarmOptions 0) 1700000000 alarmSubscription alarmSecurity := by
  refine ⟨createSecuredSubs_alarmRequest 0, ?_⟩
  refine (sameSubscription_iff keepsText none none (some "urn:alarms") none "uuid:1" {}
    (envelopeHeaders keepsText none none (some "urn:alarms") none "uuid:1" {}) rfl {}
    (alarmOptions 0) (some alarmFilter) sinkHost (alarmOp 0) ?_ "alarms" 1700000000 (by decide)
    (by decide) _ _ (createSecuredSubs_alarmRequest 0)).mpr ?_
  · rfl
  · exact ⟨by decide, by decide, by decide, fun _ ↦ rfl, fun h ↦ by cases h⟩

/-- A heartbeat every minute is asked for together with a security mode, and the subscription is
made without heartbeats. -/
theorem not_sameSubscription_alarmOptions :
    wsmanSetSubscribeOptions keepsText (alarmOptions 60) (some alarmFilter)
        (envelopeHeaders keepsText none none (some "urn:alarms") none "uuid:1" {}) =
        .value (alarmOp 60).inDoc ∧
      createSecuredSubs sinkHost (alarmOp 60) "alarms" 1700000000 =
        .value (.ok (alarmSubscription, alarmSecurity)) ∧
      alarmSubscription.heartbeatInterval = 0 ∧
      ¬ SameSubscription (alarmOptions 60) 1700000000 alarmSubscription alarmSecurity := by
  refine ⟨rfl, createSecuredSubs_alarmRequest 60, rfl, fun same ↦ ?_⟩
  exact absurd same.heartbeatInterval (by decide)

end Openwsman
