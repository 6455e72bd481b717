import Openwsman.Eventing.Subscription

/-!
# The security of deliveries

How events are to be delivered to a sink that asks for credentials: `create_subs_info` stores which
of ten security profiles is asked for, and `wsman_parse_credentials` stores a user name, a password
and the thumbprint of a certificate from the tokens in the header of the Subscribe.

The refusals of the two functions are in `createSubsInfo`; here is what they store when they do not
refuse.
-/

namespace Openwsman

open List

/-! ## Profiles -/

inductive SecurityProfile where
  | httpBasic | httpDigest | httpsBasic | httpsDigest | httpsMutual | httpsMutualBasic
  | httpsMutualDigest | httpsSpnegoKerberos | httpsMutualSpnegoKerberos | httpSpnegoKerberos
  deriving DecidableEq, Repr

namespace SecurityProfile

def path : SecurityProfile → String
  | httpBasic => "http/basic"
  | httpDigest => "http/digest"
  | httpsBasic => "https/basic"
  | httpsDigest => "https/digest"
  | httpsMutual => "https/mutual"
  | httpsMutualBasic => "https/mutual/basic"
  | httpsMutualDigest => "https/mutual/digest"
  | httpsSpnegoKerberos => "https/spnego-kerberos"
  | httpsMutualSpnegoKerberos => "https/mutual/spnego-kerberos"
  | httpSpnegoKerberos => "http/spnego-kerberos"

/-- `wsmc_create_delivery_sec_mode_str`. -/
def uri (profile : SecurityProfile) : String :=
  "http://schemas.dmtf.org/wbem/wsman/1/wsman/secprofile/" ++ profile.path

def all : List SecurityProfile :=
  [httpBasic, httpDigest, httpsBasic, httpsDigest, httpsMutual, httpsMutualBasic,
    httpsMutualDigest, httpsSpnegoKerberos, httpsMutualSpnegoKerberos, httpSpnegoKerberos]

def ofText (text : String) : Option SecurityProfile := all.find? fun profile ↦
  strcaseEq text profile.uri

theorem map_uri_all : all.map uri = wsmanSecurityProfiles := by decide +kernel

theorem strcaseEq_append_left (base a b : String) :
    strcaseEq (base ++ a) (base ++ b) = strcaseEq a b := by
  rw [Bool.eq_iff_iff, strcaseEq, strcaseEq, beq_iff_eq, beq_iff_eq, String.toList_append,
    String.toList_append, map_append, map_append, append_cancel_left_eq]

theorem ofText_uri (profile : SecurityProfile) : ofText profile.uri = some profile := by
  have hpath : ofText profile.uri = all.find? fun p ↦ strcaseEq profile.path p.path :=
    congrArg (all.find? ·) (funext fun p ↦ strcaseEq_append_left _ profile.path p.path)
  rw [hpath]
  cases profile <;> rfl

theorem isSome_ofText (text : String) :
    (ofText text).isSome = wsmanSecurityProfiles.any (strcaseEq text) := by
  rw [Bool.eq_iff_iff, ofText, find?_isSome, ← map_uri_all, any_map, any_eq_true]
  rfl

end SecurityProfile

/-! ## What is stored -/

structure DeliverySecurity where
  deliveryAuthType : Option SecurityProfile := none
  username : Option String := none
  password : Option String := none
  certificateThumbprint : Option String := none
  deriving DecidableEq, Repr

/-- What one turn of `wsman_parse_credentials` stores. A part that is missing leaves what an earlier
token brought. -/
def tokenSecurity (security : DeliverySecurity) (tnode : WsXmlNode) : DeliverySecurity :=
  let type := wsXmlGetNodeText (wsXmlFirstChild (some tnode) xmlNsTrust wstTokenType)
  let token := wsXmlFirstChild (some tnode) xmlNsTrust wstRequestedSecurityToken
  if type == some wstUsernameToken then
    let node := wsXmlFirstChild token xmlNsSe wsseUsernameToken
    { security with
      username :=
        (wsXmlGetNodeText (wsXmlFirstChild node xmlNsSe wsseUsername)).or security.username
      password :=
        (wsXmlGetNodeText (wsXmlFirstChild node xmlNsSe wssePassword)).or security.password }
  else if type == some wstCertificateThumbprint then
    { security with
      certificateThumbprint :=
        (wsXmlGetNodeText (wsXmlFirstChild token xmlNsWsMan wsmCertificateThumbprint)).or
          security.certificateThumbprint }
  else security

def deliveryProfile (mode : DeliveryMode) (delivery : Option WsXmlNode) : Option SecurityProfile :=
  if mode = .pull then none
  else (wsXmlFindAttrValue (wsXmlFirstChild delivery xmlNsWsMan wsmAuth) none wsmProfile).bind
    SecurityProfile.ofText

def securityTokens (doc : WsXmlNode) : List WsXmlNode :=
  match wsXmlFirstChild (wsXmlGetSoapHeader doc) xmlNsTrust wstIssuedTokens with
  | none => []
  | some snode => snode.childrenNamed (some xmlNsTrust) (some wstRequestSecurityTokenResponse)

def deliverySecurity (doc : WsXmlNode) (mode : DeliveryMode) : DeliverySecurity :=
  (securityTokens doc).foldl tokenSecurity
    { deliveryAuthType := deliveryProfile mode
        (wsXmlFirstChild (subscribeOf doc) xmlNsEventing wseventDelivery) }

def createSecuredSubs {δ : Type} (host : EventHost) (op : SoapOp δ) (uuid : String) (now : ℕ) :
    CResult (Except WsmanStatus (WsSubscribeInfo × DeliverySecurity)) :=
  (createSubsInfo host op uuid now).bind fun created ↦
    .value (created.map fun info ↦ (info, deliverySecurity op.inDoc info.deliveryMode))

theorem createSecuredSubs_eq_ok {δ : Type} {host : EventHost} {op : SoapOp δ} {uuid : String}
    {now : ℕ} {info : WsSubscribeInfo} {security : DeliverySecurity} :
    createSecuredSubs host op uuid now = .value (.ok (info, security)) ↔
      createSubsInfo host op uuid now = .value (.ok info) ∧
        security = deliverySecurity op.inDoc info.deliveryMode := by
  rw [createSecuredSubs, CResult.bind_eq_value]
  constructor
  · rintro ⟨_ | info', hcreate, h⟩
    · cases h
    · cases h
      exact ⟨hcreate, rfl⟩
  · rintro ⟨hcreate, rfl⟩
    exact ⟨_, hcreate, rfl⟩

end Openwsman
