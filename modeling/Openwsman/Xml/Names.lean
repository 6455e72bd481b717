import Mathlib.Data.List.Basic

/-!
# Namespaces and element names

The constants of `wsman-names.h` that the modelled functions compare against, under the names of
the header in camel case. Two constants of the header with the same text stay two definitions:
`WSENUM_FILTER` and `WSM_FILTER` are both `"Filter"`, and which of the two a function passes is
part of what it does.
-/

namespace Openwsman

/-! ## Namespaces -/

def xmlNsSoap11 : String := "http://schemas.xmlsoap.org/soap/envelope"
def xmlNsSoap12 : String := "http://www.w3.org/2003/05/soap-envelope"
def xmlNsAddressing : String := "http://schemas.xmlsoap.org/ws/2004/08/addressing"
def xmlNsEventing : String := "http://schemas.xmlsoap.org/ws/2004/08/eventing"
def xmlNsEnumeration : String := "http://schemas.xmlsoap.org/ws/2004/09/enumeration"
def xmlNsTransfer : String := "http://schemas.xmlsoap.org/ws/2004/09/transfer"
def xmlNsTrust : String := "http://schemas.xmlsoap.org/ws/2005/02/trust"
def xmlNsPolicy : String := "http://schemas.xmlsoap.org/ws/2004/09/policy"
def xmlNsSe : String :=
  "http://docs.oasis-open.org/wss/2004/01/oasis-200401-wss-wssecurity-secext-1.0.xsd"
def xmlNsCimBinding : String := "http://schemas.dmtf.org/wbem/wsman/1/cimbinding.xsd"
def xmlNsWsMan : String := "http://schemas.dmtf.org/wbem/wsman/1/wsman.xsd"
def xmlNsWsmanId : String := "http://schemas.dmtf.org/wbem/wsman/identity/1/wsmanidentity.xsd"
def xmlNsWsmanFaultDetail : String := "http://schemas.dmtf.org/wbem/wsman/1/wsman/faultDetail"
def xmlNsXmlSchema : String := "http://www.w3.org/2001/XMLSchema"
def xmlNsSchemaInstance : String := "http://www.w3.org/2001/XMLSchema-instance"
def xmlNsCimSchema : String := "http://schemas.dmtf.org/wbem/wscim/1/common"
def xmlNsWsManCat : String := "http://schemas.xmlsoap.org/ws/2005/06/wsmancat"
def xmlNsOpenwsman : String := "http://schema.openwsman.org/2006/openwsman"
def xmlSchemaNil : String := "nil"
def xmlNsXmlNamespaces : String := "http://www.w3.org/XML/1998/namespace"

/-! ## SOAP and WS-Addressing -/

def soapEnvelope : String := "Envelope"
def soapHeader : String := "Header"
def soapBody : String := "Body"
def soapMustUnderstand : String := "mustUnderstand"
def soapFault : String := "Fault"
def soapCode : String := "Code"
def soapValue : String := "Value"
def soapSubcode : String := "Subcode"
def soapReason : String := "Reason"
def soapText : String := "Text"
def soapLang : String := "lang"
def soapDetail : String := "Detail"
def soapFaultDetail : String := "FaultDetail"

def wsaTo : String := "To"
def wsaMessageId : String := "MessageID"
def wsaRelatesTo : String := "RelatesTo"
def wsaAction : String := "Action"
def wsaReplyTo : String := "ReplyTo"
def wsaFrom : String := "From"
def wsaFaultTo : String := "FaultTo"
def wsaAddress : String := "Address"
def wsaEpr : String := "EndpointReference"
def wsaReferenceProperties : String := "ReferenceProperties"
def wsaReferenceParameters : String := "ReferenceParameters"
def wsaToAnonymous : String :=
  "http://schemas.xmlsoap.org/ws/2004/08/addressing/role/anonymous"
def wsfwResponseStr : String := "Response"

def wsmidIdentify : String := "Identify"
def wstIssuedTokens : String := "IssuedTokens"

/-! ## Actions -/

def wsaActionFault : String := "http://schemas.xmlsoap.org/ws/2004/08/addressing/fault"
def wsxfActionFault : String := "http://schemas.xmlsoap.org/ws/2004/09/transfer/fault"
def wsenumActionFault : String := "http://schemas.xmlsoap.org/ws/2004/09/enumeration/fault"
def wseventActionFault : String := "http://schemas.xmlsoap.org/ws/2004/08/eventing/fault"
def wsmanActionFault : String := "http://schemas.dmtf.org/wbem/wsman/1/wsman/fault"
def wsmbActionFault : String := "http://schemas.dmtf.org/wbem/wsman/1/cimbinding/fault"

def evtActionPull : String := "http://schemas.dmtf.org/wbem/wsman/1/wsman/Pull"
def evtActionUnsubscribe : String := "http://schemas.xmlsoap.org/ws/2004/08/eventing/Unsubscribe"
def evtActionRenew : String := "http://schemas.xmlsoap.org/ws/2004/08/eventing/Renew"

/-! ## WS-Enumeration and WS-Eventing -/

def wsenumEnumerate : String := "Enumerate"
def wsenumEnumerateResp : String := "EnumerateResponse"
def wsenumPull : String := "Pull"
def wsenumPullResp : String := "PullResponse"
def wsenumItems : String := "Items"
def wsenumRelease : String := "Release"
def wsenumEndTo : String := "EndTo"
def wsenumExpires : String := "Expires"
def wsenumFilter : String := "Filter"
def wsenumEnumerationContext : String := "EnumerationContext"
def wsenumMaxElements : String := "MaxElements"
def wsenumMaxCharacters : String := "MaxCharacters"

def wseventSubscribe : String := "Subscribe"
def wseventRenew : String := "Renew"
def wseventIdentifier : String := "Identifier"
def wseventExpires : String := "Expires"
def wseventNotifyTo : String := "NotifyTo"
def wseventDelivery : String := "Delivery"
def wseventDeliveryMode : String := "Mode"
def wseventDeliveryModePush : String :=
  "http://schemas.xmlsoap.org/ws/2004/08/eventing/DeliveryModes/Push"
def wseventDeliveryModePushWithAck : String :=
  "http://schemas.dmtf.org/wbem/wsman/1/wsman/PushWithAck"
def wseventDeliveryModeEvents : String := "http://schemas.dmtf.org/wbem/wsman/1/wsman/Events"
def wseventDeliveryModePull : String := "http://schemas.dmtf.org/wbem/wsman/1/wsman/Pull"

/-! ## WS-Management -/

def wsmLocale : String := "Locale"
def wsmResourceUri : String := "ResourceURI"
def wsmSelectorSet : String := "SelectorSet"
def wsmSelector : String := "Selector"
def wsmName : String := "Name"
def wsmRequestTotal : String := "RequestTotalItemsCountEstimate"
def wsmTotalEstimate : String := "TotalItemsCountEstimate"
def wsmOptimizeEnum : String := "OptimizeEnumeration"
def wsmMaxElements : String := "MaxElements"
def wsmEnumEpr : String := "EnumerateEPR"
def wsmEnumObjAndEpr : String := "EnumerateObjectAndEPR"
def wsmEnumMode : String := "EnumerationMode"
def wsmItem : String := "Item"
def wsmFragmentTransfer : String := "FragmentTransfer"
def wsmXmlFragment : String := "XmlFragment"
def wsmMaxEnvelopeSize : String := "MaxEnvelopeSize"
def wsmOperationTimeout : String := "OperationTimeout"
def wsmFilter : String := "Filter"
def wsmDialect : String := "Dialect"
def wsmConnectionRetry : String := "ConnectionRetry"
def wsmHeartbeats : String := "Heartbeats"
def wsmSendBookmarks : String := "SendBookmarks"
def wsmAuth : String := "Auth"
def wsmProfile : String := "Profile"
def wsmOptionSet : String := "OptionSet"
def wsmOption : String := "Option"

def wsmSelectorFilterDialect : String :=
  "http://schemas.dmtf.org/wbem/wsman/1/wsman/SelectorFilter"
def wsmWqlFilterDialect : String := "http://schemas.microsoft.com/wbem/wsman/1/WQL"
def wsmXpathFilterDialect : String := "http://www.w3.org/TR/1999/REC-xpath-19991116"
def wsmCqlFilterDialect : String := "http://schemas.dmtf.org/wbem/cql/1/dsp0202.pdf"
def wsmAssociationFilterDialect : String :=
  "http://schemas.dmtf.org/wbem/wsman/1/cimbinding/associationFilter"

/-! ## Credentials for event sinks -/

def wstRequestSecurityTokenResponse : String := "RequestSecurityTokenResponse"
def wstTokenType : String := "TokenType"
def wstRequestedSecurityToken : String := "RequestedSecurityToken"
def wsseUsernameToken : String := "UsernameToken"
def wsseUsername : String := "Username"
def wssePassword : String := "Password"
def wsmCertificateThumbprint : String := "CertificateThumbprint"
def wspAppliesTo : String := "AppliesTo"
def wstUsernameToken : String :=
  "http://docs.oasis-open.org/wss/2004/01/oasis-200401-wss-username-token-profile-1.0#UsernameToken"
def wstCertificateThumbprint : String :=
  "http://schemas.dmtf.org/wbem/wsman/1/wsman/token/certificateThumbprint"

def wsmanSecurityProfiles : List String :=
  ["http://schemas.dmtf.org/wbem/wsman/1/wsman/secprofile/http/basic",
    "http://schemas.dmtf.org/wbem/wsman/1/wsman/secprofile/http/digest",
    "http://schemas.dmtf.org/wbem/wsman/1/wsman/secprofile/https/basic",
    "http://schemas.dmtf.org/wbem/wsman/1/wsman/secprofile/https/digest",
    "http://schemas.dmtf.org/wbem/wsman/1/wsman/secprofile/https/mutual",
    "http://schemas.dmtf.org/wbem/wsman/1/wsman/secprofile/https/mutual/basic",
    "http://schemas.dmtf.org/wbem/wsman/1/wsman/secprofile/https/mutual/digest",
    "http://schemas.dmtf.org/wbem/wsman/1/wsman/secprofile/https/spnego-kerberos",
    "http://schemas.dmtf.org/wbem/wsman/1/wsman/secprofile/https/mutual/spnego-kerberos",
    "http://schemas.dmtf.org/wbem/wsman/1/wsman/secprofile/http/spnego-kerberos"]

/-! ## CIM binding -/

def wsmbPolymorphismMode : String := "PolymorphismMode"
def wsmbIncludeSubclassProp : String := "IncludeSubClassProperties"
def wsmbExcludeSubclassProp : String := "ExcludeSubClassProperties"
def wsmbNone : String := "None"
def wsmbShowExtension : String := "ShowExtensions"
def wsmbExcludeNilProps : String := "ExcludeNilProperties"
def wsmbAssociatedInstances : String := "AssociatedInstances"
def wsmbAssociationInstances : String := "AssociationInstances"
def wsmbObject : String := "Object"
def wsmbAssociationClassName : String := "AssociationClassName"
def wsmbResultClassName : String := "ResultClassName"
def wsmbRole : String := "Role"
def wsmbResultRole : String := "ResultRole"
def wsmbIncludeResultProperty : String := "IncludeResultProperty"

def cimAllAvailableClasses : String := "http://schemas.dmtf.org/wbem/wscim/1/*"
def cimNamespaceSelector : String := "__cimnamespace"
def xmlNsCimClass : String := "http://schemas.dmtf.org/wbem/wscim/1/cim-schema/2"
def xmlNsCimIntrinsic : String := "http://schemas.openwsman.org/wbem/wscim/1/intrinsic"
def transferCreate : String := "Create"

/-! ## Limits of `wsman-xml-api.h` -/

def processedMsgIdMaxSize : ℕ := 200
def wsmanMinimalEnvelopeSizeRequest : ℕ := 8192
def wsmanMaxEnvelopeSize : ℕ := 32767

def wsNsData : List (String × String) :=
  [(xmlNsSoap12, "s"), (xmlNsAddressing, "wsa"), (xmlNsEventing, "wse"),
    (xmlNsEnumeration, "wsen"), (xmlNsSchemaInstance, "xsi"), (xmlNsCimSchema, "cim"),
    (xmlNsWsManCat, "cat"), (xmlNsWsmanId, "wsmid"), (xmlNsXmlSchema, "xs"),
    (xmlNsWsMan, "wsman"), (xmlNsCimBinding, "wsmb"), (xmlNsOpenwsman, "owsman"),
    (xmlNsTransfer, "wxf"), (xmlNsXmlNamespaces, "xml")]

end Openwsman
