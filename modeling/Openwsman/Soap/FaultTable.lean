import Openwsman.Soap.Faults
import Openwsman.Xml.Names

/-!
# The tables of faults

`fault_code_table` and `fault_detail_table` of `wsman-faults.c`: which HTTP status, action, code,
subcode and reason a fault gets, and the text of its detail. A fault code with two entries gets the
first one, since all readers of the table stop there. A code without an entry gets no fault document
at all, but an HTTP status.
-/

namespace Openwsman

/-! ## HTTP status codes -/

def wsmanStatusOk : ℕ := 200
def wsmanStatusBadRequest : ℕ := 400
def wsmanStatusUnauthorized : ℕ := 401
def wsmanStatusForbidden : ℕ := 403
def wsmanStatusNotFound : ℕ := 404
def wsmanStatusRequestTimeout : ℕ := 408
def wsmanStatusConflict : ℕ := 409
def wsmanStatusRequestEntityTooLarge : ℕ := 413
def wsmanStatusUnsupportedMediaType : ℕ := 415
def wsmanStatusUnprocessableEntity : ℕ := 422
def wsmanStatusInternalServerError : ℕ := 500
def wsmanStatusNotImplemented : ℕ := 501
def wsmanStatusServiceUnavailable : ℕ := 503

/-! ## Fault codes -/

def faultSenderCode : String := "Sender"
def faultMustunderstandCode : String := "MustUnderstand"
def faultReceiverCode : String := "Receiver"
def faultSenderCodeNs : String := "s:Sender"
def faultReceiverCodeNs : String := "s:Receiver"

structure WsmanFaultCodeEntry where
  faultCode : WsmanFaultCodeType
  httpCode : ℕ
  faultAction : Option String
  subCodeNs : Option String
  code : Option String
  subCode : Option String
  reason : Option String

def faultCodeTable : List WsmanFaultCodeEntry :=
  [
    ⟨.soapFaultMustunderstand, wsmanStatusBadRequest, some wsaActionFault, some xmlNsSoap12,
      some faultMustunderstandCode, some "",
      some ("The WS-Management service cannot process a SOAP header in the request that is " ++
        "marked as mustUnderstand by the client. This could be caused by the use of a " ++
        "version of the protocol which is not supported, or may be an incompatibility " ++
        "between the client and server implementations.")⟩,
    ⟨.wsaEndpointUnavailable, wsmanStatusServiceUnavailable,
      some wsaActionFault, some xmlNsAddressing,
      some faultSenderCode, some "EndpointUnavailable",
      some ""⟩,
    ⟨.wsmanAccessDenied, wsmanStatusUnauthorized, some wsmanActionFault, some xmlNsWsMan,
      some faultSenderCode, some "AccessDenied",
      some "The sender was not authorized to access the resource."⟩,
    ⟨.wsaActionNotSupported, wsmanStatusNotImplemented, some wsaActionFault, some xmlNsAddressing,
      some faultSenderCode, some "ActionNotSupported",
      some "The action is not supported by the service."⟩,
    ⟨.wsmanAlreadyExists, wsmanStatusBadRequest, some wsmanActionFault, some xmlNsWsMan,
      some faultSenderCode, some "AlreadyExists",
      some "The sender attempted to create a resource which already exists."⟩,
    ⟨.wsenCannotProcessFilter, wsmanStatusUnprocessableEntity,
      some wsenumActionFault, some xmlNsEnumeration,
      some faultSenderCode, some "CannotProcessFilter",
      some "The requested filter could not be processed."⟩,
    ⟨.wsmanCannotProcessFilter, wsmanStatusUnprocessableEntity,
      some wsmanActionFault, some xmlNsWsMan,
      some faultSenderCode, some "CannotProcessFilter",
      some "The requested filter could not be processed."⟩,
    ⟨.wsmanConcurrency, wsmanStatusConflict, some wsmanActionFault, some xmlNsWsMan,
      some faultSenderCode, some "Concurrency",
      some "The action could not be completed due to concurrency or locking problems."⟩,
    ⟨.wsaDestinationUnreachable, wsmanStatusServiceUnavailable,
      some wsaActionFault, some xmlNsAddressing,
      some faultSenderCode, some "DestinationUnreachable",
      some ("No route can be determined to reach the destination role defined by the " ++
        "WS-Addressing To.")⟩,
    ⟨.wsmanEncodingLimit, wsmanStatusRequestEntityTooLarge, some wsmanActionFault, some xmlNsWsMan,
      some faultSenderCode, some "EncodingLimit",
      some ("An internal encoding limit was exceeded in a request or would be violated if the " ++
        "message were processed.")⟩,
    ⟨.wsaEndpointUnavailable, wsmanStatusServiceUnavailable,
      some wsaActionFault, some xmlNsAddressing,
      some faultReceiverCode, some "EndpointUnavailable",
      some "The specified endpoint is currently unavailable."⟩,
    ⟨.wsenFilterDialectRequestedUnavailable, wsmanStatusNotImplemented,
      some wsenumActionFault, some xmlNsEnumeration,
      some faultSenderCode, some "FilterDialectRequestedUnavailable",
      some "The requested filtering dialect is not supported."⟩,
    ⟨.wsenFilteringNotSupported, wsmanStatusNotImplemented,
      some wsenumActionFault, some xmlNsEnumeration,
      some faultSenderCode, some "FilteringNotSupported",
      some "Filtered enumeration is not supported."⟩,
    ⟨.wsmanFragmentDialectNotSupported, wsmanStatusNotImplemented,
      some wsmanActionFault, some xmlNsWsMan,
      some faultReceiverCode, some "FragmentDialectNotSupported",
      some "The requested fragment filtering dialect or language is not supported."⟩,
    ⟨.wsmanInternalError, wsmanStatusInternalServerError, some wsmanActionFault, some xmlNsWsMan,
      some faultReceiverCode, some "InternalError",
      some "The service cannot comply with the request due to internal processing errors."⟩,
    ⟨.wsenInvalidEnumerationContext, wsmanStatusBadRequest,
      some wsenumActionFault, some xmlNsEnumeration,
      some faultReceiverCode, some "InvalidEnumerationContext",
      some "The supplied enumeration context is invalid."⟩,
    ⟨.wsaInvalidMessageInformationHeader, wsmanStatusBadRequest,
      some wsaActionFault, some xmlNsAddressing,
      some faultSenderCode, some "InvalidMessageInformationHeader",
      some "A message information header is not valid and the message cannot be processed."⟩,
    ⟨.wsmanInvalidOptions, wsmanStatusBadRequest, some wsmanActionFault, some xmlNsWsMan,
      some faultSenderCode, some "InvalidOptions",
      some "One or more options are not valid."⟩,
    ⟨.wsmanInvalidParameter, wsmanStatusBadRequest, some wsmanActionFault, some xmlNsWsMan,
      some faultSenderCode, some "InvalidParameter",
      some "An operation parameter is not valid."⟩,
    ⟨.wxfInvalidRepresentation, wsmanStatusBadRequest, some wsxfActionFault, some xmlNsTransfer,
      some faultSenderCode, some "InvalidRepresentation",
      some "The XML content is not valid."⟩,
    ⟨.wsmanInvalidSelectors, wsmanStatusBadRequest, some wsmanActionFault, some xmlNsWsMan,
      some faultSenderCode, some "InvalidSelectors",
      some "The Selectors for the resource are not valid."⟩,
    ⟨.wsaMessageInformationHeaderRequired, wsmanStatusBadRequest,
      some wsaActionFault, some xmlNsAddressing,
      some faultSenderCode, some "MessageInformationHeaderRequired",
      some "A required header is missing."⟩,
    ⟨.wsmanNoAck, wsmanStatusBadRequest, some wsmanActionFault, some xmlNsWsMan,
      some faultSenderCode, some "NoAck",
      some "The receiver did not acknowledge the event delivery."⟩,
    ⟨.wsmanQuotaLimit, wsmanStatusBadRequest, some wsmanActionFault, some xmlNsWsMan,
      some faultSenderCode, some "QuotaLimit",
      some "The service is busy servicing other requests."⟩,
    ⟨.wsmanSchemaValidationError, wsmanStatusBadRequest, some wsmanActionFault, some xmlNsWsMan,
      some faultSenderCode, some "SchemaValidationError",
      some "The supplied SOAP violates the corresponding XML schema definition."⟩,
    ⟨.wsenTimedOut, wsmanStatusRequestTimeout, some wsenumActionFault, some xmlNsEnumeration,
      some faultReceiverCode, some "TimedOut",
      some "The enumerator has timed out and is no longer valid."⟩,
    ⟨.wsmanTimedOut, wsmanStatusRequestTimeout, some wsmanActionFault, some xmlNsWsMan,
      some faultReceiverCode, some "TimedOut",
      some "The operation has timed out."⟩,
    ⟨.wsenUnsupportedExpirationType, wsmanStatusBadRequest,
      some wsenumActionFault, some xmlNsEnumeration,
      some faultReceiverCode, some "UnsupportedExpirationType",
      some "The specified expiration type is not supported."⟩,
    ⟨.wsmanUnsupportedFeature, wsmanStatusBadRequest, some wsmanActionFault, some xmlNsWsMan,
      some faultSenderCode, some "UnsupportedFeature",
      some "The specified feature is not supported."⟩,
    ⟨.wsmanUnsupportedFeature, wsmanStatusNotImplemented,
      some wsmanActionFault, some xmlNsCimBinding,
      some faultReceiverCode, some "PolymorphismModeNotSupported",
      some "The specified feature is not supported."⟩,
    ⟨.wsmanEventDeliverToUnusable, wsmanStatusBadRequest,
      some wsmanActionFault, some xmlNsCimBinding,
      some faultReceiverCode, some "DevliveryToUnusable",
      some "The wse:NotifyTo address is not usable because it is incorrect"⟩,
    ⟨.wsmbPolymorphismModeNotSupported, wsmanStatusNotImplemented,
      some wsmbActionFault, some xmlNsWsMan,
      some faultReceiverCode, some "UnsupportedFeature",
      some "The specified feature is not supported."⟩,
    ⟨.wseInvalidExpirationTime, wsmanStatusBadRequest, some wseventActionFault, some xmlNsEventing,
      some faultSenderCode, some "InvalidExpirationTime",
      some "The expiration time is invalid"⟩,
    ⟨.wseDeliveryModeRequestedUnavailable, wsmanStatusBadRequest,
      some wseventActionFault, some xmlNsEventing,
      some faultSenderCode, some "DeliveryModeRequestedUnavailable",
      some "The requested delivery mode is not supported"⟩,
    ⟨.wseFilteringNotSupported, wsmanStatusBadRequest, some wseventActionFault, some xmlNsEventing,
      some faultSenderCode, some "FilteringNotSupported",
      some "Filtering over the event source is not supported"⟩,
    ⟨.wseInvalidMessage, wsmanStatusBadRequest, some wseventActionFault, some xmlNsEventing,
      some faultSenderCode, some "InvalidMessage",
      some "The request message has unknown or invalid content and cannot be processed."⟩,
    ⟨.wsmanUnknown, wsmanStatusNotFound, none, none, none, none, none⟩]

def faultCodeEntry (code : WsmanFaultCodeType) : Option WsmanFaultCodeEntry :=
  faultCodeTable.find? fun e ↦ e.faultCode == code

def wsmanFindHttpcodeForFaultCode (faultCode : WsmanFaultCodeType) : ℕ :=
  match faultCodeEntry faultCode with
  | none => wsmanStatusInternalServerError
  | some e => e.httpCode

def faultDetailText : WsmanFaultDetailType → Option String
  | .wsmanDetailOk => none
  | .wsmanDetailAck => some "Ack"
  | .wsmanDetailActionMismatch => some "ActionMismatch"
  | .wsmanDetailAlreadyExists => some "AlreadyExists"
  | .wsmanDetailAmbiguousSelectors => some "AmbigousSelectors"
  | .wsmanDetailAsynchronousRequest => some "AsynchronousRequest"
  | .wsmanDetailAddressingMode => some "AddressingMode"
  | .wsmanDetailAutherizationMode => some "AutherizationMode"
  | .wsmanDetailBookmarks => some "Bookmarks"
  | .wsmanDetailCharechterSet => some "CharechterSet"
  | .wsmanDetailDeliveryRetries => some "DeliveryRetries"
  | .wsmanDetailDuplicateSelectors => some "DuplicateSelectors"
  | .wsmanDetailEncodingType => some "EncodingType"
  | .wsmanDetailEnumerationMode => some "EnumerationMode"
  | .wsmanDetailExpirationTime => some "ExpirationTime"
  | .wsmanDetailExpired => some "Expired"
  | .wsmanDetailFilteringRequired => some "FilteringRequired"
  | .wsmanDetailFormatMismatch => some "FormatMismatch"
  | .wsmanDetailFormatSecurityToken => some "FormatSecurityTocken"
  | .wsmanDetailFragmentLevelAccess => some "FragmentLevelAccess"
  | .wsmanDetailHeartbeats => some "Heartbeats"
  | .wsmanDetailInsecureAddress => some "InsecureAddress"
  | .wsmanDetailInsufficientSelectors => some "InsufficientSelectors"
  | .wsmanDetailInvalid => some "Invalid"
  | .wsmanDetailInvalidAddress => some "InvalidAddress"
  | .wsmanDetailInvalidFormat => some "InvalidFormat"
  | .wsmanDetailInvalidFragment => some "InvalidFragment"
  | .wsmanDetailInvalidName => some "InvalidName"
  | .wsmanDetailInvalidNamespace => some "InvalidNamespace"
  | .wsmanDetailInvalidResourceuri => some "InvalidResourceURI"
  | .wsmanDetailInvalidSelectorAssignment => some "InvalidSelectorAssignment"
  | .wsmanDetailInvalidSystem => some "InvalidSystem"
  | .wsmanDetailInvalidTimeout => some "InvalidTimeout"
  | .wsmanDetailInvalidValue => some "InvalidValue"
  | .wsmanDetailInvalidValues => some "InvalidValues"
  | .wsmanDetailLocale => some "Locale"
  | .wsmanDetailMaxElements => some "MaxElements"
  | .wsmanDetailMaxEnvelopePolicy => some "MaxEnvelopePolicy"
  | .wsmanDetailMaxEnvelopeSize => some "MaxEnvelopeSize"
  | .wsmanDetailMaxTime => some "MaxTime"
  | .wsmanDetailMinimumEnvelopeLimit => some "MinimumEnvelopeLimit"
  | .wsmanDetailMissingValues => some "MissingValues"
  | .wsmanDetailNotSupported => some "NotSupported"
  | .wsmanDetailOperationTimeout => some "OperationTimeout"
  | .wsmanDetailOptionLimit => some "OptionLimit"
  | .wsmanDetailOptionSet => some "OptionSet"
  | .wsmanDetailReadOnly => some "ReadOnly"
  | .wsmanDetailResourceOffline => some "ResourceOffline"
  | .wsmanDetailRename => some "Rename"
  | .wsmanDetailSelectorLimit => some "SelectorLimit"
  | .wsmanDetailServiceEnvelopeLimit => some "ServiceEnvelopeLimit"
  | .wsmanDetailTargetAlreadyExists => some "TargetAlreadyExists"
  | .wsmanDetailTypeMismatch => some "TypeMismatch"
  | .wsmanDetailUnexpectedSelectors => some "UnexpectedSelectors"
  | .wsmanDetailUnreportableSuccess => some "UnreportableSuccess"
  | .wsmanDetailUnusableAddress => some "UnusableAddress"
  | .wsmanDetailUriLimitExceeded => some "UriLimitExceeded"
  | .wsmanDetailWhitespace => some "Whitespace"
  | .wsaDetailDuplicateMessageId => some "DuplicateMessageID"
  | .soapDetailHeaderNotUnderstood => some "HeaderNotUnderstood"
  | .wstDetailUnsupportedTokentype => some "UnsupportedTokenType"
  | .wspDetailInvalidEpr => some "InvalidEPR"
  | .owsmanDetailEndpointError => some "Unknown"
  | .owsmanNoDetails => some "Unknown"
  | .owsmanSystemError => some "Unknown"

/-! ## What the table guarantees -/

theorem faultCodeEntry_isSome (code : WsmanFaultCodeType) :
    (faultCodeEntry code).isSome = code.inFaultCodeTable := by
  cases code <;> rfl

theorem wsmanStatusBadRequest_le_httpcode (code : WsmanFaultCodeType) :
    wsmanStatusBadRequest ≤ wsmanFindHttpcodeForFaultCode code := by
  cases code <;> decide

end Openwsman
