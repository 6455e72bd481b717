/-!
# Fault codes

The enumerations of `wsman-faults.h` and the status record in which a function reports a fault.
`wsmanRcOk` and `wsmanDetailOk` are the zero values, which say that there is none.
-/

namespace Openwsman

inductive WsmanFaultCodeType where
  | wsmanRcOk | wsmanAccessDenied | wsaActionNotSupported | wsmanAlreadyExists
  | wsenCannotProcessFilter | wsmanCannotProcessFilter | wsmanConcurrency
  | wseDeliveryModeRequestedUnavailable | wsmanDeliveryRefused | wsaDestinationUnreachable
  | wsmanEncodingLimit | wsaEndpointUnavailable | wsmanEventDeliverToUnusable
  | wseEventSourceUnableToProcess | wsenFilterDialectRequestedUnavailable
  | wseFilteringNotSupported | wsenFilteringNotSupported | wseFilteringRequestedUnavailable
  | wsmanFragmentDialectNotSupported | wsmanInternalError | wsmanInvalidBookmark
  | wsenInvalidEnumerationContext | wseInvalidExpirationTime | wsenInvalidExpirationTime
  | wseInvalidMessage | wsaInvalidMessageInformationHeader | wsmanInvalidOptions
  | wsmanInvalidParameter | wxfInvalidRepresentation | wsmanInvalidSelectors
  | wsaMessageInformationHeaderRequired | wsmanNoAck | wsmanQuotaLimit
  | wsmanSchemaValidationError | wsenTimedOut | wsmanTimedOut | wseUnableToRenew
  | wseUnsupportedExpirationType | wsenUnsupportedExpirationType | wsmanUnsupportedFeature
  | soapFaultVersionMismatch | soapFaultMustunderstand | wsmbPolymorphismModeNotSupported
  | wsmanUnknown
  deriving DecidableEq, Repr

inductive WsmanFaultDetailType where
  | wsmanDetailOk | wsmanDetailAck | wsmanDetailActionMismatch | wsmanDetailAlreadyExists
  | wsmanDetailAmbiguousSelectors | wsmanDetailAsynchronousRequest | wsmanDetailAddressingMode
  | wsmanDetailAutherizationMode | wsmanDetailBookmarks | wsmanDetailCharechterSet
  | wsmanDetailDeliveryRetries | wsmanDetailDuplicateSelectors | wsmanDetailEncodingType
  | wsmanDetailEnumerationMode | wsmanDetailExpirationTime | wsmanDetailExpired
  | wsmanDetailFilteringRequired | wsmanDetailFormatMismatch | wsmanDetailFormatSecurityToken
  | wsmanDetailFragmentLevelAccess | wsmanDetailHeartbeats | wsmanDetailInsecureAddress
  | wsmanDetailInsufficientSelectors | wsmanDetailInvalid | wsmanDetailInvalidAddress
  | wsmanDetailInvalidFormat | wsmanDetailInvalidFragment | wsmanDetailInvalidName
  | wsmanDetailInvalidNamespace | wsmanDetailInvalidResourceuri
  | wsmanDetailInvalidSelectorAssignment | wsmanDetailInvalidSystem | wsmanDetailInvalidTimeout
  | wsmanDetailInvalidValue | wsmanDetailInvalidValues | wsmanDetailLocale
  | wsmanDetailMaxElements | wsmanDetailMaxEnvelopePolicy | wsmanDetailMaxEnvelopeSize
  | wsmanDetailMaxTime | wsmanDetailMinimumEnvelopeLimit | wsmanDetailMissingValues
  | wsmanDetailNotSupported | wsmanDetailOperationTimeout | wsmanDetailOptionLimit
  | wsmanDetailOptionSet | wsmanDetailReadOnly | wsmanDetailResourceOffline | wsmanDetailRename
  | wsmanDetailSelectorLimit | wsmanDetailServiceEnvelopeLimit | wsmanDetailTargetAlreadyExists
  | wsmanDetailTypeMismatch | wsmanDetailUnexpectedSelectors | wsmanDetailUnreportableSuccess
  | wsmanDetailUnusableAddress | wsmanDetailUriLimitExceeded | wsmanDetailWhitespace
  | wsaDetailDuplicateMessageId | soapDetailHeaderNotUnderstood | wstDetailUnsupportedTokentype
  | wspDetailInvalidEpr | owsmanDetailEndpointError | owsmanNoDetails | owsmanSystemError
  deriving DecidableEq, Repr

def WsmanFaultCodeType.inFaultCodeTable : WsmanFaultCodeType → Bool
  | .wsmanRcOk | .wsmanDeliveryRefused | .wseEventSourceUnableToProcess
  | .wseFilteringRequestedUnavailable | .wsmanInvalidBookmark | .wsenInvalidExpirationTime
  | .wseUnableToRenew | .wseUnsupportedExpirationType | .soapFaultVersionMismatch => false
  | _ => true

/-- `WsmanStatus`, without its message text, which only ever comes from a CIM server. -/
structure WsmanStatus where
  faultCode : WsmanFaultCodeType := .wsmanRcOk
  faultDetailCode : WsmanFaultDetailType := .wsmanDetailOk
  deriving DecidableEq, Repr

end Openwsman
