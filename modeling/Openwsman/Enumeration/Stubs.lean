import Openwsman.Enumeration.Info

/-!
# The service stubs of WS-Enumeration

`wsman-soap.c` wraps the endpoints of a plugin in stubs. A stub locks the context a request names,
calls the endpoint on it, and from what the endpoint left behind makes the response and decides
whether the context stays. A stub is described here by what it does once its endpoint has returned:
from the return value, the status and the context as the endpoint left it, to the response, the
context and the section it runs next.

The endpoint prepares a response document in `pullResultPtr` and leaves `index` one below the number
of items passed, because every stub increments it.
-/

namespace Openwsman

variable {χ ι : Type}

inductive Stub where
  | pull
  | pullDirect
  | release
  deriving DecidableEq, Repr

def Stub.action : Stub → String
  | pull => wsenumPull
  | pullDirect => wsenumPull
  | release => wsenumRelease

inductive Verdict where
  | unlock
  | remove
  deriving DecidableEq, Repr

structure EndpointResult (χ ι : Type) where
  retVal : ℤ
  status : WsmanStatus
  info : WsEnumerateInfo χ ι

/-- What a stub does after its endpoint: the document for the client, the context as it is left, and
what happens to it. -/
structure StubEnd (χ ι : Type) where
  doc : Option (SoapDoc (EnumResponse ι))
  info : WsEnumerateInfo χ ι
  verdict : Verdict

namespace WsEnumerateInfo

def advance (info : WsEnumerateInfo χ ι) : WsEnumerateInfo χ ι :=
  { info with index := info.index + 1 }

def atEnd (info : WsEnumerateInfo χ ι) : Bool :=
  info.totalItems == 0 || info.index == info.totalItems

theorem sameIdentity_advance (info : WsEnumerateInfo χ ι) : SameIdentity info info.advance :=
  ⟨rfl, rfl, rfl, rfl, rfl⟩

theorem SameIdentity.trans {a b c : WsEnumerateInfo χ ι} (h : SameIdentity a b)
    (h' : SameIdentity b c) : SameIdentity a c :=
  ⟨h'.1.trans h.1, h'.2.1.trans h.2.1, h'.2.2.1.trans h.2.2.1, h'.2.2.2.1.trans h.2.2.2.1,
    h'.2.2.2.2.trans h.2.2.2.2⟩

end WsEnumerateInfo

def wsmanSetEstimatedTotal (inDoc : WsXmlNode) (info : WsEnumerateInfo χ ι) :
    SoapDoc (EnumResponse ι) → SoapDoc (EnumResponse ι)
  | .fault s n => .fault s n
  | .response header body =>
    if (wsXmlFirstChild (wsXmlGetSoapHeader inDoc) xmlNsWsMan wsmRequestTotal).isSome then
      .response (header ++
        [.elem xmlNsWsMan wsmTotalEstimate [.text (toString (toCInt info.totalItems.toNat))]]) body
    else .response header body

def SoapDoc.items : SoapDoc (EnumResponse ι) → List ι
  | .fault .. => []
  | .response _ body => body.items

def wsenumPullDirectEnd (inDoc : WsXmlNode) (r : EndpointResult χ ι) : StubEnd χ ι :=
  if r.retVal != 0 then
    ⟨wsmanGenerateFault r.status.faultCode r.status.faultDetailCode, r.info, .unlock⟩
  else
    let info := r.info.advance
    match info.pullResultPtr with
    | none => ⟨none, info, .unlock⟩
    | some doc =>
      match wsmanSetEstimatedTotal inDoc info doc with
      | .fault .. => ⟨wsmanGenerateFault .wsmanInternalError .wsmanDetailInvalid, info, .unlock⟩
      | .response header body =>
        if !(body.name == wsenumPullResp && body.hasItemsElement xmlNsEnumeration) then
          ⟨wsmanGenerateFault .wsmanInternalError .wsmanDetailInvalid, info, .unlock⟩
        else if info.atEnd then
          ⟨some (.response header (body.addChild (.endOfSequence xmlNsEnumeration))), info, .remove⟩
        else
          ⟨some (.response header (body.addContextBeforeItems xmlNsEnumeration info.enumId)), info,
            .unlock⟩

/-- This stub never writes the context into a response. -/
def wsenumPullEnd (inDoc : WsXmlNode) (r : EndpointResult χ ι) : StubEnd χ ι :=
  if r.retVal != 0 then
    ⟨wsmanGenerateFault r.status.faultCode r.status.faultDetailCode, r.info, .unlock⟩
  else
    let info := r.info.advance
    let respond (part : RespPart ι) : SoapDoc (EnumResponse ι) :=
      wsmanSetEstimatedTotal inDoc info (.response (responseHeader inDoc) ⟨wsenumPullResp, [part]⟩)
    match info.pullResultPtr with
    | some data => ⟨some (respond (.items xmlNsEnumeration data.items)), info, .unlock⟩
    | none => ⟨some (respond (.endOfSequence xmlNsEnumeration)), info, .remove⟩

def wsenumReleaseEnd (inDoc : WsXmlNode) (r : EndpointResult χ ι) : StubEnd χ ι :=
  if r.retVal != 0 then
    ⟨wsmanGenerateFault .wsmanInternalError .owsmanDetailEndpointError, r.info, .unlock⟩
  else ⟨some (.response (responseHeader inDoc) ⟨"", []⟩), r.info, .remove⟩

def Stub.finish : Stub → WsXmlNode → EndpointResult χ ι → StubEnd χ ι
  | pull => wsenumPullEnd
  | pullDirect => wsenumPullDirectEnd
  | release => wsenumReleaseEnd

theorem finish_info (stub : Stub) (inDoc : WsXmlNode) (r : EndpointResult χ ι) :
    (stub.finish inDoc r).info = r.info ∨ (stub.finish inDoc r).info = r.info.advance := by
  cases stub <;> simp only [Stub.finish, wsenumPullEnd, wsenumPullDirectEnd, wsenumReleaseEnd] <;>
    repeat' split
  all_goals first | exact .inl rfl | exact .inr rfl

theorem sameIdentity_finish (stub : Stub) (inDoc : WsXmlNode) (r : EndpointResult χ ι) :
    WsEnumerateInfo.SameIdentity r.info (stub.finish inDoc r).info := by
  rcases finish_info stub inDoc r with h | h
  · rw [h]
    exact ⟨rfl, rfl, rfl, rfl, rfl⟩
  · rw [h]
    exact r.info.sameIdentity_advance

/-! ## Enumerate -/

/-- Only an optimized Enumerate ends the sequence at once, and its context is never stored then. -/
def wsenumEnumerateEnd (inDoc : WsXmlNode) (r : EndpointResult χ ι) :
    Option (SoapDoc (EnumResponse ι)) × Option (WsEnumerateInfo χ ι) :=
  if r.retVal != 0 then
    (wsmanGenerateFault r.status.faultCode r.status.faultDetailCode, none)
  else
    let fresh : SoapDoc (EnumResponse ι) :=
      .response (responseHeader inDoc) ⟨wsenumEnumerateResp, []⟩
    let info := if r.info.pullResultPtr.isSome then r.info.advance else r.info
    match wsmanSetEstimatedTotal inDoc info (r.info.pullResultPtr.getD fresh) with
    | .fault s n => (some (.fault s n), none)
    | .response header body =>
      if body.name != wsenumEnumerateResp then (some (.response header body), none)
      else if info.flags.opt && info.atEnd then
        (some (.response header
          ((body.addChild (.context none)).addChild (.endOfSequence xmlNsWsMan))), none)
      else (some (.response header (body.addChild (.context (some info.enumId)))), some info)

theorem wsenumEnumerateEnd_stored {inDoc : WsXmlNode} {r : EndpointResult χ ι}
    {info : WsEnumerateInfo χ ι} (h : (wsenumEnumerateEnd inDoc r).2 = some info) :
    r.retVal = 0 ∧ info = if r.info.pullResultPtr.isSome then r.info.advance else r.info := by
  rw [wsenumEnumerateEnd] at h
  split at h
  · cases h
  next hret =>
  refine ⟨by simpa using hret, ?_⟩
  dsimp only at h
  generalize (if r.info.pullResultPtr.isSome then r.info.advance else r.info) = moved at h ⊢
  split at h
  · cases h
  split at h
  · cases h
  · split at h
    · cases h
    · exact (Option.some.inj h).symm

end Openwsman
