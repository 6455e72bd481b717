import Openwsman.Client.PullLoop
import Openwsman.Enumeration.Locking
import Openwsman.Eventing.Subscription
import Openwsman.Lib.Machine

/-!
# The redirect plugin

The redirect plugin sends the requests of an enumeration on to a remote server and gives the
documents that come back to the stubs. The context of the remote server is used as the local one.

`wsenum_pull_direct_stub` takes `totalItems` for the number of Pulls that an enumeration needs, and
the plugin gives it the estimate of the number of items, which the remote server may leave out. The
end of the sequence is then found by counting responses, whatever they say, and the context is added
to a response that may have one already.
-/

namespace Openwsman

open Bool Option CResult List Machine

def wsenumEndOfSequence : String := "EndOfSequence"

abbrev RedirectInfo := WsEnumerateInfo Unit WsXmlNode

/-! ## Documents -/

def respPartOf (node : WsXmlNode) : Option (RespPart WsXmlNode) :=
  if wsXmlIsNodeQname node (some xmlNsEnumeration) (some wsenumEnumerationContext) then
    some (.context (if node.chars = "" then none else some node.chars))
  else if node.name = wsenumItems then some (.items (node.nsUri.getD "") node.content)
  else if wsXmlIsNodeQname node (some xmlNsEnumeration) (some wsenumEndOfSequence) then
    some (.endOfSequence xmlNsEnumeration)
  else if wsXmlIsNodeQname node (some xmlNsWsMan) (some wsenumEndOfSequence) then
    some (.endOfSequence xmlNsWsMan)
  else none

def enumResponseOf (name : String) (doc : WsXmlNode) : EnumResponse WsXmlNode :=
  match wsXmlFirstChild (wsXmlGetSoapBody doc) xmlNsEnumeration name with
  | none => ⟨"", []⟩
  | some node => ⟨name, node.elements.filterMap respPartOf⟩

def responseOf (name : String) (doc : WsXmlNode) : SoapDoc (EnumResponse WsXmlNode) :=
  .response ((wsXmlGetSoapHeader doc).elim [] WsXmlNode.elements) (enumResponseOf name doc)

/-- What comes of a request to the remote server: an error of the transport, or a response, from
which a document could be read or not. -/
inductive RemoteReply where
  | transportError
  | received (doc : Option WsXmlNode)

/-! ## The endpoints -/

def transportFailed (info : RedirectInfo) : EndpointResult Unit WsXmlNode :=
  ⟨1, ⟨.wsmanInternalError, .wsmanDetailOk⟩, { info with pullResultPtr := none }⟩

def redirectPullEP (faultStatus : WsXmlNode → WsmanStatus) (info : RedirectInfo) :
    RemoteReply → EndpointResult Unit WsXmlNode
  | .transportError => transportFailed info
  | .received none => ⟨0, {}, { info with pullResultPtr := none }⟩
  | .received (some response) =>
    if wsmanIsFaultEnvelope { root := response } then
      ⟨1, faultStatus response, { info with pullResultPtr := none }⟩
    else ⟨0, {}, { info with pullResultPtr := some (responseOf wsenumPullResp response) }⟩

def withRequestTotal (doc : WsXmlNode) : WsXmlNode :=
  if (wsXmlFirstChild (wsXmlGetSoapHeader doc) xmlNsWsMan wsmRequestTotal).isSome then doc
  else changeSoapHeader (·.mapContent (· ++ [.elem xmlNsWsMan wsmRequestTotal []])) doc

def estimatedTotal (response : WsXmlNode) : UInt32 :=
  match wsXmlFirstChild (wsXmlGetSoapHeader response) xmlNsWsMan wsmTotalEstimate with
  | none => 0
  | some node => UInt32.ofNat (toUInt (toULong (atoi node.chars)))

def asksOptimized (doc : WsXmlNode) : Bool :=
  (wsXmlFirstChild
    (wsXmlFirstChild (wsXmlGetSoapBody doc) xmlNsEnumeration wsenumEnumerate) xmlNsWsMan
    wsmOptimizeEnum).isSome

def markOptimized (doc : WsXmlNode) (info : RedirectInfo) : RedirectInfo :=
  if asksOptimized doc then { info with flags := { info.flags with opt := true } } else info

theorem markOptimized_index (doc : WsXmlNode) (info : RedirectInfo) :
    (markOptimized doc info).index = info.index := by
  rw [markOptimized]
  split <;> rfl

theorem markOptimized_pullResultPtr (doc : WsXmlNode) (info : RedirectInfo) :
    (markOptimized doc info).pullResultPtr = info.pullResultPtr := by
  rw [markOptimized]
  split <;> rfl

def returnsItems (response : WsXmlNode) : Bool :=
  (wsXmlFirstChild
    (wsXmlFirstChild (wsXmlGetSoapBody response) xmlNsEnumeration wsenumEnumerateResp) xmlNsWsMan
    wsenumItems).isSome

/-- A context that is too long is copied behind the end of `enumId`. -/
def redirectEnumerateEP (faultStatus : WsXmlNode → WsmanStatus) (doc : WsXmlNode)
    (info : RedirectInfo) (reply : RemoteReply) :
    CResult (WsXmlNode × EndpointResult Unit WsXmlNode) :=
  let doc := withRequestTotal doc
  let info := markOptimized doc info
  match reply with
  | .transportError => .value (doc, transportFailed info)
  | .received none => .undefined
  | .received (some response) =>
    if wsmanIsFaultEnvelope { root := response } then
      .value (doc, ⟨1, faultStatus response, { info with pullResultPtr := none }⟩)
    else
      match wsmcGetEnumContext (some response) with
      | none => .undefined
      | some remoteEnumContext =>
        if euidlen < remoteEnumContext.utf8ByteSize + 1 then .undefined
        else
          .value (doc, ⟨0, {},
            { info with
              totalItems := estimatedTotal response
              enumId := remoteEnumContext
              pullResultPtr :=
                if returnsItems response then some (responseOf wsenumEnumerateResp response)
                else info.pullResultPtr }⟩)

/-! ## The stubs -/

/-- `wsenum_enumerate_stub` with `Redirect_Enumerate_EP`, behind the check of the quota: the
document for the client, and the context that is stored. -/
def redirectEnumerate (faultStatus : WsXmlNode → WsmanStatus) (datetime : String → Option ℤ)
    (op : SoapOp (EnumResponse WsXmlNode)) (id : String) (now : ℕ) (reply : RemoteReply) :
    CResult (Option (SoapDoc (EnumResponse WsXmlNode)) × Option RedirectInfo) :=
  (createEnumInfo datetime op id now).bind fun
    | .error status =>
      .value (wsmanGenerateFault status.faultCode status.faultDetailCode, none)
    | .ok info =>
      (redirectEnumerateEP faultStatus op.inDoc info reply).bind fun (doc, r) ↦
        .value (wsenumEnumerateEnd doc r)

def redirectPull (faultStatus : WsXmlNode → WsmanStatus) (info : RedirectInfo) (doc : WsXmlNode)
    (reply : RemoteReply) : StubEnd Unit WsXmlNode :=
  wsenumPullDirectEnd doc (redirectPullEP faultStatus info reply)

def redirectStep (faultStatus : WsXmlNode → WsmanStatus) (context : Option RedirectInfo)
    (pull : WsXmlNode × RemoteReply) : Option RedirectInfo × Option (StubEnd Unit WsXmlNode) :=
  match context with
  | none => (none, none)
  | some info =>
    let e := redirectPull faultStatus info pull.1 pull.2
    match e.verdict with
    | .unlock => (some e.info, some e)
    | .remove => (none, some e)

/-! ## What the remote server says -/

namespace EnumResponse

variable {ι : Type}

def contextCount (r : EnumResponse ι) : ℕ :=
  r.parts.countP fun
    | .context _ => true
    | _ => false

variable (r : EnumResponse ι) (ns : String)

theorem hasEndOfSequence_addChild : (r.addChild (.endOfSequence ns)).hasEndOfSequence = true := by
  simp [hasEndOfSequence, addChild]

theorem hasEndOfSequence_addContextBeforeItems (id : String) :
    (r.addContextBeforeItems ns id).hasEndOfSequence = r.hasEndOfSequence := by
  rw [hasEndOfSequence, hasEndOfSequence, addContextBeforeItems, any_append, any_cons,
    Bool.false_or, ← any_append, takeWhile_append_dropWhile]

theorem contextCount_addContextBeforeItems (id : String) :
    (r.addContextBeforeItems ns id).contextCount = r.contextCount + 1 := by
  rw [contextCount, contextCount, addContextBeforeItems, countP_append, countP_cons,
    ← Nat.add_assoc, ← countP_append, takeWhile_append_dropWhile]
  rfl

end EnumResponse

namespace RemoteReply

def pullResponse : RemoteReply → Option (EnumResponse WsXmlNode)
  | received (some doc) =>
    if wsmanIsFaultEnvelope { root := doc } then none
    else
      (wsXmlFirstChild (wsXmlGetSoapBody doc) xmlNsEnumeration wsenumPullResp).map fun _ ↦
        enumResponseOf wsenumPullResp doc
  | _ => none

def ends (reply : RemoteReply) : Bool := reply.pullResponse.any EnumResponse.hasEndOfSequence

def hasItems (reply : RemoteReply) : Bool :=
  reply.pullResponse.any fun r ↦ r.hasItemsElement xmlNsEnumeration

def contexts (reply : RemoteReply) : ℕ := reply.pullResponse.elim 0 EnumResponse.contextCount

def counts : RemoteReply → Bool
  | transportError => false
  | received none => true
  | received (some doc) => !wsmanIsFaultEnvelope { root := doc }

end RemoteReply

/-! ## One Pull -/

structure PassedOn (e : StubEnd Unit WsXmlNode) (reply : RemoteReply) : Prop where
  removed : e.verdict = .remove ↔ reply.ends = true
  reported : (e.doc.bind SoapDoc.body).any EnumResponse.hasEndOfSequence = true ↔ reply.ends = true
  context : reply.ends = false → ∀ body, e.doc.bind SoapDoc.body = some body →
    body.contextCount = 1

theorem PassedOn.unlocked {e : StubEnd Unit WsXmlNode} {reply : RemoteReply}
    (h : PassedOn e reply) : e.verdict = .unlock ↔ reply.ends = false := by
  rw [← not_eq_true, ← h.removed]
  cases e.verdict <;> simp

/-- What a reply has to be like if it is to be passed on correctly as the response with a number. -/
def Expected (total number : UInt32) (reply : RemoteReply) : Prop :=
  (reply.ends = true ↔ reply.hasItems = true ∧ (total = 0 ∨ number = total)) ∧
    (reply.hasItems = true → reply.ends = false → reply.contexts = 0)

instance (total number : UInt32) (reply : RemoteReply) : Decidable (Expected total number reply) :=
  inferInstanceAs (Decidable (_ ∧ _))

section Pull

variable (faultStatus : WsXmlNode → WsmanStatus) (info : RedirectInfo) (doc : WsXmlNode)

variable {reply : RemoteReply}

variable {e : StubEnd Unit WsXmlNode} {r : EnumResponse WsXmlNode}

/-- An answer without a body is right if the remote server has sent nothing to pass on, and then
anything is expected. -/
theorem passedOn_iff_of_no_body (hverdict : e.verdict = .unlock)
    (hdoc : e.doc.bind SoapDoc.body = none) (hitems : reply.hasItems = false)
    (total number : UInt32) : PassedOn e reply ↔ Expected total number reply := by
  constructor
  · intro h
    have hends : reply.ends = false := h.unlocked.mp hverdict
    exact ⟨by simp [hends, hitems], by simp [hitems]⟩
  · rintro ⟨hends, -⟩
    rw [hitems] at hends
    have hends : reply.ends = false := by simpa using hends
    exact ⟨by simp [hverdict, hends], by simp [hdoc, hends], fun _ body hbody ↦
      absurd (hdoc.symm.trans hbody) (by simp)⟩

theorem wsmanGenerateFault_bind_body {δ : Type} (c : WsmanFaultCodeType)
    (d : WsmanFaultDetailType) :
    (wsmanGenerateFault c d : Option (SoapDoc δ)).bind SoapDoc.body = none := by
  rw [wsmanGenerateFault]
  split <;> rfl

theorem wsenumPullDirectEnd_response (response : WsXmlNode) :
    let body := enumResponseOf wsenumPullResp response
    let received : RedirectInfo :=
      { info with pullResultPtr := some (responseOf wsenumPullResp response) }
    ∃ header, wsenumPullDirectEnd doc ⟨0, {}, received⟩ =
      if !(body.name == wsenumPullResp && body.hasItemsElement xmlNsEnumeration) then
        ⟨wsmanGenerateFault .wsmanInternalError .wsmanDetailInvalid, received.advance, .unlock⟩
      else if info.advance.atEnd then
        ⟨some (.response header (body.addChild (.endOfSequence xmlNsEnumeration))),
          received.advance, .remove⟩
      else
        ⟨some (.response header (body.addContextBeforeItems xmlNsEnumeration info.enumId)),
          received.advance, .unlock⟩ := by
  intro body received
  obtain ⟨header, hheader⟩ : ∃ header, wsmanSetEstimatedTotal doc received.advance
      (responseOf wsenumPullResp response) = .response header body := by
    rw [responseOf, wsmanSetEstimatedTotal]
    split <;> exact ⟨_, rfl⟩
  refine ⟨header, ?_⟩
  have hptr : received.advance.pullResultPtr = some (responseOf wsenumPullResp response) := rfl
  rw [wsenumPullDirectEnd, if_neg (by simp)]
  dsimp only
  rw [hptr]
  dsimp only
  rw [hheader]
  rfl

theorem atEnd_advance_iff :
    info.advance.atEnd = true ↔ info.totalItems = 0 ∨ info.index + 1 = info.totalItems := by
  simp [WsEnumerateInfo.atEnd, WsEnumerateInfo.advance]

theorem passedOn_iff_of_items (hr : reply.pullResponse = some r) (hitems : reply.hasItems = true)
    {header : List WsXmlNode} {next : RedirectInfo}
    (he : e = if info.advance.atEnd then ⟨some (.response header (r.addChild (.endOfSequence
      xmlNsEnumeration))), next, .remove⟩ else ⟨some (.response header (r.addContextBeforeItems
      xmlNsEnumeration info.enumId)), next, .unlock⟩) :
    PassedOn e reply ↔ Expected info.totalItems (info.index + 1) reply := by
  have hends : reply.ends = r.hasEndOfSequence := by rw [RemoteReply.ends, hr, any_some]
  have hcontexts : reply.contexts = r.contextCount := by rw [RemoteReply.contexts, hr]; rfl
  rw [Expected, ← atEnd_advance_iff, hitems]
  cases hend : info.advance.atEnd with
  | true =>
    rw [hend, if_pos rfl] at he
    subst he
    constructor
    · intro h
      have htrue := h.removed.mp rfl
      exact ⟨by simp [htrue], by simp [htrue]⟩
    · rintro ⟨h, -⟩
      have htrue := h.mpr ⟨rfl, rfl⟩
      refine ⟨by simp [htrue], ?_, by simp [htrue]⟩
      simp [htrue, SoapDoc.body, EnumResponse.hasEndOfSequence_addChild]
  | false =>
    rw [hend, if_neg Bool.false_ne_true] at he
    subst he
    have hcount := r.contextCount_addContextBeforeItems xmlNsEnumeration info.enumId
    constructor
    · intro h
      have hfalse : reply.ends = false := h.unlocked.mp rfl
      have hone := h.context hfalse _ rfl
      rw [hcount] at hone
      exact ⟨by simp [hfalse], fun _ _ ↦ by omega⟩
    · rintro ⟨h, hzero⟩
      have hfalse : reply.ends = false := by simpa using h
      refine ⟨by simp [hfalse], ?_, fun _ body hbody ↦ ?_⟩
      · simp [SoapDoc.body, EnumResponse.hasEndOfSequence_addContextBeforeItems, hends]
      · obtain rfl := some.inj hbody
        rw [hcount, ← hcontexts, hzero rfl hfalse]

theorem redirectPull_of_no_items (h : reply.hasItems = false) :
    (redirectPull faultStatus info doc reply).verdict = .unlock ∧
      (redirectPull faultStatus info doc reply).doc.bind SoapDoc.body = none := by
  have hfailed : ∀ (status : WsmanStatus) (info : RedirectInfo),
      (wsenumPullDirectEnd doc ⟨1, status, info⟩).verdict = .unlock ∧
        (wsenumPullDirectEnd doc ⟨1, status, info⟩).doc.bind SoapDoc.body = none :=
    fun status info ↦
      ⟨rfl, wsmanGenerateFault_bind_body status.faultCode status.faultDetailCode⟩
  rw [redirectPull]
  rcases reply with _ | _ | response
  · exact hfailed _ _
  · exact ⟨rfl, rfl⟩
  rw [redirectPullEP]
  cases hfault : wsmanIsFaultEnvelope { root := response } with
  | true => exact hfailed _ _
  | false =>
    rw [if_neg Bool.false_ne_true]
    -- the stub looks for the PullResponse and for the Items in it
    have hmissing : ((enumResponseOf wsenumPullResp response).name == wsenumPullResp &&
        (enumResponseOf wsenumPullResp response).hasItemsElement xmlNsEnumeration) = false := by
      rw [RemoteReply.hasItems, RemoteReply.pullResponse, hfault, if_neg Bool.false_ne_true] at h
      rw [enumResponseOf] at h ⊢
      cases hnode : wsXmlFirstChild (wsXmlGetSoapBody response) xmlNsEnumeration wsenumPullResp with
      | none => rfl
      | some node =>
        rw [hnode, map_some, any_some] at h
        exact and_eq_false_iff.mpr (.inr h)
    obtain ⟨header, he⟩ := wsenumPullDirectEnd_response info doc response
    rw [he, hmissing, Bool.not_false, if_pos rfl]
    exact ⟨rfl, wsmanGenerateFault_bind_body .wsmanInternalError .wsmanDetailInvalid⟩

theorem redirectPull_of_items (hr : reply.pullResponse = some r) (h : reply.hasItems = true) :
    ∃ header next, redirectPull faultStatus info doc reply =
      if info.advance.atEnd then
        ⟨some (.response header (r.addChild (.endOfSequence xmlNsEnumeration))), next, .remove⟩
      else
        ⟨some (.response header (r.addContextBeforeItems xmlNsEnumeration info.enumId)), next,
          .unlock⟩ := by
  rcases reply with _ | _ | response
  · cases hr
  · cases hr
  rw [RemoteReply.hasItems, hr, any_some] at h
  rw [RemoteReply.pullResponse] at hr
  rw [redirectPull, redirectPullEP]
  cases hfault : wsmanIsFaultEnvelope { root := response } with
  | true =>
    rw [hfault] at hr
    cases hr
  | false =>
    rw [hfault, if_neg Bool.false_ne_true, map_eq_some_iff] at hr
    obtain ⟨node, hnode, rfl⟩ := hr
    have hname : (enumResponseOf wsenumPullResp response).name = wsenumPullResp := by
      rw [enumResponseOf, hnode]
    rw [if_neg Bool.false_ne_true]
    obtain ⟨header, he⟩ := wsenumPullDirectEnd_response info doc response
    rw [hname, h, beq_self_eq_true, Bool.and_true, Bool.not_true, if_neg Bool.false_ne_true] at he
    exact ⟨header, _, he⟩

theorem passedOn_redirectPull_iff (reply : RemoteReply) :
    PassedOn (redirectPull faultStatus info doc reply) reply ↔
      Expected info.totalItems (info.index + 1) reply := by
  cases hitems : reply.hasItems with
  | false =>
    obtain ⟨hverdict, hbody⟩ := redirectPull_of_no_items faultStatus info doc hitems
    exact passedOn_iff_of_no_body hverdict hbody hitems _ _
  | true =>
    cases hr : reply.pullResponse with
    | none =>
      rw [RemoteReply.hasItems, hr] at hitems
      cases hitems
    | some r =>
      obtain ⟨header, next, he⟩ := redirectPull_of_items faultStatus info doc hr hitems
      exact passedOn_iff_of_items info hr hitems he

theorem redirectPull_info (reply : RemoteReply) :
    (redirectPull faultStatus info doc reply).info.totalItems = info.totalItems ∧
      (redirectPull faultStatus info doc reply).info.index =
        if reply.counts then info.index + 1 else info.index := by
  rw [redirectPull]
  rcases reply with _ | _ | response
  · exact ⟨rfl, rfl⟩
  · exact ⟨rfl, rfl⟩
  rw [redirectPullEP, RemoteReply.counts]
  cases hfault : wsmanIsFaultEnvelope { root := response } with
  | true => exact ⟨rfl, rfl⟩
  | false =>
    rw [if_neg Bool.false_ne_true]
    obtain ⟨header, he⟩ := wsenumPullDirectEnd_response info doc response
    rw [he]
    split
    · exact ⟨rfl, rfl⟩
    · split <;> exact ⟨rfl, rfl⟩

end Pull

/-! ## The whole sequence -/

def RedirectCorrect (faultStatus : WsXmlNode → WsmanStatus) (info : RedirectInfo)
    (pulls : List (WsXmlNode × RemoteReply)) : Prop :=
  ∀ (n : ℕ) (pull : WsXmlNode × RemoteReply) (e : StubEnd Unit WsXmlNode), pulls[n]? = some pull →
    (run (redirectStep faultStatus) (some info) pulls).2[n]? = some (some e) → PassedOn e pull.2

/-- The replies up to the end of the sequence are what the stub expects, which numbers those that it
gets. -/
def Counted (total start : UInt32) (replies : List RemoteReply) : Prop :=
  ∀ (n : ℕ) (reply : RemoteReply), replies[n]? = some reply →
    (∀ r ∈ replies.take n, r.ends = false) →
    Expected total (start + UInt32.ofNat ((replies.take n).countP RemoteReply.counts) + 1) reply

theorem counted_cons {total start : UInt32} {reply : RemoteReply} {replies : List RemoteReply} :
    Counted total start (reply :: replies) ↔ Expected total (start + 1) reply ∧
      (reply.ends = false →
        Counted total (if reply.counts then start + 1 else start) replies) := by
  have hnumber : ∀ n, start + UInt32.ofNat (((reply :: replies).take (n + 1)).countP
      RemoteReply.counts) = (if reply.counts then start + 1 else start) +
        UInt32.ofNat ((replies.take n).countP RemoteReply.counts) := by
    intro n
    rw [take_succ_cons, countP_cons]
    cases reply.counts with
    | false => rfl
    | true =>
      rw [if_pos rfl, if_pos rfl, UInt32.ofNat_add, UInt32.add_comm _ (UInt32.ofNat 1),
        ← UInt32.add_assoc]
      rfl
  constructor
  · intro h
    refine ⟨?_, fun hends n r hr hbefore ↦ ?_⟩
    · simpa using h 0 reply rfl (by simp)
    rw [← hnumber]
    refine h (n + 1) r hr ?_
    rw [take_succ_cons]
    exact forall_mem_cons.mpr ⟨hends, hbefore⟩
  · rintro ⟨hfirst, hrest⟩ n r hr hbefore
    cases n with
    | zero =>
      obtain rfl := some.inj hr
      simpa using hfirst
    | succ n =>
      rw [take_succ_cons] at hbefore
      obtain ⟨hends, hbefore⟩ := forall_mem_cons.mp hbefore
      rw [hnumber]
      exact hrest hends n r hr hbefore

variable (faultStatus : WsXmlNode → WsmanStatus)

theorem run_redirectStep_none (pulls : List (WsXmlNode × RemoteReply)) :
    (run (redirectStep faultStatus) none pulls).2 = pulls.map fun _ ↦ none := by
  induction pulls with
  | nil => rfl
  | cons pull pulls ih => exact congrArg (none :: ·) ih

theorem redirectStep_some (info : RedirectInfo) (pull : WsXmlNode × RemoteReply) :
    redirectStep faultStatus (some info) pull =
      (if (redirectPull faultStatus info pull.1 pull.2).verdict = .unlock then
        some (redirectPull faultStatus info pull.1 pull.2).info else none,
        some (redirectPull faultStatus info pull.1 pull.2)) := by
  rw [redirectStep]
  cases (redirectPull faultStatus info pull.1 pull.2).verdict <;> rfl

variable {faultStatus : WsXmlNode → WsmanStatus} {info : RedirectInfo}

theorem redirectCorrect_cons {pull : WsXmlNode × RemoteReply}
    {pulls : List (WsXmlNode × RemoteReply)} :
    RedirectCorrect faultStatus info (pull :: pulls) ↔
      PassedOn (redirectPull faultStatus info pull.1 pull.2) pull.2 ∧
        (pull.2.ends = false → RedirectCorrect faultStatus
          (redirectPull faultStatus info pull.1 pull.2).info pulls) := by
  rw [RedirectCorrect, run_cons, redirectStep_some]
  generalize redirectPull faultStatus info pull.1 pull.2 = e
  constructor
  · intro h
    have hfirst : PassedOn e pull.2 := h 0 pull e rfl rfl
    refine ⟨hfirst, fun hends n pull' e' hpull he ↦ h (n + 1) pull' e' hpull ?_⟩
    rw [if_pos (hfirst.unlocked.mpr hends)]
    exact he
  · rintro ⟨hfirst, hrest⟩ n pull' e' hpull he
    rcases n with _ | n
    · obtain rfl := some.inj hpull
      obtain rfl := some.inj (some.inj he)
      exact hfirst
    -- the rest of the run has answers only if the context is still there
    by_cases hunlock : e.verdict = .unlock
    · rw [if_pos hunlock] at he
      exact hrest (hfirst.unlocked.mp hunlock) n pull' e' hpull he
    · rw [if_neg hunlock, getElem?_cons_succ, run_redirectStep_none, getElem?_map] at he
      cases h : pulls[n]? <;> simp [h] at he

theorem redirectCorrect_iff_counted (info : RedirectInfo) (pulls : List (WsXmlNode × RemoteReply)) :
    RedirectCorrect faultStatus info pulls ↔
      Counted info.totalItems info.index (pulls.map Prod.snd) := by
  induction pulls generalizing info with
  | nil => simp [RedirectCorrect, Counted]
  | cons pull pulls ih =>
    obtain ⟨htotal, hindex⟩ := redirectPull_info faultStatus info pull.1 pull.2
    rw [redirectCorrect_cons, map_cons, counted_cons, passedOn_redirectPull_iff, ih, htotal, hindex]

theorem redirectEnumerateEP_ok {doc doc' : WsXmlNode} {response : WsXmlNode}
    {r : EndpointResult Unit WsXmlNode}
    (h : redirectEnumerateEP faultStatus doc info (.received (some response)) = .value (doc', r))
    (hret : r.retVal = 0) :
    r.info.totalItems = estimatedTotal response ∧ r.info.index = info.index ∧
      r.info.pullResultPtr = if returnsItems response then
        some (responseOf wsenumEnumerateResp response) else info.pullResultPtr := by
  rw [redirectEnumerateEP] at h
  split at h
  · obtain ⟨-, rfl⟩ := Prod.mk.inj (value.inj h)
    cases hret
  split at h
  · cases h
  split at h
  · cases h
  · obtain ⟨-, rfl⟩ := Prod.mk.inj (value.inj h)
    rw [← markOptimized_pullResultPtr (withRequestTotal doc) info]
    exact ⟨rfl, markOptimized_index _ _, rfl⟩

theorem stored_redirectEnumerate {datetime : String → Option ℤ}
    {op : SoapOp (EnumResponse WsXmlNode)} {id : String} {now : ℕ} {response : WsXmlNode}
    {answer : Option (SoapDoc (EnumResponse WsXmlNode))}
    (h : redirectEnumerate faultStatus datetime op id now (.received (some response)) = .value
      (answer, some info)) :
    info.totalItems = estimatedTotal response ∧
      info.index = if returnsItems response then 1 else 0 := by
  rw [redirectEnumerate] at h
  obtain ⟨created, hcreated, h⟩ := bind_eq_value.mp h
  rcases created with status | fresh
  · cases h
  obtain ⟨⟨doc, r⟩, hr, h⟩ := bind_eq_value.mp h
  obtain ⟨hret, rfl⟩ := wsenumEnumerateEnd_stored (congrArg Prod.snd (value.inj h))
  obtain ⟨dest, uri, auth, expires, maxsize, -, -, -, rfl⟩ := createEnumInfo_eq_ok datetime hcreated
  obtain ⟨htotal, hindex, hptr⟩ := redirectEnumerateEP_ok hr hret
  rw [hptr]
  cases returnsItems response with
  | true =>
    refine ⟨htotal, ?_⟩
    show r.info.index + 1 = 1
    rw [hindex]
    rfl
  | false => exact ⟨htotal, hindex⟩

/-- **Redirected enumerations.** All Pulls on a context that an Enumerate has stored are passed on
correctly if and only if the replies are what the stub expects of a remote server with this
estimate. -/
theorem redirectCorrect_iff {faultStatus : WsXmlNode → WsmanStatus}
    {datetime : String → Option ℤ} {op : SoapOp (EnumResponse WsXmlNode)} {id : String} {now : ℕ}
    {response : WsXmlNode} {answer : Option (SoapDoc (EnumResponse WsXmlNode))}
    {info : RedirectInfo}
    (h : redirectEnumerate faultStatus datetime op id now (.received (some response)) =
      .value (answer, some info)) (pulls : List (WsXmlNode × RemoteReply)) :
    RedirectCorrect faultStatus info pulls ↔
      Counted (estimatedTotal response) (if returnsItems response then 1 else 0)
        (pulls.map Prod.snd) := by
  obtain ⟨htotal, hindex⟩ := stored_redirectEnumerate h
  rw [redirectCorrect_iff_counted, htotal, hindex]

/-! ## Remote servers with two items -/

def twoEstimated : WsXmlNode :=
  wsXmlCreateEnvelope [.elem xmlNsWsMan wsmTotalEstimate [.text "2"]]
    [.elem xmlNsEnumeration wsenumEnumerateResp
      [.elem xmlNsEnumeration wsenumEnumerationContext [.text "remote"]]]

def pulledItems (before items after : List WsXmlNode) : RemoteReply :=
  .received (some (wsXmlCreateEnvelope [] [.elem xmlNsEnumeration wsenumPullResp
    (before ++ .elem xmlNsEnumeration wsenumItems items :: after)]))

def twoInfo : RedirectInfo where
  enumId := "remote"
  totalItems := 2
  eprTo := "to"
  eprUri := "uri"
  encoding := "UTF-8"

theorem redirectEnumerate_twoEstimated : ∃ answer,
    redirectEnumerate (fun _ ↦ {}) (fun _ ↦ none)
      ⟨requestDoc (.elem xmlNsEnumeration wsenumEnumerate []), ⟨"UTF-8", {}⟩, none, 0, 0⟩ "1" 0
      (.received (some twoEstimated)) = .value (answer, some twoInfo) :=
  ⟨_, rfl⟩

/-- A remote server with one item in each response and no context of its own. -/
theorem redirectCorrect_one_each :
    RedirectCorrect (fun _ ↦ {}) twoInfo
      [(pullRequestDoc "remote", pulledItems [] [.text "a"] []),
        (pullRequestDoc "remote", pulledItems [] [.text "b"]
          [.elem xmlNsEnumeration wsenumEndOfSequence []])] := by
  obtain ⟨answer, hstored⟩ := redirectEnumerate_twoEstimated
  rw [redirectCorrect_iff hstored, map_cons, map_cons, map_nil, counted_cons, counted_cons]
  refine ⟨by decide, fun _ ↦ ⟨by decide, ?_⟩⟩
  intro h
  exact absurd h (by decide)

/-- A remote server that sends both items at once and ends the sequence, and one that sends its
context with the first item. The context stays in the first case, and there are two in the response
in the second. -/
theorem not_redirectCorrect_two_items :
    (∃ answer, redirectEnumerate (fun _ ↦ {}) (fun _ ↦ none)
      ⟨requestDoc (.elem xmlNsEnumeration wsenumEnumerate []), ⟨"UTF-8", {}⟩, none, 0, 0⟩ "1" 0
      (.received (some twoEstimated)) = .value (answer, some twoInfo)) ∧
    ¬RedirectCorrect (fun _ ↦ {}) twoInfo
      [(pullRequestDoc "remote", pulledItems [] [.text "a", .text "b"]
        [.elem xmlNsEnumeration wsenumEndOfSequence []])] ∧
    ¬RedirectCorrect (fun _ ↦ {}) twoInfo
      [(pullRequestDoc "remote", pulledItems
        [.elem xmlNsEnumeration wsenumEnumerationContext [.text "remote"]] [.text "a"] [])] := by
  refine ⟨redirectEnumerate_twoEstimated, fun h ↦ ?_, fun h ↦ ?_⟩
  · have hfirst := h 0 _ _ rfl rfl
    cases hfirst.removed.mpr rfl
  · have hfirst := h 0 _ _ rfl rfl
    cases hfirst.context rfl _ rfl

end Openwsman
