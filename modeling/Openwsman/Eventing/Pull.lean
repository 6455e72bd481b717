import Openwsman.Client.Enumeration
import Openwsman.Eventing.Pool
import Openwsman.Eventing.Subscription

/-!
# Pulling events

The branch of `wsenum_pull_direct_stub` for a Pull whose context is that of a subscription. It is
taken when `get_locked_enuminfo` has found no enumeration with the context.

The client states how many events it wants in the Pull element of the body. The stub looks for the
number in the header, does not find it, and answers with one event.
-/

namespace Openwsman

open List WsXmlNode

structure WsNotificationInfo where
  eventAction : String
  eventContent : WsXmlNode

/-! ## The stub -/

def searchPullSubs (subs : List WsSubscribeInfo) (uuid : String) :
    CResult (Option WsSubscribeInfo) :=
  if subs.isEmpty then .value none
  else (behindScheme uuid).bind fun id ↦ .value (subs.find? fun info ↦ info.subsId == id)

def searchPullSubsInfo (subs : List WsSubscribeInfo) (doc : WsXmlNode) :
    CResult (Option WsSubscribeInfo) :=
  match wsXmlGetNodeText (wsXmlFirstChild
      (wsXmlFirstChild (wsXmlGetSoapBody doc) xmlNsEnumeration wsenumPull) xmlNsEnumeration
      wsenumEnumerationContext) with
  | none => .value none
  | some uuid => searchPullSubs subs uuid

structure EventPullResponse where
  subsId : String
  total : Bool
  items : Bool
  events : List WsNotificationInfo

def EventPullResponse.doc (lx : Libxml) (r : EventPullResponse) : WsXmlNode :=
  let nodes := r.events.map fun e ↦ lx.duplicateTree e.eventContent
  wsXmlCreateEnvelope
    ((if r.total then [.element (some xmlNsWsMan) wsmTotalEstimate
        [⟨some xmlNsSchemaInstance, xmlSchemaNil, "true"⟩] []] else []) ++
      r.events.map fun e ↦ lx.child xmlNsAddressing wsaAction (some e.eventAction))
    [.elem xmlNsEnumeration wsenumPullResp
      (lx.child xmlNsEnumeration wsenumEnumerationContext (some ("uuid:" ++ r.subsId)) ::
        if r.items then [.elem xmlNsEnumeration wsenumItems nodes] else nodes)]

def headerMaxElements (doc : WsXmlNode) : ℤ :=
  match wsXmlFirstChild (wsXmlGetSoapHeader doc) xmlNsEnumeration wsenumMaxElements with
  | none => 1
  | some node => atoi node.chars

def pullNotifications (status : WsmanStatus) (doc : WsXmlNode) (subsInfo : WsSubscribeInfo)
    (pool : EventPool WsNotificationInfo) :
    Except WsmanStatus EventPullResponse × EventPool WsNotificationInfo :=
  let count := memEventPoolCount pool subsInfo.subsId
  if count = 0 then (.error { status with faultCode := .wsmanTimedOut }, pool)
  else
    let maxElements := headerMaxElements doc
    let (events, pool) := takeEvents pool subsInfo.subsId maxElements.toNat
    (.ok
      { subsId := subsInfo.subsId
        total := (wsXmlFirstChild (wsXmlGetSoapHeader doc) xmlNsWsMan wsmRequestTotal).isSome
        items := decide (1 < maxElements) && decide (1 < count)
        events := events }, pool)

/-- `wsenum_pull_direct_stub` for a context that no enumeration has. The status is what
`get_locked_enuminfo` has left. -/
def wsenumPullDirectEvents (status : WsmanStatus) (subs : List WsSubscribeInfo)
    (pool : EventPool WsNotificationInfo) (doc : WsXmlNode) :
    CResult (Except WsmanStatus EventPullResponse × EventPool WsNotificationInfo) :=
  (searchPullSubsInfo subs doc).bind fun
    | none => .value (.error status, pool)
    | some subsInfo => .value (pullNotifications status doc subsInfo pool)

/-! ## What a Pull takes -/

def pulledEvents : Except WsmanStatus EventPullResponse → List WsNotificationInfo
  | .error _ => []
  | .ok r => r.events

def TakesOldest (n : ℕ) (subsId : String) (pool : EventPool WsNotificationInfo)
    (result : Except WsmanStatus EventPullResponse × EventPool WsNotificationInfo) : Prop :=
  pulledEvents result.1 = (queued pool subsId).take n ∧
    poolQueue result.2 =
      Function.update (poolQueue pool) (foldCase subsId) ((queued pool subsId).drop n)

theorem takesOldest_pullNotifications (status : WsmanStatus) (doc : WsXmlNode)
    (subsInfo : WsSubscribeInfo) (pool : EventPool WsNotificationInfo) :
    TakesOldest (headerMaxElements doc).toNat subsInfo.subsId pool
      (pullNotifications status doc subsInfo pool) := by
  rw [pullNotifications]
  by_cases hcount : memEventPoolCount pool subsInfo.subsId = 0
  · have hempty := length_eq_zero_iff.mp hcount
    rw [if_pos hcount, TakesOldest, hempty, take_nil, drop_nil]
    refine ⟨rfl, ?_⟩
    rw [← hempty, queued_eq_poolQueue, Function.update_eq_self]
  · rw [if_neg hcount]
    exact ⟨takeEvents_fst pool _ _, poolQueue_takeEvents pool _ _⟩

/-- Two limits take the same events if they are the same or too large to matter. -/
theorem takesOldest_iff {m n : ℕ} {subsId : String} {pool : EventPool WsNotificationInfo}
    {result : Except WsmanStatus EventPullResponse × EventPool WsNotificationInfo}
    (h : TakesOldest m subsId pool result) :
    TakesOldest n subsId pool result ↔
      min n (queued pool subsId).length = min m (queued pool subsId).length := by
  constructor
  · rintro ⟨hevents, -⟩
    have hlength := congrArg length (hevents.symm.trans h.1)
    rwa [length_take, length_take] at hlength
  · intro hmin
    have htake : (queued pool subsId).take n = (queued pool subsId).take m := by
      rw [take_eq_take_min, hmin, ← take_eq_take_min]
    have hdrop : (queued pool subsId).drop n = (queued pool subsId).drop m := by
      rw [drop_eq_drop_min, hmin, ← drop_eq_drop_min]
    exact ⟨htake ▸ h.1, hdrop ▸ h.2⟩

/-! ## The Pull of the client -/

theorem headerMaxElements_pullRequest (lx : Libxml) (flags : EnumerationFlags) (maxElements : ℕ)
    {header : List WsXmlNode} (hheader : AllNamed requestNames header) (context : Option String) :
    headerMaxElements (pullRequest lx flags maxElements header context) = 1 := by
  have hestimate : ∀ n ∈ estimateHeader lx flags,
      n.isNamed xmlNsEnumeration wsenumMaxElements = false := by
    intro n hn
    rw [estimateHeader] at hn
    split at hn
    · rw [mem_singleton.mp hn]
      exact lx.isNamed_child_of_ne (by decide) _
    · cases hn
  have hown := hheader.not_isNamed (show (xmlNsEnumeration, wsenumMaxElements) ∉ requestNames by
    decide)
  have hnone : wsXmlFirstChild
      (wsXmlGetSoapHeader (pullRequest lx flags maxElements header context))
      xmlNsEnumeration wsenumMaxElements = none := by
    have hget : wsXmlGetSoapHeader (pullRequest lx flags maxElements header context) =
        some (.elem xmlNsSoap12 soapHeader (header ++ estimateHeader lx flags)) := rfl
    rw [hget, wsXmlFirstChild_eq_find?, content_elem]
    refine find?_eq_none.mpr fun n hn ↦ ?_
    rcases mem_append.mp hn with hn | hn
    · simp [hown n hn]
    · simp [hestimate n hn]
  rw [headerMaxElements, hnone]

theorem searchPullSubsInfo_pullRequest (lx : Libxml) (flags : EnumerationFlags) (maxElements : ℕ)
    (header : List WsXmlNode) {subs : List WsSubscribeInfo} {sub : WsSubscribeInfo}
    (hsub : sub ∈ subs) (hid : lx.kept ("uuid:" ++ sub.subsId) = "uuid:" ++ sub.subsId) :
    ∃ found, found.subsId = sub.subsId ∧ searchPullSubsInfo subs
      (pullRequest lx flags maxElements header (some ("uuid:" ++ sub.subsId))) =
        .value (some found) := by
  have hcontext : wsXmlGetNodeText (wsXmlFirstChild (wsXmlFirstChild (wsXmlGetSoapBody
      (pullRequest lx flags maxElements header (some ("uuid:" ++ sub.subsId)))) xmlNsEnumeration
      wsenumPull) xmlNsEnumeration wsenumEnumerationContext) = some ("uuid:" ++ sub.subsId) := by
    have hfirst : wsXmlFirstChild (wsXmlFirstChild (wsXmlGetSoapBody
        (pullRequest lx flags maxElements header (some ("uuid:" ++ sub.subsId)))) xmlNsEnumeration
        wsenumPull) xmlNsEnumeration wsenumEnumerationContext =
          some (lx.child xmlNsEnumeration wsenumEnumerationContext
            (some ("uuid:" ++ sub.subsId))) := rfl
    rw [hfirst]
    exact congrArg some ((lx.chars_child _ _ _).trans hid)
  have hne : subs.isEmpty = false := by
    rw [isEmpty_eq_false_iff]
    exact ne_nil_of_mem hsub
  have hfind : (subs.find? fun info ↦ info.subsId == sub.subsId).isSome = true :=
    find?_isSome.mpr ⟨sub, hsub, beq_self_eq_true _⟩
  obtain ⟨found, hfound⟩ := Option.isSome_iff_exists.mp hfind
  have hsame := find?_some hfound
  refine ⟨found, beq_iff_eq.mp hsame, ?_⟩
  rw [searchPullSubsInfo, hcontext]
  dsimp only
  rw [searchPullSubs, hne, if_neg (by decide), behindScheme_uuid, CResult.value_bind, hfound]

/-- **When a Pull takes what the client asked for**: it asks for one event, or there is no more than
one. libxml2 keeps the context, so that the Pull is one for the subscription. -/
theorem takesOldest_pullRequest_iff (lx : Libxml)
    (action replyTo resourceUri toUri : Option String) (uuid : String) (options : HeaderOptions)
    (header : List WsXmlNode)
    (hheader : wsmcBuildEnvelope lx action replyTo resourceUri toUri uuid options =
      .value (wsXmlCreateEnvelope header []))
    (requestOptions : RequestOptions) (flags : EnumerationFlags) (maxElements : ℕ)
    (status : WsmanStatus) (subs : List WsSubscribeInfo) (sub : WsSubscribeInfo) (hsub : sub ∈ subs)
    (hid : lx.kept ("uuid:" ++ sub.subsId) = "uuid:" ++ sub.subsId)
    (pool : EventPool WsNotificationInfo) :
    ∃ result, wsenumPullDirectEvents status subs pool (pullRequest lx flags maxElements
        (header ++ optionSet lx requestOptions) (some ("uuid:" ++ sub.subsId))) = .value result ∧
      (TakesOldest (if maxElements = 0 then 1 else maxElements) sub.subsId pool result ↔
        maxElements ≤ 1 ∨ (queued pool sub.subsId).length ≤ 1) := by
  have hnamed := (allNamed_of_wsmcBuildEnvelope hheader).append
    (allNamed_optionSet lx requestOptions)
  obtain ⟨found, hsame, hfound⟩ := searchPullSubsInfo_pullRequest lx flags maxElements
    (header ++ optionSet lx requestOptions) hsub hid
  refine ⟨_, by rw [wsenumPullDirectEvents, hfound, CResult.value_bind], ?_⟩
  have htakes := takesOldest_pullNotifications status (pullRequest lx flags maxElements
    (header ++ optionSet lx requestOptions) (some ("uuid:" ++ sub.subsId))) found pool
  rw [headerMaxElements_pullRequest lx flags maxElements hnamed, hsame] at htakes
  rw [takesOldest_iff htakes]
  split
  · omega
  · rw [Int.toNat_one]
    omega

def pulledSubscription : WsSubscribeInfo where
  subsId := "6"
  soapNs := xmlNsSoap12
  uri := "http://schema/Link"
  eprNotifyto := none
  expires := 0
  deliveryMode := .pull

def twoEvents : EventPool WsNotificationInfo :=
  let event (name : String) : WsNotificationInfo := ⟨"http://schema/Changed", .elem "" name []⟩
  memEventPoolAddEvent (memEventPoolAddEvent .empty "6" (event "Up")) "6" (event "Down")

theorem takesOldest_pullRequest_one :
    ∃ header result, wsenumPullDirectEvents {} [pulledSubscription] twoEvents
        (pullRequest keepsText {} 1 header (some "uuid:6")) = .value result ∧
      TakesOldest 1 "6" twoEvents result := by
  obtain ⟨result, hresult, hiff⟩ := takesOldest_pullRequest_iff keepsText none none none none
    "uuid:1" {} _ rfl {} {} 1 {} [pulledSubscription] pulledSubscription mem_cons_self
    (by decide) twoEvents
  exact ⟨_, result, hresult, hiff.mpr (.inl le_rfl)⟩

/-- Two events wait and two are asked for; only the first is answered. -/
theorem pullRequest_two :
    ∃ header result, wsmcBuildEnvelope keepsText none none none none "uuid:1" {} =
        .value (wsXmlCreateEnvelope header []) ∧
      wsenumPullDirectEvents {} [pulledSubscription] twoEvents
        (pullRequest keepsText {} 2 header (some "uuid:6")) = .value result ∧
      (queued twoEvents "6").length = 2 ∧ (pulledEvents result.1).length = 1 ∧
      ¬ TakesOldest 2 "6" twoEvents result := by
  refine ⟨_, _, rfl, rfl, rfl, rfl, fun h ↦ ?_⟩
  exact absurd (congrArg length h.1) (by decide)

end Openwsman
