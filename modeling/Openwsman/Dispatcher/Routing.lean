import Openwsman.Lib.Search
import Openwsman.Soap.Envelope

/-!
# Registration and routing

`ws_create_runtime` registers the endpoints of all interfaces: each of them gets a dispatch entry,
with the callback that its type asks for, and a map leads from the endpoint to its entry. For a
request `wsman_dispatcher` searches three times: for the interface that serves the resource URI, for
the endpoint of that interface with the action, and for the entry of the endpoint in the map.

The map compares addresses. So an endpoint is an address of a type `ρ` here, with the record found
at it in `mem`, and two interfaces may share one. The array of an interface ends at the first record
without a function; the list has the addresses before it. The server is built with eventing support.
How a request about a subscription finds the resource URI of the subscription is a parameter, on the
text of its `wse:Identifier`.
-/

namespace Openwsman

open Option List Search

/-! ## Dispatch types -/

def wsDispTypeMask : ℕ := 0xffff
def wsDispTypeRawDoc : ℕ := 0
def wsDispTypeGet : ℕ := 1
def wsDispTypePut : ℕ := 2
def wsDispTypeDelete : ℕ := 4
def wsDispTypeEnumerate : ℕ := 5
def wsDispTypePull : ℕ := 6
def wsDispTypeRelease : ℕ := 7
def wsDispTypeDirectPull : ℕ := 12
def wsDispTypeDirectGet : ℕ := 13
def wsDispTypeCustomMethod : ℕ := 15
def wsDispTypeDirectPut : ℕ := 16
def wsDispTypeIdentify : ℕ := 17
def wsDispTypeDirectCreate : ℕ := 18
def wsDispTypeDirectDelete : ℕ := 19
def wsDispTypeSubscribe : ℕ := 22
def wsDispTypeUnsubscribe : ℕ := 23
def wsDispTypeRenew : ℕ := 24
def wsDispTypePrivate : ℕ := 0xfffe

inductive SoapServiceCallback where
  | wsmanIdentifyStub | wsenumEnumerateStub | wsenumReleaseStub | wsTransferDeleteStub
  | wsenumPullStub | wsenumPullDirectStub | wsTransferGetStub | wsTransferPutStub
  | wseSubscribeStub | wseUnsubscribeStub | wseRenewStub
  | serviceEndPoint
  deriving DecidableEq, Repr

/-- The `switch` of `wsman_register_endpoint`. -/
def callbackProcs : List (ℕ × SoapServiceCallback) :=
  [(wsDispTypeIdentify, .wsmanIdentifyStub), (wsDispTypeEnumerate, .wsenumEnumerateStub),
    (wsDispTypeRelease, .wsenumReleaseStub), (wsDispTypeDelete, .wsTransferDeleteStub),
    (wsDispTypePull, .wsenumPullStub), (wsDispTypeDirectPull, .wsenumPullDirectStub),
    (wsDispTypeGet, .wsTransferGetStub), (wsDispTypeDirectGet, .serviceEndPoint),
    (wsDispTypeDirectDelete, .serviceEndPoint), (wsDispTypeDirectPut, .serviceEndPoint),
    (wsDispTypeDirectCreate, .serviceEndPoint), (wsDispTypePut, .wsTransferPutStub),
    (wsDispTypeSubscribe, .wseSubscribeStub), (wsDispTypeUnsubscribe, .wseUnsubscribeStub),
    (wsDispTypeRenew, .wseRenewStub), (wsDispTypeRawDoc, .serviceEndPoint),
    (wsDispTypeCustomMethod, .serviceEndPoint), (wsDispTypePrivate, .serviceEndPoint)]

def callbackProc (flags : ℕ) : Option SoapServiceCallback :=
  callbackProcs.lookup (flags &&& wsDispTypeMask)

/-! ## Interfaces and endpoints -/

structure WsDispatchEndPointInfo where
  flags : ℕ
  inAction : Option String

structure WsDispatchInterfaceInfo (ρ : Type) where
  wsmanResourceUri : Option String := none
  namespaces : Option (List (Option String)) := none
  endPoints : List ρ

structure SoapDispatch (ρ : Type) where
  serviceCallback : SoapServiceCallback
  serviceData : ρ
  deriving DecidableEq

structure WsManDispatcherInfo (ρ : Type) where
  interfaces : List (WsDispatchInterfaceInfo ρ)
  map : List (ρ × SoapDispatch ρ)

variable {ρ : Type} (mem : ρ → WsDispatchEndPointInfo)

/-! ## Registration -/

def wsmanRegisterEndpoint (map : List (ρ × SoapDispatch ρ)) (ep : ρ) :
    Option (List (ρ × SoapDispatch ρ)) :=
  (callbackProc (mem ep).flags).map fun proc ↦ map ++ [(ep, ⟨proc, ep⟩)]

def wsmanRegisterInterface (map : List (ρ × SoapDispatch ρ)) (ifc : WsDispatchInterfaceInfo ρ) :
    Option (List (ρ × SoapDispatch ρ)) :=
  ifc.endPoints.foldlM (wsmanRegisterEndpoint mem) map

def wsCreateRuntime (interfaces : Option (List (WsDispatchInterfaceInfo ρ))) :
    Option (Option (WsManDispatcherInfo ρ)) :=
  match interfaces with
  | none => some none
  | some interfaces =>
    (interfaces.foldlM (wsmanRegisterInterface mem) []).map fun map ↦ some ⟨interfaces, map⟩

structure DispatchFor (ep : ρ) (disp : SoapDispatch ρ) : Prop where
  serviceData : disp.serviceData = ep
  serviceCallback : callbackProc (mem ep).flags = some disp.serviceCallback

variable {ep : ρ}

theorem DispatchFor.unique {disp disp' : SoapDispatch ρ} (h : DispatchFor mem ep disp)
    (h' : DispatchFor mem ep disp') : disp = disp' := by
  obtain ⟨proc, data⟩ := disp
  obtain ⟨proc', data'⟩ := disp'
  have hproc : proc = proc' :=
    some.inj (h.serviceCallback.symm.trans h'.serviceCallback)
  have hdata : data = data' := h.serviceData.trans h'.serviceData.symm
  rw [hproc, hdata]

def MapSound (map : List (ρ × SoapDispatch ρ)) : Prop := ∀ e ∈ map, DispatchFor mem e.1 e.2

variable {map : List (ρ × SoapDispatch ρ)}

variable {map' : List (ρ × SoapDispatch ρ)} {ifc : WsDispatchInterfaceInfo ρ}
  {subscriptionUri : String → Option String} {interfaces : List (WsDispatchInterfaceInfo ρ)}

theorem registerEndpoints_spec {eps : List ρ}
    (h : eps.foldlM (wsmanRegisterEndpoint mem) map = some map') (hmap : MapSound mem map) :
    MapSound mem map' ∧ map'.map Prod.fst = map.map Prod.fst ++ eps := by
  induction eps generalizing map with
  | nil =>
    obtain rfl : map = map' := some.inj h
    exact ⟨hmap, (append_nil _).symm⟩
  | cons ep eps ih =>
    rw [foldlM_cons, bind_eq_bind, bind_eq_some_iff] at h
    obtain ⟨map₁, hstep, hrest⟩ := h
    rw [wsmanRegisterEndpoint, map_eq_some_iff] at hstep
    obtain ⟨proc, hproc, rfl⟩ := hstep
    have hsound : MapSound mem (map ++ [(ep, ⟨proc, ep⟩)]) := by
      intro e he
      rcases mem_append.mp he with he | he
      · exact hmap e he
      · obtain rfl := mem_singleton.mp he
        exact ⟨rfl, hproc⟩
    obtain ⟨hmap', hkeys⟩ := ih hrest hsound
    refine ⟨hmap', ?_⟩
    rw [hkeys, map_append, map_cons, map_nil, append_assoc, singleton_append]

theorem registerInterfaces_spec {ifcs : List (WsDispatchInterfaceInfo ρ)}
    (h : ifcs.foldlM (wsmanRegisterInterface mem) map = some map') (hmap : MapSound mem map) :
    MapSound mem map' ∧
      map'.map Prod.fst = map.map Prod.fst ++ ifcs.flatMap WsDispatchInterfaceInfo.endPoints := by
  induction ifcs generalizing map with
  | nil =>
    obtain rfl : map = map' := some.inj h
    exact ⟨hmap, (append_nil _).symm⟩
  | cons ifc ifcs ih =>
    rw [foldlM_cons, bind_eq_bind, bind_eq_some_iff] at h
    obtain ⟨map₁, hstep, hrest⟩ := h
    obtain ⟨hmap₁, hkeys₁⟩ := registerEndpoints_spec mem hstep hmap
    obtain ⟨hmap', hkeys⟩ := ih hrest hmap₁
    exact ⟨hmap', by rw [hkeys, hkeys₁, flatMap_cons, append_assoc]⟩

/-! ## Routing -/

def wsmanDispatcherMatchNs (r : WsDispatchInterfaceInfo ρ) (uri : String) : Option String :=
  match r.namespaces with
  | none => none
  | some namespaces => namespaces.findSome? fun ns ↦ ns.filter (strstr uri)

def interfaceMatch (uri : String) (ifc : WsDispatchInterfaceInfo ρ) : Option (Option String) :=
  match ifc.wsmanResourceUri with
  | none => (wsmanDispatcherMatchNs ifc uri).map some
  | some own => if uri == own then some none else none

def stripNamespace (ns : Option String) (action : String) : String :=
  match ns with
  | none => action
  | some ns =>
    if (ns.toList ++ ['/']).isPrefixOf action.toList then
      String.ofList (action.toList.drop (ns.toList.length + 1))
    else action

def wsmanGetResourceUri (doc : WsXmlNode) : Option String :=
  wsXmlGetNodeText (wsXmlFirstChild (wsXmlGetSoapHeader doc) xmlNsWsMan wsmResourceUri)

def wsmanGetAction (doc : WsXmlNode) : Option String :=
  wsXmlGetNodeText (wsXmlFirstChild (wsXmlGetSoapHeader doc) xmlNsAddressing wsaAction)

def routedUri (subscriptionUri : String → Option String) (doc : WsXmlNode) : Option String :=
  if wsmanIsEventRelatedRequest doc then
    match wsXmlGetNodeText
        (wsXmlFirstChild (wsXmlGetSoapHeader doc) xmlNsEventing wseventIdentifier) with
    | none => wsmanGetResourceUri doc
    | some uuid => (subscriptionUri uuid).orElse fun _ ↦ wsmanGetResourceUri doc
  else wsmanGetResourceUri doc

def endPointFor (ifc : WsDispatchInterfaceInfo ρ) (action : String) : Option ρ :=
  firstOrLast (fun ep ↦ (mem ep).inAction == some action) (fun ep ↦ (mem ep).inAction.isNone) none
    ifc.endPoints

/-- An Identify goes to the first endpoint of the first interface with its namespace. -/
def routedEndPoint (subscriptionUri : String → Option String)
    (interfaces : List (WsDispatchInterfaceInfo ρ)) (doc : WsXmlNode) : Option ρ :=
  if wsmanIsIdentifyRequest doc then
    (interfaces.find? fun ifc ↦ (wsmanDispatcherMatchNs ifc xmlNsWsmanId).isSome).bind fun r ↦
      r.endPoints.head?
  else
    match routedUri subscriptionUri doc, wsmanGetAction doc with
    | some uri, some action =>
      (interfaces.findSome? fun ifc ↦ (interfaceMatch uri ifc).map fun ns ↦ (ifc, ns)).bind
        fun (r, ns) ↦ endPointFor mem r (stripNamespace ns action)
    | _, _ => none

def wsmanDispatcher [DecidableEq ρ] (subscriptionUri : String → Option String)
    (dispInfo : WsManDispatcherInfo ρ) (doc : WsXmlNode) : Option (SoapDispatch ρ) :=
  (routedEndPoint mem subscriptionUri dispInfo.interfaces doc).bind fun ep ↦
    dispInfo.map.lookup ep

def getDispatchEntry [DecidableEq ρ] (subscriptionUri : String → Option String)
    (dispatcher : Option (WsManDispatcherInfo ρ)) (doc : WsXmlNode) : Option (SoapDispatch ρ) :=
  dispatcher.bind fun dispInfo ↦ wsmanDispatcher mem subscriptionUri dispInfo doc

/-! ## Where a request goes -/

def Serves (uri : String) (ifc : WsDispatchInterfaceInfo ρ) : Prop :=
  ifc.wsmanResourceUri = some uri ∨
    (ifc.wsmanResourceUri = none ∧
      ∃ namespaces, ifc.namespaces = some namespaces ∧
        ∃ ns, some ns ∈ namespaces ∧ strstr uri ns = true)

def matchedNamespace (uri : String) (ifc : WsDispatchInterfaceInfo ρ) : Option String :=
  if ifc.wsmanResourceUri.isNone then wsmanDispatcherMatchNs ifc uri else none

def IsEndPointFor (ifc : WsDispatchInterfaceInfo ρ) (action : String) (ep : ρ) : Prop :=
  IsFirst (fun e ↦ (mem e).inAction = some action) ifc.endPoints ep ∨
    ((∀ e ∈ ifc.endPoints, (mem e).inAction ≠ some action) ∧
      IsLast (fun e ↦ (mem e).inAction = none) ifc.endPoints ep)

def RoutesTo (interfaces : List (WsDispatchInterfaceInfo ρ)) (uri action : String)
    (disp : SoapDispatch ρ) : Prop :=
  ∃ ifc ep, IsFirst (Serves uri) interfaces ifc ∧
    IsEndPointFor mem ifc (stripNamespace (matchedNamespace uri ifc) action) ep ∧
    DispatchFor mem ep disp

theorem wsmanDispatcherMatchNs_isSome_iff (ifc : WsDispatchInterfaceInfo ρ) (uri : String) :
    (wsmanDispatcherMatchNs ifc uri).isSome = true ↔
      ∃ namespaces, ifc.namespaces = some namespaces ∧
        ∃ ns, some ns ∈ namespaces ∧ strstr uri ns = true := by
  rw [wsmanDispatcherMatchNs]
  cases ifc.namespaces with
  | none => simp
  | some namespaces =>
    dsimp only
    rw [findSome?_isSome_iff]
    constructor
    · rintro ⟨ns, hmem, hsome⟩
      cases ns with
      | none => simp at hsome
      | some ns => exact ⟨namespaces, rfl, ns, hmem, by simpa using hsome⟩
    · rintro ⟨_, hnss, ns, hmem, hstr⟩
      cases hnss
      exact ⟨some ns, hmem, by simp [hstr]⟩

theorem interfaceMatch_isSome_iff (uri : String) (ifc : WsDispatchInterfaceInfo ρ) :
    (interfaceMatch uri ifc).isSome = true ↔ Serves uri ifc := by
  rw [interfaceMatch, Serves, ← wsmanDispatcherMatchNs_isSome_iff]
  cases ifc.wsmanResourceUri with
  | none => simp
  | some own =>
    simp [eq_comm (a := own)]

variable {uri : String}

theorem interfaceMatch_eq_some {ns : Option String}
    (h : interfaceMatch uri ifc = some ns) : ns = matchedNamespace uri ifc := by
  rw [interfaceMatch] at h
  rw [matchedNamespace]
  cases hown : ifc.wsmanResourceUri with
  | none =>
    rw [hown] at h
    obtain ⟨m, hm, rfl⟩ := map_eq_some_iff.mp h
    simp [hm]
  | some own =>
    rw [hown] at h
    dsimp only at h
    split at h
    · cases h
      rfl
    · cases h

theorem endPointFor_eq_some_iff (ifc : WsDispatchInterfaceInfo ρ) (action : String) (ep : ρ) :
    endPointFor mem ifc action = some ep ↔ IsEndPointFor mem ifc action ep := by
  rw [endPointFor, firstOrLast_eq_some_iff, IsEndPointFor]
  simp

variable {action : String}

theorem IsEndPointFor.mem_endPoints (h : IsEndPointFor mem ifc action ep) : ep ∈ ifc.endPoints := by
  rcases h with h | ⟨_, h⟩ <;> exact h.mem

theorem routedEndPoint_eq_some_iff {doc : WsXmlNode} (hid : wsmanIsIdentifyRequest doc = false)
    (huri : routedUri subscriptionUri doc = some uri) (haction : wsmanGetAction doc = some action)
    (ep : ρ) :
    routedEndPoint mem subscriptionUri interfaces doc = some ep ↔
      ∃ ifc, IsFirst (Serves uri) interfaces ifc ∧
        IsEndPointFor mem ifc (stripNamespace (matchedNamespace uri ifc) action) ep := by
  rw [routedEndPoint, hid, if_neg Bool.false_ne_true, huri, haction]
  simp only [bind_eq_some_iff, findSome?_eq_some_iff_isFirst, isSome_map,
    interfaceMatch_isSome_iff, map_eq_some_iff, endPointFor_eq_some_iff]
  constructor
  · rintro ⟨_, ⟨ifc, hfirst, ns, hns, rfl⟩, hep⟩
    rw [interfaceMatch_eq_some hns] at hep
    exact ⟨ifc, hfirst, hep⟩
  · rintro ⟨ifc, hfirst, hep⟩
    obtain ⟨ns, hns⟩ := isSome_iff_exists.mp ((interfaceMatch_isSome_iff uri ifc).mpr hfirst.holds)
    rw [← interfaceMatch_eq_some hns] at hep
    exact ⟨(ifc, ns), ⟨ifc, hfirst, ns, hns, rfl⟩, hep⟩

theorem lookup_eq_some_iff [DecidableEq ρ] (hmap : MapSound mem map) (hep : ep ∈ map.map Prod.fst)
    (disp : SoapDispatch ρ) : map.lookup ep = some disp ↔ DispatchFor mem ep disp := by
  obtain ⟨found, hfound⟩ : ∃ d, map.lookup ep = some d := by
    rw [← isSome_iff_exists, List.lookup_isSome_iff]
    obtain ⟨e, he, rfl⟩ := List.mem_map.mp hep
    exact ⟨e, he, beq_self_eq_true _⟩
  have hdisp : DispatchFor mem ep found := by
    obtain ⟨pre, post, heq, _⟩ := List.lookup_eq_some_iff.mp hfound
    exact hmap (ep, found) (by simp [heq])
  rw [hfound, some.injEq]
  constructor
  · rintro rfl
    exact hdisp
  · intro h
    exact hdisp.unique mem h

theorem getDispatchEntry_eq_some_iff [DecidableEq ρ] {dispatcher : Option (WsManDispatcherInfo ρ)}
    (hrt : wsCreateRuntime mem (some interfaces) = some dispatcher) {doc : WsXmlNode}
    (hid : wsmanIsIdentifyRequest doc = false) (huri : routedUri subscriptionUri doc = some uri)
    (haction : wsmanGetAction doc = some action) (disp : SoapDispatch ρ) :
    getDispatchEntry mem subscriptionUri dispatcher doc = some disp ↔
      RoutesTo mem interfaces uri action disp := by
  rw [wsCreateRuntime, map_eq_some_iff] at hrt
  obtain ⟨map, hreg, rfl⟩ := hrt
  obtain ⟨hsound, hkeys⟩ := registerInterfaces_spec mem hreg (by simp [MapSound])
  rw [getDispatchEntry, bind_some, wsmanDispatcher, bind_eq_some_iff, RoutesTo]
  -- the endpoint that was found is in the map, since all endpoints are
  have hentry : ∀ {ifc : WsDispatchInterfaceInfo ρ} {a : String} {ep : ρ},
      IsFirst (Serves uri) interfaces ifc → IsEndPointFor mem ifc a ep →
        (map.lookup ep = some disp ↔ DispatchFor mem ep disp) := by
    intro ifc a ep hfirst hep
    apply lookup_eq_some_iff mem hsound
    rw [hkeys, map_nil, nil_append, mem_flatMap]
    exact ⟨ifc, hfirst.mem, hep.mem_endPoints⟩
  constructor
  · rintro ⟨ep, hroute, hlookup⟩
    obtain ⟨ifc, hfirst, hep⟩ :=
      (routedEndPoint_eq_some_iff mem hid huri haction ep).mp hroute
    exact ⟨ifc, ep, hfirst, hep, (hentry hfirst hep).mp hlookup⟩
  · rintro ⟨ifc, ep, hfirst, hep, hdisp⟩
    exact ⟨ep, (routedEndPoint_eq_some_iff mem hid huri haction ep).mpr ⟨ifc, hfirst, hep⟩,
      (hentry hfirst hep).mpr hdisp⟩

end Openwsman
