import Openwsman.Dispatcher.Routing
import Openwsman.Enumeration.Info

/-!
# The release procedure of an enumeration

A context that expires is removed by the timeout manager, without a request. What has to be called
then is found when the context is created: `create_enum_info` stores the function that
`wsman_get_release_endpoint` finds for the resource URI of the Enumerate. That search repeats the
one of `wsman_dispatcher` with loops of its own: it takes a request without a URI, it has no use for
an endpoint without an action, and it needs no dispatch entry.

An endpoint is an address here as in the routing of requests. Its function, of a type `φ`, is found
at the address as its record is.
-/

namespace Openwsman

open Option List Search

def enumActionRelease : String := "http://schemas.xmlsoap.org/ws/2004/09/enumeration/Release"

variable {ρ φ χ ι δ : Type} (mem : ρ → WsDispatchEndPointInfo) (serviceEndPoint : ρ → φ)

/-! ## The search -/

/-- The loop over the interfaces in `wsman_get_release_endpoint`: the interface, and the namespace
that made it match. The two tests stand one after the other, and both fail without a URI. -/
def releaseInterface (uri : Option String) :
    List (WsDispatchInterfaceInfo ρ) → Option (WsDispatchInterfaceInfo ρ × Option String)
  | [] => none
  | ifc :: rest =>
    match (if ifc.wsmanResourceUri.isNone then uri.bind (wsmanDispatcherMatchNs ifc) else none) with
    | some ns => some (ifc, some ns)
    | none =>
      if uri.isSome && ifc.wsmanResourceUri.isSome && uri == ifc.wsmanResourceUri then
        some (ifc, none)
      else releaseInterface uri rest

def wsmanGetReleaseEndpoint (interfaces : List (WsDispatchInterfaceInfo ρ)) (doc : WsXmlNode) :
    Option φ :=
  (releaseInterface (wsmanGetResourceUri doc) interfaces).bind fun (r, ns) ↦
    (r.endPoints.find? fun ep ↦
      (mem ep).inAction == some (stripNamespace ns enumActionRelease)).map serviceEndPoint

structure EnumContext (φ χ ι : Type) where
  info : WsEnumerateInfo χ ι
  releaseproc : Option φ

def createEnumContext (interfaces : List (WsDispatchInterfaceInfo ρ))
    (datetime : String → Option ℤ) (op : SoapOp δ) (id : String) (now : ℕ) :
    CResult (Except WsmanStatus (EnumContext φ χ ι)) :=
  (createEnumInfo datetime op id now).bind fun created ↦
    .value (created.map fun info ↦
      ⟨info, wsmanGetReleaseEndpoint mem serviceEndPoint interfaces op.inDoc⟩)

variable {interfaces : List (WsDispatchInterfaceInfo ρ)}

theorem createEnumContext_ok
    {datetime : String → Option ℤ} {op : SoapOp δ} {id : String} {now : ℕ}
    {context : EnumContext φ χ ι}
    (h : createEnumContext mem serviceEndPoint interfaces datetime op id now =
      .value (.ok context)) :
    (∃ uri, wsmanGetResourceUri op.inDoc = some uri) ∧
      context.releaseproc = wsmanGetReleaseEndpoint mem serviceEndPoint interfaces op.inDoc := by
  obtain ⟨created, hcreated, hcontext⟩ := CResult.bind_eq_value.mp h
  rw [CResult.value.injEq] at hcontext
  cases created with
  | error status => cases hcontext
  | ok info =>
    obtain rfl := Except.ok.inj hcontext
    obtain ⟨dest, uri, auth, expires, maxsize, -, huri, -⟩ := createEnumInfo_eq_ok datetime hcreated
    exact ⟨⟨uri, huri⟩, rfl⟩

/-! ## The two searches agree -/

theorem releaseInterface_some (uri : String) (interfaces : List (WsDispatchInterfaceInfo ρ)) :
    releaseInterface (some uri) interfaces =
      interfaces.findSome? fun ifc ↦ (interfaceMatch uri ifc).map fun ns ↦ (ifc, ns) := by
  induction interfaces with
  | nil => rfl
  | cons ifc rest ih =>
    rw [releaseInterface, findSome?_cons, interfaceMatch, ← ih]
    cases hown : ifc.wsmanResourceUri with
    | none =>
      cases hns : wsmanDispatcherMatchNs ifc uri <;> simp [hns]
    | some own =>
      by_cases heq : uri = own <;> simp [heq]

variable {uri : String}

theorem releaseInterface_eq_some_iff {ifc : WsDispatchInterfaceInfo ρ} {ns : Option String} :
    releaseInterface (some uri) interfaces = some (ifc, ns) ↔
      IsFirst (Serves uri) interfaces ifc ∧ ns = matchedNamespace uri ifc := by
  rw [releaseInterface_some, findSome?_eq_some_iff_isFirst]
  simp only [isSome_map, interfaceMatch_isSome_iff, map_eq_some_iff, Prod.mk.injEq]
  constructor
  · rintro ⟨_, hfirst, m, hm, rfl, rfl⟩
    exact ⟨hfirst, interfaceMatch_eq_some hm⟩
  rintro ⟨hfirst, rfl⟩
  obtain ⟨m, hm⟩ := isSome_iff_exists.mp ((interfaceMatch_isSome_iff uri ifc).mpr hfirst.holds)
  exact ⟨ifc, hfirst, m, hm, rfl, interfaceMatch_eq_some hm⟩

def DeclaresAction (interfaces : List (WsDispatchInterfaceInfo ρ)) (uri action : String) (ep : ρ) :
    Prop :=
  ∃ ifc, IsFirst (Serves uri) interfaces ifc ∧ ep ∈ ifc.endPoints ∧
    (mem ep).inAction = some (stripNamespace (matchedNamespace uri ifc) action)

variable {doc : WsXmlNode}

theorem wsmanGetReleaseEndpoint_eq_some_iff (huri : wsmanGetResourceUri doc = some uri) {f : φ} :
    wsmanGetReleaseEndpoint mem serviceEndPoint interfaces doc = some f ↔
      ∃ ifc ep, IsFirst (Serves uri) interfaces ifc ∧
        IsFirst
          (fun e ↦ (mem e).inAction =
            some (stripNamespace (matchedNamespace uri ifc) enumActionRelease)) ifc.endPoints ep ∧
        serviceEndPoint ep = f := by
  rw [wsmanGetReleaseEndpoint, huri, bind_eq_some_iff]
  simp only [map_eq_some_iff, find?_eq_some_iff_isFirst, beq_iff_eq]
  constructor
  · rintro ⟨⟨ifc, ns⟩, hifc, ep, hep, rfl⟩
    obtain ⟨hfirst, rfl⟩ := releaseInterface_eq_some_iff.mp hifc
    exact ⟨ifc, ep, hfirst, hep, rfl⟩
  · rintro ⟨ifc, ep, hfirst, hep, rfl⟩
    exact ⟨(ifc, matchedNamespace uri ifc), releaseInterface_eq_some_iff.mpr ⟨hfirst, rfl⟩, ep, hep,
      rfl⟩

theorem wsmanGetReleaseEndpoint_eq_none_iff (huri : wsmanGetResourceUri doc = some uri) :
    wsmanGetReleaseEndpoint mem serviceEndPoint interfaces doc = none ↔
      ∀ ep, ¬DeclaresAction mem interfaces uri enumActionRelease ep := by
  rw [wsmanGetReleaseEndpoint, huri]
  constructor
  · rintro hnone ep ⟨ifc, hfirst, hmem, haction⟩
    rw [releaseInterface_eq_some_iff.mpr ⟨hfirst, rfl⟩, bind_some, map_eq_none_iff,
      find?_eq_none] at hnone
    exact hnone ep hmem (beq_iff_eq.mpr haction)
  · intro hnone
    rw [bind_eq_none_iff]
    rintro ⟨ifc, ns⟩ hifc
    obtain ⟨hfirst, rfl⟩ := releaseInterface_eq_some_iff.mp hifc
    rw [map_eq_none_iff, find?_eq_none]
    intro ep hmem haction
    exact hnone ep ⟨ifc, hfirst, hmem, beq_iff_eq.mp haction⟩

theorem exists_dispatchFor
    {dispatcher : Option (WsManDispatcherInfo ρ)}
    (hrt : wsCreateRuntime mem (some interfaces) = some dispatcher)
    {ifc : WsDispatchInterfaceInfo ρ} (hifc : ifc ∈ interfaces) {ep : ρ}
    (hep : ep ∈ ifc.endPoints) : ∃ disp, DispatchFor mem ep disp := by
  rw [wsCreateRuntime, map_eq_some_iff] at hrt
  obtain ⟨map, hreg, -⟩ := hrt
  obtain ⟨hsound, hkeys⟩ := registerInterfaces_spec mem hreg (by simp [MapSound])
  have hmem : ep ∈ map.map Prod.fst := by
    rw [hkeys, map_nil, nil_append, mem_flatMap]
    exact ⟨ifc, hifc, hep⟩
  obtain ⟨e, he, rfl⟩ := mem_map.mp hmem
  exact ⟨e.2, hsound e he⟩

theorem routedUri_release (haction : wsmanGetAction doc = some enumActionRelease)
    (subscriptionUri : String → Option String) :
    routedUri subscriptionUri doc = wsmanGetResourceUri doc := by
  have hevent : wsmanIsEventRelatedRequest doc = false := by
    rw [wsmanGetAction] at haction
    rw [wsmanIsEventRelatedRequest, haction]
    decide
  rw [routedUri, hevent, if_neg Bool.false_ne_true]

section Agreement

variable [DecidableEq ρ] {mem} {interfaces : List (WsDispatchInterfaceInfo ρ)}
  {dispatcher : Option (WsManDispatcherInfo ρ)}

theorem release_dispatched_iff (hrt : wsCreateRuntime mem (some interfaces) = some dispatcher)
    (subscriptionUri : String → Option String) {doc : WsXmlNode} {uri : String}
    (hid : wsmanIsIdentifyRequest doc = false)
    (haction : wsmanGetAction doc = some enumActionRelease)
    (huri : wsmanGetResourceUri doc = some uri) (ep : ρ) :
    (∃ disp, getDispatchEntry mem subscriptionUri dispatcher doc = some disp ∧
        disp.serviceData = ep ∧ DeclaresAction mem interfaces uri enumActionRelease ep) ↔
      ∃ ifc, IsFirst (Serves uri) interfaces ifc ∧
        IsFirst
          (fun e ↦ (mem e).inAction =
            some (stripNamespace (matchedNamespace uri ifc) enumActionRelease))
          ifc.endPoints ep := by
  have hroute := getDispatchEntry_eq_some_iff mem hrt hid
    ((routedUri_release haction subscriptionUri).trans huri) haction
  constructor
  · rintro ⟨disp, hdisp, rfl, ⟨_, _, _, hdeclared⟩⟩
    obtain ⟨ifc, ep, hfirst, hep, hentry⟩ := (hroute disp).mp hdisp
    rw [hentry.serviceData] at hdeclared ⊢
    rcases hep with hep | ⟨_, hlast⟩
    · exact ⟨ifc, hfirst, hep⟩
    -- the endpoint kept for actions that nobody declares has none itself
    obtain ⟨_, _, _, hnone, _⟩ := hlast
    rw [hnone] at hdeclared
    cases hdeclared
  · rintro ⟨ifc, hfirst, hep⟩
    obtain ⟨disp, hentry⟩ := exists_dispatchFor mem hrt hfirst.mem hep.mem
    exact ⟨disp, (hroute disp).mpr ⟨ifc, ep, hfirst, .inl hep, hentry⟩, hentry.serviceData, ifc,
      hfirst, hep.mem, hep.holds⟩

/-- **The release procedure.** The function stored with a new context is that of the endpoint to
which a Release with the resource URI of the Enumerate is dispatched by its action, and none is
stored exactly when no endpoint of the interface for the URI declares this action. -/
theorem releaseproc_eq_dispatched (hrt : wsCreateRuntime mem (some interfaces) = some dispatcher)
    {datetime : String → Option ℤ} {op : SoapOp δ} {id : String} {now : ℕ}
    {context : EnumContext φ χ ι}
    (hcontext : createEnumContext mem serviceEndPoint interfaces datetime op id now =
      .value (.ok context))
    (subscriptionUri : String → Option String) {release : WsXmlNode}
    (hid : wsmanIsIdentifyRequest release = false)
    (haction : wsmanGetAction release = some enumActionRelease)
    (hsame : wsmanGetResourceUri release = wsmanGetResourceUri op.inDoc) :
    ∃ uri, wsmanGetResourceUri op.inDoc = some uri ∧
      (∀ f, context.releaseproc = some f ↔
        ∃ disp, getDispatchEntry mem subscriptionUri dispatcher release = some disp ∧
          DeclaresAction mem interfaces uri enumActionRelease disp.serviceData ∧
          serviceEndPoint disp.serviceData = f) ∧
      (context.releaseproc = none ↔
        ∀ ep, ¬DeclaresAction mem interfaces uri enumActionRelease ep) := by
  obtain ⟨⟨uri, huri⟩, hproc⟩ := createEnumContext_ok mem serviceEndPoint hcontext
  refine ⟨uri, huri, ?_, ?_⟩
  · intro f
    have hdisp := release_dispatched_iff hrt subscriptionUri hid haction (hsame.trans huri)
    rw [hproc, wsmanGetReleaseEndpoint_eq_some_iff mem serviceEndPoint huri]
    constructor
    · rintro ⟨ifc, ep, hifc, hep, rfl⟩
      obtain ⟨disp, hentry, rfl, hdeclares⟩ := (hdisp ep).mpr ⟨ifc, hifc, hep⟩
      exact ⟨disp, hentry, hdeclares, rfl⟩
    · rintro ⟨disp, hentry, hdeclares, rfl⟩
      obtain ⟨ifc, hifc, hep⟩ := (hdisp _).mp ⟨disp, hentry, rfl, hdeclares⟩
      exact ⟨ifc, disp.serviceData, hifc, hep, rfl⟩
  · rw [hproc]
    exact wsmanGetReleaseEndpoint_eq_none_iff mem serviceEndPoint huri

def classRequestDoc (action : String) : WsXmlNode :=
  wsXmlCreateEnvelope
    [.elem xmlNsAddressing wsaTo [.text "http://host:5985/wsman"],
      .elem xmlNsAddressing wsaAction [.text action],
      .elem xmlNsWsMan wsmResourceUri [.text "http://schema.openwsman.org/wbem/Linux"]] []

def classEndPoints : Bool → WsDispatchEndPointInfo
  | true => ⟨wsDispTypeRelease, some enumActionRelease⟩
  | false => ⟨wsDispTypeRawDoc, none⟩

def classInterface : WsDispatchInterfaceInfo Bool where
  namespaces := some [none, some "http://schema.openwsman.org"]
  endPoints := [false, true]

def classOp : SoapOp Unit where
  inDoc := classRequestDoc (xmlNsEnumeration ++ "/Enumerate")
  msg := {}

theorem releaseproc_eq_dispatched_class :
    ∃ (dispatcher : Option (WsManDispatcherInfo Bool)) (context : EnumContext Bool Unit Unit),
      wsCreateRuntime classEndPoints (some [classInterface]) = some dispatcher ∧
      createEnumContext classEndPoints not [classInterface] (fun _ ↦ none) classOp "1" 0 =
        .value (.ok context) ∧
      ∃ disp, getDispatchEntry classEndPoints (fun _ ↦ none) dispatcher
          (classRequestDoc enumActionRelease) = some disp ∧
        context.releaseproc = some (!disp.serviceData) := by
  refine ⟨_, _, rfl, rfl, ?_⟩
  have hcontext : createEnumContext (χ := Unit) (ι := Unit) classEndPoints not [classInterface]
      (fun _ ↦ none) classOp "1" 0 = .value (.ok _) := rfl
  have haction : wsmanGetAction (classRequestDoc enumActionRelease) = some enumActionRelease := rfl
  obtain ⟨uri, -, hsome, -⟩ :=
    releaseproc_eq_dispatched not rfl hcontext (fun _ ↦ none) rfl haction rfl
  obtain ⟨disp, hdisp, -, hproc⟩ := (hsome false).mp rfl
  refine ⟨disp, hdisp, ?_⟩
  rw [hproc]
  rfl

end Agreement

end Openwsman
