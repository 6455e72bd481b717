import Openwsman.Cim.Service
import Openwsman.Enumeration.Timeouts

/-!
# The calls of the CIM plugin to the CIMOM

An Enumerate of the CIM plugin connects a client to the CIMOM and gets a set of results from it.
Both are kept with the context, and they have to be given back once: by the Enumerate itself if it
is an optimized one that delivers everything, by the Pull that delivers the last results, by a
Release, or by the timeout manager.

The server of the plugin is run with a log of the calls about them. No function reads the log, and
`forgetLog` says that the server with it is the one without.
-/

namespace Openwsman

open CResult Search Transition

variable {κ : Type}

/-! ## The calls of the endpoints -/

inductive CimHeld where
  | client
  | results
  deriving DecidableEq, Repr

inductive LoggedCall where
  | acquire (r : CimHeld)
  | use (r : CimHeld)
  | release (r : CimHeld)
  | destroyEnuminfo
  deriving DecidableEq, Repr

def cimReleaseEnumContext (info : CimInfo κ) : List LoggedCall :=
  if info.appEnumContext.isSome then [.release .results] else []

def cimGetclientFromEnumContext (info : CimInfo κ) : Option CimClientInfo :=
  info.appEnumContext.map CimContext.client

def cimResourceDestroy (cimclient : Option CimClientInfo) : List LoggedCall :=
  if cimclient.isSome then [.release .client] else []

/-- The test for the end of a sequence in the endpoints, where the cursor is one too low. -/
def endsSequence (info : CimInfo κ) : Bool :=
  info.totalItems == 0 || info.index + 1 == info.totalItems

def collectCalls : List LoggedCall := [.use .client, .use .results]

def pullCleanupCalls (cimclient : Option CimClientInfo) (info : CimInfo κ) : List LoggedCall :=
  if endsSequence info then cimReleaseEnumContext info ++ cimResourceDestroy cimclient else []

def cimResourcePullCalls (dump : String → CimDoc κ → ℕ) (view : CimView κ) (doc : WsXmlNode)
    (info : CimInfo κ) : List LoggedCall :=
  match info.appEnumContext with
  | none => pullCleanupCalls none info
  | some ctx =>
    .use .client ::
      if !verifyClassNamespace ctx.client then pullCleanupCalls (some ctx.client) info
      else
        collectCalls ++ pullCleanupCalls (some ctx.client)
          (cimGetEnumItems dump view ctx (wsmanGetFragmentString doc) info (responseHeader doc)
            wsenumPullResp xmlNsEnumeration (pullLimits doc))

def cimResourceReleaseCalls (info : CimInfo κ) : List LoggedCall :=
  if info.flags.cimContextCleanup then []
  else cimReleaseEnumContext info ++ cimResourceDestroy (cimGetclientFromEnumContext info)

def startedCalls (dump : String → CimDoc κ → ℕ) (view : CimView κ) (doc : WsXmlNode)
    (info : CimInfo κ) : List LoggedCall :=
  if info.flags.opt then
    collectCalls ++
      if endsSequence (optimizedItems dump view doc info) then
        cimReleaseEnumContext (optimizedItems dump view doc info) ++ [.release .client]
      else []
  else []

def cimResourceEnumerateCalls (dump : String → CimDoc κ → ℕ) (view : CimView κ) (cimom : Cimom κ)
    (cfg : CimConfig) (doc : WsXmlNode) (info : CimInfo κ) : List LoggedCall :=
  if !cimom.connects info.authData then []
  else
    .acquire .client ::
      match cimStartEnumeration cimom cfg doc info with
      | .undefined => []
      | .value (.error _) => [.release .client]
      | .value (.ok info) => .acquire .results :: startedCalls dump view doc info

/-! ## The calls of the stubs -/

abbrev CimLog := List (String × LoggedCall)

def callsAbout (id : String) (calls : List LoggedCall) : CimLog := calls.map (id, ·)

theorem fst_of_mem_callsAbout {id : String} {calls : List LoggedCall} {e : String × LoggedCall}
    (h : e ∈ callsAbout id calls) : e.1 = id := by
  obtain ⟨c, _, rfl⟩ := List.mem_map.mp h
  rfl

abbrev CimStubCalls (κ : Type) := CimTable κ → SoapOp (EnumResponse (CimItem κ)) → CimLog

def endCalls : Verdict → List LoggedCall
  | .unlock => []
  | .remove => [.destroyEnuminfo]

def lockedStubCalls (action : String)
    (run : WsXmlNode → CimInfo κ → StubEnd (CimContext κ) (CimItem κ))
    (calls : WsXmlNode → CimInfo κ → List LoggedCall) : CimStubCalls κ :=
  fun t op ↦
    match getLockedEnuminfo t op.inDoc op.msg.authData action with
    | .value (.ok (_, info)) =>
      callsAbout info.enumId (calls op.inDoc info ++ endCalls (run op.inDoc info).verdict)
    | _ => []

def cimPullStubCalls (host : CimHost κ) : CimStubCalls κ :=
  lockedStubCalls wsenumPull (cimPull host.dump host.view)
    (cimResourcePullCalls host.dump host.view)

def cimReleaseStubCalls : CimStubCalls κ :=
  lockedStubCalls wsenumRelease (fun doc info ↦ wsenumReleaseEnd doc (cimResourceReleaseEP info))
    fun _ info ↦ cimResourceReleaseCalls info

def cimEnumerateStubCalls (host : CimHost κ) (cimom : Cimom κ) (id : String) (now : ℕ) :
    CimStubCalls κ :=
  fun t op ↦
    if host.quota.any fun quota ↦ decide (quota ≤ t.entries.length) then []
    else
      match createEnumInfo host.datetime op id now with
      | .value (.ok info) =>
        match cimResourceEnumerateEP host.dump host.view cimom host.cfg op.inDoc info with
        | .undefined => []
        | .value r =>
          callsAbout info.enumId
            (cimResourceEnumerateCalls host.dump host.view cimom host.cfg op.inDoc info ++
              if (wsenumEnumerateEnd op.inDoc r).2.isSome then [] else [.destroyEnuminfo])
      | _ => []

/-! ## The release procedure -/

inductive CimEndPoint where
  | get | put | create | delete | enumerate | directPull | release | subscribe | unsubscribe | renew
  | pull | customMethod
  deriving DecidableEq, Repr

def cimResourceEndPoints : List CimEndPoint :=
  [.get, .put, .create, .delete, .enumerate, .directPull, .release, .subscribe, .unsubscribe,
    .renew, .pull, .customMethod]

def CimEndPoint.info : CimEndPoint → WsDispatchEndPointInfo
  | get => ⟨wsDispTypeDirectGet, some (xmlNsTransfer ++ "/Get")⟩
  | put => ⟨wsDispTypeDirectPut, some (xmlNsTransfer ++ "/Put")⟩
  | create => ⟨wsDispTypeDirectCreate, some (xmlNsTransfer ++ "/Create")⟩
  | delete => ⟨wsDispTypeDirectDelete, some (xmlNsTransfer ++ "/Delete")⟩
  | enumerate => ⟨wsDispTypeEnumerate, some (xmlNsEnumeration ++ "/Enumerate")⟩
  | directPull => ⟨wsDispTypeDirectPull, some (xmlNsEnumeration ++ "/Pull")⟩
  | release => ⟨wsDispTypeRelease, some enumActionRelease⟩
  | subscribe => ⟨wsDispTypeSubscribe, some (xmlNsEventing ++ "/Subscribe")⟩
  | unsubscribe => ⟨wsDispTypeUnsubscribe, some evtActionUnsubscribe⟩
  | renew => ⟨wsDispTypeRenew, some evtActionRenew⟩
  | pull => ⟨wsDispTypePull, some (xmlNsEnumeration ++ "/Pull")⟩
  | customMethod => ⟨wsDispTypePrivate, none⟩

theorem wsmanGetReleaseEndpoint_cim {ρ φ : Type} {mem : ρ → WsDispatchEndPointInfo}
    (serviceEndPoint : ρ → φ) {address : CimEndPoint → ρ}
    (hmem : ∀ ep, mem (address ep) = ep.info) {interfaces : List (WsDispatchInterfaceInfo ρ)}
    {ifc : WsDispatchInterfaceInfo ρ} (hep : ifc.endPoints = cimResourceEndPoints.map address)
    {doc : WsXmlNode} {uri : String} (huri : wsmanGetResourceUri doc = some uri)
    (hifc : IsFirst (Serves uri) interfaces ifc)
    (haction : stripNamespace (matchedNamespace uri ifc) enumActionRelease = enumActionRelease) :
    wsmanGetReleaseEndpoint mem serviceEndPoint interfaces doc =
      some (serviceEndPoint (address .release)) := by
  refine (wsmanGetReleaseEndpoint_eq_some_iff mem serviceEndPoint huri).mpr
    ⟨ifc, address .release, hifc, ?_, rfl⟩
  rw [haction]
  have hbefore : ∀ ep ∈ [CimEndPoint.get, .put, .create, .delete, .enumerate, .directPull],
      ep.info.inAction ≠ some enumActionRelease := by decide
  refine ⟨[CimEndPoint.get, .put, .create, .delete, .enumerate, .directPull].map address,
    [CimEndPoint.subscribe, .unsubscribe, .renew, .pull, .customMethod].map address, hep,
    congrArg WsDispatchEndPointInfo.inAction (hmem .release), fun e he ↦ ?_⟩
  obtain ⟨ep, hep, rfl⟩ := List.mem_map.mp he
  dsimp only
  rw [hmem]
  exact hbefore ep hep

def timeoutCalls : TimeoutCall (CimInfo κ → List LoggedCall) (CimContext κ) (CimItem κ) → CimLog
  | .release proc info => callsAbout info.enumId (proc info)
  | .destroy info => callsAbout info.enumId [.destroyEnuminfo]

def scanCalls (expired : List (CimInfo κ)) : CimLog :=
  (releaseExpired (expired.map fun info ↦ ⟨info, some cimResourceReleaseCalls⟩)).flatMap
    timeoutCalls

/-! ## The server with a log -/

def loggedCallback (stub : CimStub κ) (calls : CimStubCalls κ) :
    ServiceCallback (CResult (CimTable κ) × CimLog) (EnumResponse (CimItem κ)) :=
  fun s op ↦
    let log :=
      match s.1 with
      | .undefined => []
      | .value t => calls t op
    (((cimCallback stub s.1 op).1, s.2 ++ log), (cimCallback stub s.1 op).2)

def CimServer.operateLogged (host : CimHost κ) (s : CimServer κ) (log : CimLog) (stub : CimStub κ)
    (calls : CimStubCalls κ) (uuid : String) (doc : WsXmlNode) (msg : WsmanMessage) :
    Handled (CResult (CimTable κ) × CimLog) (EnumResponse (CimItem κ)) :=
  processInboundOperation host.dump uuid (some (loggedCallback stub calls)) s.ids
    (.value s.table, log) doc msg

def CimServer.handleLogged (host : CimHost κ) (s : CimServer κ) (log : CimLog) :
    CimEvent κ → CResult (CimServer κ × CimLog)
  | .enumerate cimom id uuid now doc msg =>
    let h := s.operateLogged host log (cimEnumerateStub host cimom id now)
      (cimEnumerateStubCalls host cimom id now) uuid doc msg
    h.service.1.bind fun t ↦
      .value ({ s with ids := h.ids, table := t, created := id :: s.created }, h.service.2)
  | .pull uuid now doc msg =>
    let h := s.operateLogged host log (cimPullStub host now) (cimPullStubCalls host) uuid doc msg
    h.service.1.bind fun t ↦
      .value ({ s with ids := h.ids, table := t, pulls := s.pulls ++ delivery doc h.response },
        h.service.2)
  | .release uuid now doc msg =>
    let h := s.operateLogged host log (cimReleaseStub now) cimReleaseStubCalls uuid doc msg
    h.service.1.bind fun t ↦ .value ({ s with ids := h.ids, table := t }, h.service.2)
  | .scan now =>
    let (expired, table) := wsmanGetExpiredEnuminfos s.table host.enumIdleTimeout now
    .value ({ s with table := table }, log ++ scanCalls expired)

def cimLoggedServer (host : CimHost κ) : System (CimServer κ × CimLog) (CimEvent κ) where
  Init s := (cimServer host).Init s.1 ∧ s.2 = []
  Step s l s' := s.1.NewId l ∧ s.1.handleLogged host s.2 l = .value s'

/-! ## The log changes nothing -/

theorem CimServer.operate_eq_operateLogged (host : CimHost κ) (s : CimServer κ) (log : CimLog)
    (stub : CimStub κ) (calls : CimStubCalls κ) (uuid : String) (doc : WsXmlNode)
    (msg : WsmanMessage) :
    s.operate host stub uuid doc msg =
      let r := s.operateLogged host log stub calls uuid doc msg
      ⟨r.ids, r.service.1, r.invoked, r.response⟩ :=
  processInboundOperation_map Prod.fst (loggedCallback stub calls) (cimCallback stub)
    (fun _ _ ↦ rfl) host.dump uuid s.ids (.value s.table, log) doc msg

variable {host : CimHost κ} {s : CimServer κ} {log : CimLog}

theorem CimServer.handle_of_handleLogged {s' : CimServer κ} {log' : CimLog} {l : CimEvent κ}
    (h : s.handleLogged host log l = .value (s', log')) : s.handle host l = .value s' := by
  cases l with
  | scan now =>
    cases h
    rfl
  | enumerate cimom id uuid now doc msg =>
    obtain ⟨t, hservice, h⟩ := bind_eq_value.mp h
    cases h
    rw [handle, operate_eq_operateLogged host s log _ (cimEnumerateStubCalls host cimom id now)]
    dsimp only
    rw [hservice]
    rfl
  | pull uuid now doc msg =>
    obtain ⟨t, hservice, h⟩ := bind_eq_value.mp h
    cases h
    rw [handle, pull, operate_eq_operateLogged host s log _ (cimPullStubCalls host)]
    dsimp only
    rw [hservice]
    rfl
  | release uuid now doc msg =>
    obtain ⟨t, hservice, h⟩ := bind_eq_value.mp h
    cases h
    rw [handle, operate_eq_operateLogged host s log _ cimReleaseStubCalls]
    dsimp only
    rw [hservice]
    rfl

def forgetLog (host : CimHost κ) : Simulation (cimLoggedServer host) (cimServer host) where
  rel c s := c.1 = s
  act := some
  init c h := ⟨c.1, h.1, rfl⟩
  step := by
    rintro ⟨s, log⟩ l ⟨s', log'⟩ _ rfl ⟨hid, h⟩
    exact ⟨s', ⟨hid, CimServer.handle_of_handleLogged h⟩, rfl⟩

theorem contextsSound_of_logged (h : Reachable (cimLoggedServer host) (s, log)) :
    ContextsSound s := by
  obtain ⟨_, hs, rfl⟩ := (forgetLog host).reachable h
  exact contextsSound_of_reachable hs

theorem stub_of_cimCallback {stub : CimStub κ} {t t' : CimTable κ}
    {op : SoapOp (EnumResponse (CimItem κ))} (h : (cimCallback stub (.value t) op).1 = .value t') :
    ∃ out, stub t op = .value (t', out) := by
  rw [cimCallback, value_bind] at h
  cases hstub : stub t op with
  | undefined =>
    rw [hstub] at h
    cases h
  | value r =>
    rw [hstub] at h
    cases h
    exact ⟨r.2, rfl⟩

theorem CimServer.operateLogged_spec {stub : CimStub κ} {calls : CimStubCalls κ} {uuid : String}
    {doc : WsXmlNode} {msg : WsmanMessage} {t : CimTable κ}
    (h : (s.operateLogged host log stub calls uuid doc msg).service.1 = .value t) :
    (t = s.table ∧ (s.operateLogged host log stub calls uuid doc msg).service.2 = log) ∨
      ∃ op out, stub s.table op = .value (t, out) ∧
        (s.operateLogged host log stub calls uuid doc msg).service.2 =
          log ++ calls s.table op := by
  rw [operateLogged] at h ⊢
  rcases processInboundOperation_spec host.dump uuid (loggedCallback stub calls) s.ids
    (.value s.table, log) doc msg with ⟨_, ids', size, e, _, heq⟩ | ⟨_, ids', fault, _, heq⟩
  · rw [heq] at h ⊢
    obtain ⟨out, hstub⟩ := stub_of_cimCallback h
    exact .inr ⟨_, out, hstub, rfl⟩
  · rw [heq] at h ⊢
    cases h
    exact .inl ⟨rfl, rfl⟩

end Openwsman
