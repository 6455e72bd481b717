import Openwsman.Cim.Progress
import Openwsman.Lib.Transition

/-!
# The service of the CIM plugin

The stubs with the endpoints of the plugin, as callbacks of the dispatcher, and the server that
handles one request after the other, each as a whole: Enumerate, Pull and Release requests of any
content, and passes of the timeout manager.

The state of the service may be undefined (`CResult`), and a step of the server leads to a defined
one. The server keeps a record of the Pull responses that were not faults: the context and the
results delivered. No function reads it.
-/

namespace Openwsman

open Option CResult KeyedTable Transition

variable {κ : Type}

abbrev CimTable (κ : Type) := EnumTable (CimContext κ) (CimItem κ)

/-- What a server runs with: the length of documents, the rendering of instances, the settings of
the plugin, the conversion of dates, the largest number of contexts if there is one, and the time
after which idle contexts are dropped. -/
structure CimHost (κ : Type) where
  dump : String → CimDoc κ → ℕ
  view : CimView κ
  cfg : CimConfig := {}
  datetime : String → Option ℤ := fun _ ↦ none
  quota : Option ℕ := none
  enumIdleTimeout : ℕ := 0

/-! ## The stubs as callbacks -/

abbrev CimStub (κ : Type) :=
  CimTable κ → SoapOp (EnumResponse (CimItem κ)) → CResult (CimTable κ × Option (CimDoc κ))

def endHold (t : CimTable κ) (e : StubEnd (CimContext κ) (CimItem κ)) (now : ℕ) : CimTable κ :=
  match e.verdict with
  | .unlock => unlockEnuminfo (t.replace e.info) e.info.enumId now
  | .remove => removeLockedEnuminfo (t.replace e.info) e.info.enumId

def lockedStub (action : String)
    (run : WsXmlNode → CimInfo κ → StubEnd (CimContext κ) (CimItem κ)) (now : ℕ) : CimStub κ :=
  fun t op ↦
    (getLockedEnuminfo t op.inDoc op.msg.authData action).bind fun
      | .error status => .value (t, wsmanGenerateFault status.faultCode status.faultDetailCode)
      | .ok (locked, info) =>
        .value (endHold locked (run op.inDoc info) now, (run op.inDoc info).doc)

def cimPullStub (host : CimHost κ) (now : ℕ) : CimStub κ :=
  lockedStub wsenumPull (cimPull host.dump host.view) now

def cimReleaseStub (now : ℕ) : CimStub κ :=
  lockedStub wsenumRelease (fun doc info ↦ wsenumReleaseEnd doc (cimResourceReleaseEP info)) now

def cimEnumerateStub (host : CimHost κ) (cimom : Cimom κ) (id : String) (now : ℕ) : CimStub κ :=
  fun t op ↦
    if host.quota.any fun quota ↦ decide (quota ≤ t.entries.length) then
      .value (t, wsmanGenerateFault .wsmanQuotaLimit .owsmanNoDetails)
    else
      (createEnumInfo host.datetime op id now).bind fun
        | .error status => .value (t, wsmanGenerateFault status.faultCode status.faultDetailCode)
        | .ok info =>
          (cimResourceEnumerateEP host.dump host.view cimom host.cfg op.inDoc info).bind fun r ↦
            let e := wsenumEnumerateEnd op.inDoc r
            .value (e.2.elim t fun info ↦ insertEnumInfo t info now, e.1)

def cimCallback (stub : CimStub κ) :
    ServiceCallback (CResult (CimTable κ)) (EnumResponse (CimItem κ)) :=
  fun s op ↦
    match s.bind fun t ↦ stub t op with
    | .undefined => (.undefined, none)
    | .value (t, doc) => (.value t, doc)

/-! ## The server -/

/-- The state of the server: the processed message ids, the table, the ids of all contexts so far,
and for each Pull response that was not a fault the context and the results in it. -/
structure CimServer (κ : Type) where
  ids : List String
  table : CimTable κ
  created : List String
  pulls : List (String × List (κ × ℕ))

/-- A request or a pass of the timeout manager. An Enumerate comes with the CIMOM as it then answers
and with the id for its context. -/
inductive CimEvent (κ : Type) where
  | enumerate (cimom : Cimom κ) (id uuid : String) (now : ℕ) (doc : WsXmlNode) (msg : WsmanMessage)
  | pull (uuid : String) (now : ℕ) (doc : WsXmlNode) (msg : WsmanMessage)
  | release (uuid : String) (now : ℕ) (doc : WsXmlNode) (msg : WsmanMessage)
  | scan (now : ℕ)

namespace CimServer

def operate (host : CimHost κ) (s : CimServer κ) (stub : CimStub κ) (uuid : String)
    (doc : WsXmlNode) (msg : WsmanMessage) :
    Handled (CResult (CimTable κ)) (EnumResponse (CimItem κ)) :=
  processInboundOperation host.dump uuid (some (cimCallback stub)) s.ids (.value s.table) doc msg

def pull (host : CimHost κ) (s : CimServer κ) (uuid : String) (now : ℕ) (doc : WsXmlNode)
    (msg : WsmanMessage) : Handled (CResult (CimTable κ)) (EnumResponse (CimItem κ)) :=
  s.operate host (cimPullStub host now) uuid doc msg

def delivery (doc : WsXmlNode) (response : Option (CimDoc κ)) : List (String × List (κ × ℕ)) :=
  match requestedContext doc wsenumPull, response.bind SoapDoc.body with
  | some id, some body => [(id, body.items.filterMap CimItem.source)]
  | _, _ => []

end CimServer

def CimServer.handle (host : CimHost κ) (s : CimServer κ) : CimEvent κ → CResult (CimServer κ)
  | .enumerate cimom id uuid now doc msg =>
    let h := s.operate host (cimEnumerateStub host cimom id now) uuid doc msg
    h.service.bind fun t ↦
      .value { s with ids := h.ids, table := t, created := id :: s.created }
  | .pull uuid now doc msg =>
    let h := s.pull host uuid now doc msg
    h.service.bind fun t ↦
      .value { s with ids := h.ids, table := t, pulls := s.pulls ++ delivery doc h.response }
  | .release uuid now doc msg =>
    let h := s.operate host (cimReleaseStub now) uuid doc msg
    h.service.bind fun t ↦ .value { s with ids := h.ids, table := t }
  | .scan now =>
    .value { s with table := (wsmanGetExpiredEnuminfos s.table host.enumIdleTimeout now).2 }

def CimServer.NewId (s : CimServer κ) : CimEvent κ → Prop
  | .enumerate _ id .. => id ∉ s.created
  | _ => True

def cimServer (host : CimHost κ) : System (CimServer κ) (CimEvent κ) where
  Init s := s.table = Table.empty ∧ s.created = [] ∧ s.pulls = []
  Step s l s' := s.NewId l ∧ s.handle host l = .value s'

/-! ## What the stubs do to the table -/

variable {t : CimTable κ} {id : String} {info : CimInfo κ}

theorem lookup_endHold {e : StubEnd (CimContext κ) (CimItem κ)} (h : t.lookup id = some info)
    (hsame : WsEnumerateInfo.SameIdentity (info.withInWork true) e.info) (now : ℕ) (k : String) :
    (endHold (t.replace (info.withInWork true)) e now).lookup k =
      if k = id then
        match e.verdict with
        | .unlock => some ((e.info.withInWork false).stamped now)
        | .remove => none
      else t.lookup k := by
  have hlocked : (t.replace (info.withInWork true)).lookup id = some (info.withInWork true) := by
    rw [lookup_replace_info h (info.withInWork_enumId true), if_pos rfl]
  have hid : e.info.enumId = id :=
    (hsame.1.trans (info.withInWork_enumId true)).trans (Table.key_of_lookup h)
  have hdone : ((t.replace (info.withInWork true)).replace e.info).lookup id = some e.info := by
    rw [lookup_replace_info hlocked hsame.1, if_pos rfl]
  have hothers : ∀ k, k ≠ id →
      ((t.replace (info.withInWork true)).replace e.info).lookup k = t.lookup k := by
    intro k hk
    rw [lookup_replace_info hlocked hsame.1, if_neg hk,
      lookup_replace_info h (info.withInWork_enumId true), if_neg hk]
  -- The context is written back before the hold ends, so the last section finds it.
  rw [endHold, hid]
  cases e.verdict with
  | unlock =>
    dsimp only
    rw [lookup_unlockEnuminfo hdone hsame.2.1]
    by_cases hk : k = id
    · rw [if_pos hk, if_pos hk]
    · rw [if_neg hk, if_neg hk, hothers k hk]
  | remove =>
    dsimp only
    rw [lookup_removeLockedEnuminfo hdone hsame.2.1]
    by_cases hk : k = id
    · rw [if_pos hk, if_pos hk]
    · rw [if_neg hk, if_neg hk, hothers k hk]

structure Locks (t : CimTable κ) (doc : WsXmlNode) (auth : WsmanAuth) (action : String)
    (id : String) (info : CimInfo κ) : Prop where
  requested : requestedContext doc action = some id
  found : t.lookup id = some info
  verified : wsmanVerifyEnumInfo info doc auth = .value none
  free : info.flags.inWork = false

variable {doc : WsXmlNode}

theorem Locks.getLockedEnuminfo_eq {auth : WsmanAuth} {action : String}
    (h : Locks t doc auth action id info) :
    getLockedEnuminfo t doc auth action =
      .value (.ok (t.replace (info.withInWork true), info.withInWork true)) := by
  rw [getLockedEnuminfo, h.requested]
  dsimp only
  rw [h.found]
  dsimp only
  rw [h.verified, value_bind]
  dsimp only
  rw [h.free, if_neg Bool.false_ne_true]

variable {now : ℕ} {t' : CimTable κ} {op : SoapOp (EnumResponse (CimItem κ))}
  {out : Option (CimDoc κ)}

theorem lockedStub_spec {action : String}
    {run : WsXmlNode → CimInfo κ → StubEnd (CimContext κ) (CimItem κ)}
    (hrun : ∀ doc info, WsEnumerateInfo.SameIdentity info (run doc info).info)
    (h : lockedStub action run now t op = .value (t', out)) :
    (t' = t ∧ out.bind SoapDoc.body = none ∧
        ∀ id info, ¬Locks t op.inDoc op.msg.authData action id info) ∨
      ∃ id info, Locks t op.inDoc op.msg.authData action id info ∧
        out = (run op.inDoc (info.withInWork true)).doc ∧
        ∀ k, t'.lookup k =
          if k = id then
            match (run op.inDoc (info.withInWork true)).verdict with
            | .unlock =>
              some (((run op.inDoc (info.withInWork true)).info.withInWork false).stamped now)
            | .remove => none
          else t.lookup k := by
  rw [lockedStub] at h
  obtain ⟨result, hlock, h⟩ := bind_eq_value.mp h
  cases result with
  | error status =>
    rw [value.injEq, Prod.mk.injEq] at h
    obtain ⟨rfl, rfl⟩ := h
    refine .inl ⟨rfl, ?_, fun id info hlocks ↦ ?_⟩
    · rw [wsmanGenerateFault]
      split <;> rfl
    · exact absurd (hlocks.getLockedEnuminfo_eq.symm.trans hlock) (by simp)
  | ok result =>
    obtain ⟨locked, info'⟩ := result
    obtain ⟨id, info, hreq, hfound, hverify, hfree, rfl, rfl⟩ := getLockedEnuminfo_ok hlock
    rw [value.injEq, Prod.mk.injEq] at h
    obtain ⟨rfl, rfl⟩ := h
    exact .inr ⟨id, info, ⟨hreq, hfound, hverify, hfree⟩, rfl,
      fun k ↦ lookup_endHold hfound (hrun _ _) now k⟩

theorem sameIdentity_cimPull (dump : String → CimDoc κ → ℕ) (view : CimView κ) (doc : WsXmlNode)
    (info : CimInfo κ) : WsEnumerateInfo.SameIdentity info (cimPull dump view doc info).info :=
  (sameIdentity_cimResourcePullEP dump view doc info).trans
    (sameIdentity_finish .pullDirect doc (cimResourcePullEP dump view doc info))

theorem cimReleaseStub_spec (h : cimReleaseStub now t op = .value (t', out)) (k : String) :
    t'.lookup k = t.lookup k ∨ t'.lookup k = none := by
  have hrun : ∀ (doc : WsXmlNode) (info : CimInfo κ), WsEnumerateInfo.SameIdentity info
      (wsenumReleaseEnd doc (cimResourceReleaseEP info)).info :=
    fun doc info ↦ sameIdentity_finish .release doc (cimResourceReleaseEP info)
  rcases lockedStub_spec hrun h with ⟨rfl, _⟩ | ⟨id, info, _, _, hlookup⟩
  · exact .inl rfl
  rw [hlookup]
  by_cases hk : k = id
  · exact .inr (by rw [if_pos hk]; rfl)
  · exact .inl (if_neg hk)

theorem WellFormed.stamped {ctx : CimContext κ} (h : WellFormed ctx info) (now : ℕ) :
    WellFormed ctx (info.stamped now) :=
  ⟨h.context, h.verified, h.total, h.cursor⟩

theorem WellFormed.withInWork {ctx : CimContext κ} (h : WellFormed ctx info) (b : Bool) :
    WellFormed ctx (info.withInWork b) :=
  ⟨h.context, h.verified, h.total, h.cursor⟩

variable {host : CimHost κ}

/-- An Enumerate adds a context at most, which the plugin has just started. -/
theorem cimEnumerateStub_spec {cimom : Cimom κ} (hfree : t.lookup id = none)
    (h : cimEnumerateStub host cimom id now t op = .value (t', out)) :
    t' = t ∨ ∃ ctx info, WellFormed ctx info ∧ info.flags.inWork = false ∧
      ∀ k, t'.lookup k = if k = id then some info else t.lookup k := by
  rw [cimEnumerateStub] at h
  split at h
  · rw [value.injEq, Prod.mk.injEq] at h
    exact .inl h.1.symm
  -- Of the ways to the end only one stores a context: the endpoint has returned zero.
  obtain ⟨created, hcreate, h⟩ := bind_eq_value.mp h
  cases created with
  | error status =>
    rw [value.injEq, Prod.mk.injEq] at h
    exact .inl h.1.symm
  | ok info₀ =>
    obtain ⟨r, hEP, h⟩ := bind_eq_value.mp h
    rw [value.injEq, Prod.mk.injEq] at h
    rw [cimResourceEnumerateEP] at hEP
    obtain ⟨started, hstart, hEP⟩ := bind_eq_value.mp hEP
    cases started with
    | error status =>
      rw [value.injEq] at hEP
      rw [← hEP, wsenumEnumerateEnd, if_pos (by rfl)] at h
      exact .inl h.1.symm
    | ok info =>
      rw [value.injEq] at hEP
      subst hEP
      obtain ⟨ctx, hstarted⟩ := started_of_cimStartEnumeration (fresh_createEnumInfo hcreate) hstart
      cases hstored : (wsenumEnumerateEnd op.inDoc
          ⟨0, {}, optimizedItems host.dump host.view op.inDoc info⟩).2 with
      | none =>
        rw [hstored] at h
        exact .inl h.1.symm
      | some stored =>
        rw [hstored] at h
        obtain ⟨k, hmoved⟩ := hstarted.stored_moved hstored
        have hid : stored.enumId = id :=
          (hmoved.enumId.trans hstarted.enumId).trans (createEnumInfo_ok host.datetime hcreate).1
        refine .inr ⟨ctx, stored.stamped now, hmoved.wellFormed.stamped now, ?_, fun k' ↦ ?_⟩
        · rw [WsEnumerateInfo.stamped_flags, hmoved.flags]
          exact hstarted.inWork
        · rw [← h.1, elim_some, lookup_insertEnumInfo (by rw [hid]; exact hfree), hid]

/-! ## What requests do to the server -/

variable {s : CimServer κ} {uuid : String} {msg : WsmanMessage}

/-- **A request.** Either the checks refuse it and the client gets a fault, or the stub runs on an
operation with the limit that the checks found, and the client gets what it left unless that is too
long. -/
theorem CimServer.operate_spec {stub : CimStub κ}
    (h : (s.operate host stub uuid doc msg).service = .value t) :
    ∃ answer, (s.operate host stub uuid doc msg).response = some answer ∧
      ((¬Admitted s.ids doc ∧ t = s.table ∧ answer.body = none) ∨
        (Admitted s.ids doc ∧ ∃ op out, controlMaxsize (headerOf doc) = some op.maxsize ∧
          op.inDoc = doc ∧ op.msg = msg ∧ stub s.table op = .value (t, out) ∧
          answer.body = out.bind fun d ↦
            if rejectedOutbound host.dump uuid op d then none else d.body)) := by
  rw [operate] at h ⊢
  rcases processInboundOperation_spec host.dump uuid (cimCallback stub) s.ids (.value s.table) doc
    msg with ⟨hadm, ids', size, e, hsize, heq⟩ | ⟨hadm, ids', fault, hfault, heq⟩
  · obtain ⟨outDoc, hop, hout⟩ := behindFeatureCheck_createOpEntry
      (δ := EnumResponse (CimItem κ)) doc msg
    rw [hop] at heq
    rw [heq] at h ⊢
    set op : SoapOp (EnumResponse (CimItem κ)) :=
      { inDoc := doc, msg := msg, outDoc := outDoc, maxsize := size, expires := e } with hopdef
    -- The service is in a defined state afterwards, so the stub has returned.
    cases hstub : stub s.table op with
    | undefined =>
      rw [cimCallback, value_bind, hstub] at h
      exact absurd h (by simp)
    | value r =>
      have hcall : cimCallback stub (.value s.table) op = (.value r.1, r.2) := by
        rw [cimCallback, value_bind, hstub]
      rw [hcall] at h ⊢
      obtain ⟨answer, hanswer, hbody⟩ := respond_spec host.dump uuid op hout r.2
      have hr : r = (t, r.2) := Prod.ext (value.inj h) rfl
      exact ⟨answer, hanswer, .inr ⟨hadm, op, r.2, hsize, rfl, rfl, by rw [hstub, hr], hbody⟩⟩
  · rw [heq] at h ⊢
    exact ⟨fault, rfl, .inl ⟨hadm, (value.inj h).symm, (SoapDoc.body_eq_none_iff fault).mpr hfault⟩⟩

def pullResponse (doc : WsXmlNode) (ctx : CimContext κ) (info : CimInfo κ)
    (items : List (CimItem κ)) (k : ℕ) : CimDoc κ :=
  .response (enumHeader doc info) (pullBody info.enumId items
    (decide (info.index.toNat + k = ctx.results.list.length)))

def exceedsLimit (host : CimHost κ) (uuid : String) (doc : WsXmlNode) (msg : WsmanMessage)
    (response : CimDoc κ) : Bool :=
  (controlMaxsize (headerOf doc)).any fun size ↦
    checkEnvelopeSize host.dump (outboundAddressingFilter uuid doc response) size msg.charset

structure Pulled (host : CimHost κ) (s : CimServer κ) (uuid : String) (doc : WsXmlNode)
    (msg : WsmanMessage) (t : CimTable κ) (answer : CimDoc κ) (id : String) (info : CimInfo κ)
    (ctx : CimContext κ) (items : List (CimItem κ)) (k : ℕ) : Prop where
  wellFormed : WellFormed ctx info
  collection : PullCollection host.dump host.view doc ctx (info.withInWork true) items k
  body : answer.body =
    if exceedsLimit host uuid doc msg (pullResponse doc ctx info items k) then none
    else some (pullBody info.enumId items
      (decide (info.index.toNat + k = ctx.results.list.length)))
  removed : info.index.toNat + k = ctx.results.list.length → t.lookup id = none
  moved : info.index.toNat + k ≠ ctx.results.list.length →
    ∃ info', t.lookup id = some info' ∧ Moved ctx info k info'
  others : ∀ id', id' ≠ id → t.lookup id' = s.table.lookup id'

def Grants (s : CimServer κ) (doc : WsXmlNode) (msg : WsmanMessage) (id : String)
    (info : CimInfo κ) : Prop :=
  Admitted s.ids doc ∧ Locks s.table doc msg.authData wsenumPull id info

structure ContextSound (created : List String) (id : String) (info : CimInfo κ) : Prop where
  created : id ∈ created
  free : info.flags.inWork = false
  wellFormed : ∃ ctx, WellFormed ctx info

def ContextsSound (s : CimServer κ) : Prop :=
  ∀ id info, s.table.lookup id = some info → ContextSound s.created id info

theorem withInWork_flags_of_free {χ ι : Type} {info : WsEnumerateInfo χ ι}
    (h : info.flags.inWork = false) :
    ((info.withInWork true).withInWork false).flags = info.flags := by
  obtain ⟨flags⟩ := info
  cases flags
  simp only [WsEnumerateInfo.withInWork] at h ⊢
  rw [h]

theorem CimServer.pull_spec (hs : ContextsSound s)
    (h : (s.pull host uuid now doc msg).service = .value t) :
    ∃ answer, (s.pull host uuid now doc msg).response = some answer ∧
      ((t = s.table ∧ answer.body = none ∧ ∀ id info, ¬Grants s doc msg id info) ∨
        ∃ id info ctx items k, Grants s doc msg id info ∧
          Pulled host s uuid doc msg t answer id info ctx items k) := by
  obtain ⟨answer, hanswer, ⟨hadm, ht, hbody⟩ | ⟨hadm, op, out, hsize, hdoc, hmsg, hstub, hbody⟩⟩ :=
    operate_spec h
  · exact ⟨answer, hanswer, .inl ⟨ht, hbody, fun _ _ hg ↦ hadm hg.1⟩⟩
  refine ⟨answer, hanswer, ?_⟩
  rcases lockedStub_spec (sameIdentity_cimPull host.dump host.view) hstub with
    ⟨ht, hout, hno⟩ | ⟨id, info, hlocks, hout, hlookup⟩
  · -- The stub got no context.
    refine .inl ⟨ht, ?_, fun id info hg ↦ hno id info (hdoc ▸ hmsg ▸ hg.2)⟩
    rw [hbody]
    cases out with
    | none => rfl
    | some d => rw [bind_some] at hout ⊢; rw [hout, ite_self]
  · rw [hdoc, hmsg] at hlocks
    rw [hdoc] at hout hlookup
    obtain ⟨ctx, hwf⟩ := (hs id info hlocks.found).wellFormed
    obtain ⟨items, k, hcol, hresp, hverdict, hinfo⟩ :=
      pullDirectEnd_cim host.dump host.view doc (hwf.withInWork true)
    have hresp : (cimPull host.dump host.view doc (info.withInWork true)).doc =
        some (pullResponse doc ctx info items k) := hresp
    refine .inr ⟨id, info, ctx, items, k, ⟨hadm, hlocks⟩, hwf, hcol, ?_, fun hend ↦ ?_,
      fun hmore ↦ ?_, fun id' hne ↦ ?_⟩
    · rw [hbody, hout, hresp, exceedsLimit, hsize, bind_some, any_some,
        rejectedOutbound, hdoc, hmsg]
      rfl
    · have hremove : (cimPull host.dump host.view doc (info.withInWork true)).verdict = .remove :=
        hverdict.trans (if_pos (decide_eq_true hend))
      rw [hlookup, if_pos rfl, hremove]
    · have hunlock : (cimPull host.dump host.view doc (info.withInWork true)).verdict = .unlock :=
        hverdict.trans (if_neg (by rw [decide_eq_true_eq]; exact hmore))
      refine ⟨_, by rw [hlookup, if_pos rfl, hunlock], ?_⟩
      rw [cimPull, hinfo (decide_eq_false hmore)]
      have hmoved : Moved ctx info k
          { info with index := info.index + UInt32.ofNat k, pullResultPtr := none } :=
        hwf.moved hcol.takes.le hmore
      exact ⟨⟨hwf.context, hwf.verified, hwf.total, hmoved.wellFormed.cursor⟩, hmoved.cursor,
        withInWork_flags_of_free hlocks.free, rfl⟩
    · rw [hlookup, if_neg hne]

/-! ## The contexts in every run -/

theorem CimServer.enumerate_spec {cimom : Cimom κ} (hfree : s.table.lookup id = none)
    (h : (s.operate host (cimEnumerateStub host cimom id now) uuid doc msg).service = .value t) :
    t = s.table ∨ ∃ ctx info, WellFormed ctx info ∧ info.flags.inWork = false ∧
      ∀ k, t.lookup k = if k = id then some info else s.table.lookup k := by
  obtain ⟨_, _, ⟨_, ht, _⟩ | ⟨_, op, out, _, _, _, hstub, _⟩⟩ := operate_spec h
  · exact .inl ht
  · exact cimEnumerateStub_spec hfree hstub

theorem CimServer.release_spec
    (h : (s.operate host (cimReleaseStub now) uuid doc msg).service = .value t) (k : String) :
    t.lookup k = s.table.lookup k ∨ t.lookup k = none := by
  obtain ⟨_, _, ⟨_, ht, _⟩ | ⟨_, op, out, _, _, _, hstub, _⟩⟩ := operate_spec h
  · exact .inl (by rw [ht])
  · exact cimReleaseStub_spec hstub k

theorem ContextsSound.of_removed {s' : CimServer κ} (hs : ContextsSound s)
    (hcreated : s'.created = s.created)
    (h : ∀ k, s'.table.lookup k = s.table.lookup k ∨ s'.table.lookup k = none) :
    ContextsSound s' := by
  intro id info hinfo
  rw [hcreated]
  rcases h id with hsame | hnone
  · exact hs id info (hsame.symm.trans hinfo)
  · exact absurd (hnone.symm.trans hinfo) (by simp)

theorem ContextsSound.lookup_eq_none (hs : ContextsSound s) (hid : id ∉ s.created) :
    s.table.lookup id = none := by
  cases hlookup : s.table.lookup id with
  | none => rfl
  | some info => exact absurd (hs id info hlookup).created hid

theorem contextsSound_step {s' : CimServer κ} {l : CimEvent κ} (hs : ContextsSound s)
    (h : (cimServer host).Step s l s') : ContextsSound s' := by
  obtain ⟨hid, h⟩ := h
  cases l with
  | enumerate cimom id uuid now doc msg =>
    obtain ⟨t, hservice, h⟩ := bind_eq_value.mp h
    cases h
    intro k info hinfo
    rcases CimServer.enumerate_spec (hs.lookup_eq_none hid) hservice with
      rfl | ⟨ctx, new, hwf, hfree, hlookup⟩
    · obtain ⟨hc, hf, hw⟩ := hs k info hinfo
      exact ⟨List.mem_cons_of_mem _ hc, hf, hw⟩
    have hinfo := (hlookup k).symm.trans hinfo
    by_cases hk : k = id
    · rw [if_pos hk, some.injEq] at hinfo
      exact ⟨hk ▸ List.mem_cons_self, hinfo ▸ hfree, ctx, hinfo ▸ hwf⟩
    · rw [if_neg hk] at hinfo
      obtain ⟨hc, hf, hw⟩ := hs k info hinfo
      exact ⟨List.mem_cons_of_mem _ hc, hf, hw⟩
  | pull uuid now doc msg =>
    obtain ⟨t, hservice, h⟩ := bind_eq_value.mp h
    cases h
    obtain ⟨_, _, ⟨rfl, _⟩ | ⟨id, info, ctx, items, k, ⟨_, hlocks⟩, hp⟩⟩ :=
      CimServer.pull_spec hs hservice
    · exact hs
    intro id' info' hinfo
    by_cases hid : id' = id
    · subst hid
      by_cases hend : info.index.toNat + k = ctx.results.list.length
      · exact absurd ((hp.removed hend).symm.trans hinfo) (by simp)
      obtain ⟨moved, hmoved, hm⟩ := hp.moved hend
      obtain rfl : moved = info' := some.inj (hmoved.symm.trans hinfo)
      obtain ⟨hc, hf, _⟩ := hs id' info hlocks.found
      exact ⟨hc, hm.flags ▸ hf, ctx, hm.wellFormed⟩
    · exact hs id' info' ((hp.others id' hid).symm.trans hinfo)
  | release uuid now doc msg =>
    obtain ⟨t, hservice, h⟩ := bind_eq_value.mp h
    cases h
    exact hs.of_removed rfl (CimServer.release_spec hservice)
  | scan now =>
    cases h
    refine hs.of_removed rfl fun k ↦ ?_
    exact (lookup_wsmanGetExpiredEnuminfos s.table host.enumIdleTimeout now k).imp_right And.left

/-- **The contexts in every run.** Every context in the table belongs to an Enumerate of the run, no
request works on it, and it is a context of the plugin with results left. -/
theorem contextsSound_of_reachable (h : Reachable (cimServer host) s) : ContextsSound s := by
  refine Reachable.induct (P := ContextsSound) (fun s hinit id info hinfo ↦ ?_)
    (fun s l s' _ hs hstep ↦ contextsSound_step hs hstep) h
  rw [hinit.1] at hinfo
  exact absurd hinfo (by simp)

end Openwsman
