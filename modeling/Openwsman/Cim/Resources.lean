import Openwsman.Cim.Calls
import Openwsman.Cim.Delivery
import Openwsman.Lib.Lifecycle

/-!
# What an enumeration holds from the CIMOM

The client of an enumeration and its results are acquired together, by the Enumerate, and released
together, in one of four places. The endpoints decide about the release before the stub increments
the cursor, and the stub about the end of the context afterwards; both find the same. So the life of
client and results follows that of the context.
-/

namespace Openwsman

open Option CResult List KeyedTable Lifecycle Transition

variable {κ : Type}

/-! ## The life of what a context holds -/

def LoggedCall.act (r : CimHeld) : LoggedCall → Option Act
  | acquire r' => if r' = r then some .acquire else none
  | use r' => if r' = r then some .use else none
  | release r' => if r' = r then some .release else none
  | destroyEnuminfo => some .destroy

def actOn (id : String) (r : CimHeld) (e : String × LoggedCall) : Option Act :=
  if e.1 = id then e.2.act r else none

variable {id : String} {e : String × LoggedCall}

theorem actOn_of_ne (h : e.1 ≠ id) (r : CimHeld) : actOn id r e = none :=
  if_neg h

theorem phase_own (id : String) (r : CimHeld) (p : Lifecycle.Phase) (calls : List LoggedCall) :
    phase (actOn id r) p (callsAbout id calls) = phase (LoggedCall.act r) p calls := by
  rw [callsAbout, phase_map]
  congr 1
  funext c
  exact if_pos rfl

variable {log : CimLog}

theorem phase_others (h : ∀ e ∈ log, e.1 ≠ id) (r : CimHeld) (p : Lifecycle.Phase) :
    phase (actOn id r) p log = some p :=
  phase_of_unseen (fun e he ↦ actOn_of_ne (h e he) r) p

def releaseCalls : List LoggedCall := [.release .results, .release .client]

theorem phase_releaseCalls (r : CimHeld) :
    phase (LoggedCall.act r) .held releaseCalls = some .released := by
  cases r <;> rfl

theorem phase_collectCalls (r : CimHeld) :
    phase (LoggedCall.act r) .held collectCalls = some .held := by
  cases r <;> rfl

/-- What holds between requests: what a context in the table holds has been acquired, and what
another one held has been released, if it was started. -/
structure ResourcesSound (s : CimServer κ) (log : CimLog) : Prop where
  alive : ∀ id info, s.table.lookup id = some info →
    info.flags.cimContextCleanup = false ∧ ∀ r, phase (actOn id r) .absent log = some .held
  ended : ∀ id, s.table.lookup id = none →
    (∀ r, phase (actOn id r) .absent log = some .gone) ∨
      ∃ q, phase (actOn id .results) .absent log = some q ∧ acquisitions q = 0
  fresh : ∀ id, id ∉ s.created → ∀ r, phase (actOn id r) .absent log = some .absent

/-- How contexts go on: new calls are about contexts in the table, and each of these stays with what
it holds or ends with it. -/
structure Continues (t t' : CimTable κ) (calls : CimLog) : Prop where
  outside : ∀ id, t.lookup id = none → t'.lookup id = none ∧ ∀ e ∈ calls, e.1 ≠ id
  inside : ∀ id info, t.lookup id = some info →
    (∃ info', t'.lookup id = some info' ∧
        info'.flags.cimContextCleanup = info.flags.cimContextCleanup ∧
        ∀ r, phase (actOn id r) .held calls = some .held) ∨
      t'.lookup id = none ∧ ∀ r, phase (actOn id r) .held calls = some .gone

theorem Continues.refl (t : CimTable κ) : Continues t t [] :=
  ⟨fun _ h ↦ ⟨h, by simp⟩, fun _ info h ↦ .inl ⟨info, h, rfl, fun _ ↦ rfl⟩⟩

variable {s s' : CimServer κ}

theorem ResourcesSound.continue {calls : CimLog} (hs : ResourcesSound s log)
    (hcreated : s'.created = s.created) (hsound : ContextsSound s)
    (h : Continues s.table s'.table calls) : ResourcesSound s' (log ++ calls) := by
  have hunseen : ∀ id, s.table.lookup id = none → ∀ r p, phase (actOn id r) .absent log = some p →
      phase (actOn id r) .absent (log ++ calls) = some p := by
    intro id hid r p hp
    rw [phase_append_of_eq hp]
    exact phase_others (h.outside id hid).2 r p
  refine ⟨fun id info' hinfo' ↦ ?_, fun id hnone ↦ ?_, fun id hid r ↦ ?_⟩
  · cases hinfo : s.table.lookup id with
    | none => exact absurd ((h.outside id hinfo).1.symm.trans hinfo') (by simp)
    | some info =>
      obtain ⟨hflag, hheld⟩ := hs.alive id info hinfo
      rcases h.inside id info hinfo with ⟨moved, hmoved, hsame, hcalls⟩ | ⟨hgone, _⟩
      · obtain rfl := some.inj (hmoved.symm.trans hinfo')
        refine ⟨hsame.trans hflag, fun r ↦ ?_⟩
        rw [phase_append_of_eq (hheld r)]
        exact hcalls r
      · exact absurd (hgone.symm.trans hinfo') (by simp)
  · cases hinfo : s.table.lookup id with
    | none =>
      rcases hs.ended id hinfo with hgone | ⟨q, hq, hzero⟩
      · exact .inl fun r ↦ hunseen id hinfo r _ (hgone r)
      · exact .inr ⟨q, hunseen id hinfo .results q hq, hzero⟩
    | some info =>
      rcases h.inside id info hinfo with ⟨moved, hmoved, _⟩ | ⟨_, hcalls⟩
      · exact absurd (hmoved.symm.trans hnone) (by simp)
      · refine .inl fun r ↦ ?_
        rw [phase_append_of_eq ((hs.alive id info hinfo).2 r)]
        exact hcalls r
  · rw [hcreated] at hid
    exact hunseen id (hsound.lookup_eq_none hid) r _ (hs.fresh id hid r)

/-! ## Pull and Release -/

variable {t : CimTable κ} {action : String} {op : SoapOp (EnumResponse (CimItem κ))}
  {info : CimInfo κ}

theorem lockedStubCalls_of_locks (h : Locks t op.inDoc op.msg.authData action id info)
    (run : WsXmlNode → CimInfo κ → StubEnd (CimContext κ) (CimItem κ))
    (calls : WsXmlNode → CimInfo κ → List LoggedCall) :
    lockedStubCalls action run calls t op =
      callsAbout id (calls op.inDoc (info.withInWork true) ++
        endCalls (run op.inDoc (info.withInWork true)).verdict) := by
  rw [lockedStubCalls, h.getLockedEnuminfo_eq]
  dsimp only
  rw [info.withInWork_enumId true, Table.key_of_lookup h.found]

theorem lockedStubCalls_of_not_locks
    (h : ∀ id info, ¬Locks t op.inDoc op.msg.authData action id info)
    (run : WsXmlNode → CimInfo κ → StubEnd (CimContext κ) (CimItem κ))
    (calls : WsXmlNode → CimInfo κ → List LoggedCall) :
    lockedStubCalls action run calls t op = [] := by
  rw [lockedStubCalls]
  split
  · next locked info hlock =>
    obtain ⟨id, info, hreq, hfound, hverify, hfree, _⟩ := getLockedEnuminfo_ok hlock
    exact absurd ⟨hreq, hfound, hverify, hfree⟩ (h id info)
  · rfl

def KeepsResources (run : WsXmlNode → CimInfo κ → StubEnd (CimContext κ) (CimItem κ))
    (calls : WsXmlNode → CimInfo κ → List LoggedCall) (doc : WsXmlNode) (info : CimInfo κ) : Prop :=
  match (run doc info).verdict with
  | .unlock =>
    (run doc info).info.flags.cimContextCleanup = info.flags.cimContextCleanup ∧
      ∀ r, phase (LoggedCall.act r) .held (calls doc info) = some .held
  | .remove => ∀ r, phase (LoggedCall.act r) .held (calls doc info) = some .released

variable {now : ℕ}

variable {out : Option (CimDoc κ)} {expired : List (CimInfo κ)}

theorem continues_lockedStub {run : WsXmlNode → CimInfo κ → StubEnd (CimContext κ) (CimItem κ)}
    {calls : WsXmlNode → CimInfo κ → List LoggedCall}
    (hrun : ∀ doc info, WsEnumerateInfo.SameIdentity info (run doc info).info) {t' : CimTable κ}
    (hkeeps : ∀ doc id info, t.lookup id = some info → KeepsResources run calls doc
      (info.withInWork true)) (h : lockedStub action run now t op = .value (t', out)) :
    Continues t t' (lockedStubCalls action run calls t op) := by
  rcases lockedStub_spec hrun h with ⟨rfl, _, hno⟩ | ⟨id, info, hlocks, _, hlookup⟩
  · rw [lockedStubCalls_of_not_locks hno]
    exact .refl t'
  rw [lockedStubCalls_of_locks hlocks]
  have hothers : ∀ k, k ≠ id → ∀ calls, ∀ e ∈ callsAbout id calls, e.1 ≠ k := by
    intro k hk calls e he heq
    exact hk (heq.symm.trans (fst_of_mem_callsAbout he))
  have hkeep := hkeeps op.inDoc id info hlocks.found
  rw [KeepsResources] at hkeep
  refine ⟨fun k hk ↦ ?_, fun k info' hk ↦ ?_⟩
  · have hne : k ≠ id := by
      rintro rfl
      exact absurd (hk.symm.trans hlocks.found) (by simp)
    exact ⟨by rw [hlookup, if_neg hne, hk], hothers k hne _⟩
  · by_cases hne : k = id
    · subst hne
      obtain rfl := some.inj (hk.symm.trans hlocks.found)
      rw [hlookup, if_pos rfl]
      simp only [phase_own]
      cases hverdict : (run op.inDoc (info'.withInWork true)).verdict with
      | unlock =>
        rw [hverdict] at hkeep
        refine .inl ⟨_, rfl, hkeep.1, fun r ↦ ?_⟩
        rw [endCalls, append_nil]
        exact hkeep.2 r
      | remove =>
        rw [hverdict] at hkeep
        refine .inr ⟨rfl, fun r ↦ ?_⟩
        rw [phase_append_of_eq (hkeep r)]
        rfl
    · refine .inl ⟨info', by rw [hlookup, if_neg hne, hk], rfl, fun r ↦ ?_⟩
      exact phase_others (hothers k hne _) r .held

theorem endsSequence_eq (info : CimInfo κ) : endsSequence info = info.advance.atEnd := rfl

variable (dump : String → CimDoc κ → ℕ) (view : CimView κ) (doc : WsXmlNode) {ctx : CimContext κ}

/-- **A Pull** gives everything back exactly when its stub removes the context. -/
theorem keepsResources_pull (h : WellFormed ctx info) :
    KeepsResources (cimPull dump view) (cimResourcePullCalls dump view) doc info := by
  obtain ⟨items, k, _, hget⟩ := cimGetEnumItems_spec dump view ctx (wsmanGetFragmentString doc)
    info (responseHeader doc) wsenumPullResp xmlNsEnumeration (pullLimits doc)
  rw [KeepsResources, cimPull, cimResourcePullEP, cimResourcePullCalls, h.context]
  dsimp only
  rw [h.verified, Bool.not_true, if_neg Bool.false_ne_true, if_neg Bool.false_ne_true]
  generalize cimGetEnumItems dump view ctx (wsmanGetFragmentString doc) info (responseHeader doc)
    wsenumPullResp xmlNsEnumeration (pullLimits doc) = g at hget ⊢
  obtain ⟨flags, hflags⟩ := exists_pullCleanup_eq g
  have hptr : (pullCleanup g).pullResultPtr =
      some (itemsDoc (responseHeader doc) wsenumPullResp xmlNsEnumeration items) := by
    rw [hflags, hget]
  have hend : (pullCleanup g).advance.atEnd = g.advance.atEnd := by rw [hflags]; rfl
  rw [wsenumPullDirectEnd_itemsDoc doc hptr, hend, pullCleanupCalls, endsSequence_eq]
  cases hdone : g.advance.atEnd with
  | false =>
    refine ⟨?_, fun r ↦ by cases r <;> rfl⟩
    rw [pullCleanup_of_not_atEnd hdone, hget]
    rfl
  | true =>
    have hcontext : g.appEnumContext = some ctx := by rw [hget]; exact h.context
    rw [if_pos rfl, cimReleaseEnumContext, hcontext]
    exact fun r ↦ by cases r <;> rfl

theorem cimResourceReleaseCalls_eq (h : WellFormed ctx info)
    (hflag : info.flags.cimContextCleanup = false) :
    cimResourceReleaseCalls info = releaseCalls := by
  rw [cimResourceReleaseCalls, hflag, cimReleaseEnumContext, cimGetclientFromEnumContext, h.context]
  rfl

theorem keepsResources_release (h : WellFormed ctx info)
    (hflag : info.flags.cimContextCleanup = false) :
    KeepsResources (fun doc info ↦ wsenumReleaseEnd doc (cimResourceReleaseEP info))
      (fun _ info ↦ cimResourceReleaseCalls info) doc info := by
  rw [KeepsResources, cimResourceReleaseCalls_eq h hflag]
  exact phase_releaseCalls

/-! ## The timeout manager -/

theorem scanCalls_cons (info : CimInfo κ) (expired : List (CimInfo κ)) :
    scanCalls (info :: expired) =
      callsAbout info.enumId (cimResourceReleaseCalls info ++ [.destroyEnuminfo]) ++
        scanCalls expired := by
  rw [scanCalls, map_cons, releaseExpired, flatMap_append, callsAbout, map_append, append_assoc]
  dsimp only
  rw [flatMap_singleton, flatMap_cons]
  rfl

theorem fst_of_mem_scanCalls (h : e ∈ scanCalls expired) :
    ∃ info ∈ expired, info.enumId = e.1 := by
  induction expired with
  | nil => cases h
  | cons info expired ih =>
    rw [scanCalls_cons] at h
    rcases mem_append.mp h with hown | hrest
    · exact ⟨info, mem_cons_self, (fst_of_mem_callsAbout hown).symm⟩
    · obtain ⟨info', hmem, hid⟩ := ih hrest
      exact ⟨info', mem_cons_of_mem info hmem, hid⟩

theorem phase_scanCalls (hnodup : (expired.map WsEnumerateInfo.enumId).Nodup)
    (hmem : info ∈ expired) (hcalls : cimResourceReleaseCalls info = releaseCalls) (r : CimHeld) :
    phase (actOn info.enumId r) .held (scanCalls expired) = some .gone := by
  induction expired with
  | nil => cases hmem
  | cons first expired ih =>
    obtain ⟨hfirst, hnodup⟩ := nodup_cons.mp hnodup
    rw [scanCalls_cons]
    rcases mem_cons.mp hmem with rfl | hmem
    · have hown : phase (actOn info.enumId r) .held
          (callsAbout info.enumId (cimResourceReleaseCalls info ++ [.destroyEnuminfo])) =
            some .gone := by
        rw [phase_own, hcalls, phase_append_of_eq (phase_releaseCalls r)]
        rfl
      rw [phase_append_of_eq hown]
      refine phase_others (fun e he heq ↦ hfirst ?_) r .gone
      obtain ⟨info', hmem, hid⟩ := fst_of_mem_scanCalls he
      exact mem_map.mpr ⟨info', hmem, hid.trans heq⟩
    · have hne : first.enumId ≠ info.enumId := fun heq ↦
        hfirst (mem_map.mpr ⟨info, hmem, heq.symm⟩)
      have hother : phase (actOn info.enumId r) .held
          (callsAbout first.enumId (cimResourceReleaseCalls first ++ [.destroyEnuminfo])) =
            some .held :=
        phase_others (fun e he heq ↦ hne ((fst_of_mem_callsAbout he).symm.trans heq)) r .held
      rw [phase_append_of_eq hother]
      exact ih hnodup hmem

theorem continues_scan
    (hreleases : ∀ id info, t.lookup id = some info → cimResourceReleaseCalls info = releaseCalls)
    (enumIdleTimeout now : ℕ) :
    Continues t (wsmanGetExpiredEnuminfos t enumIdleTimeout now).2
      (scanCalls (wsmanGetExpiredEnuminfos t enumIdleTimeout now).1) := by
  rw [wsmanGetExpiredEnuminfos]
  split
  · exact .refl t
  dsimp only
  -- the calls are about the contexts that the pass has taken, and a context with the same id in
  -- the table is the same one
  have hexpired : ∀ e ∈ scanCalls (t.entries.filter (isExpired enumIdleTimeout now)),
      ∃ info, t.lookup e.1 = some info ∧ isExpired enumIdleTimeout now info = true := by
    intro e he
    obtain ⟨info, hmem, hid⟩ := fst_of_mem_scanCalls he
    obtain ⟨hentry, hexp⟩ := mem_filter.mp hmem
    exact ⟨info, Table.lookup_eq_some_iff.mpr ⟨hentry, hid⟩, hexp⟩
  refine ⟨fun id hid ↦ ⟨by rw [Table.lookup_filter, hid]; rfl, fun e he heq ↦ ?_⟩,
    fun id info hinfo ↦ ?_⟩
  · obtain ⟨info, hinfo, _⟩ := hexpired e he
    exact absurd (hid.symm.trans (heq ▸ hinfo)) (by simp)
  rw [Table.lookup_filter, hinfo]
  cases hexp : isExpired enumIdleTimeout now info with
  | false =>
    refine .inl ⟨info, by simp [hexp], rfl, fun r ↦ ?_⟩
    refine phase_others (fun e he heq ↦ ?_) r .held
    obtain ⟨info', hinfo', hexp'⟩ := hexpired e he
    obtain rfl := some.inj (hinfo.symm.trans (heq ▸ hinfo'))
    exact absurd (hexp.symm.trans hexp') (by simp)
  | true =>
    refine .inr ⟨by simp [hexp], fun r ↦ ?_⟩
    obtain ⟨hentry, rfl⟩ := Table.lookup_eq_some_iff.mp hinfo
    refine phase_scanCalls ?_ (mem_filter.mpr ⟨hentry, hexp⟩) (hreleases _ info hinfo) r
    exact t.nodup.sublist (filter_sublist.map _)

/-! ## Enumerate -/

theorem cimContextCleanup_wsmanParseEnumRequest {doc : WsXmlNode} {info' : CimInfo κ}
    (h : wsmanParseEnumRequest doc info = .value (.ok info')) :
    info'.flags.cimContextCleanup = info.flags.cimContextCleanup := by
  have hmode : ∀ node, (modeFlags node info.flags).cimContextCleanup =
      info.flags.cimContextCleanup := by
    intro node
    rw [modeFlags, polymorphismFlags.eq_def, enumModeFlags]
    repeat' split
    all_goals rfl
  have hfilter : ∀ {filter : Filter} {flags flags' : EnumFlags},
      filterFlags filter flags = some flags' →
        flags'.cimContextCleanup = flags.cimContextCleanup := by
    intro filter flags flags' h
    unfold filterFlags at h
    repeat' split at h
    all_goals cases h
    all_goals rfl
  rw [wsmanParseEnumRequest] at h
  cases hnode : wsXmlFirstChild (wsXmlGetSoapBody doc) xmlNsEnumeration wsenumEnumerate with
  | none =>
    rw [hnode] at h
    cases h
    rfl
  | some node =>
    rw [hnode] at h
    obtain ⟨filter, _, h⟩ := bind_eq_value.mp h
    cases filter with
    | none =>
      cases h
      exact hmode node
    | some filter =>
      dsimp only at h
      split at h
      · cases h
      · next flags hflags =>
        cases h
        exact (hfilter hflags).trans (hmode node)

theorem cimContextCleanup_cimStartEnumeration {cimom : Cimom κ} {cfg : CimConfig} {doc : WsXmlNode}
    {info' : CimInfo κ} (h : cimStartEnumeration cimom cfg doc info = .value (.ok info')) :
    info'.flags.cimContextCleanup = info.flags.cimContextCleanup := by
  rw [cimStartEnumeration] at h
  split at h
  · cases h
  obtain ⟨selectors, _, h⟩ := bind_eq_value.mp h
  dsimp only at h
  split at h
  · cases h
  obtain ⟨parsed, hparse, h⟩ := bind_eq_value.mp h
  cases parsed with
  | error status => cases h
  | ok info₁ =>
    obtain ⟨results, rfl⟩ := cimEnumInstances_ok h
    have hparsed := cimContextCleanup_wsmanParseEnumRequest hparse
    exact hparsed

theorem cimContextCleanup_createEnumInfo {δ : Type} {datetime : String → Option ℤ} {op : SoapOp δ}
    (h : createEnumInfo datetime op id now = .value (.ok info)) :
    info.flags.cimContextCleanup = false := by
  obtain ⟨dest, uri, auth, expires, maxsize, -, -, -, rfl⟩ := createEnumInfo_eq_ok datetime h
  rfl

variable {info₀ : CimInfo κ}

theorem stored_iff_not_endsSequence (h : Started doc info₀ ctx info) :
    (wsenumEnumerateEnd doc ⟨0, {}, optimizedItems dump view doc info⟩).2.isSome =
      !(info.flags.opt && endsSequence (optimizedItems dump view doc info)) := by
  cases hopt : info.flags.opt with
  | false =>
    rw [h.optimizedItems_eq]
    simp [hopt, wsenumEnumerateEnd, h.pullResultPtr, wsmanSetEstimatedTotal_response]
  | true =>
    obtain ⟨items, k, _, hget⟩ := cimGetEnumItems_spec dump view ctx (wsmanGetFragmentString doc)
      info (responseHeader doc) wsenumEnumerateResp xmlNsWsMan (enumerateLimits info)
    rw [h.optimizedItems_eq, hopt, if_pos rfl, endsSequence_eq, Bool.true_and]
    generalize cimGetEnumItems dump view ctx (wsmanGetFragmentString doc) info (responseHeader doc)
      wsenumEnumerateResp xmlNsWsMan (enumerateLimits info) = g at hget
    have hptr : g.pullResultPtr =
        some (itemsDoc (responseHeader doc) wsenumEnumerateResp xmlNsWsMan items) := by rw [hget]
    have hflag : g.flags.opt = true := by rw [hget]; exact hopt
    rw [wsenumEnumerateEnd_itemsDoc doc hflag hptr]
    cases g.advance.atEnd <;> rfl

theorem phase_startedCalls (h : Started doc info₀ ctx info) (r : CimHeld) :
    phase (LoggedCall.act r) .held (startedCalls dump view doc info) =
      if info.flags.opt && endsSequence (optimizedItems dump view doc info) then some .released
      else some .held := by
  rw [startedCalls]
  cases hopt : info.flags.opt with
  | false => rfl
  | true =>
    have hcontext : (optimizedItems dump view doc info).appEnumContext = some ctx := by
      rw [h.optimizedItems_eq, hopt, if_pos rfl]
      obtain ⟨items, k, _, hget⟩ := cimGetEnumItems_spec dump view ctx (wsmanGetFragmentString doc)
        info (responseHeader doc) wsenumEnumerateResp xmlNsWsMan (enumerateLimits info)
      rw [hget]
      exact h.wellFormed.context
    rw [if_pos rfl, Bool.true_and, cimReleaseEnumContext, hcontext,
      phase_append_of_eq (phase_collectCalls r)]
    cases endsSequence (optimizedItems dump view doc info) with
    | false => rfl
    | true => exact phase_releaseCalls r

inductive EnumerateEffect (t' : CimTable κ) (id : String) (calls : List LoggedCall) : Prop where
  | stored (info : CimInfo κ) (found : t'.lookup id = some info)
    (flag : info.flags.cimContextCleanup = false)
    (held : ∀ r, phase (LoggedCall.act r) .absent calls = some .held)
  | finished (missing : t'.lookup id = none)
    (gone : ∀ r, phase (LoggedCall.act r) .absent calls = some .gone)
  | failed (missing : t'.lookup id = none) (q : Lifecycle.Phase)
    (phase : phase (LoggedCall.act .results) .absent calls = some q) (never : acquisitions q = 0)

theorem enumerateEffect_of_started {doc : WsXmlNode} (h : Started doc info₀ ctx info)
    (hflag : info.flags.cimContextCleanup = false) (hfree : t.lookup info₀.enumId = none) (now : ℕ)
    :
    let stored := (wsenumEnumerateEnd doc ⟨0, {}, optimizedItems dump view doc info⟩).2
    let t' := stored.elim t fun info ↦ insertEnumInfo t info now
    (∀ k, k ≠ info₀.enumId → t'.lookup k = t.lookup k) ∧
      EnumerateEffect t' info₀.enumId
        (.acquire .client :: .acquire .results :: startedCalls dump view doc info ++
          if stored.isSome then [] else [.destroyEnuminfo]) := by
  intro stored t'
  have hstored : stored.isSome = _ := stored_iff_not_endsSequence dump view doc h
  have hacquired : ∀ r, phase (LoggedCall.act r) .absent [.acquire .client, .acquire .results] =
      some .held := by
    intro r
    cases r <;> rfl
  have hphase : ∀ r, phase (LoggedCall.act r) .absent
      ([.acquire .client, .acquire .results] ++ startedCalls dump view doc info) =
        if stored.isSome then some .held else some .released := by
    intro r
    rw [phase_append_of_eq (hacquired r), phase_startedCalls dump view doc h, hstored]
    cases info.flags.opt && endsSequence (optimizedItems dump view doc info) <;> rfl
  cases hinfo : stored with
  | none =>
    have ht' : t' = t := by rw [show t' = stored.elim t _ from rfl, hinfo, elim_none]
    rw [ht']
    rw [hinfo] at hphase
    refine ⟨fun _ _ ↦ rfl, .finished hfree fun r ↦ ?_⟩
    exact (phase_append_of_eq (hphase r) _).trans rfl
  | some new =>
    have ht' : t' = insertEnumInfo t new now := by
      rw [show t' = stored.elim t _ from rfl, hinfo, elim_some]
    obtain ⟨k, hmoved⟩ := h.stored_moved hinfo
    have hid : new.enumId = info₀.enumId := hmoved.enumId.trans h.enumId
    have hnew : t.lookup new.enumId = none := by rw [hid]; exact hfree
    have hlookup := lookup_insertEnumInfo hnew now
    rw [← ht', hid] at hlookup
    rw [hinfo] at hphase
    refine ⟨fun k hk ↦ (hlookup k).trans (if_neg hk),
      .stored _ ((hlookup _).trans (if_pos rfl)) ?_ fun r ↦ ?_⟩
    · rw [WsEnumerateInfo.stamped_flags, hmoved.flags]
      exact hflag
    · exact (phase_append_of_eq (hphase r) _).trans rfl

variable {host : CimHost κ}

theorem cimEnumerateStubCalls_spec {cimom : Cimom κ} {t' : CimTable κ} (hfree : t.lookup id = none)
    (h : cimEnumerateStub host cimom id now t op = .value (t', out)) :
    (∀ k, k ≠ id → t'.lookup k = t.lookup k) ∧
      ∃ calls, cimEnumerateStubCalls host cimom id now t op = callsAbout id calls ∧
        EnumerateEffect t' id calls := by
  rw [cimEnumerateStub] at h
  rw [cimEnumerateStubCalls]
  -- an Enumerate that ends early leaves no calls
  have hearly : (∀ k, k ≠ id → t.lookup k = t.lookup k) ∧
      ∃ calls, ([] : CimLog) = callsAbout id calls ∧ EnumerateEffect t id calls :=
    ⟨fun _ _ ↦ rfl, [], rfl, .failed hfree .absent rfl rfl⟩
  split at h
  · next hquota =>
    cases h
    rw [if_pos hquota]
    exact hearly
  next hquota =>
  rw [if_neg hquota]
  obtain ⟨created, hcreate, h⟩ := bind_eq_value.mp h
  rw [hcreate]
  cases created with
  | error status =>
    cases h
    exact hearly
  | ok info₀ =>
    have hid : info₀.enumId = id := (createEnumInfo_ok host.datetime hcreate).1
    obtain ⟨r, hEP, h⟩ := bind_eq_value.mp h
    dsimp only
    rw [hEP, hid]
    dsimp only
    rw [value.injEq, Prod.mk.injEq] at h
    obtain ⟨rfl, -⟩ := h
    rw [cimResourceEnumerateEP] at hEP
    obtain ⟨started, hstart, hEP⟩ := bind_eq_value.mp hEP
    rw [cimResourceEnumerateCalls, hstart]
    cases started with
    | error status =>
      cases hEP
      refine ⟨fun k _ ↦ rfl, _, rfl, .failed hfree .never ?_ rfl⟩
      cases cimom.connects info₀.authData <;> rfl
    | ok info =>
      cases hEP
      obtain ⟨ctx, hstarted⟩ := started_of_cimStartEnumeration (fresh_createEnumInfo hcreate) hstart
      have hconnects : cimom.connects info₀.authData = true := by
        rw [cimStartEnumeration] at hstart
        cases hconnects : cimom.connects info₀.authData with
        | true => rfl
        | false => rw [hconnects] at hstart; cases hstart
      have hflag : info.flags.cimContextCleanup = false :=
        (cimContextCleanup_cimStartEnumeration hstart).trans
          (cimContextCleanup_createEnumInfo hcreate)
      obtain ⟨hothers, heffect⟩ := enumerateEffect_of_started host.dump host.view hstarted hflag
        (hid.symm ▸ hfree) now
      rw [hconnects]
      rw [hid] at hothers heffect
      exact ⟨hothers, _, rfl, heffect⟩

/-! ## Every run -/

theorem ResourcesSound.of_request (hs : ResourcesSound s log) (hsound : ContextsSound s)
    {stub : CimStub κ} {calls : CimStubCalls κ} {uuid : String} {doc : WsXmlNode}
    {msg : WsmanMessage}
    (hcontinues : ∀ op t out, stub s.table op = .value (t, out) → Continues s.table t (calls s.table
      op)) (hcreated : s'.created = s.created)
    (hservice : (s.operateLogged host log stub calls uuid doc msg).service.1 = .value s'.table) :
    ResourcesSound s' (s.operateLogged host log stub calls uuid doc msg).service.2 := by
  rcases CimServer.operateLogged_spec hservice with
    ⟨htable, hlog⟩ | ⟨op, out, hstub, hlog⟩
  · rw [hlog, ← append_nil log]
    exact hs.continue hcreated hsound (htable ▸ .refl s.table)
  · rw [hlog]
    exact hs.continue hcreated hsound (hcontinues op s'.table out hstub)

theorem ResourcesSound.of_enumerate (hs : ResourcesSound s log) (hid : id ∉ s.created)
    (hcreated : s'.created = id :: s.created)
    (hothers : ∀ k, k ≠ id → s'.table.lookup k = s.table.lookup k) {calls : List LoggedCall}
    (heffect : EnumerateEffect s'.table id calls) :
    ResourcesSound s' (log ++ callsAbout id calls) := by
  have hown : ∀ r, phase (actOn id r) .absent (log ++ callsAbout id calls) =
      phase (LoggedCall.act r) .absent calls := by
    intro r
    rw [phase_append_of_eq (hs.fresh id hid r), phase_own]
  have hrest : ∀ k, k ≠ id → ∀ r, phase (actOn k r) .absent (log ++ callsAbout id calls) =
      phase (actOn k r) .absent log := by
    intro k hk r
    have hunseen : ∀ q, phase (actOn k r) q (callsAbout id calls) = some q :=
      phase_others (fun e he heq ↦ hk (heq.symm.trans (fst_of_mem_callsAbout he))) r
    rw [phase_append, funext hunseen, bind_fun_some]
  refine ⟨fun k info hinfo ↦ ?_, fun k hnone ↦ ?_, fun k hk r ↦ ?_⟩
  · by_cases hk : k = id
    · subst hk
      rcases heffect with ⟨new, hnew, hflag, hheld⟩ | ⟨hmissing, _⟩ | ⟨hmissing, _⟩
      · obtain rfl := some.inj (hnew.symm.trans hinfo)
        exact ⟨hflag, fun r ↦ (hown r).trans (hheld r)⟩
      · exact absurd (hmissing.symm.trans hinfo) (by simp)
      · exact absurd (hmissing.symm.trans hinfo) (by simp)
    · rw [hothers k hk] at hinfo
      obtain ⟨hflag, hheld⟩ := hs.alive k info hinfo
      exact ⟨hflag, fun r ↦ (hrest k hk r).trans (hheld r)⟩
  · by_cases hk : k = id
    · subst hk
      rcases heffect with ⟨new, hnew, _⟩ | ⟨_, hgone⟩ | ⟨_, q, hq, hnever⟩
      · exact absurd (hnew.symm.trans hnone) (by simp)
      · exact .inl fun r ↦ (hown r).trans (hgone r)
      · exact .inr ⟨q, (hown .results).trans hq, hnever⟩
    · rw [hothers k hk] at hnone
      simp only [hrest k hk]
      exact hs.ended k hnone
  · rw [hcreated, mem_cons, not_or] at hk
    exact (hrest k hk.1 r).trans (hs.fresh k hk.2 r)

theorem resourcesSound_step {log' : CimLog} {l : CimEvent κ} (hsound : ContextsSound s)
    (hs : ResourcesSound s log) (h : (cimLoggedServer host).Step (s, log) l (s', log')) :
    ResourcesSound s' log' := by
  obtain ⟨hid, h⟩ := h
  cases l with
  | scan now =>
    cases h
    refine hs.continue rfl hsound (continues_scan (fun id info hinfo ↦ ?_) _ _)
    obtain ⟨ctx, hwf⟩ := (hsound id info hinfo).wellFormed
    exact cimResourceReleaseCalls_eq hwf (hs.alive id info hinfo).1
  | pull uuid now doc msg =>
    obtain ⟨t, hservice, h⟩ := bind_eq_value.mp h
    cases h
    refine hs.of_request hsound (fun op t out hstub ↦ ?_) rfl hservice
    refine continues_lockedStub (sameIdentity_cimPull host.dump host.view)
      (fun doc id info hinfo ↦ ?_) hstub
    obtain ⟨ctx, hwf⟩ := (hsound id info hinfo).wellFormed
    exact keepsResources_pull host.dump host.view doc (hwf.withInWork true)
  | release uuid now doc msg =>
    obtain ⟨t, hservice, h⟩ := bind_eq_value.mp h
    cases h
    refine hs.of_request hsound (fun op t out hstub ↦ ?_) rfl hservice
    refine continues_lockedStub (fun doc info ↦
      sameIdentity_finish .release doc (cimResourceReleaseEP info)) (fun doc id info hinfo ↦ ?_)
      hstub
    obtain ⟨ctx, hwf⟩ := (hsound id info hinfo).wellFormed
    exact keepsResources_release doc (hwf.withInWork true) (hs.alive id info hinfo).1
  | enumerate cimom id uuid now doc msg =>
    obtain ⟨t, hservice, h⟩ := bind_eq_value.mp h
    cases h
    rcases CimServer.operateLogged_spec hservice with
      ⟨htable, hlog⟩ | ⟨op, out, hstub, hlog⟩
    · rw [hlog, ← append_nil (s, log).2]
      have hmissing : t.lookup id = none := by rw [htable]; exact hsound.lookup_eq_none hid
      change ResourcesSound _ (log ++ callsAbout id [])
      exact hs.of_enumerate hid rfl (fun k _ ↦ congrArg (Table.lookup · k) htable)
        (.failed hmissing .absent rfl rfl)
    · obtain ⟨hothers, calls, hcalls, heffect⟩ :=
        cimEnumerateStubCalls_spec (hsound.lookup_eq_none hid) hstub
      rw [hlog, hcalls]
      exact hs.of_enumerate hid rfl hothers heffect

theorem resourcesSound_of_reachable {s : CimServer κ × CimLog}
    (h : Reachable (cimLoggedServer host) s) : ResourcesSound s.1 s.2 := by
  refine Reachable.induct (P := fun s ↦ ResourcesSound s.1 s.2) (fun s hinit ↦ ?_)
    (fun s l s' hs hsound hstep ↦ resourcesSound_step (contextsSound_of_logged hs) hsound hstep) h
  obtain ⟨⟨htable, _, _⟩, hlog⟩ := hinit
  rw [hlog]
  refine ⟨fun id info hinfo ↦ ?_, fun id _ ↦ .inr ⟨.absent, rfl, rfl⟩, fun _ _ _ ↦ rfl⟩
  rw [htable] at hinfo
  exact absurd hinfo (by simp)

theorem actOn_eq_some_iff {r : CimHeld} {a : Act} :
    actOn id r e = some a ↔ e = (id, match a with
      | .acquire => .acquire r
      | .use => .use r
      | .release => .release r
      | .destroy => .destroyEnuminfo) := by
  obtain ⟨k, c⟩ := e
  rw [actOn, Prod.mk.injEq]
  by_cases hk : k = id
  · rw [if_pos hk]
    cases c <;> cases a <;> simp [LoggedCall.act, hk]
  · simp [hk]

theorem count_eq_countP (id : String) (r : CimHeld) {a : Act}
    (h : ∀ b, actOn id r b = some a ↔ b = e) (log : CimLog) :
    log.count e = log.countP fun b ↦ actOn id r b == some a := by
  rw [count]
  refine countP_congr fun b _ ↦ ?_
  rw [beq_iff_eq, beq_iff_eq, h b]

/-- **Everything is released once.** In every run, for every enumeration that was started: client
and results have been released once if the context has been destroyed, and not at all as long as it
is in the table; the release comes before the destruction; and there is no use behind it. -/
theorem resources_released_once {host : CimHost κ} {s : CimServer κ} {log : CimLog}
    (h : Reachable (cimLoggedServer host) (s, log)) {id : String}
    (hstarted : (id, .acquire .results) ∈ log) (r : CimHeld) :
    log.count (id, .release r) = (if (s.table.lookup id).isSome then 0 else 1) ∧
      log.count (id, .destroyEnuminfo) = (if (s.table.lookup id).isSome then 0 else 1) ∧
      (∀ before after, log = before ++ (id, .destroyEnuminfo) :: after →
        (id, .release r) ∈ before) ∧
      ∀ before after, log = before ++ (id, .release r) :: after → (id, .use r) ∉ after := by
  have hs := resourcesSound_of_reachable h
  have hphase : phase (actOn id r) .absent log =
      some (if (s.table.lookup id).isSome then .held else .gone) := by
    cases hinfo : s.table.lookup id with
    | some info => exact (hs.alive id info hinfo).2 r
    | none =>
      rcases hs.ended id hinfo with hgone | ⟨q, hq, hnever⟩
      · exact hgone r
      -- the results were acquired, so this enumeration was started
      rcases held_or_released hq hstarted (actOn_eq_some_iff.mpr rfl) with rfl | hreleased
      · cases hnever
      · cases q <;> simp_all [acquisitions, releases]
  have hrelease := countP_release hphase
  have hdestroy := countP_destroy hphase
  rw [← count_eq_countP id r (fun _ ↦ actOn_eq_some_iff)] at hrelease hdestroy
  rw [releases, Nat.zero_add] at hrelease
  rw [destructions, Nat.zero_add] at hdestroy
  refine ⟨?_, ?_, fun before after hlog ↦ ?_, fun before after hlog huse ↦ ?_⟩
  · rw [hrelease]
    split <;> rfl
  · rw [hdestroy]
    split <;> rfl
  · have hgone : (s.table.lookup id).isSome = false := by
      rw [Bool.eq_false_iff]
      intro hsome
      rw [hsome, if_pos rfl, destructions, hlog] at hdestroy
      exact count_eq_zero.mp hdestroy (by simp)
    rw [hgone, if_neg Bool.false_ne_true, hlog] at hphase
    obtain ⟨e, he, hact⟩ := exists_release_of_gone (actOn_eq_some_iff.mpr rfl) hphase
    exact actOn_eq_some_iff.mp hact ▸ he
  · rw [hlog] at hphase
    exact not_use_of_released (actOn_eq_some_iff.mpr rfl) hphase _ huse (actOn_eq_some_iff.mpr rfl)

def diskLog : CimLog :=
  callsAbout "uuid:2"
    [.acquire .client, .acquire .results, .use .client, .use .client, .use .results, .use .client,
      .use .client, .use .results, .release .results, .release .client, .destroyEnuminfo]

theorem two_disks_released_once :
    ∃ s, Reachable (cimLoggedServer (diskHost 400)) (s, diskLog) ∧
      s.table.lookup "uuid:2" = none ∧ diskLog.count ("uuid:2", .release .results) = 1 ∧
      diskLog.count ("uuid:2", .release .client) = 1 := by
  have h₀ : Reachable (cimLoggedServer (diskHost 400)) (freshServer, []) :=
    .init ⟨⟨rfl, rfl, rfl⟩, rfl⟩
  have h₁ := h₀.step (l := enumerateDisks) ⟨not_mem_nil, rfl⟩
  have h₂ := h₁.step (l := pullDisks "uuid:3" "1200") ⟨trivial, rfl⟩
  obtain ⟨s, h₃, hmissing⟩ : ∃ s, Reachable (cimLoggedServer (diskHost 400)) (s, diskLog) ∧
      s.table.lookup "uuid:2" = none :=
    ⟨_, h₂.step (l := pullDisks "uuid:4" "1200") ⟨trivial, rfl⟩, rfl⟩
  have hstarted : ("uuid:2", .acquire .results) ∈ diskLog := by decide
  have honce := resources_released_once h₃ hstarted
  simp only [hmissing] at honce
  exact ⟨s, h₃, hmissing, (honce .results).1, (honce .client).1⟩

end Openwsman
