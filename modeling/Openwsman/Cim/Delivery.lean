import Openwsman.Cim.Service

/-!
# What Pull responses deliver

Two limits apply to the response to a Pull. While the items are collected, the envelope may not get
longer than the client asked for with `MaxEnvelopeSize` or `MaxCharacters`; when the response leaves
the server, the outbound filter replaces it by a fault if it is longer than the limit of the
operation, which `MaxCharacters` does not set. The cursor of the context follows the collection.

* A first item that is too long for the collection stays in the response and the cursor stays where
  it is, in the expectation that the outbound filter will make a fault of it. Where the filter lets
  it pass, the next Pull delivers it again. Without such a Pull, no item is delivered twice.
* A response that the outbound filter replaces by a fault has moved the cursor already, or has even
  removed the context, unless its first item was too long for the collection, too.
-/

namespace Openwsman

open Option List KeyedTable Transition

variable {κ : Type}

/-! ## Positions of results -/

variable {ctx : CimContext κ} {info : CimInfo κ} {k : ℕ}

theorem snd_of_mem_take_remaining (h : WellFormed ctx info) {e : κ × ℕ}
    (he : e ∈ (remainingResults ctx.results info).take k) :
    info.index.toNat ≤ e.2 ∧ e.2 < info.index.toNat + k := by
  rw [h.remainingResults_eq] at he
  obtain ⟨i, hi, rfl⟩ := mem_iff_getElem.mp he
  rw [length_take] at hi
  rw [getElem_take, getElem_drop, getElem_zipIdx]
  dsimp only
  omega

theorem filterMap_source_pageItems (view : CimView κ) (client : CimClientInfo) (flags : EnumFlags)
    (fragstr : Option String) (maxelements : ℤ) (remaining : List (κ × ℕ)) (n : ℕ) :
    (pageItems view client flags fragstr maxelements remaining n).filterMap CimItem.source =
      remaining.take n := by
  obtain ⟨extra, heq, hextra⟩ := pageItems_cases view client flags fragstr maxelements remaining n
  have hnil : extra.filterMap CimItem.source = [] := by
    rcases hextra with rfl | ⟨_, rfl⟩
    · rfl
    · exact filterMap_eq_nil_iff.mpr fun item ↦ source_leftover flags fragstr
  rw [heq, filterMap_append, hnil, append_nil, filterMap_map]
  exact filterMap_some

/-! ## No item twice -/

def OversizedSlips (host : CimHost κ) (s : CimServer κ) (uuid : String) (doc : WsXmlNode)
    (msg : WsmanMessage) : Prop :=
  ∃ id info ctx e, Grants s doc msg id info ∧ info.appEnumContext = some ctx ∧
    (remainingResults ctx.results info).head? = some e ∧
    isExcluded host.view ctx.client info.flags e.1 = false ∧
    let item := itemOf host.view ctx.client (info.withInWork true).flags
      (wsmanGetFragmentString doc) e
    pullTooLong host.dump doc info [item] = true ∧
      exceedsLimit host uuid doc msg (pullResponse doc ctx info [item] 0) = false

def LimitsAgree (host : CimHost κ) (s : CimServer κ) : CimEvent κ → Prop
  | .pull uuid _ doc msg => ¬OversizedSlips host s uuid doc msg
  | _ => True

def agreeingServer (host : CimHost κ) : System (CimServer κ) (CimEvent κ) where
  Init := (cimServer host).Init
  Step s l s' := (cimServer host).Step s l s' ∧ LimitsAgree host s l

variable {host : CimHost κ} {s : CimServer κ}

theorem reachable_of_agreeing (h : Reachable (agreeingServer host) s) :
    Reachable (cimServer host) s := by
  refine Reachable.induct (S := agreeingServer host) (fun s hinit ↦ ?_)
    (fun s l s' _ hs hstep ↦ ?_) h
  · exact .init hinit
  · exact hs.step hstep.1

variable {uuid : String} {doc : WsXmlNode} {msg : WsmanMessage} {t : CimTable κ} {answer : CimDoc κ}
  {id : String} {items : List (CimItem κ)}

theorem Pulled.sources_between (hp : Pulled host s uuid doc msg t answer id info ctx items k)
    (hgrants : Grants s doc msg id info) (hagree : ¬OversizedSlips host s uuid doc msg)
    (hfits : exceedsLimit host uuid doc msg (pullResponse doc ctx info items k) = false) {e : κ × ℕ}
    (he : e ∈ items.filterMap CimItem.source) :
    info.index.toNat ≤ e.2 ∧ e.2 < info.index.toNat + k := by
  obtain ⟨item, hitem, hsource⟩ := mem_filterMap.mp he
  have hcol := hp.collection
  unfold PullCollection at hcol
  generalize hrem : remainingResults ctx.results (info.withInWork true) = remaining at hcol
  cases hcol with
  | stuck => exact absurd hsource (by simp [source_leftover _ _ hitem])
  | @oversized e' rest hadm hlong =>
    -- the response would have passed the outbound filter
    refine absurd ⟨id, info, ctx, e', hgrants, hp.wellFormed.context, ?_, hadm, hlong, hfits⟩ hagree
    exact congrArg head? hrem
  | page =>
    rw [filterMap_source_pageItems, ← hrem] at he
    exact snd_of_mem_take_remaining hp.wellFormed he

/-- Everything delivered from a context is behind its cursor, and nothing was delivered twice. -/
structure DeliveredOnce (s : CimServer κ) : Prop where
  created : ∀ p ∈ s.pulls, p.1 ∈ s.created
  behind : ∀ p ∈ s.pulls, ∀ info, s.table.lookup p.1 = some info →
    ∀ e ∈ p.2, e.2 < info.index.toNat
  disjoint : s.pulls.Pairwise fun p q ↦ p.1 = q.1 → p.2.Disjoint q.2

theorem DeliveredOnce.of_removed {s' : CimServer κ} (hs : DeliveredOnce s)
    (hcreated : s'.created = s.created) (hpulls : s'.pulls = s.pulls)
    (h : ∀ k, s'.table.lookup k = s.table.lookup k ∨ s'.table.lookup k = none) :
    DeliveredOnce s' := by
  refine ⟨by rw [hcreated, hpulls]; exact hs.created, fun p hp info hinfo ↦ ?_,
    by rw [hpulls]; exact hs.disjoint⟩
  rw [hpulls] at hp
  rcases h p.1 with hsame | hnone
  · exact hs.behind p hp info (hsame.symm.trans hinfo)
  · exact absurd (hnone.symm.trans hinfo) (by simp)

theorem deliveredOnce_pull (hs : ContextsSound s) (hd : DeliveredOnce s) {now : ℕ}
    (h : (s.pull host uuid now doc msg).service = .value t)
    (hagree : ¬OversizedSlips host s uuid doc msg) (ids : List String) :
    DeliveredOnce
      { s with
        ids := ids
        table := t
        pulls := s.pulls ++ CimServer.delivery doc (s.pull host uuid now doc msg).response } := by
  obtain ⟨answer, hanswer, ⟨rfl, hbody, _⟩ | ⟨id, info, ctx, items, k, hgrants, hp⟩⟩ :=
    CimServer.pull_spec hs h
  · have hnil : CimServer.delivery doc (s.pull host uuid now doc msg).response = [] := by
      rw [hanswer, CimServer.delivery, bind_some, hbody]
      split <;> simp_all
    rw [hnil, append_nil]
    exact ⟨hd.created, hd.behind, hd.disjoint⟩
  have hfound := hgrants.2.found
  -- The cursor only moves forward, so what was behind it stays behind it.
  have hbehind : ∀ p ∈ s.pulls, ∀ info', t.lookup p.1 = some info' →
      ∀ e ∈ p.2, e.2 < info'.index.toNat := by
    intro p hmem info' hinfo' e he
    by_cases hid : p.1 = id
    · have hold := hd.behind p hmem info (hid ▸ hfound) e he
      by_cases hend : info.index.toNat + k = ctx.results.list.length
      · exact absurd ((hp.removed hend).symm.trans (hid ▸ hinfo')) (by simp)
      obtain ⟨moved, hmoved, hm⟩ := hp.moved hend
      obtain rfl : moved = info' := some.inj (hmoved.symm.trans (hid ▸ hinfo'))
      rw [hm.cursor]
      omega
    · exact hd.behind p hmem info' ((hp.others p.1 hid).symm.trans hinfo') e he
  cases hlimit : exceedsLimit host uuid doc msg (pullResponse doc ctx info items k) with
  | true =>
    -- The outbound filter has made a fault of the response: nothing is recorded.
    have hnil : CimServer.delivery doc (s.pull host uuid now doc msg).response = [] := by
      rw [hanswer, CimServer.delivery, bind_some, hp.body, hlimit]
      split <;> simp_all
    rw [hnil, append_nil]
    exact ⟨hd.created, hbehind, hd.disjoint⟩
  | false =>
    have hone : CimServer.delivery doc (s.pull host uuid now doc msg).response =
        [(id, items.filterMap CimItem.source)] := by
      rw [hanswer, CimServer.delivery, hgrants.2.requested, bind_some, hp.body, hlimit]
      simp
    have hrange := fun e he ↦ hp.sources_between hgrants hagree hlimit (e := e) he
    rw [hone]
    refine ⟨fun p hmem ↦ ?_, fun p hmem info' hinfo' e he ↦ ?_, ?_⟩
    · rcases mem_append.mp hmem with hold | hnew
      · exact hd.created p hold
      · rw [mem_singleton.mp hnew]
        exact (hs id info hfound).created
    · rcases mem_append.mp hmem with hold | hnew
      · exact hbehind p hold info' hinfo' e he
      obtain rfl := mem_singleton.mp hnew
      by_cases hend : info.index.toNat + k = ctx.results.list.length
      · exact absurd ((hp.removed hend).symm.trans hinfo') (by simp)
      obtain ⟨moved, hmoved, hm⟩ := hp.moved hend
      obtain rfl : moved = info' := some.inj (hmoved.symm.trans hinfo')
      rw [hm.cursor]
      exact (hrange e he).2
    · refine pairwise_append.mpr ⟨hd.disjoint, pairwise_singleton _ _, ?_⟩
      intro p hold q hnew hsame e hep heq
      rw [mem_singleton.mp hnew] at hsame heq
      have hlt := hd.behind p hold info (hsame ▸ hfound) e hep
      have hge := (hrange e heq).1
      omega

theorem deliveredOnce_step {s' : CimServer κ} {l : CimEvent κ} (hs : ContextsSound s)
    (hd : DeliveredOnce s) (h : (cimServer host).Step s l s') (hagree : LimitsAgree host s l) :
    DeliveredOnce s' := by
  obtain ⟨hid, h⟩ := h
  cases l with
  | enumerate cimom id uuid now doc msg =>
    obtain ⟨t, hservice, h⟩ := CResult.bind_eq_value.mp h
    cases h
    refine ⟨fun p hp ↦ mem_cons_of_mem _ (hd.created p hp), fun p hp info hinfo ↦ ?_, hd.disjoint⟩
    -- the new context is not on record
    have hne : p.1 ≠ id := fun heq ↦ hid (heq ▸ hd.created p hp)
    rcases CimServer.enumerate_spec (hs.lookup_eq_none hid) hservice with
      rfl | ⟨ctx, new, _, _, hlookup⟩
    · exact hd.behind p hp info hinfo
    · have hinfo := (hlookup p.1).symm.trans hinfo
      rw [if_neg hne] at hinfo
      exact hd.behind p hp info hinfo
  | pull uuid now doc msg =>
    obtain ⟨t, hservice, h⟩ := CResult.bind_eq_value.mp h
    cases h
    exact deliveredOnce_pull hs hd hservice hagree _
  | release uuid now doc msg =>
    obtain ⟨t, hservice, h⟩ := CResult.bind_eq_value.mp h
    cases h
    exact hd.of_removed rfl rfl (CimServer.release_spec hservice)
  | scan now =>
    cases h
    refine hd.of_removed rfl rfl fun k ↦ ?_
    exact (lookup_wsmanGetExpiredEnuminfos s.table host.enumIdleTimeout now k).imp_right And.left

/-- **No item is delivered twice** in any run in which the two limits agree at every Pull. -/
theorem no_item_delivered_twice {host : CimHost κ} {s : CimServer κ}
    (h : Reachable (agreeingServer host) s) :
    s.pulls.Pairwise fun p q ↦ p.1 = q.1 → p.2.Disjoint q.2 := by
  have honce : DeliveredOnce s := by
    refine Reachable.induct (S := agreeingServer host) (P := DeliveredOnce) (fun s hinit ↦ ?_)
      (fun s l s' hr hd hstep ↦ ?_) h
    · refine ⟨?_, ?_, ?_⟩ <;> rw [hinit.2.2]
      all_goals simp
    · exact deliveredOnce_step (contextsSound_of_reachable (reachable_of_agreeing hr)) hd hstep.1
        hstep.2
  exact honce.disjoint

def diskHost (size : ℕ) : CimHost String where
  dump := diskLength size
  view := diskView

def freshServer : CimServer String := ⟨[], Table.empty, [], []⟩

def enumerateDisks : CimEvent String :=
  .enumerate (diskCimom twoDisks) "uuid:2" "uuid:11" 0
    (diskRequest "/Enumerate" "uuid:1" [] [.elem xmlNsEnumeration wsenumEnumerate []]) {}

def diskServer : CimServer String where
  ids := ["uuid:1"]
  table :=
    ⟨[{ diskInfo with
      flags := { polyInclude := true }
      totalItems := 2
      maxsize := 32767
      appEnumContext :=
        some ⟨cimClientOf {} (diskRequest "/Enumerate" "uuid:1" [] []) [], twoDisks⟩ }],
      by simp⟩
  created := ["uuid:2"]
  pulls := []

theorem handle_enumerateDisks (size : ℕ) :
    freshServer.handle (diskHost size) enumerateDisks = .value diskServer := by rfl

theorem reachable_diskServer (size : ℕ) : Reachable (cimServer (diskHost size)) diskServer := by
  have hfresh : Reachable (cimServer (diskHost size)) freshServer := .init ⟨rfl, rfl, rfl⟩
  exact hfresh.step (l := enumerateDisks) ⟨not_mem_nil, handle_enumerateDisks size⟩

def pullDisksDoc (msgId limit : String) : WsXmlNode :=
  diskPull msgId [] [.elem xmlNsEnumeration wsenumMaxCharacters [.text limit]]

def pullDisks (msgId limit : String) : CimEvent String :=
  .pull "uuid:12" 0 (pullDisksDoc msgId limit) {}

theorem limitsAgree_pullDisks (s : CimServer String) (msgId : String) :
    LimitsAgree (diskHost 400) s (pullDisks msgId "1200") := by
  rintro ⟨id, info, ctx, e, _, _, _, _, hlong, _⟩
  have hshort : ∀ item, pullTooLong (diskHost 400).dump (pullDisksDoc msgId "1200") info [item] =
      false := fun _ ↦ rfl
  exact absurd hlong (by rw [hshort]; exact Bool.false_ne_true)

theorem two_disks_delivered_once :
    ∃ s, Reachable (agreeingServer (diskHost 400)) s ∧
      s.pulls = [("uuid:2", [("sda", 0)]), ("uuid:2", [("sdb", 1)])] ∧
      s.pulls.Pairwise fun p q ↦ p.1 = q.1 → p.2.Disjoint q.2 := by
  have h₀ : Reachable (agreeingServer (diskHost 400)) freshServer := .init ⟨rfl, rfl, rfl⟩
  have h₁ := h₀.step (l := enumerateDisks) ⟨⟨not_mem_nil, handle_enumerateDisks 400⟩, trivial⟩
  have h₂ := h₁.step (l := pullDisks "uuid:3" "1200") ⟨⟨trivial, rfl⟩, limitsAgree_pullDisks _ _⟩
  have h₃ := h₂.step (l := pullDisks "uuid:4" "1200") ⟨⟨trivial, rfl⟩, limitsAgree_pullDisks _ _⟩
  exact ⟨_, h₃, rfl, no_item_delivered_twice h₃⟩

/-- Two Pulls for at most 800 characters deliver the same disk, since the envelope with it has 1000
and the outbound filter allows for more. -/
theorem item_delivered_twice :
    ∃ s, Reachable (cimServer (diskHost 400)) s ∧
      s.pulls = [("uuid:2", [("sda", 0)]), ("uuid:2", [("sda", 0)])] ∧
      ¬s.pulls.Pairwise fun p q ↦ p.1 = q.1 → p.2.Disjoint q.2 := by
  have h₁ := reachable_diskServer 400
  have h₂ := h₁.step (l := pullDisks "uuid:3" "800") ⟨trivial, rfl⟩
  have h₃ := h₂.step (l := pullDisks "uuid:4" "800") ⟨trivial, rfl⟩
  refine ⟨_, h₃, rfl, ?_⟩
  change ¬Pairwise _ [("uuid:2", [("sda", 0)]), ("uuid:2", [("sda", 0)])]
  simp

/-! ## Faults and cursors -/

def PullTakes (host : CimHost κ) (doc : WsXmlNode) (ctx : CimContext κ) (info : CimInfo κ)
    (n : ℕ) : Prop :=
  Takes host.view ctx.client (info.withInWork true).flags (wsmanGetFragmentString doc)
    (pullTooLong host.dump doc info) (pullLimits doc).countdown
    (remainingResults ctx.results info) n

def pageResponse (host : CimHost κ) (doc : WsXmlNode) (ctx : CimContext κ) (info : CimInfo κ)
    (n : ℕ) : CimDoc κ :=
  pullResponse doc ctx info (pageItems host.view ctx.client (info.withInWork true).flags
    (wsmanGetFragmentString doc) (pullLimits doc).countdown (remainingResults ctx.results info) n) n

def PageLost (host : CimHost κ) (s : CimServer κ) (uuid : String) (doc : WsXmlNode)
    (msg : WsmanMessage) : Prop :=
  ∃ id info ctx n, Grants s doc msg id info ∧ info.appEnumContext = some ctx ∧
    PullTakes host doc ctx info n ∧ (remainingResults ctx.results info = [] ∨ 0 < n) ∧
    exceedsLimit host uuid doc msg (pageResponse host doc ctx info n) = true

def ContextKept (s : CimServer κ) (doc : WsXmlNode) (t : CimTable κ) : Prop :=
  ∀ id info, requestedContext doc wsenumPull = some id → s.table.lookup id = some info →
    ∃ info', t.lookup id = some info' ∧ info'.index = info.index ∧
      info'.appEnumContext = info.appEnumContext

theorem Pulled.contextKept_iff (hp : Pulled host s uuid doc msg t answer id info ctx items k)
    (hgrants : Grants s doc msg id info) :
    ContextKept s doc t ↔ ¬(remainingResults ctx.results info = [] ∨ 0 < k) := by
  have hlen := hp.wellFormed.length_remaining
  have hle : k ≤ (remainingResults ctx.results info).length := hp.collection.takes.le
  have hcursor := hp.wellFormed.cursor_le
  -- Both sides say that the cursor stays: it moves by `k`, and the context is gone at the end.
  rw [not_or, ← length_eq_zero_iff]
  constructor
  · intro hkept
    obtain ⟨info', hlookup, hindex, _⟩ := hkept id info hgrants.2.requested hgrants.2.found
    have hmore : info.index.toNat + k ≠ ctx.results.list.length := fun hend ↦
      absurd ((hp.removed hend).symm.trans hlookup) (by simp)
    obtain ⟨moved, hmoved, hm⟩ := hp.moved hmore
    obtain rfl : moved = info' := some.inj (hmoved.symm.trans hlookup)
    have hsame := hm.cursor
    rw [hindex] at hsame
    omega
  · rintro ⟨hne, hzero⟩ id' info' hreq hfound
    obtain rfl : id' = id := some.inj (hreq.symm.trans hgrants.2.requested)
    obtain rfl : info' = info := some.inj (hfound.symm.trans hgrants.2.found)
    obtain ⟨moved, hmoved, hm⟩ := hp.moved (by omega)
    refine ⟨moved, hmoved, UInt32.toNat_inj.mp ?_, ?_⟩
    · rw [hm.cursor]
      omega
    · rw [hm.wellFormed.context, hp.wellFormed.context]

theorem Pulled.pageResponse_eq (hp : Pulled host s uuid doc msg t answer id info ctx items k)
    (hpass : remainingResults ctx.results info = [] ∨ 0 < k) :
    pageResponse host doc ctx info k = pullResponse doc ctx info items k := by
  have hcol := hp.collection
  have hpass : remainingResults ctx.results (info.withInWork true) = [] ∨ 0 < k := hpass
  unfold PullCollection at hcol
  have hpage : items = pageItems host.view ctx.client (info.withInWork true).flags
      (wsmanGetFragmentString doc) (pullLimits doc).countdown
      (remainingResults ctx.results (info.withInWork true)) k := by
    generalize remainingResults ctx.results (info.withInWork true) = remaining at hcol hpass ⊢
    cases hcol with
    | stuck => simp at hpass
    | oversized => simp at hpass
    | page => rfl
  rw [hpage]
  rfl

/-- **Faults and contexts.** In every state of the server, a Pull that is answered with a fault
keeps the context that it names, with its cursor and its results, unless it is a Pull of
`PageLost`. -/
theorem pull_fault_keeps_context_iff {host : CimHost κ} {s : CimServer κ}
    (h : Reachable (cimServer host) s) (uuid : String) (now : ℕ) (doc : WsXmlNode)
    (msg : WsmanMessage) {t : CimTable κ}
    (hservice : (s.pull host uuid now doc msg).service = .value t) :
    ((∃ answer, (s.pull host uuid now doc msg).response = some answer ∧ answer.isFault = true) →
        ContextKept s doc t) ↔
      ¬PageLost host s uuid doc msg := by
  obtain ⟨answer, hanswer, ⟨rfl, _, hno⟩ | ⟨id, info, ctx, items, k, hgrants, hp⟩⟩ :=
    CimServer.pull_spec (contextsSound_of_reachable h) hservice
  · refine ⟨fun _ ⟨id, info, ctx, _, hgrants, _⟩ ↦ hno id info hgrants,
      fun _ _ id info _ hfound ↦ ?_⟩
    exact ⟨info, hfound, rfl, rfl⟩
  -- A Pull gets one context at most, so the one of `PageLost` is the one at hand.
  have hlost : PageLost host s uuid doc msg ↔ (remainingResults ctx.results info = [] ∨ 0 < k) ∧
        exceedsLimit host uuid doc msg (pullResponse doc ctx info items k) = true := by
    constructor
    · rintro ⟨id', info', ctx', n, hgrants', hctx, htakes, hpass, hlimit⟩
      obtain rfl : id' = id :=
        some.inj (hgrants'.2.requested.symm.trans hgrants.2.requested)
      obtain rfl : info' = info := some.inj (hgrants'.2.found.symm.trans hgrants.2.found)
      obtain rfl : ctx' = ctx := some.inj (hctx.symm.trans hp.wellFormed.context)
      obtain rfl : n = k := htakes.unique hp.collection.takes
      exact ⟨hpass, hp.pageResponse_eq hpass ▸ hlimit⟩
    · rintro ⟨hpass, hlimit⟩
      exact ⟨id, info, ctx, k, hgrants, hp.wellFormed.context, hp.collection.takes, hpass,
        (hp.pageResponse_eq hpass).symm ▸ hlimit⟩
  have hfault : (∃ answer, (s.pull host uuid now doc msg).response = some answer ∧
      answer.isFault = true) ↔
        exceedsLimit host uuid doc msg (pullResponse doc ctx info items k) = true := by
    rw [hanswer]
    simp only [some.injEq, exists_eq_left', ← SoapDoc.body_eq_none_iff, hp.body]
    simp
  rw [hlost, hfault, hp.contextKept_iff hgrants]
  exact ⟨fun hkept hlost ↦ hkept hlost.2 hlost.1, fun hnot hlimit hpass ↦ hnot ⟨hpass, hlimit⟩⟩

/-- A disk that is too long for both limits stays for the next Pull. -/
theorem fault_keeps_disk :
    ∃ s t, Reachable (cimServer (diskHost 40000)) s ∧
      (s.pull (diskHost 40000) "uuid:12" 0 (pullDisksDoc "uuid:3" "800") {}).service = .value t ∧
      (∃ answer, (s.pull (diskHost 40000) "uuid:12" 0 (pullDisksDoc "uuid:3" "800") {}).response =
        some answer ∧ answer.isFault = true) ∧
      ContextKept s (pullDisksDoc "uuid:3" "800") t ∧
      ¬PageLost (diskHost 40000) s "uuid:12" (pullDisksDoc "uuid:3" "800") {} := by
  have h₁ := reachable_diskServer 40000
  obtain ⟨t, hservice, hkept⟩ : ∃ t,
      (diskServer.pull (diskHost 40000) "uuid:12" 0 (pullDisksDoc "uuid:3" "800") {}).service =
        .value t ∧ ContextKept diskServer (pullDisksDoc "uuid:3" "800") t := by
    refine ⟨_, rfl, fun id info hreq hfound ↦ ?_⟩
    cases hreq
    cases hfound
    exact ⟨_, rfl, rfl, rfl⟩
  exact ⟨diskServer, t, h₁, hservice, ⟨_, rfl, rfl⟩, hkept,
    (pull_fault_keeps_context_iff h₁ _ 0 _ _ hservice).mp fun _ ↦ hkept⟩

/-- A disk that is too long for the outbound filter only is lost. -/
theorem fault_skips_disk :
    ∃ s t info info', Reachable (cimServer (diskHost 40000)) s ∧
      (s.pull (diskHost 40000) "uuid:12" 0 (pullDisksDoc "uuid:3" "0") {}).service = .value t ∧
      (∃ answer, (s.pull (diskHost 40000) "uuid:12" 0 (pullDisksDoc "uuid:3" "0") {}).response =
        some answer ∧ answer.isFault = true) ∧
      requestedContext (pullDisksDoc "uuid:3" "0") wsenumPull = some "uuid:2" ∧
      s.table.lookup "uuid:2" = some info ∧ info.index = 0 ∧
      t.lookup "uuid:2" = some info' ∧ info'.index = 1 := by
  have h₁ := reachable_diskServer 40000
  exact ⟨_, _, _, _, h₁, rfl, ⟨_, rfl, rfl⟩, rfl, rfl, rfl, rfl, rfl⟩

end Openwsman
