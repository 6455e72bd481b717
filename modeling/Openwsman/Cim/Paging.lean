import Openwsman.Cim.Endpoints
import Openwsman.Lib.Paging

/-!
# Whole enumerations

A client sends an Enumerate and then one Pull after the other on the context it got. As long as no
result is excluded and every limit admits the next result, the server is a pager in the sense of
`Paging`: the responses form a session over the numbered results, and what a client may conclude
from the pages of a session holds of them.
-/

namespace Openwsman

open List Paging

variable {κ : Type}

def cimPull (dump : String → CimDoc κ → ℕ) (view : CimView κ) (doc : WsXmlNode) (info : CimInfo κ) :
    StubEnd (CimContext κ) (CimItem κ) :=
  wsenumPullDirectEnd doc (cimResourcePullEP dump view doc info)

/-- Successive Pulls on one context until it is removed: the answers, and what is left of the
context. -/
def pullAll (dump : String → CimDoc κ → ℕ) (view : CimView κ) :
    List WsXmlNode → CimInfo κ → List (Option (CimDoc κ)) × Option (CimInfo κ)
  | [], info => ([], some info)
  | doc :: docs, info =>
    let e := cimPull dump view doc info
    match e.verdict with
    | .remove => ([e.doc], none)
    | .unlock =>
      let rest := pullAll dump view docs e.info
      (e.doc :: rest.1, rest.2)

def numbered (results : CimResults κ) : List (Option (κ × ℕ)) := results.list.zipIdx.map some

@[simp] theorem length_numbered (results : CimResults κ) :
    (numbered results).length = results.list.length := by
  rw [numbered, length_map, length_zipIdx]

def toPage (body : EnumResponse (CimItem κ)) : Page (Option (κ × ℕ)) :=
  ⟨body.items.map CimItem.source, body.hasEndOfSequence⟩

def AdmitsFirst (dump : String → CimDoc κ → ℕ) (view : CimView κ) (doc : WsXmlNode)
    (ctx : CimContext κ) (info : CimInfo κ) : Prop :=
  ∀ e, (remainingResults ctx.results info).head? = some e →
    pullTooLong dump doc info
      [itemOf view ctx.client info.flags (wsmanGetFragmentString doc) e] = false

def AllAdmitFirst (dump : String → CimDoc κ → ℕ) (view : CimView κ) (ctx : CimContext κ) :
    List WsXmlNode → CimInfo κ → Prop
  | [], _ => True
  | doc :: docs, info =>
    AdmitsFirst dump view doc ctx info ∧
      ((cimPull dump view doc info).verdict = .unlock →
        AllAdmitFirst dump view ctx docs (cimPull dump view doc info).info)

def NoneExcluded (view : CimView κ) (ctx : CimContext κ) (info : CimInfo κ) : Prop :=
  ∀ e ∈ remainingResults ctx.results info, isExcluded view ctx.client info.flags e.1 = false

section Step

variable {dump : String → CimDoc κ → ℕ} {view : CimView κ} {doc : WsXmlNode} {ctx : CimContext κ}
  {info : CimInfo κ}

variable {k : ℕ}

theorem Moved.remainingResults_eq {info' : CimInfo κ} (h : WellFormed ctx info)
    (hmoved : Moved ctx info k info') :
    remainingResults ctx.results info' = (remainingResults ctx.results info).drop k := by
  rw [hmoved.wellFormed.remainingResults_eq, h.remainingResults_eq, hmoved.cursor, drop_drop]

theorem NoneExcluded.moved {info' : CimInfo κ} (hnone : NoneExcluded view ctx info)
    (h : WellFormed ctx info) (hmoved : Moved ctx info k info') : NoneExcluded view ctx info' := by
  intro e he
  rw [hmoved.remainingResults_eq h] at he
  rw [hmoved.flags]
  exact hnone e (mem_of_mem_drop he)

structure PageOf (view : CimView κ) (ctx : CimContext κ) (info : CimInfo κ)
    (items : List (CimItem κ)) (k : ℕ) : Prop where
  le : info.index.toNat + k ≤ ctx.results.list.length
  pos : info.index.toNat < ctx.results.list.length → 0 < k
  sources : items.map CimItem.source = ((numbered ctx.results).drop info.index.toNat).take k
  rendered : ∀ item ∈ items, ∃ fragstr e, item = itemOf view ctx.client info.flags fragstr e

theorem PageOf.ne_nil {items : List (CimItem κ)} (h : PageOf view ctx info items k)
    (hlt : info.index.toNat < ctx.results.list.length) : items ≠ [] := by
  intro hnil
  have hlen := congrArg length h.sources
  have hpos := h.pos hlt
  rw [hnil, map_nil, length_nil, length_take, length_drop, length_numbered] at hlen
  omega

theorem source_map_itemOf (fragstr : Option String) (es : List (κ × ℕ)) :
    (es.map (itemOf view ctx.client info.flags fragstr)).map CimItem.source = es.map some := by
  rw [map_map]
  rfl

theorem Collection.pageOf {fragstr : Option String} {tooLong : List (CimItem κ) → Bool}
    {maxelements : ℤ} {items : List (CimItem κ)} (hwf : WellFormed ctx info)
    (h : Collection view ctx.client info.flags fragstr tooLong maxelements (remainingResults
      ctx.results info) items k) (hnone : NoneExcluded view ctx info)
    (hfirst : ∀ e, (remainingResults ctx.results info).head? = some e → tooLong [itemOf view
      ctx.client info.flags fragstr e] = false) : PageOf view ctx info items k := by
  have hlen := hwf.length_remaining
  have hle := hwf.cursor_le
  have hrem : (remainingResults ctx.results info).map some =
      (numbered ctx.results).drop info.index.toNat := by
    rw [hwf.remainingResults_eq, numbered, map_drop]
  rw [NoneExcluded] at hnone
  generalize remainingResults ctx.results info = remaining at h hnone hfirst hlen hrem
  cases h with
  | stuck hex => exact absurd hex (by simp [hnone _ mem_cons_self])
  | oversized _ hlong => exact absurd hlong (by simp [hfirst _ rfl])
  | page htakes hpos =>
    have hitems : pageItems view ctx.client info.flags fragstr maxelements remaining k =
        (remaining.take k).map (itemOf view ctx.client info.flags fragstr) := by
      obtain ⟨extra, heq, hnil | ⟨⟨e, he, hex⟩, _⟩⟩ := pageItems_cases view ctx.client info.flags
        fragstr maxelements remaining k
      · rw [heq, hnil, append_nil]
      · exact absurd hex (by simp [hnone e he])
    have hk := htakes.le
    rw [hitems]
    refine ⟨by omega, fun hlt ↦ hpos ?_, ?_, fun item hitem ↦ ?_⟩
    · rintro rfl
      rw [length_nil] at hlen
      omega
    · rw [source_map_itemOf, ← hrem, map_take]
    · obtain ⟨e, _, he⟩ := mem_map.mp hitem
      exact ⟨_, e, he.symm⟩

/-- A step of the session. The sequence ends behind a page when nothing is left. -/
theorem cimPull_spec (h : WellFormed ctx info) (hnone : NoneExcluded view ctx info)
    (hfirst : AdmitsFirst dump view doc ctx info) :
    ∃ items k, PageOf view ctx info items k ∧
      let done := decide (info.index.toNat + k = ctx.results.list.length)
      (cimPull dump view doc info).doc =
        some (.response (enumHeader doc info) (pullBody info.enumId items done)) ∧
      (cimPull dump view doc info).verdict = (if done then .remove else .unlock) ∧
      (done = false → Moved ctx info k (cimPull dump view doc info).info) := by
  obtain ⟨items, k, hcol, hdoc, hverdict, hinfo⟩ := pullDirectEnd_cim dump view doc h
  refine ⟨items, k, hcol.pageOf h hnone hfirst, hdoc, hverdict, fun hd ↦ ?_⟩
  rw [cimPull, hinfo hd]
  exact h.moved hcol.takes.le (of_decide_eq_false hd)

end Step

/-! ## A run of Pulls -/

structure Answered (view : CimView κ) (ctx : CimContext κ) (info : CimInfo κ)
    (docs : List WsXmlNode) (answers : List (Option (CimDoc κ)) × Option (CimInfo κ))
    (bodies : List (EnumResponse (CimItem κ))) : Prop where
  responses : answers.1.map (fun doc ↦ doc.bind SoapDoc.body) = bodies.map some
  session : Session (numbered ctx.results) info.index.toNat (bodies.map toPage)
  items : ∀ b ∈ bodies, b.hasItemsElement xmlNsEnumeration = true ∧
    ∀ item ∈ b.items, ∃ fragstr e, item = itemOf view ctx.client info.flags fragstr e
  context : ∀ b ∈ bodies, b.hasEndOfSequence = false → b.contextId = some info.enumId
  nonempty : info.index.toNat < ctx.results.list.length → ∀ b ∈ bodies, b.items ≠ []
  unfinished : (∀ b ∈ bodies, b.hasEndOfSequence = false) →
    bodies.length = docs.length ∧ answers.2.isSome
  finished : ∀ b ∈ bodies, b.hasEndOfSequence = true → answers.2 = none

section Answers

variable {view : CimView κ} {ctx : CimContext κ} {info : CimInfo κ} {docs : List WsXmlNode}
  {items : List (CimItem κ)} {k : ℕ}

theorem answered_nil (view : CimView κ) (ctx : CimContext κ) (info : CimInfo κ) :
    Answered view ctx info [] ([], some info) [] := by
  refine ⟨rfl, .nil _, ?_, ?_, ?_, fun _ ↦ ⟨rfl, rfl⟩, ?_⟩
  all_goals simp

theorem PageOf.answered (h : PageOf view ctx info items k)
    (hend : info.index.toNat + k = ctx.results.list.length) (header : List WsXmlNode) :
    Answered view ctx info docs ([some (.response header (pullBody info.enumId items true))], none)
      [pullBody info.enumId items true] := by
  have hlast : Session (numbered ctx.results) info.index.toNat
      [⟨((numbered ctx.results).drop info.index.toNat).take k, true⟩] :=
    .last (by rw [length_numbered]; exact hend)
  rw [← h.sources] at hlast
  refine ⟨by simp [SoapDoc.body], by simpa [toPage] using hlast, ?_, ?_, fun hlt ↦ ?_, ?_, ?_⟩
  · simpa using h.rendered
  · simp
  · simpa using h.ne_nil hlt
  · simp
  · simp

theorem Answered.cons {info' : CimInfo κ}
    {answers : List (Option (CimDoc κ)) × Option (CimInfo κ)}
    {bodies : List (EnumResponse (CimItem κ))} (hb : Answered view ctx info' docs answers bodies)
    (hpage : PageOf view ctx info items k) (hmoved : Moved ctx info k info')
    (hlt : info.index.toNat + k < ctx.results.list.length) (doc : WsXmlNode)
    (header : List WsXmlNode) :
    Answered view ctx info (doc :: docs)
      (some (.response header (pullBody info.enumId items false)) :: answers.1, answers.2)
      (pullBody info.enumId items false :: bodies) := by
  have hsession := hb.session
  have hitems := hb.items
  have hcontext := hb.context
  rw [hmoved.cursor] at hsession
  rw [hmoved.flags] at hitems
  rw [hmoved.enumId] at hcontext
  have hmore : Session (numbered ctx.results) info.index.toNat
      (⟨((numbered ctx.results).drop info.index.toNat).take k, false⟩ :: bodies.map toPage) :=
    .more (by rw [length_numbered]; exact hlt) hsession
  rw [← hpage.sources] at hmore
  refine ⟨by simp [hb.responses, SoapDoc.body], by simpa [toPage] using hmore,
    forall_mem_cons.mpr ⟨⟨pullBody_hasItemsElement _ _ _, ?_⟩, hitems⟩, ?_, fun hpos ↦ ?_,
    fun hopen ↦ ?_, ?_⟩
  · rw [pullBody_items]
    exact hpage.rendered
  · simpa using hcontext
  · simpa using ⟨hpage.ne_nil hpos, hb.nonempty (by rw [hmoved.cursor]; exact hlt)⟩
  · obtain ⟨hlen, hsome⟩ := hb.unfinished fun b hb' ↦ hopen b (mem_cons_of_mem _ hb')
    exact ⟨by rw [length_cons, length_cons, hlen], hsome⟩
  · simpa using hb.finished

theorem exists_answered {dump : String → CimDoc κ → ℕ} (docs : List WsXmlNode)
    {info : CimInfo κ} (h : WellFormed ctx info) (hnone : NoneExcluded view ctx info)
    (hadm : AllAdmitFirst dump view ctx docs info) :
    ∃ bodies, Answered view ctx info docs (pullAll dump view docs info) bodies := by
  induction docs generalizing info with
  | nil => exact ⟨[], answered_nil view ctx info⟩
  | cons doc docs ih =>
    obtain ⟨items, k, hpage, hdoc, hverdict, hmoved⟩ := cimPull_spec h hnone hadm.1
    by_cases hend : info.index.toNat + k = ctx.results.list.length
    · -- the last page: the context is removed
      rw [decide_eq_true hend] at hdoc hverdict
      rw [if_pos rfl] at hverdict
      simp only [pullAll, hverdict, hdoc]
      exact ⟨_, hpage.answered hend _⟩
    · -- more to come: the rest of the run starts behind this page
      rw [decide_eq_false hend] at hdoc hverdict hmoved
      rw [if_neg Bool.false_ne_true] at hverdict
      have hmoved := hmoved rfl
      obtain ⟨bodies, hb⟩ := ih hmoved.wellFormed (hnone.moved h hmoved) (hadm.2 hverdict)
      simp only [pullAll, hverdict, hdoc]
      exact ⟨_, hb.cons hpage hmoved (Nat.lt_of_le_of_ne hpage.le hend) doc _⟩

end Answers

variable {answers : List (Option (CimDoc κ)) × Option (CimInfo κ)}
  {bodies : List (EnumResponse (CimItem κ))}

variable {view : CimView κ} {ctx : CimContext κ} {info : CimInfo κ} {docs : List WsXmlNode}

theorem Answered.exists_endOfSequence (h : Answered view ctx info docs answers bodies)
    (hlen : max (ctx.results.list.length - info.index.toNat) 1 ≤ docs.length) :
    ∃ b ∈ bodies, b.hasEndOfSequence = true := by
  by_contra hcon
  have hopen : ∀ b ∈ bodies, b.hasEndOfSequence = false :=
    fun b hb ↦ Bool.eq_false_of_not_eq_true fun hend ↦ hcon ⟨b, hb, hend⟩
  have hsame := (h.unfinished hopen).1
  obtain ⟨p, hp, hlast⟩ := h.session.exists_last (by
      rw [length_numbered]
      intro hlt p hp
      obtain ⟨b, hb, rfl⟩ := mem_map.mp hp
      simpa [toPage] using h.nonempty hlt b hb)
    (by rw [length_numbered, length_map, hsame]; exact hlen)
  obtain ⟨b, hb, rfl⟩ := mem_map.mp hp
  exact hcon ⟨b, hb, hlast⟩

def Unlimited (doc : WsXmlNode) : Prop := toUInt (pullLimits doc).maxsize = 0

theorem allAdmitFirst_of_unlimited (dump : String → CimDoc κ → ℕ) (view : CimView κ)
    (ctx : CimContext κ) (info : CimInfo κ)
    (h : ∀ doc ∈ docs, Unlimited doc) : AllAdmitFirst dump view ctx docs info := by
  induction docs generalizing info with
  | nil => trivial
  | cons doc docs ih =>
    obtain ⟨hdoc, hdocs⟩ := forall_mem_cons.mp h
    refine ⟨fun e _ ↦ ?_, fun _ ↦ ih _ hdocs⟩
    rw [Unlimited] at hdoc
    simp [pullTooLong, collectTooLong, checkEnvelopeSize, hdoc]

/-! ## An enumeration from its Enumerate on -/

def enumerationAnswers (dump : String → CimDoc κ → ℕ) (view : CimView κ) (cimom : Cimom κ)
    (cfg : CimConfig) (doc : WsXmlNode) (info : CimInfo κ) (pulls : List WsXmlNode) :
    CResult (List (Option (CimDoc κ))) :=
  (cimResourceEnumerateEP dump view cimom cfg doc info).bind fun r ↦
    let e := wsenumEnumerateEnd doc r
    .value (e.1 :: e.2.elim [] fun stored ↦ (pullAll dump view pulls stored).1)

def EnumerationAdmitsFirst (dump : String → CimDoc κ → ℕ) (view : CimView κ) (doc : WsXmlNode)
    (info : CimInfo κ) (pulls : List WsXmlNode) : Prop :=
  ∀ ctx, info.appEnumContext = some ctx →
    (info.flags.opt = true → ∀ e, (remainingResults ctx.results info).head? = some e →
      enumerateTooLong dump doc info
        [itemOf view ctx.client info.flags (wsmanGetFragmentString doc) e] = false) ∧
    ∀ stored, (wsenumEnumerateEnd doc ⟨0, {}, optimizedItems dump view doc info⟩).2 = some stored →
      AllAdmitFirst dump view ctx pulls stored

def delivered (bodies : List (EnumResponse (CimItem κ))) : List (Option (κ × ℕ)) :=
  allItems (bodies.map toPage)

def carriesItems (body : EnumResponse (CimItem κ)) : Bool :=
  body.hasItemsElement xmlNsEnumeration || body.hasItemsElement xmlNsWsMan

structure DeliversAll (view : CimView κ) (ctx : CimContext κ) (info : CimInfo κ) (id : String)
    (pulls : List WsXmlNode) (bodies : List (EnumResponse (CimItem κ))) : Prop where
  inOrder : delivered bodies <+: numbered ctx.results
  items : ∀ b ∈ bodies, ∀ item ∈ b.items,
    ∃ fragstr e, item = itemOf view ctx.client info.flags fragstr e
  endOfSequence : ∀ j b, bodies[j]? = some b →
    (b.hasEndOfSequence = true ↔
      carriesItems b = true ∧ delivered (bodies.take (j + 1)) = numbered ctx.results)
  context : ∀ b ∈ bodies, b.hasEndOfSequence = false → b.contextId = some id
  complete : max ctx.results.list.length 1 ≤ pulls.length →
    (∃ b ∈ bodies, b.hasEndOfSequence = true) ∧ delivered bodies = numbered ctx.results

theorem deliversAll_of_session
    {id : String} {pulls : List WsXmlNode}
    (hsession : Session (numbered ctx.results) 0 (bodies.map toPage))
    (hcarry : ∀ b ∈ bodies, carriesItems b = true)
    (hitems : ∀ b ∈ bodies, ∀ item ∈ b.items, ∃ fragstr e, item = itemOf view ctx.client info.flags
      fragstr e) (hcontext : ∀ b ∈ bodies, b.hasEndOfSequence = false → b.contextId = some id)
    (hlast : max ctx.results.list.length 1 ≤ pulls.length → ∃ b ∈ bodies, b.hasEndOfSequence = true)
    :
    DeliversAll view ctx info id pulls bodies := by
  refine ⟨hsession.allItems_prefix, hitems, fun j b hb ↦ ?_, hcontext, fun hlen ↦ ?_⟩
  · have hpage : (bodies.map toPage)[j]? = some (toPage b) := by rw [getElem?_map, hb]; rfl
    have hlast_iff := hsession.last_iff hpage
    rw [delivered, map_take]
    exact ⟨fun hend ↦ ⟨hcarry b (mem_of_getElem? hb), hlast_iff.mp hend⟩,
      fun hall ↦ hlast_iff.mpr hall.2⟩
  · obtain ⟨b, hb, hend⟩ := hlast hlen
    exact ⟨⟨b, hb, hend⟩, hsession.allItems_eq_of_last (mem_map_of_mem hb) hend⟩

theorem DeliversAll.cons_plain {id : String} {pulls : List WsXmlNode}
    (h : DeliversAll view ctx info id pulls bodies) :
    DeliversAll view ctx info id pulls
      (⟨wsenumEnumerateResp, [.context (some id)]⟩ :: bodies) := by
  refine ⟨h.inOrder, ?_, fun j b hb ↦ ?_, ?_, fun hlen ↦ ?_⟩
  · exact forall_mem_cons.mpr ⟨by simp [EnumResponse.items], h.items⟩
  · cases j with
    | zero =>
      rw [getElem?_cons_zero, Option.some.injEq] at hb
      subst hb
      refine ⟨fun hend ↦ absurd hend (by simp [EnumResponse.hasEndOfSequence]), fun hcarry ↦ ?_⟩
      exact absurd hcarry.1 (by simp [carriesItems, EnumResponse.hasItemsElement])
    | succ j =>
      rw [getElem?_cons_succ] at hb
      exact h.endOfSequence j b hb
  · exact forall_mem_cons.mpr ⟨fun _ ↦ rfl, h.context⟩
  · obtain ⟨⟨b, hb, hend⟩, hall⟩ := h.complete hlen
    exact ⟨⟨b, mem_cons_of_mem _ hb, hend⟩, hall⟩

theorem Answered.deliversAll (h : Answered view ctx info docs answers bodies)
    (hindex : info.index = 0) : DeliversAll view ctx info info.enumId docs bodies := by
  have hsession := h.session
  rw [hindex, UInt32.toNat_zero] at hsession
  refine deliversAll_of_session hsession (fun b hb ↦ ?_) (fun b hb ↦ (h.items b hb).2) h.context
    fun hlen ↦ h.exists_endOfSequence ?_
  · rw [carriesItems, (h.items b hb).1, Bool.true_or]
  · rw [hindex]
    exact hlen

theorem Answered.deliversAll_cons {info stored : CimInfo κ}
    (h : Answered view ctx stored docs answers bodies) {items : List (CimItem κ)} {k : ℕ}
    (hpage : PageOf view ctx info items k) (hmoved : Moved ctx info k stored)
    (hindex : info.index = 0) (hlt : k < ctx.results.list.length) :
    DeliversAll view ctx info info.enumId docs
      (optimizedBody info.enumId items false :: bodies) := by
  have hzero : info.index.toNat = 0 := by rw [hindex, UInt32.toNat_zero]
  have hcursor : stored.index.toNat = 0 + k := by rw [hmoved.cursor, hzero]
  have hsession := h.session
  have hrest := h.items
  have hcontext := h.context
  rw [hcursor] at hsession
  rw [hmoved.flags] at hrest
  rw [hmoved.enumId] at hcontext
  have hmore : Session (numbered ctx.results) 0
      (⟨((numbered ctx.results).drop 0).take k, false⟩ :: bodies.map toPage) :=
    .more (by rw [length_numbered, Nat.zero_add]; exact hlt) hsession
  have hsources := hpage.sources
  rw [hzero] at hsources
  rw [← hsources] at hmore
  refine deliversAll_of_session (by simpa [toPage] using hmore) ?_ ?_ ?_ fun hlen ↦ ?_
  · refine forall_mem_cons.mpr ⟨by simp [carriesItems], fun b hb ↦ ?_⟩
    rw [carriesItems, (h.items b hb).1, Bool.true_or]
  · exact forall_mem_cons.mpr ⟨by simpa using hpage.rendered, fun b hb ↦ (hrest b hb).2⟩
  · exact forall_mem_cons.mpr ⟨fun _ ↦ optimizedBody_contextId _ _, hcontext⟩
  · obtain ⟨b, hb, hend⟩ := h.exists_endOfSequence (by omega)
    exact ⟨b, mem_cons_of_mem _ hb, hend⟩

theorem PageOf.deliversAll {items : List (CimItem κ)}
    (hpage : PageOf view ctx info items ctx.results.list.length) (hindex : info.index = 0)
    (docs : List WsXmlNode) :
    DeliversAll view ctx info info.enumId docs [optimizedBody info.enumId items true] := by
  have hlast : Session (numbered ctx.results) 0
      [⟨((numbered ctx.results).drop 0).take ctx.results.list.length, true⟩] :=
    .last (by rw [length_numbered, Nat.zero_add])
  have hsources := hpage.sources
  rw [hindex, UInt32.toNat_zero] at hsources
  rw [← hsources] at hlast
  refine deliversAll_of_session (by simpa [toPage] using hlast) ?_ ?_ ?_ fun _ ↦ ?_
  · simp [carriesItems]
  · simpa using hpage.rendered
  · simp
  · exact ⟨_, mem_singleton_self _, optimizedBody_hasEndOfSequence _ _ _⟩

/-- **An enumeration delivers every result once and in order.** An Enumerate in a polymorphism mode
other than `None`, optimized or not, and any Pulls on its context whose limits each admit the first
result that remains. -/
theorem enumeration_delivers_all {δ : Type} {dump : String → CimDoc κ → ℕ} {view : CimView κ}
    {cimom : Cimom κ} {cfg : CimConfig} {datetime : String → Option ℤ} {op : SoapOp δ} {id : String}
    {now : ℕ} {info₀ info : CimInfo κ} {pulls : List WsXmlNode}
    (hcreate : createEnumInfo datetime op id now = .value (.ok info₀))
    (hstart : cimStartEnumeration cimom cfg op.inDoc info₀ = .value (.ok info))
    (hmode : polymorphismMode op.inDoc ≠ some wsmbNone)
    (hlimits : EnumerationAdmitsFirst dump view op.inDoc info pulls) :
    ∃ ctx answers bodies, info.appEnumContext = some ctx ∧
      enumerationAnswers dump view cimom cfg op.inDoc info₀ pulls = .value answers ∧
      answers.map (fun doc ↦ doc.bind SoapDoc.body) = bodies.map some ∧
      DeliversAll view ctx info id pulls bodies := by
  obtain ⟨ctx, hstarted⟩ := started_of_cimStartEnumeration (fresh_createEnumInfo hcreate) hstart
  have hid : info.enumId = id := hstarted.enumId.trans (createEnumInfo_ok datetime hcreate).1
  subst hid
  have hpoly : info.flags.polyNone = false :=
    Bool.eq_false_of_not_eq_true fun h ↦ hmode (hstarted.polyNone.mp h)
  have hnone : NoneExcluded view ctx info :=
    fun e _ ↦ isExcluded_of_polyNone_eq_false view ctx.client info.flags hpoly
  obtain ⟨hfirst, hpulls⟩ := hlimits ctx hstarted.wellFormed.context
  have hanswers : enumerationAnswers dump view cimom cfg op.inDoc info₀ pulls =
      let e := wsenumEnumerateEnd op.inDoc ⟨0, {}, optimizedItems dump view op.inDoc info⟩
      .value (e.1 :: e.2.elim [] fun stored ↦ (pullAll dump view pulls stored).1) := by
    rw [enumerationAnswers, cimResourceEnumerateEP, hstart]
    rfl
  rw [hanswers]
  rcases enumerateEnd_cim dump view op.inDoc hstarted with ⟨_, hend⟩ | ⟨hopt, items, k, hcol, hend⟩
  · -- Plain: all results come with the Pulls.
    rw [hend] at hpulls ⊢
    obtain ⟨bodies, hb⟩ := exists_answered pulls hstarted.wellFormed hnone (hpulls info rfl)
    refine ⟨ctx, _, ⟨wsenumEnumerateResp, [.context (some info.enumId)]⟩ :: bodies,
      hstarted.wellFormed.context, rfl, ?_, ?_⟩
    · simp [hb.responses, SoapDoc.body]
    · exact (hb.deliversAll hstarted.index).cons_plain
  · -- Optimized: a first page comes with the response to the Enumerate.
    have hpage := hcol.pageOf hstarted.wellFormed hnone (hfirst hopt)
    by_cases hall : k = ctx.results.list.length
    · rw [hend, decide_eq_true hall]
      refine ⟨ctx, _, [optimizedBody info.enumId items true], hstarted.wellFormed.context, rfl,
        ?_, ?_⟩
      · simp [SoapDoc.body]
      · subst hall
        exact hpage.deliversAll hstarted.index pulls
    · rw [hend, decide_eq_false hall] at hpulls ⊢
      have hmoved := hstarted.moved hcol.takes.le hall
      have hle := hpage.le
      obtain ⟨bodies, hb⟩ := exists_answered pulls (hmoved _).wellFormed
        (hnone.moved hstarted.wellFormed (hmoved _)) (hpulls _ rfl)
      refine ⟨ctx, _, optimizedBody info.enumId items false :: bodies,
        hstarted.wellFormed.context, rfl, ?_, ?_⟩
      · simp [hb.responses, SoapDoc.body]
      · exact hb.deliversAll_cons hpage (hmoved _) hstarted.index (by omega)

def diskRequest (action msgId : String) (more body : List WsXmlNode) : WsXmlNode :=
  wsXmlCreateEnvelope
    ([.elem xmlNsAddressing wsaTo [.text "http://host:5985/wsman"],
      .elem xmlNsWsMan wsmResourceUri [.text (xmlNsCimClass ++ "/CIM_DiskDrive")],
      .elem xmlNsAddressing wsaAction [.text (xmlNsEnumeration ++ action)],
      .elem xmlNsAddressing wsaMessageId [.text msgId],
      .elem xmlNsAddressing wsaReplyTo [.elem xmlNsAddressing wsaAddress [.text wsaToAnonymous]]] ++
        more)
    body

def diskCimom (disks : CimResults String) : Cimom String where
  connects _ := true
  run _ _ := .ok disks
  property _ _ := none

def diskView : CimView String where
  className _ := "CIM_DiskDrive"
  instance2xml _ _ name := .elem xmlNsCimClass "Name" [.text name]
  fragment2xml _ _ _ _ := []
  epr _ _ name := .elem xmlNsAddressing wsaEpr [.text name]

def diskLength (size : ℕ) (_ : String) : CimDoc String → ℕ
  | .fault .. => 600
  | .response _ body => 600 + size * body.items.length

def twoDisks : CimResults String := ⟨["sda", "sdb"], by decide⟩

def optimizedEnumerate : WsXmlNode :=
  diskRequest "/Enumerate" "uuid:1" []
    [.elem xmlNsEnumeration wsenumEnumerate [.elem xmlNsWsMan wsmOptimizeEnum []]]

def diskPull (msgId : String) (more limits : List WsXmlNode) : WsXmlNode :=
  diskRequest "/Pull" msgId more
    [.elem xmlNsEnumeration wsenumPull
      (.elem xmlNsEnumeration wsenumEnumerationContext [.text "uuid:2"] :: limits)]

def diskInfo : CimInfo String :=
  { enumId := "uuid:2", expires := 0, maxsize := 0, authData := {}
    eprTo := "http://host:5985/wsman", eprUri := xmlNsCimClass ++ "/CIM_DiskDrive"
    encoding := "UTF-8" }

def optimizedInfo : CimInfo String :=
  { diskInfo with
    flags := { opt := true, polyInclude := true }
    maxItems := 1
    totalItems := 2
    appEnumContext := some ⟨cimClientOf {} optimizedEnumerate [], twoDisks⟩ }

def diskPulls : List WsXmlNode := [diskPull "uuid:3" [] [], diskPull "uuid:4" [] []]

theorem enumeration_delivers_two_disks :
    ∃ ctx answers bodies,
      cimStartEnumeration (diskCimom twoDisks) {} optimizedEnumerate diskInfo =
        .value (.ok optimizedInfo) ∧
      optimizedInfo.appEnumContext = some ctx ∧
      enumerationAnswers (diskLength 400) diskView (diskCimom twoDisks) {} optimizedEnumerate
        diskInfo diskPulls = .value answers ∧
      answers.map (fun doc ↦ doc.bind SoapDoc.body) = bodies.map some ∧
      DeliversAll diskView ctx optimizedInfo "uuid:2" diskPulls bodies := by
  have hcreate : createEnumInfo (fun _ ↦ none)
      (createOpEntry (δ := EnumResponse (CimItem String)) optimizedEnumerate {}) "uuid:2" 0 =
        .value (.ok diskInfo) := rfl
  have hstart : cimStartEnumeration (diskCimom twoDisks) {} optimizedEnumerate diskInfo =
      .value (.ok optimizedInfo) := rfl
  have hunlimited : ∀ doc ∈ diskPulls, Unlimited doc := by
    intro doc hdoc
    simp only [diskPulls, mem_cons, not_mem_nil, or_false] at hdoc
    rcases hdoc with rfl | rfl <;> rfl
  have hlimits : EnumerationAdmitsFirst (diskLength 400) diskView optimizedEnumerate optimizedInfo
      diskPulls :=
    fun _ _ ↦ ⟨fun _ _ _ ↦ rfl, fun stored _ ↦ allAdmitFirst_of_unlimited _ _ _ stored hunlimited⟩
  obtain ⟨ctx, answers, bodies, h⟩ := enumeration_delivers_all hcreate hstart (by decide) hlimits
  exact ⟨ctx, answers, bodies, hstart, h⟩

end Openwsman
