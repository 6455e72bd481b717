import Openwsman.Cim.Items
import Openwsman.Enumeration.Stubs

/-!
# The endpoints of the CIM plugin

`CimResource_Enumerate_EP`, `CimResource_Pull_EP` and `CimResource_Release_EP`, and what comes out
of the stubs that wrap them. The plugin leaves the cursor one too low and the stub increments it, so
only the two together move it by the number of results passed; `pullDirectEnd_cim` and
`enumerateEnd_cim` say what they do together.
-/

namespace Openwsman

open Nat Option CResult List

variable {κ : Type}

/-! ## Limits and options of a request -/

def pullOf (doc : WsXmlNode) : Option WsXmlNode :=
  wsXmlFirstChild (wsXmlGetSoapBody doc) xmlNsEnumeration wsenumPull

def wsmanGetMaxElements (doc : WsXmlNode) : ℤ :=
  match wsXmlFirstChild (pullOf doc) xmlNsEnumeration wsenumMaxElements with
  | none => 1
  | some node => atoi node.chars

def wsmanGetMaxEnvelopeSize (doc : WsXmlNode) : ℕ :=
  let header := wsXmlGetSoapHeader doc
  let maxsize := wsXmlFirstChild header xmlNsWsMan wsmMaxEnvelopeSize
  if wsXmlFindAttrValue maxsize (some xmlNsSoap12) soapMustUnderstand == some "true" then
    wsDeserializeUint32 header 0 xmlNsWsMan wsmMaxEnvelopeSize
  else 0

def wsmanGetFragmentString (doc : WsXmlNode) : Option String :=
  match wsXmlFirstChild (wsXmlGetSoapHeader doc) xmlNsWsMan wsmFragmentTransfer with
  | none => none
  | some n =>
    if wsXmlFindAttrValue (some n) (some xmlNsSoap12) soapMustUnderstand == some "true" then
      some n.chars
    else none

def pullLimits (doc : WsXmlNode) : CollectLimits where
  maxelements := wsmanGetMaxElements doc
  maxsize :=
    if wsmanGetMaxEnvelopeSize doc = 0 then
      wsDeserializeUint32 (pullOf doc) 0 xmlNsEnumeration wsenumMaxCharacters
    else wsmanGetMaxEnvelopeSize doc

/-! ## The endpoints -/

def pullCleanup (info : CimInfo κ) : CimInfo κ :=
  if info.totalItems == 0 || info.index + 1 == info.totalItems then
    { info with flags := { info.flags with cimContextCleanup := true } }
  else info

/-- It returns zero also when it sets a fault. -/
def cimResourcePullEP (dump : String → CimDoc κ → ℕ) (view : CimView κ) (doc : WsXmlNode)
    (info : CimInfo κ) : EndpointResult (CimContext κ) (CimItem κ) :=
  match info.appEnumContext with
  | none => ⟨0, ⟨.wsaEndpointUnavailable, .wsmanDetailOk⟩, pullCleanup info⟩
  | some ctx =>
    if !verifyClassNamespace ctx.client then
      ⟨0, ⟨.wsaDestinationUnreachable, .wsmanDetailInvalidResourceuri⟩, pullCleanup info⟩
    else
      ⟨0, {}, pullCleanup (cimGetEnumItems dump view ctx (wsmanGetFragmentString doc) info
        (responseHeader doc) wsenumPullResp xmlNsEnumeration (pullLimits doc))⟩

def cimResourceReleaseEP (info : CimInfo κ) : EndpointResult (CimContext κ) (CimItem κ) :=
  ⟨0, {}, info⟩

def cimEnumInstances (cimom : Cimom κ) (cfg : CimConfig) (client : CimClientInfo)
    (info : CimInfo κ) : CResult (Except WsmanStatus (CimInfo κ)) :=
  (cimOperation cfg client info.flags info.filter).bind fun
    | .error status => .value (.error status)
    | .ok op =>
      (op.run cimom client).bind fun
        | .error status => .value (.error status)
        | .ok results =>
          .value (.ok
            { info with
              totalItems := UInt32.ofNat results.list.length
              appEnumContext := some ⟨client, results⟩ })

def enumerateLimits (info : CimInfo κ) : CollectLimits where
  maxelements := toCInt info.maxItems.toNat
  maxsize := info.maxsize.toNat

def optimizedItems (dump : String → CimDoc κ → ℕ) (view : CimView κ) (doc : WsXmlNode)
    (info : CimInfo κ) : CimInfo κ :=
  match info.appEnumContext with
  | none => info
  | some ctx =>
    if info.flags.opt then
      cimGetEnumItems dump view ctx (wsmanGetFragmentString doc) info (responseHeader doc)
        wsenumEnumerateResp xmlNsWsMan (enumerateLimits info)
    else info

def cimStartEnumeration (cimom : Cimom κ) (cfg : CimConfig) (doc : WsXmlNode) (info : CimInfo κ) :
    CResult (Except WsmanStatus (CimInfo κ)) :=
  if !cimom.connects info.authData then .value (.error ⟨.wsaEndpointUnavailable, .wsmanDetailOk⟩)
  else
    (wsmanGetSelectorList doc).bind fun selectors ↦
      let client := cimClientOf cfg doc selectors
      if !verifyClassNamespace client then
        .value (.error ⟨.wsaDestinationUnreachable, .wsmanDetailInvalidResourceuri⟩)
      else
        (wsmanParseEnumRequest doc info).bind fun
          | .error status => .value (.error status)
          | .ok info => cimEnumInstances cimom cfg client info

def cimResourceEnumerateEP (dump : String → CimDoc κ → ℕ) (view : CimView κ) (cimom : Cimom κ)
    (cfg : CimConfig) (doc : WsXmlNode) (info : CimInfo κ) :
    CResult (EndpointResult (CimContext κ) (CimItem κ)) :=
  (cimStartEnumeration cimom cfg doc info).bind fun
    | .error status => .value ⟨1, status, info⟩
    | .ok info => .value ⟨0, {}, optimizedItems dump view doc info⟩

/-! ## Contexts of the plugin -/

/-- A context as the plugin leaves it in the table: it has a client that passed the check of the
namespace and results, and items are left unless there are none at all. -/
structure WellFormed (ctx : CimContext κ) (info : CimInfo κ) : Prop where
  context : info.appEnumContext = some ctx
  verified : verifyClassNamespace ctx.client = true
  total : info.totalItems = UInt32.ofNat ctx.results.list.length
  cursor : info.index.toNat < ctx.results.list.length ∨
    (ctx.results.list = [] ∧ info.index = 0)

namespace WellFormed

variable {ctx : CimContext κ} {info : CimInfo κ} (h : WellFormed ctx info)

include h

theorem total_toNat : info.totalItems.toNat = ctx.results.list.length := by
  have hlt := ctx.results.length_lt
  rw [h.total, UInt32.toNat_ofNat']
  exact mod_eq_of_lt (by omega)

theorem cursor_le : info.index.toNat ≤ ctx.results.list.length := by
  rcases h.cursor with hlt | ⟨_, hzero⟩
  · exact le_of_lt hlt
  · rw [hzero]
    exact zero_le _

theorem total_eq_zero_iff : info.totalItems = 0 ↔ ctx.results.list = [] := by
  rw [← UInt32.toNat_inj, h.total_toNat]
  exact length_eq_zero_iff

theorem remainingResults_eq :
    remainingResults ctx.results info = ctx.results.list.zipIdx.drop info.index.toNat := by
  rw [remainingResults, h.total_toNat, take_of_length_le (by simp)]

theorem length_remaining :
    (remainingResults ctx.results info).length = ctx.results.list.length - info.index.toNat := by
  rw [h.remainingResults_eq, length_drop, length_zipIdx]

end WellFormed

variable {k : ℕ}

variable {ctx : CimContext κ} {info : CimInfo κ} {page : Option (CimDoc κ)}

theorem WellFormed.toNat_index_add (h : WellFormed ctx info)
    (hk : k ≤ (remainingResults ctx.results info).length) :
    (info.index + UInt32.ofNat k).toNat = info.index.toNat + k := by
  have hlt := ctx.results.length_lt
  have hle := h.cursor_le
  rw [h.length_remaining] at hk
  rw [UInt32.toNat_add, UInt32.toNat_ofNat', mod_eq_of_lt (show k < 2 ^ 32 by omega)]
  exact mod_eq_of_lt (by omega)

theorem WellFormed.index_add_eq_total_iff (h : WellFormed ctx info)
    (hk : k ≤ (remainingResults ctx.results info).length) :
    info.index + UInt32.ofNat k = info.totalItems ↔
      info.index.toNat + k = ctx.results.list.length := by
  rw [← UInt32.toNat_inj, h.toNat_index_add hk, h.total_toNat]

/-- The decrement of the plugin and the increment of the stub cancel, also at a cursor of zero. -/
theorem WellFormed.advance_collected {info g : CimInfo κ} {k : ℕ} (h : WellFormed ctx info)
    (hk : k ≤ (remainingResults ctx.results info).length) (hg : g = { info with
      index := if info.totalItems = 0 then info.index else info.index + UInt32.ofNat k - 1
      pullResultPtr := page }) :
    g.advance.atEnd = decide (info.index.toNat + k = ctx.results.list.length) ∧
      (g.advance.atEnd = false →
        g.advance = { info with index := info.index + UInt32.ofNat k, pullResultPtr := page }) := by
  have htotal : g.advance.totalItems = info.totalItems := by rw [hg]; rfl
  -- Without any results the cursor is not decremented, and the test for the end is the one for
  -- an empty enumeration; otherwise the decrement and the increment cancel.
  by_cases hzero : info.totalItems = 0
  · have hnil := h.total_eq_zero_iff.mp hzero
    have hlen := h.length_remaining
    have hcur := h.cursor_le
    have hend : g.advance.atEnd = true := by simp [WsEnumerateInfo.atEnd, htotal, hzero]
    rw [hend]
    refine ⟨(decide_eq_true ?_).symm, fun hf ↦ absurd hf (by simp)⟩
    rw [hnil, length_nil] at hlen hcur ⊢
    omega
  · have hindex : g.advance.index = info.index + UInt32.ofNat k := by
      rw [hg, if_neg hzero]
      exact UInt32.sub_add_cancel _ _
    refine ⟨?_, fun _ ↦ ?_⟩
    · rw [WsEnumerateInfo.atEnd, htotal, hindex, Bool.eq_iff_iff, Bool.or_eq_true, beq_iff_eq,
        beq_iff_eq, decide_eq_true_iff, h.index_add_eq_total_iff hk]
      simp [hzero]
    · have hadvance : g.advance = { g with index := g.advance.index } := rfl
      rw [hadvance, hindex, hg]

structure Moved (ctx : CimContext κ) (info : CimInfo κ) (k : ℕ) (info' : CimInfo κ) : Prop where
  wellFormed : WellFormed ctx info'
  cursor : info'.index.toNat = info.index.toNat + k
  flags : info'.flags = info.flags
  enumId : info'.enumId = info.enumId

theorem WellFormed.moved (h : WellFormed ctx info)
    (hk : k ≤ (remainingResults ctx.results info).length)
    (hmore : info.index.toNat + k ≠ ctx.results.list.length) :
    Moved ctx info k { info with index := info.index + UInt32.ofNat k, pullResultPtr := page } := by
  have hcursor := h.toNat_index_add hk
  have hlen := h.length_remaining
  have hle := h.cursor_le
  refine ⟨⟨h.context, h.verified, h.total, .inl ?_⟩, hcursor, rfl, rfl⟩
  change (info.index + UInt32.ofNat k).toNat < _
  omega

theorem WellFormed.moved_zero (h : WellFormed ctx info) :
    Moved ctx info 0 info :=
  ⟨h, rfl, rfl, rfl⟩

/-! ## Pull -/

def enumHeader (doc : WsXmlNode) (info : CimInfo κ) : List WsXmlNode :=
  responseHeader doc ++
    if (wsXmlFirstChild (wsXmlGetSoapHeader doc) xmlNsWsMan wsmRequestTotal).isSome then
      [.elem xmlNsWsMan wsmTotalEstimate [.text (toString (toCInt info.totalItems.toNat))]]
    else []

variable (doc : WsXmlNode)

theorem wsmanSetEstimatedTotal_response (info : CimInfo κ) (body : EnumResponse (CimItem κ)) :
    wsmanSetEstimatedTotal doc info (.response (responseHeader doc) body) =
      .response (enumHeader doc info) body := by
  rw [wsmanSetEstimatedTotal, enumHeader]
  split <;> simp

def pullBody (id : String) (items : List (CimItem κ)) (done : Bool) : EnumResponse (CimItem κ) where
  name := wsenumPullResp
  parts :=
    if done then [.items xmlNsEnumeration items, .endOfSequence xmlNsEnumeration]
    else [.context (some id), .items xmlNsEnumeration items]

variable (id : String) (items : List (CimItem κ)) (done : Bool)

@[simp] theorem pullBody_items : (pullBody id items done).items = items := by
  cases done <;> simp [pullBody, EnumResponse.items]

@[simp] theorem pullBody_hasEndOfSequence : (pullBody id items done).hasEndOfSequence = done := by
  cases done <;> rfl

@[simp] theorem pullBody_contextId : (pullBody id items false).contextId = some id := rfl

@[simp] theorem pullBody_hasItemsElement :
    (pullBody id items done).hasItemsElement xmlNsEnumeration = true := by
  cases done <;> simp [pullBody, EnumResponse.hasItemsElement]

def pullTooLong (dump : String → CimDoc κ → ℕ) (doc : WsXmlNode) (info : CimInfo κ) :
    List (CimItem κ) → Bool :=
  collectTooLong dump info (responseHeader doc) wsenumPullResp xmlNsEnumeration (pullLimits doc)

abbrev PullCollection (dump : String → CimDoc κ → ℕ) (view : CimView κ) (doc : WsXmlNode)
    (ctx : CimContext κ) (info : CimInfo κ) : List (CimItem κ) → ℕ → Prop :=
  Collection view ctx.client info.flags (wsmanGetFragmentString doc) (pullTooLong dump doc info)
    (pullLimits doc).countdown (remainingResults ctx.results info)

theorem wsenumPullDirectEnd_itemsDoc {items : List (CimItem κ)}
    (hptr : info.pullResultPtr = some (itemsDoc (responseHeader doc) wsenumPullResp
      xmlNsEnumeration items)) :
    wsenumPullDirectEnd doc ⟨0, {}, info⟩ =
      ⟨some (.response (enumHeader doc info) (pullBody info.enumId items info.advance.atEnd)),
        info.advance, if info.advance.atEnd then .remove else .unlock⟩ := by
  have hptr' : info.advance.pullResultPtr =
      some (itemsDoc (responseHeader doc) wsenumPullResp xmlNsEnumeration items) := hptr
  rw [wsenumPullDirectEnd, if_neg (by simp)]
  simp only [hptr', itemsDoc, wsmanSetEstimatedTotal_response]
  rw [if_neg (by simp [EnumResponse.hasItemsElement])]
  cases info.advance.atEnd <;> rfl

theorem pullCleanup_of_not_atEnd (h : info.advance.atEnd = false) : pullCleanup info = info := by
  change (if info.advance.atEnd then _ else info) = info
  rw [h, if_neg Bool.false_ne_true]

theorem exists_pullCleanup_eq (info : CimInfo κ) :
    ∃ flags, pullCleanup info = { info with flags := flags } := by
  rw [pullCleanup]
  split
  · exact ⟨_, rfl⟩
  · exact ⟨info.flags, rfl⟩

variable (dump : String → CimDoc κ → ℕ) (view : CimView κ)

theorem sameIdentity_cimResourcePullEP (doc : WsXmlNode) (info : CimInfo κ) :
    WsEnumerateInfo.SameIdentity info (cimResourcePullEP dump view doc info).info := by
  have hcleanup : ∀ g : CimInfo κ, WsEnumerateInfo.SameIdentity g (pullCleanup g) := by
    intro g
    rw [pullCleanup]
    split <;> exact ⟨rfl, rfl, rfl, rfl, rfl⟩
  unfold cimResourcePullEP
  split
  · exact hcleanup info
  split
  · exact hcleanup info
  · refine WsEnumerateInfo.SameIdentity.trans ?_ (hcleanup _)
    rw [cimGetEnumItems]
    split <;> exact ⟨rfl, rfl, rfl, rfl, rfl⟩

/-- **A Pull of the plugin.** It delivers the items of its collection and moves the cursor by the
number of results passed. The sequence ends when the cursor reaches their number. -/
theorem pullDirectEnd_cim (doc : WsXmlNode) (h : WellFormed ctx info) :
    ∃ items k, PullCollection dump view doc ctx info items k ∧
      let e := wsenumPullDirectEnd doc (cimResourcePullEP dump view doc info)
      let done := decide (info.index.toNat + k = ctx.results.list.length)
      e.doc = some (.response (enumHeader doc info) (pullBody info.enumId items done)) ∧
      e.verdict = (if done then .remove else .unlock) ∧
      (done = false → e.info =
        { info with
          index := info.index + UInt32.ofNat k
          pullResultPtr := some (itemsDoc (responseHeader doc) wsenumPullResp xmlNsEnumeration
            items) }) := by
  obtain ⟨items, k, hcol, hget⟩ := cimGetEnumItems_spec dump view ctx
    (wsmanGetFragmentString doc) info (responseHeader doc) wsenumPullResp xmlNsEnumeration
    (pullLimits doc)
  refine ⟨items, k, hcol, ?_⟩
  have hEP : cimResourcePullEP dump view doc info =
      ⟨0, {}, pullCleanup (cimGetEnumItems dump view ctx (wsmanGetFragmentString doc) info
        (responseHeader doc) wsenumPullResp xmlNsEnumeration (pullLimits doc))⟩ := by
    rw [cimResourcePullEP, h.context]
    simp [h.verified]
  -- From here on only the cursor and the page that the collection left matter.
  generalize cimGetEnumItems dump view ctx (wsmanGetFragmentString doc) info (responseHeader doc)
    wsenumPullResp xmlNsEnumeration (pullLimits doc) = g at hget hEP
  obtain ⟨hend, hadvance⟩ := h.advance_collected hcol.takes.le hget
  -- The clean-up at the end changes flags only, which the stub does not look at.
  obtain ⟨flags, hflags⟩ := exists_pullCleanup_eq g
  have hptr : (pullCleanup g).pullResultPtr =
      some (itemsDoc (responseHeader doc) wsenumPullResp xmlNsEnumeration items) := by
    rw [hflags, hget]
  have hstub := wsenumPullDirectEnd_itemsDoc doc hptr
  have hend' : (pullCleanup g).advance.atEnd = g.advance.atEnd := by rw [hflags]; rfl
  have hheader : enumHeader doc (pullCleanup g) = enumHeader doc info := by rw [hflags, hget]; rfl
  have hid : (pullCleanup g).enumId = info.enumId := by rw [hflags, hget]
  rw [hend', hend, hheader, hid] at hstub
  rw [hEP, hstub]
  refine ⟨rfl, rfl, fun hdone ↦ ?_⟩
  rw [pullCleanup_of_not_atEnd (hend.trans hdone)]
  exact hadvance (hend.trans hdone)

/-! ## Enumerate -/

structure Fresh (info : CimInfo κ) : Prop where
  index : info.index = 0
  pullResultPtr : info.pullResultPtr = none
  inWork : info.flags.inWork = false
  polyNone : info.flags.polyNone = false

theorem fresh_createEnumInfo {δ : Type} {datetime : String → Option ℤ} {op : SoapOp δ} {id : String}
    {now : ℕ} (h : createEnumInfo datetime op id now = .value (.ok info)) : Fresh info := by
  obtain ⟨dest, uri, auth, expires, maxsize, -, -, -, rfl⟩ := createEnumInfo_eq_ok datetime h
  exact ⟨rfl, rfl, rfl, rfl⟩

structure Started (doc : WsXmlNode) (info : CimInfo κ) (ctx : CimContext κ) (info' : CimInfo κ) :
    Prop where
  wellFormed : WellFormed ctx info'
  index : info'.index = 0
  pullResultPtr : info'.pullResultPtr = none
  enumId : info'.enumId = info.enumId
  inWork : info'.flags.inWork = false
  polyNone : info'.flags.polyNone = true ↔ polymorphismMode doc = some wsmbNone

theorem cimEnumInstances_ok {cimom : Cimom κ} {cfg : CimConfig} {client : CimClientInfo}
    {info info' : CimInfo κ} (h : cimEnumInstances cimom cfg client info = .value (.ok info')) :
    ∃ results : CimResults κ, info' =
      { info with
        totalItems := UInt32.ofNat results.list.length
        appEnumContext := some ⟨client, results⟩ } := by
  rw [cimEnumInstances] at h
  obtain ⟨op, _, h⟩ := bind_eq_value.mp h
  cases op with
  | error status => exact absurd h (by simp)
  | ok op =>
    obtain ⟨results, _, h⟩ := bind_eq_value.mp h
    cases results with
    | error status => exact absurd h (by simp)
    | ok results => exact ⟨results, (Except.ok.inj (value.inj h)).symm⟩

theorem started_of_cimStartEnumeration {cimom : Cimom κ} {cfg : CimConfig} {doc : WsXmlNode}
    {info info' : CimInfo κ} (hfresh : Fresh info)
    (h : cimStartEnumeration cimom cfg doc info = .value (.ok info')) :
    ∃ ctx, Started doc info ctx info' := by
  rw [cimStartEnumeration] at h
  split at h
  · exact absurd h (by simp)
  obtain ⟨selectors, _, h⟩ := bind_eq_value.mp h
  dsimp only at h
  split at h
  · exact absurd h (by simp)
  -- The resource was verified with the client that the context keeps, so Pulls will find it so.
  rename_i hverified
  obtain ⟨parsed, hparse, h⟩ := bind_eq_value.mp h
  cases parsed with
  | error status => exact absurd h (by simp)
  | ok info₁ =>
    obtain ⟨flags, maxItems, filter, hinfo₁, hwork, hpoly⟩ :=
      wsmanParseEnumRequest_ok hparse hfresh.polyNone
    obtain ⟨results, hinfo'⟩ := cimEnumInstances_ok h
    have hindex : info'.index = 0 := by rw [hinfo', hinfo₁]; exact hfresh.index
    refine ⟨⟨cimClientOf cfg doc selectors, results⟩,
      ⟨⟨?_, by simpa using hverified, ?_, ?_⟩, hindex, ?_, ?_, ?_, ?_⟩⟩
    · rw [hinfo']
    · rw [hinfo']
    · rw [hindex]
      cases results.list with
      | nil => exact .inr ⟨rfl, rfl⟩
      | cons => exact .inl (succ_pos _)
    · rw [hinfo', hinfo₁]
      exact hfresh.pullResultPtr
    · rw [hinfo', hinfo₁]
    · rw [hinfo', hinfo₁]
      exact hwork.trans hfresh.inWork
    · rw [hinfo', hinfo₁]
      exact hpoly

def enumerateTooLong (dump : String → CimDoc κ → ℕ) (doc : WsXmlNode) (info : CimInfo κ) :
    List (CimItem κ) → Bool :=
  collectTooLong dump info (responseHeader doc) wsenumEnumerateResp xmlNsWsMan
    (enumerateLimits info)

abbrev EnumerateCollection (dump : String → CimDoc κ → ℕ) (view : CimView κ) (doc : WsXmlNode)
    (ctx : CimContext κ) (info : CimInfo κ) : List (CimItem κ) → ℕ → Prop :=
  Collection view ctx.client info.flags (wsmanGetFragmentString doc)
    (enumerateTooLong dump doc info) (enumerateLimits info).countdown
    (remainingResults ctx.results info)

def optimizedBody (id : String) (items : List (CimItem κ)) (done : Bool) :
    EnumResponse (CimItem κ) where
  name := wsenumEnumerateResp
  parts :=
    .items xmlNsWsMan items ::
      if done then [.context none, .endOfSequence xmlNsWsMan] else [.context (some id)]

@[simp] theorem optimizedBody_items : (optimizedBody id items done).items = items := by
  cases done <;> simp [optimizedBody, EnumResponse.items]

@[simp] theorem optimizedBody_hasEndOfSequence :
    (optimizedBody id items done).hasEndOfSequence = done := by
  cases done <;> rfl

@[simp] theorem optimizedBody_contextId : (optimizedBody id items false).contextId = some id := rfl

@[simp] theorem optimizedBody_hasItemsElement :
    (optimizedBody id items done).hasItemsElement xmlNsWsMan = true := by
  cases done <;> simp [optimizedBody, EnumResponse.hasItemsElement]

theorem wsenumEnumerateEnd_itemsDoc {items : List (CimItem κ)} (hopt : info.flags.opt = true)
    (hptr : info.pullResultPtr = some (itemsDoc (responseHeader doc) wsenumEnumerateResp xmlNsWsMan
      items)) :
    wsenumEnumerateEnd doc ⟨0, {}, info⟩ =
      (some (.response (enumHeader doc info)
        (optimizedBody info.enumId items info.advance.atEnd)),
        if info.advance.atEnd then none else some info.advance) := by
  have hopt' : info.advance.flags.opt = true := hopt
  rw [wsenumEnumerateEnd, if_neg (by simp)]
  simp only [hptr, isSome_some, if_true, getD_some, itemsDoc,
    wsmanSetEstimatedTotal_response, hopt', Bool.true_and]
  rw [if_neg (by simp)]
  cases info.advance.atEnd <;> rfl

variable {info₀ : CimInfo κ}

theorem Started.optimizedItems_eq {doc : WsXmlNode} (h : Started doc info₀ ctx info)
    (dump : String → CimDoc κ → ℕ) (view : CimView κ) :
    optimizedItems dump view doc info =
      if info.flags.opt then
        cimGetEnumItems dump view ctx (wsmanGetFragmentString doc) info (responseHeader doc)
          wsenumEnumerateResp xmlNsWsMan (enumerateLimits info)
      else info := by
  rw [optimizedItems, h.wellFormed.context]

theorem enumerateEnd_cim (doc : WsXmlNode) (h : Started doc info₀ ctx info) :
    let r := wsenumEnumerateEnd doc ⟨0, {}, optimizedItems dump view doc info⟩
    (info.flags.opt = false ∧
        r = (some (.response (enumHeader doc info)
          ⟨wsenumEnumerateResp, [.context (some info.enumId)]⟩), some info)) ∨
      (info.flags.opt = true ∧ ∃ items k, EnumerateCollection dump view doc ctx info items k ∧
        let done := decide (k = ctx.results.list.length)
        r = (some (.response (enumHeader doc info) (optimizedBody info.enumId items done)),
          if done then none
          else some { info with
            index := UInt32.ofNat k
            pullResultPtr := some (itemsDoc (responseHeader doc) wsenumEnumerateResp xmlNsWsMan
              items) })) := by
  cases hopt : info.flags.opt with
  | false =>
    refine .inl ⟨rfl, ?_⟩
    rw [h.optimizedItems_eq]
    simp [hopt, wsenumEnumerateEnd, h.pullResultPtr, wsmanSetEstimatedTotal_response,
      EnumResponse.addChild]
  | true =>
    obtain ⟨items, k, hcol, hget⟩ := cimGetEnumItems_spec dump view ctx
      (wsmanGetFragmentString doc) info (responseHeader doc) wsenumEnumerateResp xmlNsWsMan
      (enumerateLimits info)
    refine .inr ⟨rfl, items, k, hcol, ?_⟩
    rw [h.optimizedItems_eq, hopt, if_pos rfl]
    generalize cimGetEnumItems dump view ctx (wsmanGetFragmentString doc) info (responseHeader doc)
      wsenumEnumerateResp xmlNsWsMan (enumerateLimits info) = g at hget
    obtain ⟨hend, hadvance⟩ := h.wellFormed.advance_collected hcol.takes.le hget
    have hptr : g.pullResultPtr =
        some (itemsDoc (responseHeader doc) wsenumEnumerateResp xmlNsWsMan items) := by rw [hget]
    have hheader : enumHeader doc g = enumHeader doc info := by rw [hget]; rfl
    have hid : g.enumId = info.enumId := by rw [hget]
    have hflag : g.flags.opt = true := by rw [hget]; exact hopt
    rw [h.index] at hend hadvance
    simp only [UInt32.toNat_zero, Nat.zero_add, UInt32.zero_add] at hend hadvance
    rw [wsenumEnumerateEnd_itemsDoc doc hflag hptr, hheader, hid, hend]
    cases hdone : decide (k = ctx.results.list.length) with
    | true => rfl
    | false => rw [hadvance (hend.trans hdone)]

theorem Started.moved {doc : WsXmlNode} (h : Started doc info₀ ctx info)
    (hk : k ≤ (remainingResults ctx.results info).length) (hmore : k ≠ ctx.results.list.length)
    (page : Option (CimDoc κ)) :
    Moved ctx info k { info with index := UInt32.ofNat k, pullResultPtr := page } := by
  have hzero : info.index + UInt32.ofNat k = UInt32.ofNat k := by rw [h.index, UInt32.zero_add]
  rw [← hzero]
  refine h.wellFormed.moved hk ?_
  rw [h.index, UInt32.toNat_zero, zero_add]
  exact hmore

theorem Started.stored_moved {doc : WsXmlNode} {info stored : CimInfo κ}
    (h : Started doc info₀ ctx info) {dump : String → CimDoc κ → ℕ} {view : CimView κ}
    (hstored : (wsenumEnumerateEnd doc ⟨0, {}, optimizedItems dump view doc info⟩).2 = some stored)
    : ∃ k, Moved ctx info k stored := by
  rcases enumerateEnd_cim dump view doc h with ⟨_, hend⟩ | ⟨_, items, k, hcol, hend⟩
  · rw [hend, some.injEq] at hstored
    exact ⟨0, hstored ▸ h.wellFormed.moved_zero⟩
  rw [hend] at hstored
  by_cases hall : k = ctx.results.list.length
  · rw [decide_eq_true hall, if_pos rfl] at hstored
    exact absurd hstored (by simp)
  · rw [decide_eq_false hall, if_neg Bool.false_ne_true, some.injEq] at hstored
    exact ⟨k, hstored ▸ h.moved hcol.takes.le hall _⟩

end Openwsman
