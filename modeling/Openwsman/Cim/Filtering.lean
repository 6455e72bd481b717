import Openwsman.Cim.Paging

/-!
# The filter of an Enumerate

An Enumerate may carry a filter as a `wsen:Filter` or as a `wsman:Filter`. The inbound checks look
at both. The endpoint reads a `wsman:Filter` only, and takes a filter that it cannot read for no
filter at all: the enumeration is then unrestricted. In some filters it reads memory that was never
written.

`enumerateOperation` is the question that the endpoint puts to the CIMOM, and
`CimOperation.RestrictedBy` says what it means that a question asks for what a filter describes.
-/

namespace Openwsman

open KeyValue CResult List

variable {κ : Type}

/-! ## The question of an endpoint -/

/-- `CimResource_Enumerate_EP` up to the question that it puts to the CIMOM: the client, the
context, and the question. -/
def enumerateOperation (cfg : CimConfig) (doc : WsXmlNode) (info : CimInfo κ) :
    CResult (Except WsmanStatus (CimClientInfo × CimInfo κ × CimOperation)) :=
  (wsmanGetSelectorList doc).bind fun selectors ↦
    let client := cimClientOf cfg doc selectors
    if !verifyClassNamespace client then
      .value (.error ⟨.wsaDestinationUnreachable, .wsmanDetailInvalidResourceuri⟩)
    else
      (wsmanParseEnumRequest doc info).bind fun
        | .error status => .value (.error status)
        | .ok info =>
          (cimOperation cfg client info.flags info.filter).bind fun
            | .error status => .value (.error status)
            | .ok op => .value (.ok (client, info, op))

theorem cimStartEnumeration_eq {cimom : Cimom κ} (cfg : CimConfig) (doc : WsXmlNode)
    {info : CimInfo κ} (h : cimom.connects info.authData = true) :
    cimStartEnumeration cimom cfg doc info =
      (enumerateOperation cfg doc info).bind fun
        | .error status => .value (.error status)
        | .ok (client, info, op) =>
          (op.run cimom client).bind fun
            | .error status => .value (.error status)
            | .ok results =>
              .value (.ok
                { info with
                  totalItems := UInt32.ofNat results.list.length
                  appEnumContext := some ⟨client, results⟩ }) := by
  rw [cimStartEnumeration, enumerateOperation, h, if_neg (by simp)]
  cases wsmanGetSelectorList doc with
  | undefined => rfl
  | value selectors =>
    simp only [value_bind]
    split
    · rfl
    cases wsmanParseEnumRequest doc info with
    | undefined => rfl
    | value parsed =>
      cases parsed with
      | error status => rfl
      | ok info =>
        simp only [value_bind, cimEnumInstances]
        cases cimOperation cfg (cimClientOf cfg doc selectors) info.flags info.filter with
        | undefined => rfl
        | value op => cases op <;> rfl

def CimOperation.RestrictedBy (op : CimOperation) (cfg : CimConfig) (client : CimClientInfo)
    (filter : Filter) : Prop :=
  match op.query with
  | .references path resultClass role =>
    filter.assocType = .associationInstances ∧
      filterObjectPath client filter.epr = .value (some path) ∧
      resultClass = filter.resultClass ∧ role = filter.role
  | .associators path assocClass resultClass role resultRole =>
    filter.assocType = .associatedInstances ∧
      filterObjectPath client filter.epr = .value (some path) ∧
      assocClass = filter.assocClass ∧ resultClass = filter.resultClass ∧ role = filter.role ∧
      resultRole = filter.resultRole
  | .execQuery _ query language =>
    query.isSome ∧ query = filter.query ∧
      ((filter.dialect = wsmWqlFilterDialect ∧ language = "WQL") ∨
        (filter.dialect = wsmCqlFilterDialect ∧ language = cfg.cimClientCql))
  | .enumInstances _ =>
    filter.dialect = wsmSelectorFilterDialect ∧ op.selectors = some filter.selectorset

/-! ## Memory that is read -/

def KeyValue.Named (kv : KeyValue) : Prop := ∃ k, kv.key = .init (some k)

def CellNamed (cell : Cell KeyValue) : Prop := ∃ kv, cell = .init kv ∧ kv.Named

theorem cimAddKey_eq_value_iff (path : ObjectPath) (kv : KeyValue) :
    (∃ path', cimAddKey path kv = .value path') ↔
      ∀ key value, kv = .text key value → ∃ k, key = .init (some k) := by
  cases kv with
  | epr key value => simp [cimAddKey]
  | text key value =>
    cases key with
    | uninit => simp [cimAddKey, Cell.read]
    | init key =>
      cases key with
      | none => simp [cimAddKey, Cell.read]
      | some k =>
        refine ⟨fun _ key value h ↦ ?_, fun _ ↦ ?_⟩
        · cases h
          exact ⟨k, rfl⟩
        · simp only [cimAddKey, Cell.read, value_bind]
          split <;> exact ⟨_, rfl⟩

theorem cimAddKeys_eq_value_iff (kvs : List KeyValue) (path : ObjectPath) :
    (∃ path', cimAddKeys path kvs = .value path') ↔
      ∀ key value, KeyValue.text key value ∈ kvs → ∃ k, key = .init (some k) := by
  induction kvs generalizing path with
  | nil => simp [cimAddKeys]
  | cons kv kvs ih =>
    have hkv := cimAddKey_eq_value_iff path kv
    rw [cimAddKeys]
    constructor
    · rintro ⟨path', h⟩ key value hmem
      obtain ⟨path₁, h₁, h₂⟩ := bind_eq_value.mp h
      rcases mem_cons.mp hmem with heq | hmem
      · exact hkv.mp ⟨path₁, h₁⟩ key value heq.symm
      · exact (ih path₁).mp ⟨path', h₂⟩ key value hmem
    · intro hall
      obtain ⟨path₁, h₁⟩ := hkv.mpr fun key value heq ↦ hall key value (heq ▸ mem_cons_self)
      rw [h₁]
      exact (ih path₁).mpr fun key value hmem ↦ hall key value (mem_cons_of_mem _ hmem)

variable (cimom : Cimom κ)

theorem selectorMatches_eq_value_iff (inst : κ) (cell : Cell KeyValue) :
    (∃ b, selectorMatches cimom inst cell = .value b) ↔ CellNamed cell := by
  cases cell with
  | uninit => simp [selectorMatches, Cell.read, CellNamed]
  | init kv =>
    rw [selectorMatches, CellNamed]
    simp only [Cell.read, value_bind, Cell.init.injEq, exists_eq_left', Named]
    cases hkey : kv.key with
    | uninit => simp
    | init key =>
      cases key with
      | none => simp
      | some k => cases kv <;> simp

theorem filterInstance_eq_value_iff (inst : κ) (cells : List (Cell KeyValue)) :
    (∃ b, filterInstance cimom inst cells = .value b) ↔ ∀ cell ∈ cells, CellNamed cell := by
  induction cells with
  | nil => simp [filterInstance]
  | cons cell cells ih =>
    rw [filterInstance, forall_mem_cons, ← ih, ← selectorMatches_eq_value_iff cimom inst cell]
    constructor
    · rintro ⟨b, h⟩
      obtain ⟨m, hm, h⟩ := bind_eq_value.mp h
      obtain ⟨ms, hms, _⟩ := bind_eq_value.mp h
      exact ⟨⟨m, hm⟩, ms, hms⟩
    · rintro ⟨⟨m, hm⟩, ms, hms⟩
      exact ⟨m && ms, by rw [hm, hms]; rfl⟩

theorem filterInstances_of_named {cells : List (Cell KeyValue)} (h : ∀ cell ∈ cells, CellNamed cell)
    (insts : List κ) : ∃ kept, filterInstances cimom cells insts = .value kept := by
  induction insts with
  | nil => exact ⟨[], rfl⟩
  | cons inst insts ih =>
    obtain ⟨keep, hkeep⟩ := (filterInstance_eq_value_iff cimom inst cells).mpr h
    obtain ⟨kept, hkept⟩ := ih
    exact ⟨_, by rw [filterInstances, hkeep, hkept]; rfl⟩

def CimOperation.Defined (op : CimOperation) : Prop :=
  ∀ cells, op.selectors = some cells → ∀ cell ∈ cells, CellNamed cell

theorem CimOperation.Defined.run_ne_undefined {op : CimOperation} (h : op.Defined)
    (cimom : Cimom κ) (client : CimClientInfo) : op.run cimom client ≠ .undefined := by
  rw [CimOperation.run]
  cases cimom.run client op.query with
  | error rc => simp
  | ok results =>
    dsimp only
    cases hsel : op.selectors with
    | none => simp [selectInstances]
    | some cells =>
      obtain ⟨kept, hkept⟩ := filterInstances_of_named cimom (h cells hsel) results.list
      rw [selectInstances]
      split
      · rename_i hundef
        exact absurd (hkept.symm.trans hundef) (by simp)
      · simp

/-! ## Which filters are honoured -/

def SelectorReadable (entry : WsXmlNode) : Prop :=
  (wsXmlFindAttrValue (some entry) none wsmName).isSome = true ∧
    ∀ inst, wsXmlFirstChild (some entry) xmlNsAddressing wsaEpr = some inst →
      Epr.keysWrittenOpt (eprDeserialize (some inst) none none true) = true

/-- What an association filter must contain: one of the two elements that say what is asked for,
with at least four children and with a reference to the source object. The selectors of the
reference are looked at only if there is a class in its resource URI, and must have names then. -/
def AssocReadable (f : WsXmlNode) : Prop :=
  ∃ assocType inst epr, assocInstanceNode f = some (assocType, inst) ∧
    4 ≤ wsXmlGetChildCount (some inst) ∧ assocObject inst = some epr ∧
    (afterLastSlash epr.uri = none ∨
      ∀ key value, KeyValue.text key value ∈ epr.selectors → ∃ k, key = .init (some k))

def SelectorsReadable (f : WsXmlNode) : Prop :=
  ∃ set, wsXmlFirstChild (some f) xmlNsWsMan wsmSelectorSet = some set ∧
    wsXmlGetChildCount (some set) ≤
      (set.childrenNamed (some xmlNsWsMan) (some wsmSelector)).length ∧
    ∀ entry ∈ set.childrenNamed (some xmlNsWsMan) (some wsmSelector), SelectorReadable entry

def FilterReadable (f : WsXmlNode) : Prop :=
  (filterDialect f = wsmAssociationFilterDialect → AssocReadable f) ∧
    (filterDialect f = wsmSelectorFilterDialect → SelectorsReadable f)

theorem filterSelector_named_iff (entry : WsXmlNode) :
    (∃ kv, filterSelector entry = .value kv ∧ kv.Named) ↔ SelectorReadable entry := by
  rw [filterSelector, SelectorReadable]
  cases hname : wsXmlFindAttrValue (some entry) none wsmName with
  | none =>
    cases wsXmlFirstChild (some entry) xmlNsAddressing wsaEpr with
    | none => simp [Named, key]
    | some inst =>
      dsimp only
      split <;> simp [Named, key]
  | some name =>
    cases wsXmlFirstChild (some entry) xmlNsAddressing wsaEpr with
    | none => simp [Named, key]
    | some inst =>
      dsimp only
      split
      · rename_i hkeys
        simp [Named, key, hkeys]
      · rename_i hkeys
        simp [hkeys]

theorem filterSelectors_named_iff (entries : List WsXmlNode) :
    (∃ kvs, filterSelectors entries = .value kvs ∧ ∀ kv ∈ kvs, kv.Named) ↔
      ∀ entry ∈ entries, SelectorReadable entry := by
  induction entries with
  | nil => simp [filterSelectors]
  | cons entry entries ih =>
    rw [filterSelectors, forall_mem_cons, ← ih, ← filterSelector_named_iff]
    constructor
    · rintro ⟨kvs, h, hnamed⟩
      obtain ⟨kv, hkv, h⟩ := bind_eq_value.mp h
      obtain ⟨rest, hrest, h⟩ := bind_eq_value.mp h
      cases h
      obtain ⟨hfirst, hothers⟩ := forall_mem_cons.mp hnamed
      exact ⟨⟨kv, hkv, hfirst⟩, rest, hrest, hothers⟩
    · rintro ⟨⟨kv, hkv, hfirst⟩, rest, hrest, hothers⟩
      exact ⟨kv :: rest, by rw [hkv, hrest]; rfl, forall_mem_cons.mpr ⟨hfirst, hothers⟩⟩

structure NoFilterFlags (flags : EnumFlags) : Prop where
  ref : flags.ref = false
  assoc : flags.assoc = false
  cql : flags.cql = false
  wql : flags.wql = false
  xpath : flags.xpath = false
  selector : flags.selector = false

def filteredOperation (cfg : CimConfig) (client : CimClientInfo) (flags : EnumFlags)
    (f : WsXmlNode) : CResult (Except WsmanStatus CimOperation) :=
  (filterOfNode f).bind fun
    | none => cimOperation cfg client flags none
    | some filter =>
      match filterFlags filter flags with
      | none => .value (.error ⟨.wsenCannotProcessFilter, .wsmanDetailNotSupported⟩)
      | some flags => cimOperation cfg client flags (some filter)

def Honoured (cfg : CimConfig) (client : CimClientInfo) (f : WsXmlNode)
    (r : CResult (Except WsmanStatus CimOperation)) : Prop :=
  (∃ status, r = .value (.error status)) ∨
    ∃ op filter, r = .value (.ok op) ∧ filterOfNode f = .value (some filter) ∧
      op.RestrictedBy cfg client filter ∧ op.Defined

section

variable {cfg : CimConfig} {client : CimClientInfo} {flags : EnumFlags}

theorem cimOperation_none (hflags : NoFilterFlags flags) :
    cimOperation cfg client flags none =
      .value (.ok ⟨.enumInstances
        { nameSpace := client.cimNamespace, className := client.requestedClass }, none⟩) := by
  simp [cimOperation, hflags.ref, hflags.assoc, hflags.cql, hflags.wql, hflags.xpath,
    hflags.selector]

theorem not_honoured_undefined (f : WsXmlNode) : ¬Honoured cfg client f .undefined := by
  rintro (⟨_, h⟩ | ⟨_, _, h, _⟩) <;> cases h

variable {f : WsXmlNode}

/-- A filter that the decoder does not deliver is dropped, or the decoder has no defined
behaviour. -/
theorem not_honoured_of_lost (hflags : NoFilterFlags flags)
    (h : filterOfNode f = .value none ∨ filterOfNode f = .undefined) :
    ¬Honoured cfg client f (filteredOperation cfg client flags f) := by
  rcases h with h | h
  · rw [filteredOperation, h, value_bind]
    rintro (⟨_, herror⟩ | ⟨op, filter, _, hfilter, _⟩)
    · rw [cimOperation_none hflags] at herror
      cases herror
    · rw [h] at hfilter
      cases hfilter
  · rw [filteredOperation, h]
    exact not_honoured_undefined f

def assocQuery (filter : Filter) (path : ObjectPath) : CimQuery :=
  match filter.assocType with
  | .associatedInstances =>
    .associators path filter.assocClass filter.resultClass filter.role filter.resultRole
  | .associationInstances => .references path filter.resultClass filter.role

variable {filter : Filter}

theorem cimOperation_assoc (cfg : CimConfig) (client : CimClientInfo) (hflags : NoFilterFlags flags)
    (hd : filter.dialect = wsmAssociationFilterDialect) :
    ∃ flags', filterFlags filter flags = some flags' ∧
      (filterObjectPath client filter.epr = .undefined →
        cimOperation cfg client flags' (some filter) = .undefined) ∧
      (filterObjectPath client filter.epr = .value none →
        cimOperation cfg client flags' (some filter) =
          .value (.error ⟨.wsaEndpointUnavailable, .wsmanDetailInvalidResourceuri⟩)) ∧
      ∀ path, filterObjectPath client filter.epr = .value (some path) →
        cimOperation cfg client flags' (some filter) =
          .value (.ok ⟨assocQuery filter path, none⟩) := by
  cases htype : filter.assocType with
  | associatedInstances =>
    refine ⟨_, by rw [filterFlags, hd, if_pos (by simp), htype], fun h ↦ ?_, fun h ↦ ?_,
      fun path h ↦ ?_⟩
    · simp [cimOperation, h]
    · simp [cimOperation, h]
    · simp [cimOperation, h, hflags.ref, hflags.selector, assocQuery, htype]
  | associationInstances =>
    refine ⟨_, by rw [filterFlags, hd, if_pos (by simp), htype], fun h ↦ ?_, fun h ↦ ?_,
      fun path h ↦ ?_⟩
    · simp [cimOperation, h]
    · simp [cimOperation, h]
    · simp [cimOperation, h, hflags.selector, assocQuery, htype]

theorem restrictedBy_assocQuery {path : ObjectPath}
    (h : filterObjectPath client filter.epr = .value (some path)) :
    CimOperation.RestrictedBy ⟨assocQuery filter path, none⟩ cfg client filter := by
  rw [assocQuery]
  cases htype : filter.assocType with
  | associatedInstances => exact ⟨htype, h, rfl, rfl, rfl, rfl⟩
  | associationInstances => exact ⟨htype, h, rfl, rfl⟩

theorem filterObjectPath_ne_undefined_iff (client : CimClientInfo) (epr : Epr) :
    filterObjectPath client (some epr) ≠ .undefined ↔
      afterLastSlash epr.uri = none ∨
        ∀ key value, KeyValue.text key value ∈ epr.selectors → ∃ k, key = .init (some k) := by
  cases hslash : afterLastSlash epr.uri with
  | none => simp [filterObjectPath, hslash]
  | some cls =>
    rw [← cimAddKeys_eq_value_iff epr.selectors
      { nameSpace := client.cimNamespace, className := some cls }]
    cases hkeys : cimAddKeys { nameSpace := client.cimNamespace, className := some cls }
        epr.selectors with
    | undefined => simp [filterObjectPath, hslash, hkeys]
    | value path => simp [filterObjectPath, hslash, hkeys]

theorem honoured_iff_objectPath (hflags : NoFilterFlags flags)
    (hfilter : filterOfNode f = .value (some filter))
    (hd : filter.dialect = wsmAssociationFilterDialect) :
    Honoured cfg client f (filteredOperation cfg client flags f) ↔
      filterObjectPath client filter.epr ≠ .undefined := by
  obtain ⟨flags', hflags', hundef, hfault, hok⟩ := cimOperation_assoc cfg client hflags hd
  have hop : filteredOperation cfg client flags f =
      cimOperation cfg client flags' (some filter) := by
    rw [filteredOperation, hfilter, value_bind]
    dsimp only
    rw [hflags']
  rw [hop]
  cases hpath : filterObjectPath client filter.epr with
  | undefined =>
    rw [hundef hpath]
    exact iff_of_false (not_honoured_undefined f) fun h ↦ h rfl
  | value path =>
    refine iff_of_true ?_ (by simp)
    cases path with
    | none => exact .inl ⟨_, hfault hpath⟩
    | some path =>
      refine .inr ⟨_, filter, hok path hpath, hfilter, restrictedBy_assocQuery hpath, ?_⟩
      intro cells hcells
      cases hcells

/-- An association filter with too few children is none. -/
theorem filterOfNode_assoc (hd : filterDialect f = wsmAssociationFilterDialect) :
    ((filterOfNode f = .value none ∨ filterOfNode f = .undefined) ∧
        ∀ assocType inst, assocInstanceNode f = some (assocType, inst) →
          wsXmlGetChildCount (some inst) < 4) ∨
      ∃ assocType inst filter, assocInstanceNode f = some (assocType, inst) ∧
        4 ≤ wsXmlGetChildCount (some inst) ∧ filterOfNode f = .value (some filter) ∧
        filter.dialect = wsmAssociationFilterDialect ∧ filter.epr = assocObject inst := by
  have hnode : filterOfNode f = assocFilter f := by rw [filterOfNode, hd, if_pos (by simp)]
  unfold assocFilter at hnode
  cases hinst : assocInstanceNode f with
  | none =>
    rw [hinst] at hnode
    exact .inl ⟨.inl hnode, by simp⟩
  | some p =>
    obtain ⟨assocType, inst⟩ := p
    rw [hinst] at hnode
    dsimp only at hnode
    by_cases hnum : properNum inst < 0
    · rw [if_pos hnum] at hnode
      refine .inl ⟨?_, ?_⟩
      · split at hnode
        · exact .inl hnode
        · exact .inr hnode
      · rintro _ _ ⟨⟩
        rw [properNum] at hnum
        omega
    · rw [if_neg hnum] at hnode
      refine .inr ⟨assocType, inst, _, rfl, ?_, hnode, rfl, rfl⟩
      rw [properNum] at hnum
      omega

theorem honoured_assoc_iff (hflags : NoFilterFlags flags)
    (hd : filterDialect f = wsmAssociationFilterDialect) :
    Honoured cfg client f (filteredOperation cfg client flags f) ↔ AssocReadable f := by
  rcases filterOfNode_assoc hd with
    ⟨hlost, hfew⟩ | ⟨assocType, inst, filter, hinst, hcount, hfilter, hdialect, hepr⟩
  · refine iff_of_false (not_honoured_of_lost hflags hlost) ?_
    rintro ⟨assocType, inst, _, hinst, hcount, _⟩
    exact absurd hcount (Nat.not_le.mpr (hfew assocType inst hinst))
  · rw [honoured_iff_objectPath hflags hfilter hdialect, hepr]
    cases hobject : assocObject inst with
    | none =>
      -- the pointer to the reference is followed without a test
      refine iff_of_false (fun h ↦ h rfl) ?_
      rintro ⟨_, _, _, h, _, hobject', _⟩
      cases hinst.symm.trans h
      exact absurd (hobject.symm.trans hobject') (by simp)
    | some epr =>
      rw [filterObjectPath_ne_undefined_iff]
      constructor
      · exact fun h ↦ ⟨assocType, inst, epr, hinst, hcount, hobject, h⟩
      rintro ⟨_, _, _, h, _, hobject', hread⟩
      cases hinst.symm.trans h
      cases hobject.symm.trans hobject'
      exact hread

theorem forall_cellNamed_iff (kvs : List KeyValue) (n : ℕ) :
    (∀ cell ∈ kvs.map Cell.init ++ List.replicate n Cell.uninit, CellNamed cell) ↔
      n = 0 ∧ ∀ kv ∈ kvs, kv.Named := by
  rw [forall_mem_append, forall_mem_map]
  have hinit : ∀ kv : KeyValue, CellNamed (.init kv) ↔ kv.Named := by simp [CellNamed]
  have huninit : ¬CellNamed .uninit := by simp [CellNamed]
  cases n with
  | zero => simp [hinit]
  | succ n => simp [hinit, huninit, replicate_succ]

def selectorCells (set : WsXmlNode) (kvs : List KeyValue) : List (Cell KeyValue) :=
  kvs.map .init ++ List.replicate (wsXmlGetChildCount (some set) -
    (set.childrenNamed (some xmlNsWsMan) (some wsmSelector)).length) .uninit

theorem filteredOperation_selector (hflags : NoFilterFlags flags) {set : WsXmlNode}
    (hset : wsXmlFirstChild (some f) xmlNsWsMan wsmSelectorSet = some set) {kvs : List KeyValue}
    (hkvs : filterSelectors (set.childrenNamed (some xmlNsWsMan) (some wsmSelector)) = .value kvs)
    (hd : filterDialect f = wsmSelectorFilterDialect) :
    ∃ filter : Filter, filterOfNode f = .value (some filter) ∧
      filter.dialect = wsmSelectorFilterDialect ∧ filter.selectorset = selectorCells set kvs ∧
      filteredOperation cfg client flags f =
        .value (.ok ⟨.enumInstances
          { nameSpace := client.cimNamespace, className := client.requestedClass },
          some (selectorCells set kvs)⟩) := by
  have hnode : filterOfNode f = .value (some
      { dialect := wsmSelectorFilterDialect, selectorset := selectorCells set kvs }) := by
    rw [filterOfNode, hd, if_neg (by decide), if_pos (by simp), selectorFilter, hset]
    dsimp only
    rw [hkvs]
    rfl
  refine ⟨_, hnode, rfl, rfl, ?_⟩
  rw [filteredOperation, hnode, value_bind]
  simp [filterFlags, cimOperation, hflags.ref, hflags.assoc, hflags.cql, hflags.wql, hflags.xpath,
    wsmSelectorFilterDialect, wsmAssociationFilterDialect, wsmCqlFilterDialect, wsmWqlFilterDialect]

theorem honoured_selector_iff (hflags : NoFilterFlags flags)
    (hd : filterDialect f = wsmSelectorFilterDialect) :
    Honoured cfg client f (filteredOperation cfg client flags f) ↔ SelectorsReadable f := by
  have hnode : filterOfNode f = selectorFilter f := by
    rw [filterOfNode, hd, if_neg (by decide), if_pos (by simp)]
  rw [selectorFilter] at hnode
  cases hset : wsXmlFirstChild (some f) xmlNsWsMan wsmSelectorSet with
  | none =>
    rw [hset] at hnode
    refine iff_of_false (not_honoured_of_lost hflags (.inl hnode)) ?_
    rintro ⟨_, h, _⟩
    exact absurd (hset.symm.trans h) (by simp)
  | some set =>
    rw [hset] at hnode
    dsimp only at hnode
    have hreadable : SelectorsReadable f ↔ wsXmlGetChildCount (some set) -
            (set.childrenNamed (some xmlNsWsMan) (some wsmSelector)).length = 0 ∧
          ∃ kvs, filterSelectors (set.childrenNamed (some xmlNsWsMan) (some wsmSelector)) =
            .value kvs ∧ ∀ kv ∈ kvs, kv.Named := by
      rw [SelectorsReadable, hset, filterSelectors_named_iff, Nat.sub_eq_zero_iff_le]
      simp
    rw [hreadable]
    cases hkvs : filterSelectors (set.childrenNamed (some xmlNsWsMan) (some wsmSelector)) with
    | undefined =>
      rw [hkvs] at hnode
      exact iff_of_false (not_honoured_of_lost hflags (.inr hnode)) (by simp)
    | value kvs =>
      obtain ⟨filter, hfilter, hdialect, hcells, hop⟩ :=
        filteredOperation_selector hflags hset hkvs hd
      rw [hop]
      have hnamed := forall_cellNamed_iff kvs (wsXmlGetChildCount (some set) -
        (set.childrenNamed (some xmlNsWsMan) (some wsmSelector)).length)
      constructor
      · rintro (⟨_, h⟩ | ⟨op, _, h, _, _, hdefined⟩)
        · cases h
        · cases h
          obtain ⟨hzero, hall⟩ := hnamed.mp (hdefined _ rfl)
          exact ⟨hzero, kvs, rfl, hall⟩
      · rintro ⟨hzero, kvs', h, hall⟩
        cases h
        refine .inr ⟨_, filter, rfl, hfilter, ⟨hdialect, by rw [hcells]⟩, fun cells h ↦ ?_⟩
        cases h
        exact hnamed.mpr ⟨hzero, hall⟩

theorem honoured_query (hflags : NoFilterFlags flags)
    (hassoc : filterDialect f ≠ wsmAssociationFilterDialect)
    (hsel : filterDialect f ≠ wsmSelectorFilterDialect) :
    Honoured cfg client f (filteredOperation cfg client flags f) := by
  have hnode : filterOfNode f = .value (some
      { dialect := filterDialect f, query := some (wsXmlGetNodeTextSafe (some f)) }) := by
    rw [filterOfNode, if_neg (by simpa using hassoc), if_neg (by simpa using hsel)]
  rw [filteredOperation, hnode, value_bind]
  dsimp only
  rw [filterFlags, if_neg (by simpa using hassoc)]
  -- The text of the filter is the query, in the language of its dialect.
  by_cases hcql : filterDialect f = wsmCqlFilterDialect
  · rw [if_pos (by simpa using hcql)]
    refine .inr ⟨⟨.execQuery
      { nameSpace := client.cimNamespace, className := client.requestedClass }
      (some (wsXmlGetNodeTextSafe (some f))) cfg.cimClientCql, none⟩, _, ?_, hnode,
      ⟨rfl, rfl, .inr ⟨hcql, rfl⟩⟩, fun cells h ↦ by cases h⟩
    simp [cimOperation, hflags.ref, hflags.assoc, hflags.wql, hflags.selector]
  rw [if_neg (by simpa using hcql)]
  by_cases hwql : filterDialect f = wsmWqlFilterDialect
  · rw [if_pos (by simpa using hwql)]
    refine .inr ⟨⟨.execQuery
      { nameSpace := client.cimNamespace, className := client.requestedClass }
      (some (wsXmlGetNodeTextSafe (some f))) "WQL", none⟩, _, ?_, hnode,
      ⟨rfl, rfl, .inl ⟨hwql, rfl⟩⟩, fun cells h ↦ by cases h⟩
    simp [cimOperation, hflags.ref, hflags.assoc, hflags.selector]
  · rw [if_neg (by simpa using hwql), if_neg (by simpa using hsel)]
    exact .inl ⟨_, rfl⟩

theorem honoured_iff_readable (hflags : NoFilterFlags flags) (f : WsXmlNode) :
    Honoured cfg client f (filteredOperation cfg client flags f) ↔ FilterReadable f := by
  rw [FilterReadable]
  by_cases hassoc : filterDialect f = wsmAssociationFilterDialect
  · have hsel : filterDialect f ≠ wsmSelectorFilterDialect := by rw [hassoc]; decide
    rw [honoured_assoc_iff hflags hassoc]
    exact ⟨fun h ↦ ⟨fun _ ↦ h, fun h' ↦ absurd h' hsel⟩, fun h ↦ h.1 hassoc⟩
  · by_cases hsel : filterDialect f = wsmSelectorFilterDialect
    · rw [honoured_selector_iff hflags hsel]
      exact ⟨fun h ↦ ⟨fun h' ↦ absurd h' hassoc, fun _ ↦ h⟩, fun h ↦ h.2 hsel⟩
    · exact iff_of_true (honoured_query hflags hassoc hsel)
        ⟨fun h ↦ absurd h hassoc, fun h ↦ absurd h hsel⟩

end

/-! ## The endpoint -/

theorem noFilterFlags_modeFlags (node : WsXmlNode) : NoFilterFlags (modeFlags node {}) := by
  rw [modeFlags, enumModeFlags]
  unfold polymorphismFlags
  repeat' split
  all_goals exact ⟨rfl, rfl, rfl, rfl, rfl, rfl⟩

section Endpoint

variable {cfg : CimConfig} {doc e f : WsXmlNode} {selectors : List (String × KeyValue)}

theorem enumerateOperation_of_not_verified (info : CimInfo κ)
    (hsel : wsmanGetSelectorList doc = .value selectors)
    (hverify : verifyClassNamespace (cimClientOf cfg doc selectors) = false) :
    enumerateOperation cfg doc info =
      .value (.error ⟨.wsaDestinationUnreachable, .wsmanDetailInvalidResourceuri⟩) := by
  rw [enumerateOperation, hsel, value_bind]
  dsimp only
  rw [hverify, if_pos (by simp)]

variable (he : enumerateOf doc = some e) (hsel : wsmanGetSelectorList doc = .value selectors)
  (hverify : verifyClassNamespace (cimClientOf cfg doc selectors) = true)

include he hsel hverify in
theorem enumerateOperation_of_filter {info : CimInfo κ} (hinfo : info.flags = {})
    (hf : wsXmlFirstChild (some e) xmlNsWsMan wsmFilter = some f) :
    ∃ info₁, enumerateOperation cfg doc info =
      (filteredOperation cfg (cimClientOf cfg doc selectors) (modeFlags e {}) f).bind fun
        | .error status => .value (.error status)
        | .ok op => .value (.ok (cimClientOf cfg doc selectors, info₁, op)) := by
  rw [enumerateOf] at he
  rw [enumerateOperation, hsel, value_bind]
  dsimp only
  rw [hverify, if_neg (by simp), wsmanParseEnumRequest, he]
  dsimp only
  rw [filterDeserialize, hf, hinfo, filteredOperation]
  dsimp only
  cases filterOfNode f with
  | undefined => exact ⟨info, rfl⟩
  | value filter =>
    cases filter with
    | none => exact ⟨_, rfl⟩
    | some filter =>
      simp only [value_bind]
      cases filterFlags filter (modeFlags e {}) with
      | none => exact ⟨info, rfl⟩
      | some flags => exact ⟨_, rfl⟩

include he hsel hverify in
theorem enumerateOperation_of_none {info : CimInfo κ} (hinfo : info.flags = {})
    (hf : wsXmlFirstChild (some e) xmlNsWsMan wsmFilter = none) :
    ∃ info₁ path, enumerateOperation cfg doc info =
      .value (.ok (cimClientOf cfg doc selectors, info₁, ⟨.enumInstances path, none⟩)) := by
  rw [enumerateOf] at he
  rw [enumerateOperation, hsel, value_bind]
  dsimp only
  rw [hverify, if_neg (by simp), wsmanParseEnumRequest, he]
  dsimp only
  rw [filterDeserialize, hf, hinfo, value_bind]
  simp only [value_bind, cimOperation_none (noFilterFlags_modeFlags e)]
  exact ⟨_, _, rfl⟩

def FilterHonoured (cfg : CimConfig) (doc f : WsXmlNode) : Prop :=
  ∀ (κ : Type) (cimom : Cimom κ) (info : CimInfo κ), info.flags = {} →
    (∃ status, cimStartEnumeration cimom cfg doc info = .value (.error status)) ∨
      ∃ client info₁ op filter info',
        enumerateOperation cfg doc info = .value (.ok (client, info₁, op)) ∧
        filterOfNode f = .value (some filter) ∧ op.RestrictedBy cfg client filter ∧
        cimStartEnumeration cimom cfg doc info = .value (.ok info')

def singleInstance : Cimom Unit where
  connects _ := true
  run _ _ := .ok ⟨[()], by decide⟩
  property _ _ := none

def newContext : CimInfo Unit := { enumId := "", eprTo := "", eprUri := "", encoding := "" }

theorem defined_of_run_singleInstance {op : CimOperation} {client : CimClientInfo}
    {r : Except WsmanStatus (CimResults Unit)} (h : op.run singleInstance client = .value r) :
    op.Defined ∧ ∃ results, r = .ok results := by
  change (selectInstances singleInstance ⟨[()], _⟩ op.selectors).bind _ = _ at h
  obtain ⟨kept, hkept, h⟩ := bind_eq_value.mp h
  cases h
  refine ⟨fun cells hcells ↦ ?_, kept, rfl⟩
  rw [hcells, selectInstances] at hkept
  split at hkept
  · cases hkept
  · rename_i list hlist
    obtain ⟨keep, hkeep, _⟩ := bind_eq_value.mp hlist
    exact (filterInstance_eq_value_iff singleInstance () cells).mp ⟨keep, hkeep⟩

theorem connects_singleInstance : singleInstance.connects newContext.authData = true := rfl

include he hsel hverify in
theorem honoured_of_filterHonoured (h : FilterHonoured cfg doc f)
    (hf : wsXmlFirstChild (some e) xmlNsWsMan wsmFilter = some f) :
    Honoured cfg (cimClientOf cfg doc selectors) f
      (filteredOperation cfg (cimClientOf cfg doc selectors) (modeFlags e {}) f) := by
  have hflags : newContext.flags = {} := rfl
  obtain ⟨info₁, hop⟩ := enumerateOperation_of_filter he hsel hverify hflags hf
  have h := h Unit singleInstance newContext rfl
  rw [cimStartEnumeration_eq cfg doc connects_singleInstance, hop] at h
  cases hr : filteredOperation cfg (cimClientOf cfg doc selectors) (modeFlags e {}) f with
  | undefined =>
    rw [hr] at h
    rcases h with ⟨_, h⟩ | ⟨_, _, _, _, _, h, _⟩ <;> cases h
  | value r =>
    cases r with
    | error status => exact .inl ⟨status, rfl⟩
    | ok op =>
      rw [hr] at h
      simp only [value_bind] at h
      rcases h with ⟨status, h⟩ | ⟨client', info', op', filter, info'', hop', hfilter, hres, h⟩
      · -- the question was put to the CIMOM, which has answered
        obtain ⟨r, hrun, h⟩ := bind_eq_value.mp h
        obtain ⟨_, results, rfl⟩ := defined_of_run_singleInstance hrun
        cases h
      · cases hop'
        obtain ⟨r, hrun, _⟩ := bind_eq_value.mp h
        exact .inr ⟨op, filter, rfl, hfilter, hres, (defined_of_run_singleInstance hrun).1⟩

include he hsel hverify in
theorem filterHonoured_of_honoured (hf : wsXmlFirstChild (some e) xmlNsWsMan wsmFilter = some f)
    (h : Honoured cfg (cimClientOf cfg doc selectors) f (filteredOperation cfg (cimClientOf cfg doc
      selectors) (modeFlags e {}) f)) : FilterHonoured cfg doc f := by
  intro κ cimom info hinfo
  by_cases hconn : cimom.connects info.authData = true
  swap
  · exact .inl ⟨_, by rw [cimStartEnumeration, if_pos (by simpa using hconn)]⟩
  obtain ⟨info₁, hop⟩ := enumerateOperation_of_filter he hsel hverify hinfo hf
  rw [cimStartEnumeration_eq cfg doc hconn, hop]
  rcases h with ⟨status, hr⟩ | ⟨op, filter, hr, hfilter, hres, hdef⟩
  · exact .inl ⟨status, by rw [hr]; rfl⟩
  rw [hr]
  cases hrun : op.run cimom (cimClientOf cfg doc selectors) with
  | undefined => exact absurd hrun (hdef.run_ne_undefined cimom _)
  | value r =>
    cases r with
    | error status => exact .inl ⟨status, by simp [hrun]⟩
    | ok results => exact .inr ⟨_, info₁, op, filter, _, rfl, hfilter, hres, by simp [hrun]; rfl⟩

theorem filterHonoured_of_not_verified (f : WsXmlNode)
    (hsel : wsmanGetSelectorList doc = .value selectors)
    (hverify : verifyClassNamespace (cimClientOf cfg doc selectors) = false) :
    FilterHonoured cfg doc f := by
  intro κ cimom info _
  by_cases hconn : cimom.connects info.authData = true
  · rw [cimStartEnumeration_eq cfg doc hconn, enumerateOperation_of_not_verified info hsel hverify]
    exact .inl ⟨_, rfl⟩
  · exact .inl ⟨_, by rw [cimStartEnumeration, if_pos (by simpa using hconn)]⟩

include he hsel hverify in
theorem not_filterHonoured_of_none
    (hf : wsXmlFirstChild (some e) xmlNsWsMan wsmFilter = none) : ¬FilterHonoured cfg doc f := by
  intro h
  have hflags : newContext.flags = {} := rfl
  obtain ⟨info₁, path, hop⟩ := enumerateOperation_of_none he hsel hverify hflags hf
  have h := h Unit singleInstance newContext rfl
  rw [cimStartEnumeration_eq cfg doc connects_singleInstance, hop] at h
  rcases h with ⟨status, h⟩ | ⟨_, _, _, filter, _, hop', _, hres, _⟩
  · cases h
  · cases hop'
    obtain ⟨_, hselectors⟩ := hres
    cases hselectors

theorem eq_of_admitted {ids : List String} {g : WsXmlNode} (hadm : Admitted ids doc)
    (he : enumerateOf doc = some e)
    (hf : wsXmlFirstChild (some e) xmlNsEnumeration wsenumFilter = some f ∨ wsXmlFirstChild (some e)
      xmlNsWsMan wsmFilter = some f) (hg : wsXmlFirstChild (some e) xmlNsWsMan wsmFilter = some g) :
    f = g := by
  rcases hf with hf | hf
  · have hfeatures := hadm.features
    simp [featuresSupported, bodySupported, he, enumerateSupported, hf, hg] at hfeatures
  · exact Option.some.inj (hf.symm.trans hg)

/-- **Filters of an Enumerate.** For a request that passes the inbound checks, the endpoint honours
its filter exactly if the references among the selectors of the request can be read, and either the
resource is refused, or the filter is a `wsman:Filter` with all that the endpoint needs. -/
theorem filter_honoured_iff (cfg : CimConfig) {ids : List String} {doc e f : WsXmlNode}
    (hadm : Admitted ids doc) (he : enumerateOf doc = some e)
    (hf : wsXmlFirstChild (some e) xmlNsEnumeration wsenumFilter = some f ∨
      wsXmlFirstChild (some e) xmlNsWsMan wsmFilter = some f) :
    FilterHonoured cfg doc f ↔
      ∃ selectors, wsmanGetSelectorList doc = .value selectors ∧
        (verifyClassNamespace (cimClientOf cfg doc selectors) = false ∨
          (wsXmlFirstChild (some e) xmlNsWsMan wsmFilter = some f ∧ FilterReadable f)) := by
  have hflags := noFilterFlags_modeFlags e
  constructor
  · intro h
    -- Selectors of the header that cannot be read keep the endpoint from answering at all.
    cases hsel : wsmanGetSelectorList doc with
    | undefined =>
      have h := h Unit singleInstance newContext rfl
      rw [cimStartEnumeration_eq cfg doc connects_singleInstance, enumerateOperation, hsel] at h
      rcases h with ⟨_, h⟩ | ⟨_, _, _, _, _, h, _⟩ <;> cases h
    | value selectors =>
      refine ⟨selectors, rfl, ?_⟩
      cases hverify : verifyClassNamespace (cimClientOf cfg doc selectors) with
      | false => exact .inl rfl
      | true =>
        cases hwsman : wsXmlFirstChild (some e) xmlNsWsMan wsmFilter with
        | none => exact absurd h (not_filterHonoured_of_none he hsel hverify hwsman)
        | some g =>
          obtain rfl := eq_of_admitted hadm he hf hwsman
          exact .inr ⟨rfl, (honoured_iff_readable hflags f).mp
            (honoured_of_filterHonoured he hsel hverify h hwsman)⟩
  · rintro ⟨selectors, hsel, hor⟩
    cases hverify : verifyClassNamespace (cimClientOf cfg doc selectors) with
    | false => exact filterHonoured_of_not_verified f hsel hverify
    | true =>
      obtain ⟨hwsman, hreadable⟩ := hor.resolve_left (by rw [hverify]; simp)
      exact filterHonoured_of_honoured he hsel hverify hwsman
        ((honoured_iff_readable hflags f).mpr hreadable)

end Endpoint

def wqlFilter (ns : String) : WsXmlNode :=
  .element (some ns) wsmFilter [⟨none, wsmDialect, wsmWqlFilterDialect⟩]
    [.text "SELECT * FROM CIM_DiskDrive WHERE Status = 'OK'"]

def filterDisks (ns : String) : WsXmlNode :=
  diskRequest "/Enumerate" "uuid:1" []
    [.elem xmlNsEnumeration wsenumEnumerate [wqlFilter ns]]

theorem filterDisks_honoured :
    Admitted [] (filterDisks xmlNsWsMan) ∧
      FilterHonoured {} (filterDisks xmlNsWsMan) (wqlFilter xmlNsWsMan) := by
  have hadm : Admitted [] (filterDisks xmlNsWsMan) :=
    (invoked_iff_admitted (fun _ (_ : SoapDoc Unit) ↦ 0) "uuid:2" (fun s _ ↦ (s, none)) [] () _
      {}).mp rfl
  refine ⟨hadm, (filter_honoured_iff {} hadm rfl (.inr rfl)).mpr ⟨[], rfl, .inr ⟨rfl, ?_⟩⟩⟩
  exact ⟨fun h ↦ absurd h (by decide), fun h ↦ absurd h (by decide)⟩

/-- The same query as a `wsen:Filter` passes the inbound checks, and all disks are enumerated. -/
theorem wsen_filter_dropped :
    Admitted [] (filterDisks xmlNsEnumeration) ∧
      (enumerateOf (filterDisks xmlNsEnumeration)).bind (fun e ↦
        wsXmlFirstChild (some e) xmlNsEnumeration wsenumFilter) =
          some (wqlFilter xmlNsEnumeration) ∧
      (∃ client info₁, enumerateOperation {} (filterDisks xmlNsEnumeration) diskInfo =
        .value (.ok (client, info₁,
          ⟨.enumInstances { nameSpace := "root/cimv2", className := some "CIM_DiskDrive" },
            none⟩))) ∧
      ∃ info', cimStartEnumeration (diskCimom twoDisks) {} (filterDisks xmlNsEnumeration) diskInfo =
        .value (.ok info') ∧ info'.totalItems = 2 := by
  refine ⟨?_, rfl, ⟨_, _, rfl⟩, _, rfl, rfl⟩
  exact (invoked_iff_admitted (fun _ (_ : SoapDoc Unit) ↦ 0) "uuid:2" (fun s _ ↦ (s, none)) [] () _
    {}).mp rfl

end Openwsman
