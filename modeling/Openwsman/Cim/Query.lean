import Openwsman.Enumeration.Info

/-!
# The CIM query of an Enumerate

What the CIM plugin does with an Enumerate request before there are results: it makes a client from
the request, reads the options and the filter of the Enumerate element into the flags of the
context, and asks the CIMOM for instances.

The question it asks is data (`CimOperation`): one of the four calls of the CIM client library, with
all its arguments, and the selectors that the plugin itself compares the instances with. What the
CIMOM answers is a parameter (`Cimom`).
-/

namespace Openwsman

variable {χ ι κ : Type}

/-! ## The client -/

structure CimClientInfo where
  cimNamespace : String
  requestedClass : Option String
  resourceUri : Option String
  method : Option String
  namespaces : List (String × String)

structure CimConfig where
  cimNamespace : String := "root/cimv2"
  vendorNamespaces : List (String × String) := []
  cimClientCql : String := "CQL"

/-- The value of a selector in the header. A reference is copied and destroyed, which reads all its
keys. -/
def selectorValue (selector : WsXmlNode) : CResult KeyValue :=
  match wsXmlFirstChild (some selector) xmlNsAddressing wsaEpr with
  | none => .value (.text (.init none) selector.chars)
  | some _ =>
    let e := eprDeserialize (some selector) (some xmlNsAddressing) (some wsaEpr) true
    if Epr.keysWrittenOpt e then .value (.epr (.init none) e) else .undefined

def selectorEntries (seen : List (String × KeyValue)) :
    List WsXmlNode → CResult (List (String × KeyValue))
  | [] => .value seen
  | selector :: rest =>
    let attrVal := (wsXmlFindAttrValue (some selector) (some xmlNsWsMan) wsmName).orElse fun _ ↦
      wsXmlFindAttrValue (some selector) none wsmName
    match attrVal with
    | none => selectorEntries seen rest
    | some name =>
      if seen.any fun e ↦ e.1 == name then selectorEntries seen rest
      else (selectorValue selector).bind fun kv ↦ selectorEntries (seen ++ [(name, kv)]) rest

def wsmanGetSelectorList (doc : WsXmlNode) : CResult (List (String × KeyValue)) :=
  match wsXmlFirstChild (wsXmlGetSoapHeader doc) xmlNsWsMan wsmSelectorSet with
  | none => .value []
  | some node => selectorEntries [] (node.childrenNamed (some xmlNsWsMan) (some wsmSelector))

def cimGetNamespaceSelector (selectors : List (String × KeyValue)) : Option String :=
  match selectors.find? fun e ↦ e.1 == cimNamespaceSelector with
  | some (_, .text _ value) => some value
  | _ => none

def afterLastSlash (s : String) : Option String :=
  (strrchr s.toList '/').map fun r ↦ String.ofList r.tail

def wsmanGetClassName (doc : WsXmlNode) : Option String := (requestUri doc).bind afterLastSlash

def wsmanGetMethodName (doc : WsXmlNode) : Option String :=
  (wsXmlGetNodeText (wsXmlFirstChild (wsXmlGetSoapHeader doc) xmlNsAddressing wsaAction)).bind
    afterLastSlash

def cimClientOf (cfg : CimConfig) (doc : WsXmlNode) (selectors : List (String × KeyValue)) :
    CimClientInfo where
  cimNamespace := (cimGetNamespaceSelector selectors).getD cfg.cimNamespace
  requestedClass := wsmanGetClassName doc
  resourceUri := requestUri doc
  method := wsmanGetMethodName doc
  namespaces := cfg.vendorNamespaces

def verifyClassNamespace (client : CimClientInfo) : Bool :=
  match client.resourceUri with
  | none => false
  | some uri =>
    uri == cimAllAvailableClasses || strstr uri xmlNsCimIntrinsic ||
      match client.requestedClass with
      | none => false
      | some cls =>
        (match client.method with
          | none => false
          | some method =>
            "CIM_".toList.isPrefixOf cls.toList && xmlNsCimClass.toList.isPrefixOf uri.toList &&
              method != transferCreate) ||
          client.namespaces.any fun e ↦ strstr cls e.1 && strstr uri e.2

/-! ## Parsing the request -/

def enumModeFlags (node : WsXmlNode) (flags : EnumFlags) : EnumFlags :=
  let text := wsXmlGetNodeText (wsXmlFirstChild (some node) xmlNsWsMan wsmEnumMode)
  if text == some wsmEnumEpr then { flags with epr := true }
  else if text == some wsmEnumObjAndEpr then { flags with objEpr := true }
  else flags

def polymorphismFlags (mode : Option String) (flags : EnumFlags) : EnumFlags :=
  match mode with
  | none => { flags with polyInclude := true }
  | some mode =>
    if mode == wsmbExcludeSubclassProp then { flags with polyExclude := true }
    else if mode == wsmbIncludeSubclassProp then { flags with polyInclude := true }
    else if mode == wsmbNone then { flags with polyNone := true }
    else flags

def modeFlags (node : WsXmlNode) (flags : EnumFlags) : EnumFlags :=
  let flags := polymorphismFlags
    (wsXmlGetNodeText (wsXmlFirstChild (some node) xmlNsCimBinding wsmbPolymorphismMode))
    (enumModeFlags node flags)
  if (wsXmlFirstChild (some node) xmlNsWsMan wsmOptimizeEnum).isSome then { flags with opt := true }
  else flags

def optMaxItems (node : WsXmlNode) (maxItems : UInt32) : UInt32 :=
  match wsXmlFirstChild (some node) xmlNsWsMan wsmOptimizeEnum with
  | none => maxItems
  | some _ =>
    match wsXmlFirstChild (some node) xmlNsWsMan wsmMaxElements with
    | none => 1
    | some max => UInt32.ofNat (toUInt (toULong (atoi max.chars)))

/-- Any dialect without a flag is taken for XPath, which `interpretxpath` always refuses. -/
def filterFlags (filter : Filter) (flags : EnumFlags) : Option EnumFlags :=
  if filter.dialect == wsmAssociationFilterDialect then
    match filter.assocType with
    | .associatedInstances => some { flags with assoc := true }
    | .associationInstances => some { flags with ref := true }
  else if filter.dialect == wsmCqlFilterDialect then some { flags with cql := true }
  else if filter.dialect == wsmWqlFilterDialect then some { flags with wql := true }
  else if filter.dialect == wsmSelectorFilterDialect then some { flags with selector := true }
  else none

def wsmanParseEnumRequest (doc : WsXmlNode) (info : WsEnumerateInfo χ ι) :
    CResult (Except WsmanStatus (WsEnumerateInfo χ ι)) :=
  match wsXmlFirstChild (wsXmlGetSoapBody doc) xmlNsEnumeration wsenumEnumerate with
  | none => .value (.ok info)
  | some node =>
    let info := { info with
      flags := modeFlags node info.flags, maxItems := optMaxItems node info.maxItems }
    (filterDeserialize (some node) xmlNsWsMan).bind fun
      | none => .value (.ok { info with filter := none })
      | some filter =>
        match filterFlags filter info.flags with
        | none => .value (.error ⟨.wsenCannotProcessFilter, .wsmanDetailNotSupported⟩)
        | some flags => .value (.ok { info with filter := some filter, flags := flags })

def polymorphismMode (doc : WsXmlNode) : Option String :=
  wsXmlGetNodeText (wsXmlFirstChild
    (wsXmlFirstChild (wsXmlGetSoapBody doc) xmlNsEnumeration wsenumEnumerate) xmlNsCimBinding
    wsmbPolymorphismMode)

theorem enumModeFlags_frame (node : WsXmlNode) (flags : EnumFlags) :
    (enumModeFlags node flags).inWork = flags.inWork ∧
      (enumModeFlags node flags).polyNone = flags.polyNone := by
  rw [enumModeFlags]
  repeat' split
  all_goals exact ⟨rfl, rfl⟩

variable {flags : EnumFlags}

theorem polymorphismFlags_spec (mode : Option String) (h : flags.polyNone = false) :
    (polymorphismFlags mode flags).inWork = flags.inWork ∧
      ((polymorphismFlags mode flags).polyNone = true ↔ mode = some wsmbNone) := by
  have hne : wsmbExcludeSubclassProp ≠ wsmbNone ∧ wsmbIncludeSubclassProp ≠ wsmbNone := by decide
  cases mode with
  | none => simp [polymorphismFlags, h]
  | some mode =>
    rw [polymorphismFlags]
    split
    · simp_all
    · split
      · simp_all
      · split <;> simp_all

theorem modeFlags_spec (node : WsXmlNode) (h : flags.polyNone = false) :
    (modeFlags node flags).inWork = flags.inWork ∧
      ((modeFlags node flags).polyNone = true ↔
        wsXmlGetNodeText (wsXmlFirstChild (some node) xmlNsCimBinding wsmbPolymorphismMode) =
          some wsmbNone) := by
  obtain ⟨hwork, hpoly⟩ := enumModeFlags_frame node flags
  obtain ⟨hwork', hpoly'⟩ := polymorphismFlags_spec
    (wsXmlGetNodeText (wsXmlFirstChild (some node) xmlNsCimBinding wsmbPolymorphismMode))
    (hpoly.trans h)
  rw [modeFlags]
  split <;> exact ⟨hwork'.trans hwork, hpoly'⟩

theorem filterFlags_frame {filter : Filter} {flags' : EnumFlags}
    (h : filterFlags filter flags = some flags') :
    flags'.inWork = flags.inWork ∧ flags'.polyNone = flags.polyNone := by
  unfold filterFlags at h
  repeat' split at h
  all_goals cases h
  all_goals exact ⟨rfl, rfl⟩

theorem wsmanParseEnumRequest_ok {doc : WsXmlNode} {info info' : WsEnumerateInfo χ ι}
    (h : wsmanParseEnumRequest doc info = .value (.ok info'))
    (hpoly : info.flags.polyNone = false) :
    ∃ flags maxItems filter,
      info' = { info with flags := flags, maxItems := maxItems, filter := filter } ∧
      flags.inWork = info.flags.inWork ∧
      (flags.polyNone = true ↔ polymorphismMode doc = some wsmbNone) := by
  rw [wsmanParseEnumRequest] at h
  rw [polymorphismMode]
  cases hnode : wsXmlFirstChild (wsXmlGetSoapBody doc) xmlNsEnumeration wsenumEnumerate with
  | none =>
    rw [hnode, CResult.value.injEq, Except.ok.injEq] at h
    exact ⟨info.flags, info.maxItems, info.filter, h.symm, rfl,
      by simp [hpoly, wsXmlGetNodeText]⟩
  | some node =>
    rw [hnode] at h
    obtain ⟨hwork, hmode⟩ := modeFlags_spec node hpoly
    obtain ⟨filter, _, h⟩ := CResult.bind_eq_value.mp h
    cases filter with
    | none =>
      rw [CResult.value.injEq, Except.ok.injEq] at h
      exact ⟨_, _, _, h.symm, hwork, hmode⟩
    | some filter =>
      dsimp only at h
      split at h
      · exact absurd h (by simp)
      rename_i flags hflags
      obtain ⟨hwork', hnone⟩ := filterFlags_frame hflags
      rw [CResult.value.injEq, Except.ok.injEq] at h
      refine ⟨_, _, _, h.symm, hwork'.trans hwork, ?_⟩
      rw [hnone]
      exact hmode

/-! ## The question to the CIMOM -/

structure ObjectPath where
  nameSpace : String
  className : Option String
  keys : List (String × String) := []
  deriving DecidableEq, Repr

inductive CimQuery where
  | references (path : ObjectPath) (resultClass role : Option String)
  | associators (path : ObjectPath) (assocClass resultClass role resultRole : Option String)
  | execQuery (path : ObjectPath) (query : Option String) (language : String)
  | enumInstances (path : ObjectPath)
  deriving DecidableEq, Repr

structure CimOperation where
  query : CimQuery
  selectors : Option (List (Cell KeyValue))

def cimAddKey (path : ObjectPath) : KeyValue → CResult ObjectPath
  | .epr .. => .value path
  | .text key value =>
    key.read.bind fun
      | none => .undefined
      | some k =>
        if k == cimNamespaceSelector then .value { path with nameSpace := value }
        else .value { path with keys := path.keys ++ [(k, value)] }

def cimAddKeys (path : ObjectPath) : List KeyValue → CResult ObjectPath
  | [] => .value path
  | kv :: kvs => (cimAddKey path kv).bind fun path ↦ cimAddKeys path kvs

def filterObjectPath (client : CimClientInfo) (epr : Option Epr) : CResult (Option ObjectPath) :=
  match epr with
  | none => .undefined
  | some epr =>
    match afterLastSlash epr.uri with
    | none => .value none
    | some cls =>
      (cimAddKeys { nameSpace := client.cimNamespace, className := some cls } epr.selectors).bind
        fun path ↦ .value (some path)

def cimOperation (cfg : CimConfig) (client : CimClientInfo) (flags : EnumFlags)
    (filter : Option Filter) : CResult (Except WsmanStatus CimOperation) :=
  let selectors (f : Filter) := if flags.selector then some f.selectorset else none
  let classPath : ObjectPath :=
    { nameSpace := client.cimNamespace, className := client.requestedClass }
  -- A filter that was not decoded leaves no flag, so the last branch is taken for it.
  if flags.ref || flags.assoc then
    match filter with
    | none => .value (.error ⟨.wxfInvalidRepresentation, .wsmanDetailOk⟩)
    | some f =>
      (filterObjectPath client f.epr).bind fun
        | none => .value (.error ⟨.wsaEndpointUnavailable, .wsmanDetailInvalidResourceuri⟩)
        | some path =>
          if flags.ref then
            .value (.ok ⟨.references path f.resultClass f.role, selectors f⟩)
          else
            .value (.ok
              ⟨.associators path f.assocClass f.resultClass f.role f.resultRole, selectors f⟩)
  else if flags.wql || flags.cql then
    match filter with
    | none => .undefined
    | some f =>
      .value (.ok
        ⟨.execQuery classPath f.query (if flags.wql then "WQL" else cfg.cimClientCql), selectors f⟩)
  else if flags.xpath then .value (.error ⟨.wsenCannotProcessFilter, .wsmanDetailNotSupported⟩)
  else if flags.selector then
    match filter with
    | none => .undefined
    | some f => .value (.ok ⟨.enumInstances classPath, some f.selectorset⟩)
  else .value (.ok ⟨.enumInstances classPath, none⟩)

/-! ## The answer -/

inductive CmpiError where
  | invalidClass
  | failed (curlError7 : Bool)
  | methodNotAvailable | methodNotFound
  | invalidNamespace | notFound
  | accessDenied
  | invalidParameter
  | notSupported
  | classHasChildren | classHasInstances | invalidSuperclass | alreadyExists
  | invalidQuery
  | other
  deriving DecidableEq, Repr

def cimToWsmanStatus : CmpiError → WsmanStatus
  | .invalidClass => ⟨.wsaDestinationUnreachable, .wsmanDetailInvalidResourceuri⟩
  | .failed curlError7 =>
    ⟨if curlError7 then .wsaDestinationUnreachable else .wsmanInternalError, .wsmanDetailOk⟩
  | .methodNotAvailable | .methodNotFound | .notSupported =>
    ⟨.wsaActionNotSupported, .wsmanDetailOk⟩
  | .invalidNamespace | .notFound => ⟨.wsaDestinationUnreachable, .wsmanDetailOk⟩
  | .accessDenied => ⟨.wsmanAccessDenied, .wsmanDetailOk⟩
  | .invalidParameter => ⟨.wsmanInvalidParameter, .wsmanDetailMissingValues⟩
  | .classHasChildren | .classHasInstances | .invalidSuperclass | .alreadyExists =>
    ⟨.wsmanAlreadyExists, .wsmanDetailOk⟩
  | .invalidQuery => ⟨.wsenCannotProcessFilter, .wsmanDetailOk⟩
  | .other => ⟨.wsmanUnknown, .wsmanDetailOk⟩

/-- A `CMPIArray` of instances. It is short enough to be counted with an `int`. -/
structure CimResults (κ : Type) where
  list : List κ
  length_lt : list.length < 2 ^ 31

/-- What the plugin gets from the CIM client library: whether the CIMOM can be reached with some
credentials, the answers to queries, and the value of a property of an instance as text. -/
structure Cimom (κ : Type) where
  connects : WsmanAuth → Bool
  run : CimClientInfo → CimQuery → Except CmpiError (CimResults κ)
  property : κ → String → Option String

def selectorMatches (cimom : Cimom κ) (inst : κ) (cell : Cell KeyValue) : CResult Bool :=
  cell.read.bind fun kv ↦ kv.key.read.bind fun
    | none => .undefined
    | some key =>
      match kv with
      | .text _ value => .value (cimom.property inst key == some value)
      | .epr .. => .value false

def filterInstance (cimom : Cimom κ) (inst : κ) : List (Cell KeyValue) → CResult Bool
  | [] => .value true
  | cell :: cells =>
    (selectorMatches cimom inst cell).bind fun m ↦
      (filterInstance cimom inst cells).bind fun ms ↦ .value (m && ms)

def filterInstances (cimom : Cimom κ) (selectors : List (Cell KeyValue)) :
    List κ → CResult (List κ)
  | [] => .value []
  | inst :: insts =>
    (filterInstance cimom inst selectors).bind fun keep ↦
      (filterInstances cimom selectors insts).bind fun kept ↦
        .value (if keep then inst :: kept else kept)

theorem filterInstances_length_le {cimom : Cimom κ} {selectors : List (Cell KeyValue)}
    {insts kept : List κ} (h : filterInstances cimom selectors insts = .value kept) :
    kept.length ≤ insts.length := by
  induction insts generalizing kept with
  | nil =>
    rw [filterInstances, CResult.value.injEq] at h
    rw [← h]
  | cons inst insts ih =>
    rw [filterInstances] at h
    obtain ⟨keep, _, h⟩ := CResult.bind_eq_value.mp h
    obtain ⟨rest, hrest, h⟩ := CResult.bind_eq_value.mp h
    have hle := ih hrest
    rw [CResult.value.injEq] at h
    rw [← h]
    split
    · exact Nat.succ_le_succ hle
    · exact Nat.le_succ_of_le hle

def selectInstances (cimom : Cimom κ) (results : CimResults κ) :
    Option (List (Cell KeyValue)) → CResult (CimResults κ)
  | none => .value results
  | some selectors =>
    match h : filterInstances cimom selectors results.list with
    | .undefined => .undefined
    | .value kept =>
      .value ⟨kept, Nat.lt_of_le_of_lt (filterInstances_length_le h) results.length_lt⟩

def CimOperation.run (op : CimOperation) (cimom : Cimom κ) (client : CimClientInfo) :
    CResult (Except WsmanStatus (CimResults κ)) :=
  match cimom.run client op.query with
  | .error rc => .value (.error (cimToWsmanStatus rc))
  | .ok results => (selectInstances cimom results op.selectors).bind fun kept ↦ .value (.ok kept)

end Openwsman
