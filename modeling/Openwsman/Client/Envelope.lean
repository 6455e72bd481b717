import Openwsman.Cim.Selectors
import Openwsman.Soap.EprWrite

/-!
# The envelope of a request

`wsmc_build_envelope` of `wsman-client.c` builds the header of every request but Identify: the
addressing headers, the limits the client asks for, and the selectors of the options with
`wsman_add_selector` of `wsman-soap-envelope.c`. The namespace option becomes one more selector,
unless the selectors name it already.

A selector is added to the selector set that is in the header, and the first one brings the set
along. A text with the word `EndpointReference` is not written as it is: it is parsed, and when it
is a document the selector gets a copy of its root.
-/

namespace Openwsman

open KeyValue Bool List WsXmlNode Search

/-! ## Options -/

structure HeaderFlags where
  mundMaxEsize : Bool := false
  cimReferences : Bool := false

structure HeaderOptions where
  flags : HeaderFlags := {}
  fragment : Option String := none
  cimNs : Option String := none
  selectors : List KeyValue := []
  timeout : ℕ := 0
  maxEnvelopeSize : ℕ := 0
  locale : Option String := none

/-! ## Selectors -/

def addedSelector (lx : Libxml) (name : String) (val : Option String) (epr : Option Epr) :
    CResult WsXmlNode :=
  match val with
  | none => (nestedElements lx epr).bind fun content ↦ .value (namedSelector name content)
  | some value =>
    match if strstr value wsaEpr then lx.readMemory value else none with
    | some root => .value (namedSelector name [lx.duplicateTree root])
    | none => .value (namedSelector name (lx.content (some value)))

def wsmanAddSelector (lx : Libxml) (header : WsXmlNode) (name : String) (val : Option String)
    (epr : Option Epr) : CResult WsXmlNode :=
  (addedSelector lx name val epr).bind fun selector ↦
    match wsXmlFirstChild (some header) xmlNsWsMan wsmSelectorSet with
    | some _ =>
      .value (changeFirstChild xmlNsWsMan wsmSelectorSet (mapContent (· ++ [selector])) header)
    | none => .value (header.mapContent (· ++ [.elem xmlNsWsMan wsmSelectorSet [selector]]))

def KeyValue.val : KeyValue → Option String
  | text _ value => some value
  | epr _ _ => none

def KeyValue.reference : KeyValue → Option Epr
  | text _ _ => none
  | epr _ value => value

def wsmcAddSelectors (lx : Libxml) (header : WsXmlNode) : List KeyValue → CResult WsXmlNode
  | [] => .value header
  | kv :: kvs =>
    kv.key.read.bind fun key ↦
      (wsmanAddSelector lx header (key.getD "") kv.val kv.reference).bind fun header ↦
        wsmcAddSelectors lx header kvs

def listFindKey (key : String) : List KeyValue → CResult Bool
  | [] => .value false
  | kv :: kvs =>
    kv.key.read.bind fun k ↦
      (strcmpEq key k).bind fun same ↦ if same then .value true else listFindKey key kvs

def addCimNs (lx : Libxml) (options : HeaderOptions) (header : WsXmlNode) : CResult WsXmlNode :=
  match options.cimNs with
  | none => .value header
  | some ns =>
    (listFindKey cimNamespaceSelector options.selectors).bind fun found ↦
      if found then .value header
      else wsmanAddSelector lx header cimNamespaceSelector (some ns) none

/-! ## The header -/

def wsSerializeStr (lx : Libxml) (str : String) (ns name : String) (mustunderstand : Bool) :
    WsXmlNode :=
  .element (some ns) name
    (if mustunderstand then [⟨some xmlNsSoap12, soapMustUnderstand, "true"⟩] else [])
    (lx.content (some str))

def timeoutText (timeout : ℕ) : String :=
  "PT" ++ toString (timeout / 1000) ++ "." ++ toString (timeout % 1000) ++ "S"

def envelopeHeaders (lx : Libxml) (action replyTo resourceUri toUri : Option String) (uuid : String)
    (options : HeaderOptions) : List WsXmlNode :=
  (action.toList.map fun action ↦ wsSerializeStr lx action xmlNsAddressing wsaAction true) ++
  [wsSerializeStr lx (toUri.getD wsaToAnonymous) xmlNsAddressing wsaTo true] ++
  (resourceUri.toList.map fun uri ↦ wsSerializeStr lx uri xmlNsWsMan wsmResourceUri true) ++
  [wsSerializeStr lx uuid xmlNsAddressing wsaMessageId true] ++
  (if options.timeout = 0 then []
    else [wsSerializeStr lx (timeoutText options.timeout) xmlNsWsMan wsmOperationTimeout false]) ++
  (if options.maxEnvelopeSize = 0 then []
    else [wsSerializeStr lx (toString options.maxEnvelopeSize) xmlNsWsMan wsmMaxEnvelopeSize
      options.flags.mundMaxEsize]) ++
  (options.fragment.toList.map fun fragment ↦
    wsSerializeStr lx fragment xmlNsWsMan wsmFragmentTransfer true) ++
  (options.locale.toList.map fun locale ↦
    .element (some xmlNsWsMan) wsmLocale
      [⟨some xmlNsXmlNamespaces, soapLang, locale⟩,
        ⟨some xmlNsSoap12, soapMustUnderstand, "false"⟩] []) ++
  [.elem xmlNsAddressing wsaReplyTo
    [lx.child xmlNsAddressing wsaAddress (some (replyTo.getD wsaToAnonymous))]]

def wsmcBuildEnvelope (lx : Libxml) (action replyTo resourceUri toUri : Option String)
    (uuid : String) (options : HeaderOptions) : CResult WsXmlNode :=
  let header : WsXmlNode :=
    .elem xmlNsSoap12 soapHeader (envelopeHeaders lx action replyTo resourceUri toUri uuid options)
  let selected : CResult WsXmlNode :=
    if options.flags.cimReferences then .value header
    else (wsmcAddSelectors lx header options.selectors).bind (addCimNs lx options)
  selected.bind fun header ↦
    .value (.elem xmlNsSoap12 soapEnvelope [header, .elem xmlNsSoap12 soapBody []])

structure RequestOptions where
  cimExtensions : Bool := false
  excludeNilProps : Bool := false
  options : List (String × String) := []

def namedOption (ns name : String) (content : List WsXmlNode) : WsXmlNode :=
  .element (some ns) wsmOption [⟨none, wsmName, name⟩] content

def optionSet (lx : Libxml) (options : RequestOptions) : List WsXmlNode :=
  if options.cimExtensions || options.excludeNilProps || !options.options.isEmpty then
    [.elem xmlNsWsMan wsmOptionSet
      ((if options.cimExtensions then [namedOption xmlNsWsMan wsmbShowExtension []] else []) ++
        (if options.excludeNilProps then [namedOption xmlNsOpenwsman wsmbExcludeNilProps []]
          else []) ++
        options.options.map fun option ↦
          namedOption xmlNsWsMan option.1 (lx.content (some option.2)))]
  else []

/-! ## The selector set -/

def withSelectors (headers selectors : List WsXmlNode) : List WsXmlNode :=
  headers ++ if selectors.isEmpty then [] else [.elem xmlNsWsMan wsmSelectorSet selectors]

section

variable {headers : List WsXmlNode}
  (hheaders : ∀ n ∈ headers, n.isNamed xmlNsWsMan wsmSelectorSet = false)

include hheaders

theorem find?_withSelectors (selectors : List WsXmlNode) :
    (withSelectors headers selectors).find? (isNamed xmlNsWsMan wsmSelectorSet) =
      if selectors.isEmpty then none else some (.elem xmlNsWsMan wsmSelectorSet selectors) := by
  rw [withSelectors, find?_append, find?_eq_none.mpr fun n hn ↦ by simp [hheaders n hn],
    Option.none_or]
  split
  · rfl
  · exact find?_cons_of_pos (isNamed_elem _ _ _)

theorem wsmanAddSelector_withSelectors {lx : Libxml} {name : String} {val : Option String}
    {epr : Option Epr} {selector : WsXmlNode}
    (h : addedSelector lx name val epr = .value selector) (selectors : List WsXmlNode) :
    wsmanAddSelector lx (.elem xmlNsSoap12 soapHeader (withSelectors headers selectors)) name val
        epr =
      .value (.elem xmlNsSoap12 soapHeader (withSelectors headers (selectors ++ [selector]))) := by
  have hfirst := wsXmlFirstChild_eq_find?
    (.elem xmlNsSoap12 soapHeader (withSelectors headers selectors)) xmlNsWsMan wsmSelectorSet
  rw [content_elem, find?_withSelectors hheaders] at hfirst
  rw [wsmanAddSelector, h, CResult.value_bind, hfirst]
  rcases selectors with _ | ⟨s, ss⟩
  · rw [isEmpty_nil, if_pos rfl, withSelectors, isEmpty_nil, if_pos rfl, append_nil]
    rfl
  rw [isEmpty_cons, if_neg (by decide)]
  dsimp only
  rw [changeFirstChild]
  change CResult.value (elem xmlNsSoap12 soapHeader _) = _
  rw [withSelectors, modifyFirst_append_of_not hheaders, isEmpty_cons, if_neg (by decide),
    modifyFirst_cons_of_pos (isNamed_elem _ _ _)]
  rfl

theorem wsmcAddSelectors_withSelectors {lx : Libxml} {kvs : List KeyValue}
    {new : List WsXmlNode}
    (h : List.Forall₂ (fun kv selector ↦ ∃ name, kv.key = .init (some name) ∧
      addedSelector lx name kv.val kv.reference = .value selector) kvs new)
    (selectors : List WsXmlNode) :
    wsmcAddSelectors lx (.elem xmlNsSoap12 soapHeader (withSelectors headers selectors)) kvs =
      .value (.elem xmlNsSoap12 soapHeader (withSelectors headers (selectors ++ new))) := by
  induction h generalizing selectors with
  | nil => rw [wsmcAddSelectors, append_nil]
  | @cons kv selector kvs new hkv _ ih =>
    obtain ⟨name, hkey, hadded⟩ := hkv
    rw [wsmcAddSelectors, hkey, Cell.read, CResult.value_bind, Option.getD_some,
      wsmanAddSelector_withSelectors hheaders hadded, CResult.value_bind, ih, append_assoc,
      singleton_append]

end

/-! ## What the server reads -/

def KeyValue.name (kv : KeyValue) : String := keyText kv.key

/-- The value of a selector, without its name: the table of the server is indexed by the names. -/
def KeyValue.unnamed : KeyValue → KeyValue
  | text _ value => .text (.init none) value
  | epr _ value => .epr (.init none) value

def plainValue (value : String) : Bool := plainText value && !strstr value wsaEpr

def KeyValue.plain (kv : KeyValue) : Bool :=
  kv.complete && (kv.val.all plainValue && Epr.allTextsOpt plainText kv.reference)

def KeyValue.entry (kv : KeyValue) : String × KeyValue := (kv.name, kv.unnamed)

theorem selectorName_namedSelector (name : String) (content : List WsXmlNode) :
    selectorName (namedSelector name content) = some name :=
  rfl

theorem selectorValue_content (lx : Libxml) (name value : String) :
    selectorValue (namedSelector name (lx.content (some value))) =
      .value (.text (.init none) (lx.kept value)) := by
  rw [selectorValue, wsXmlFirstChild_eq_find?]
  exact congrArg (fun s ↦ CResult.value (text (.init none) s)) String.append_empty

theorem addedSelector_plainValue (lx : Libxml) (name : String) {value : String}
    (h : plainValue value = true) (epr : Option Epr) :
    ∃ content, addedSelector lx name (some value) epr = .value (namedSelector name content) ∧
      EntryOf (namedSelector name content) (name, .text (.init none) value) := by
  rw [plainValue, and_eq_true, not_eq_true'] at h
  refine ⟨lx.content (some value), ?_, selectorName_namedSelector name _, ?_⟩
  · rw [addedSelector, h.2]
    rfl
  · rw [selectorValue_content, lx.kept_of_plainText value h.1]

theorem addedSelector_epr (lx : Libxml) (name : String) {e : Epr} (hcomplete : e.complete = true)
    (htexts : e.allTexts plainText = true) :
    ∃ content, addedSelector lx name none (some e) = .value (namedSelector name content) ∧
      EntryOf (namedSelector name content) (name, .epr (.init none) (some e)) := by
  obtain ⟨params, hparams, hread⟩ := exists_eprParams lx e (e.keysWritten_of_complete hcomplete)
  have hselector : (namedSelector name []).isElement = true := rfl
  have hepr := hread hselector rfl (some xmlNsAddressing) (some wsaEpr) true (.inl rfl)
  rw [e.readBack_of_complete lx.kept hcomplete,
    Epr.mapTexts_of_allTexts lx.kept_of_plainText e htexts] at hepr
  refine ⟨eprElements lx (some xmlNsAddressing) (some wsaEpr) true e.address params, ?_,
    selectorName_namedSelector name _, ?_⟩
  · rw [addedSelector, nestedElements, hparams, CResult.value_bind, CResult.value_bind]
  change (if Epr.keysWrittenOpt (eprDeserialize _ _ _ _) = true then
    CResult.value (epr (.init none) (eprDeserialize _ _ _ _)) else _) = _
  erw [hepr]
  rw [Epr.keysWrittenOpt, e.keysWritten_of_complete hcomplete, if_pos rfl]

theorem exists_addedSelector (lx : Libxml) {kv : KeyValue} (h : kv.plain = true) :
    ∃ name content, kv.key = .init (some name) ∧
      addedSelector lx name kv.val kv.reference = .value (namedSelector name content) ∧
      EntryOf (namedSelector name content) kv.entry := by
  rw [plain, and_eq_true, and_eq_true] at h
  obtain ⟨hcomplete, hval, htexts⟩ := h
  rcases kv with ⟨key, value⟩ | ⟨key, _ | e⟩
  · obtain ⟨name, rfl⟩ := isNameKey_iff.mp hcomplete
    obtain ⟨content, hadded, hentry⟩ := addedSelector_plainValue lx name hval none
    exact ⟨name, content, rfl, hadded, hentry⟩
  · rw [complete, Epr.completeOpt, Bool.and_false] at hcomplete
    cases hcomplete
  rw [complete, Epr.completeOpt, and_eq_true] at hcomplete
  obtain ⟨name, rfl⟩ := isNameKey_iff.mp hcomplete.1
  obtain ⟨content, hadded, hentry⟩ := addedSelector_epr lx name hcomplete.2 htexts
  exact ⟨name, content, rfl, hadded, hentry⟩

variable {kvs : List KeyValue}

theorem exists_addedSelectors (lx : Libxml) (h : ∀ kv ∈ kvs, kv.plain = true) :
    ∃ selectors, List.Forall₂ (fun kv selector ↦ ∃ name, kv.key = .init (some name) ∧
        addedSelector lx name kv.val kv.reference = .value selector) kvs selectors ∧
      List.Forall₂ EntryOf selectors (kvs.map KeyValue.entry) ∧
      ∀ selector ∈ selectors, selector.isNamed xmlNsWsMan wsmSelector = true := by
  induction kvs with
  | nil => exact ⟨[], .nil, .nil, by simp⟩
  | cons kv kvs ih =>
    obtain ⟨selectors, hadded, hentries, hnamed⟩ := ih fun k hk ↦ h k (mem_cons_of_mem kv hk)
    obtain ⟨name, content, hkey, hselector, hentry⟩ :=
      exists_addedSelector lx (h kv mem_cons_self)
    refine ⟨namedSelector name content :: selectors, .cons ⟨name, hkey, hselector⟩ hadded,
      .cons hentry hentries, ?_⟩
    intro selector hmem
    rcases mem_cons.mp hmem with rfl | hmem
    · exact isNamed_namedSelector name content
    · exact hnamed selector hmem

theorem listFindKey_of_plain (key : String) (h : ∀ kv ∈ kvs, kv.plain = true) :
    listFindKey key kvs = .value (decide (key ∈ kvs.map KeyValue.name)) := by
  induction kvs with
  | nil => rfl
  | cons kv kvs ih =>
    obtain ⟨name, -, hkey, -, -⟩ :=
      exists_addedSelector keepsText (h kv mem_cons_self)
    have hname : kv.name = name := by rw [KeyValue.name, hkey, keyText]
    rw [listFindKey, hkey, Cell.read, CResult.value_bind, strcmpEq, CResult.value_bind,
      ih fun k hk ↦ h k (mem_cons_of_mem kv hk), map_cons, hname]
    by_cases heq : key = name
    · rw [if_pos (beq_iff_eq.mpr heq), decide_eq_true (heq ▸ mem_cons_self)]
    · rw [if_neg (by simpa using heq)]
      exact congrArg CResult.value (decide_eq_decide.mpr (by simp [heq]))

def envelopeNames : List (String × String) :=
  [(xmlNsAddressing, wsaAction), (xmlNsAddressing, wsaTo), (xmlNsWsMan, wsmResourceUri),
    (xmlNsAddressing, wsaMessageId), (xmlNsWsMan, wsmOperationTimeout),
    (xmlNsWsMan, wsmMaxEnvelopeSize), (xmlNsWsMan, wsmFragmentTransfer), (xmlNsWsMan, wsmLocale),
    (xmlNsAddressing, wsaReplyTo)]

theorem allNamed_envelopeHeaders (lx : Libxml) (action replyTo resourceUri toUri : Option String)
    (uuid : String) (options : HeaderOptions) :
    AllNamed envelopeNames (envelopeHeaders lx action replyTo resourceUri toUri uuid options) := by
  have hstr : ∀ {ns name : String}, (ns, name) ∈ envelopeNames → ∀ (str : String) (mu : Bool),
      ∃ p ∈ envelopeNames, (wsSerializeStr lx str ns name mu).isNamed p.1 p.2 = true :=
    fun h str mu ↦ ⟨_, h, isNamed_iff.mpr ⟨rfl, rfl, rfl⟩⟩
  intro n hn
  simp only [envelopeHeaders, mem_append, mem_map, mem_singleton] at hn
  rcases hn with (((((((⟨_, _, rfl⟩ | rfl) | ⟨_, _, rfl⟩) | rfl) | hn) | hn) | ⟨_, _, rfl⟩) |
    ⟨_, _, rfl⟩) | rfl
  · exact hstr (by decide) _ _
  · exact hstr (by decide) _ _
  · exact hstr (by decide) _ _
  · exact hstr (by decide) _ _
  · split at hn
    · cases hn
    · rw [mem_singleton.mp hn]
      exact hstr (by decide) _ _
  · split at hn
    · cases hn
    · rw [mem_singleton.mp hn]
      exact hstr (by decide) _ _
  · exact hstr (by decide) _ _
  · exact ⟨(xmlNsWsMan, wsmLocale), by decide, isNamed_iff.mpr ⟨rfl, rfl, rfl⟩⟩
  · exact ⟨(xmlNsAddressing, wsaReplyTo), by decide, isNamed_elem _ _ _⟩

theorem requestSelectors_withSelectors {headers selectors body : List WsXmlNode}
    (hheaders : ∀ n ∈ headers, n.isNamed xmlNsWsMan wsmSelectorSet = false)
    (hnamed : ∀ n ∈ selectors, n.isNamed xmlNsWsMan wsmSelector = true) :
    requestSelectors (wsXmlCreateEnvelope (withSelectors headers selectors) body) = selectors := by
  have hheader : wsXmlGetSoapHeader (wsXmlCreateEnvelope (withSelectors headers selectors) body) =
    some (.elem xmlNsSoap12 soapHeader (withSelectors headers selectors)) := rfl
  rw [requestSelectors, hheader, wsXmlFirstChild_eq_find?, content_elem,
    find?_withSelectors hheaders]
  rcases selectors with _ | ⟨s, ss⟩
  · rfl
  rw [isEmpty_cons, if_neg (by decide)]
  dsimp only
  rw [childrenNamed_eq_filter, content_elem]
  exact filter_eq_self.mpr hnamed

theorem wsmanGetSelectorList_withSelectors {headers selectors more : List WsXmlNode}
    (hheaders : ∀ n ∈ headers, n.isNamed xmlNsWsMan wsmSelectorSet = false)
    (hentries : List.Forall₂ EntryOf selectors (kvs.map KeyValue.entry))
    (hnames : (kvs.map KeyValue.name).Nodup)
    (hnamed : ∀ n ∈ selectors ++ more, n.isNamed xmlNsWsMan wsmSelector = true)
    (body : List WsXmlNode) :
    wsmanGetSelectorList (wsXmlCreateEnvelope (withSelectors headers (selectors ++ more)) body) =
      selectorEntries (kvs.map KeyValue.entry) more := by
  have hkeys : (kvs.map KeyValue.entry).map Prod.fst = kvs.map KeyValue.name := by
    rw [map_map]
    rfl
  rw [wsmanGetSelectorList_eq, requestSelectors_withSelectors hheaders hnamed,
    selectorEntries_append hentries more [] (by rw [hkeys]; exact hnames), nil_append]

section

variable {lx : Libxml} {options : HeaderOptions}
  (hplain : ∀ kv ∈ options.selectors, kv.plain = true)

include hplain

theorem addCimNs_of_named
    (h : options.cimNs = none ∨ cimNamespaceSelector ∈ options.selectors.map KeyValue.name)
    (header : WsXmlNode) : addCimNs lx options header = .value header := by
  rw [addCimNs]
  split
  · rfl
  next hns =>
  have hmem := h.resolve_left (by rw [hns]; simp)
  rw [listFindKey_of_plain _ hplain, decide_eq_true hmem]
  rfl

theorem addCimNs_of_new {ns : String} (hns : options.cimNs = some ns)
    (h : cimNamespaceSelector ∉ options.selectors.map KeyValue.name) (header : WsXmlNode) :
    addCimNs lx options header =
      wsmanAddSelector lx header cimNamespaceSelector (some ns) none := by
  rw [addCimNs, hns, listFindKey_of_plain _ hplain, decide_eq_false h]
  rfl

end

theorem exists_addedSelector_text (lx : Libxml) (name value : String) :
    ∃ content, addedSelector lx name (some value) none = .value (namedSelector name content) := by
  rw [addedSelector]
  split <;> exact ⟨_, rfl⟩

variable {lx : Libxml} {options : HeaderOptions} {action replyTo resourceUri toUri : Option String}
  {headers : List WsXmlNode}

theorem wsmcBuildEnvelope_of_forall₂ {selectors : List WsXmlNode}
    (hflags : options.flags.cimReferences = false)
    (hadded : List.Forall₂ (fun kv selector ↦ ∃ name, kv.key = .init (some name) ∧ addedSelector lx
      name kv.val kv.reference = .value selector) options.selectors selectors)
    (action replyTo resourceUri toUri : Option String) (uuid : String) :
    wsmcBuildEnvelope lx action replyTo resourceUri toUri uuid options =
      (addCimNs lx options (.elem xmlNsSoap12 soapHeader (withSelectors
        (envelopeHeaders lx action replyTo resourceUri toUri uuid options) selectors))).bind
        fun header ↦
          .value (.elem xmlNsSoap12 soapEnvelope [header, .elem xmlNsSoap12 soapBody []]) := by
  have hloop := wsmcAddSelectors_withSelectors
    ((allNamed_envelopeHeaders lx action replyTo resourceUri toUri uuid options).not_isNamed
      (by decide)) hadded []
  rw [show withSelectors (envelopeHeaders lx action replyTo resourceUri toUri uuid options) [] = _
    from append_nil _] at hloop
  rw [wsmcBuildEnvelope, hflags, if_neg (by decide), hloop]
  rfl

/-- **The table of the server is the list of the client.** The namespace option adds its selector
exactly when the list does not name it. Its value is read like any other, and a text without an
ampersand and without the word `EndpointReference` is read as it was given. -/
theorem wsmanGetSelectorList_wsmcBuildEnvelope (lx : Libxml)
    (action replyTo resourceUri toUri : Option String) (uuid : String) (options : HeaderOptions)
    (hflags : options.flags.cimReferences = false)
    (hplain : ∀ kv ∈ options.selectors, kv.plain = true)
    (hnames : (options.selectors.map KeyValue.name).Nodup) :
    ∃ doc, wsmcBuildEnvelope lx action replyTo resourceUri toUri uuid options = .value doc ∧
      (options.cimNs = none ∨ cimNamespaceSelector ∈ options.selectors.map KeyValue.name →
        wsmanGetSelectorList doc = .value (options.selectors.map KeyValue.entry)) ∧
      (∀ ns, options.cimNs = some ns →
        cimNamespaceSelector ∉ options.selectors.map KeyValue.name →
        ∃ read : CResult KeyValue,
          wsmanGetSelectorList doc = read.bind (fun value ↦
            .value (options.selectors.map KeyValue.entry ++ [(cimNamespaceSelector, value)])) ∧
          (plainValue ns = true → read = .value (.text (.init none) ns))) := by
  obtain ⟨selectors, hadded, hentries, hnamed⟩ := exists_addedSelectors lx hplain
  have hheaders := (allNamed_envelopeHeaders lx action replyTo resourceUri toUri uuid
    options).not_isNamed (show (xmlNsWsMan, wsmSelectorSet) ∉ envelopeNames by decide)
  rw [wsmcBuildEnvelope_of_forall₂ hflags hadded]
  by_cases hextra : options.cimNs = none ∨
      cimNamespaceSelector ∈ options.selectors.map KeyValue.name
  · have htable := wsmanGetSelectorList_withSelectors hheaders hentries hnames
      (by rwa [append_nil]) []
    rw [append_nil, selectorEntries] at htable
    rw [addCimNs_of_named hplain hextra, CResult.value_bind]
    refine ⟨_, rfl, fun _ ↦ htable, ?_⟩
    intro ns hns hnot
    rcases hextra with hnone | hmem
    · rw [hnone] at hns
      cases hns
    · exact absurd hmem hnot
  · obtain ⟨hsome, hnot⟩ := not_or.mp hextra
    obtain ⟨ns, hns⟩ := Option.ne_none_iff_exists'.mp hsome
    obtain ⟨content, hcontent⟩ := exists_addedSelector_text lx cimNamespaceSelector ns
    have hall : ∀ n ∈ selectors ++ [namedSelector cimNamespaceSelector content],
        n.isNamed xmlNsWsMan wsmSelector = true := by
      intro n hn
      rcases mem_append.mp hn with hn | hn
      · exact hnamed n hn
      · rw [mem_singleton.mp hn]
        exact isNamed_namedSelector _ _
    have htable := wsmanGetSelectorList_withSelectors hheaders hentries hnames hall []
    have hnew : cimNamespaceSelector ∉ (options.selectors.map entry).map Prod.fst := by
      rw [map_map]
      exact hnot
    rw [selectorEntries_of_new (selectorName_namedSelector _ _) hnew] at htable
    rw [addCimNs_of_new hplain hns hnot, wsmanAddSelector_withSelectors hheaders hcontent,
      CResult.value_bind]
    refine ⟨_, rfl, fun h ↦ absurd h hextra, ?_⟩
    intro ns' hns' _
    obtain rfl : ns = ns' := Option.some.inj (hns.symm.trans hns')
    refine ⟨selectorValue (namedSelector cimNamespaceSelector content), htable, fun hns ↦ ?_⟩
    obtain ⟨content', hcontent', hentry⟩ :=
      addedSelector_plainValue lx cimNamespaceSelector hns none
    rw [hcontent] at hcontent'
    rw [CResult.value.inj hcontent']
    exact hentry.value

def linkOptions : HeaderOptions where
  selectors := ownerEpr.selectors
  cimNs := some "root/interop"

theorem wsmanGetSelectorList_linkOptions :
    ∃ doc, wsmcBuildEnvelope keepsText none none (some ownerEpr.uri) none "uuid:1" linkOptions =
        .value doc ∧
      wsmanGetSelectorList doc = .value (linkOptions.selectors.map KeyValue.entry ++
        [(cimNamespaceSelector, .text (.init none) "root/interop")]) := by
  obtain ⟨doc, hdoc, -, hns⟩ := wsmanGetSelectorList_wsmcBuildEnvelope keepsText none none
    (some ownerEpr.uri) none "uuid:1" linkOptions rfl (by decide) (by decide)
  obtain ⟨read, htable, hread⟩ := hns "root/interop" rfl (by decide)
  refine ⟨doc, hdoc, ?_⟩
  rw [htable, hread (by decide), CResult.value_bind]

/-! ## The headers of a request -/

def requestNames : List (String × String) :=
  (xmlNsWsMan, wsmSelectorSet) :: (xmlNsWsMan, wsmOptionSet) :: envelopeNames

def builtNames : List (String × String) := (xmlNsWsMan, wsmSelectorSet) :: envelopeNames

def IsBuiltHeader (header : WsXmlNode) : Prop :=
  ∃ headers, header = .elem xmlNsSoap12 soapHeader headers ∧ AllNamed builtNames headers

variable {header header' : WsXmlNode}

theorem isBuiltHeader_wsmanAddSelector {name : String} {val : Option String}
    {epr : Option Epr} (hheader : IsBuiltHeader header)
    (h : wsmanAddSelector lx header name val epr = .value header') : IsBuiltHeader header' := by
  obtain ⟨headers, rfl, hnamed⟩ := hheader
  rw [wsmanAddSelector] at h
  cases hadded : addedSelector lx name val epr with
  | undefined => rw [hadded] at h; cases h
  | value selector =>
    rw [hadded, CResult.value_bind] at h
    split at h
    · rw [← CResult.value.inj h]
      refine ⟨_, rfl, fun n hn ↦ ?_⟩
      have htag : n.tag ∈ headers.map tag := by
        rw [← map_modifyFirst (p := isNamed xmlNsWsMan wsmSelectorSet)
          (f := mapContent (· ++ [selector])) fun m _ ↦ tag_mapContent _ m]
        exact mem_map_of_mem hn
      obtain ⟨m, hm, htag⟩ := mem_map.mp htag
      obtain ⟨p, hp, hnamed⟩ := hnamed m hm
      exact ⟨p, hp, (isNamed_of_tag htag.symm p.1 p.2).trans hnamed⟩
    · rw [← CResult.value.inj h]
      refine ⟨_, rfl, hnamed.append fun n hn ↦ ?_⟩
      rw [mem_singleton.mp hn]
      exact ⟨(xmlNsWsMan, wsmSelectorSet), mem_cons_self, isNamed_elem _ _ _⟩

theorem isBuiltHeader_wsmcAddSelectors (hheader : IsBuiltHeader header)
    (h : wsmcAddSelectors lx header kvs = .value header') : IsBuiltHeader header' := by
  induction kvs generalizing header with
  | nil =>
    rw [← CResult.value.inj h]
    exact hheader
  | cons kv kvs ih =>
    rw [wsmcAddSelectors] at h
    cases hkey : kv.key.read with
    | undefined => rw [hkey] at h; cases h
    | value key =>
      rw [hkey, CResult.value_bind] at h
      cases hadd : wsmanAddSelector lx header (key.getD "") kv.val kv.reference with
      | undefined => rw [hadd] at h; cases h
      | value added =>
        rw [hadd, CResult.value_bind] at h
        exact ih (isBuiltHeader_wsmanAddSelector hheader hadd) h

theorem isBuiltHeader_addCimNs (hheader : IsBuiltHeader header)
    (h : addCimNs lx options header = .value header') :
    IsBuiltHeader header' := by
  rw [addCimNs] at h
  split at h
  · rw [← CResult.value.inj h]
    exact hheader
  cases hfound : listFindKey cimNamespaceSelector options.selectors with
  | undefined => rw [hfound] at h; cases h
  | value found =>
    rw [hfound, CResult.value_bind] at h
    split at h
    · rw [← CResult.value.inj h]
      exact hheader
    · exact isBuiltHeader_wsmanAddSelector hheader h

theorem allNamed_built_of_wsmcBuildEnvelope {uuid : String}
    (h : wsmcBuildEnvelope lx action replyTo resourceUri toUri uuid options = .value
      (wsXmlCreateEnvelope headers [])) : AllNamed builtNames headers := by
  have hbuilt : IsBuiltHeader (.elem xmlNsSoap12 soapHeader
      (envelopeHeaders lx action replyTo resourceUri toUri uuid options)) :=
    ⟨_, rfl, (allNamed_envelopeHeaders lx action replyTo resourceUri toUri uuid options).mono
      fun p hp ↦ mem_cons_of_mem _ hp⟩
  have hend : ∀ header, IsBuiltHeader header →
      elem xmlNsSoap12 soapEnvelope [header, .elem xmlNsSoap12 soapBody []] =
        wsXmlCreateEnvelope headers [] → AllNamed builtNames headers := by
    rintro header ⟨headers', rfl, hnamed⟩ heq
    have hheader := (cons.inj (congrArg content heq)).1
    obtain rfl : headers' = headers := congrArg content hheader
    exact hnamed
  rw [wsmcBuildEnvelope] at h
  split at h
  · exact hend _ hbuilt (CResult.value.inj h)
  cases hadd : wsmcAddSelectors lx (.elem xmlNsSoap12 soapHeader
      (envelopeHeaders lx action replyTo resourceUri toUri uuid options)) options.selectors with
  | undefined => rw [hadd] at h; cases h
  | value added =>
    rw [hadd, CResult.value_bind] at h
    cases hns : addCimNs lx options added with
    | undefined => rw [hns] at h; cases h
    | value header =>
      rw [hns, CResult.value_bind] at h
      exact hend _ (isBuiltHeader_addCimNs (isBuiltHeader_wsmcAddSelectors hbuilt hadd) hns)
        (CResult.value.inj h)

theorem allNamed_of_wsmcBuildEnvelope {uuid : String}
    (h : wsmcBuildEnvelope lx action replyTo resourceUri toUri uuid options = .value
      (wsXmlCreateEnvelope headers [])) : AllNamed requestNames headers := by
  refine (allNamed_built_of_wsmcBuildEnvelope h).mono fun p hp ↦ ?_
  rcases mem_cons.mp hp with rfl | hp
  · exact mem_cons_self
  · exact mem_cons_of_mem _ (mem_cons_of_mem _ hp)

theorem allNamed_optionSet (lx : Libxml) (options : RequestOptions) :
    AllNamed requestNames (optionSet lx options) := by
  intro n hn
  rw [optionSet] at hn
  split at hn
  · rw [mem_singleton.mp hn]
    exact ⟨(xmlNsWsMan, wsmOptionSet), by decide, isNamed_elem _ _ _⟩
  · cases hn

end Openwsman
