import Openwsman.Client.Envelope
import Openwsman.Soap.FilterWrite

/-!
# Enumeration requests of the client

The bodies that `wsmc_create_request` of `wsman-client.c` makes for an Enumerate and for a Pull. The
header may be any: what the server reads of the filter stands in the body.
-/

namespace Openwsman

open CResult List WsXmlNode

structure EnumerationFlags where
  optimization : Bool := false
  enumEpr : Bool := false
  enumObjAndEpr : Bool := false
  includeSubClassProperties : Bool := false
  excludeSubClassProperties : Bool := false
  polymorphismNone : Bool := false
  countEstimation : Bool := false

def EnumerationFlags.mode (flags : EnumerationFlags) : Option String :=
  if flags.enumEpr then some wsmEnumEpr
  else if flags.enumObjAndEpr then some wsmEnumObjAndEpr
  else none

def EnumerationFlags.polymorphism (flags : EnumerationFlags) : Option String :=
  if flags.includeSubClassProperties then some wsmbIncludeSubclassProp
  else if flags.excludeSubClassProperties then some wsmbExcludeSubclassProp
  else if flags.polymorphismNone then some wsmbNone
  else none

def modeElements (lx : Libxml) (flags : EnumerationFlags) : List WsXmlNode :=
  (if flags.optimization then [lx.child xmlNsWsMan wsmOptimizeEnum none] else []) ++
    (flags.mode.toList.map fun mode ↦ lx.child xmlNsWsMan wsmEnumMode (some mode)) ++
    flags.polymorphism.toList.map fun mode ↦
      lx.child xmlNsCimBinding wsmbPolymorphismMode (some mode)

def wsmanSetEnumerationOptions (lx : Libxml) (flags : EnumerationFlags) (filter : Option Filter)
    (node : WsXmlNode) : CResult WsXmlNode :=
  let node := node.mapContent (· ++ modeElements lx flags)
  match filter with
  | none => .value node
  | some filter =>
    (filterSerialize lx node filter xmlNsWsMan).bind fun written ↦ .value (written.getD node)

def maxElementsNode (lx : Libxml) (ns : String) (maxElements : ℕ) : List WsXmlNode :=
  if maxElements = 0 then [] else [lx.child ns wsenumMaxElements (some (toString maxElements))]

def estimateHeader (lx : Libxml) (flags : EnumerationFlags) : List WsXmlNode :=
  if flags.countEstimation then [lx.child xmlNsWsMan wsmRequestTotal none] else []

def enumerateRequest (lx : Libxml) (flags : EnumerationFlags) (maxElements : ℕ)
    (header : List WsXmlNode) (filter : Option Filter) : CResult WsXmlNode :=
  (wsmanSetEnumerationOptions lx flags filter (.elem xmlNsEnumeration wsenumEnumerate [])).bind
    fun node ↦
      .value (wsXmlCreateEnvelope (header ++ estimateHeader lx flags) [node.mapContent
        (· ++ if flags.optimization then maxElementsNode lx xmlNsWsMan maxElements else [])])

def pullRequest (lx : Libxml) (flags : EnumerationFlags) (maxElements : ℕ)
    (header : List WsXmlNode) (context : Option String) : WsXmlNode :=
  wsXmlCreateEnvelope (header ++ estimateHeader lx flags)
    [.elem xmlNsEnumeration wsenumPull
      ((context.toList.map fun context ↦
          lx.child xmlNsEnumeration wsenumEnumerationContext (some context)) ++
        maxElementsNode lx xmlNsEnumeration maxElements)]

/-! ## The filter of an Enumerate -/

def requestFilter (doc : WsXmlNode) : CResult (Option Filter) :=
  filterDeserialize (wsXmlFirstChild (wsXmlGetSoapBody doc) xmlNsEnumeration wsenumEnumerate)
    xmlNsWsMan

def FilterArrives (lx : Libxml) (flags : EnumerationFlags) (maxElements : ℕ)
    (header : List WsXmlNode) (filter : Filter) : Prop :=
  ∃ doc, enumerateRequest lx flags maxElements header (some filter) = .value doc ∧
    requestFilter doc = .value (some filter)

variable (lx : Libxml) (flags : EnumerationFlags)

theorem not_isNamed_modeElements :
    ∀ n ∈ modeElements lx flags, n.isNamed xmlNsWsMan wsmFilter = false := by
  intro n hn
  rw [modeElements, mem_append, mem_append, mem_map, mem_map] at hn
  rcases hn with (hn | ⟨mode, -, rfl⟩) | ⟨mode, -, rfl⟩
  · split at hn
    · rw [mem_singleton.mp hn]
      exact lx.isNamed_child_of_ne (by decide) _
    · cases hn
  · exact lx.isNamed_child_of_ne (by decide) _
  · exact lx.isNamed_child_of_ne (by decide) _

theorem requestFilter_createEnvelope (header content : List WsXmlNode) :
    requestFilter (wsXmlCreateEnvelope header [.elem xmlNsEnumeration wsenumEnumerate content]) =
      match content.find? (isNamed xmlNsWsMan wsmFilter) with
      | none => .value none
      | some filterNode => filterOfNode filterNode := by
  have hnode : wsXmlFirstChild (wsXmlGetSoapBody
      (wsXmlCreateEnvelope header [.elem xmlNsEnumeration wsenumEnumerate content]))
      xmlNsEnumeration wsenumEnumerate = some (.elem xmlNsEnumeration wsenumEnumerate content) :=
        rfl
  rw [requestFilter, hnode, filterDeserialize, wsXmlFirstChild_eq_find?]
  rfl

variable (maxElements : ℕ)

theorem enumerateRequest_some (header : List WsXmlNode) (filter : Filter) :
    enumerateRequest lx flags maxElements header (some filter) =
      (filterContent lx filter).bind fun content ↦
        .value (wsXmlCreateEnvelope (header ++ estimateHeader lx flags)
          [.elem xmlNsEnumeration wsenumEnumerate (modeElements lx flags ++
            (content.map (filterElement xmlNsWsMan filter.dialect)).toList ++
            if flags.optimization then maxElementsNode lx xmlNsWsMan maxElements else [])]) := by
  rw [enumerateRequest, wsmanSetEnumerationOptions, filterSerialize]
  cases filterContent lx filter with
  | undefined => rfl
  | value content =>
    rcases content with _ | content
    · simp only [value_bind, Option.map_none, Option.toList_none, append_nil]
      rfl
    · rfl

theorem find?_filter (filterNode : Option WsXmlNode)
    (hnode : ∀ n ∈ filterNode, n.isNamed xmlNsWsMan wsmFilter = true) :
    (modeElements lx flags ++ filterNode.toList ++
      if flags.optimization then maxElementsNode lx xmlNsWsMan maxElements else []).find?
        (isNamed xmlNsWsMan wsmFilter) = filterNode := by
  have htail : (if flags.optimization then maxElementsNode lx xmlNsWsMan maxElements else []).find?
      (isNamed xmlNsWsMan wsmFilter) = none := by
    refine find?_eq_none.mpr fun n hn ↦ ?_
    obtain rfl : n = lx.child xmlNsWsMan wsenumMaxElements (some (toString maxElements)) := by
      rw [maxElementsNode] at hn
      split at hn
      · split at hn
        · cases hn
        · exact mem_singleton.mp hn
      · cases hn
    simp [lx.isNamed_child_of_ne (show (xmlNsWsMan, wsmFilter) ≠ (xmlNsWsMan, wsenumMaxElements) by
      decide)]
  rw [find?_append, htail, Option.or_none, find?_append,
    find?_eq_none.mpr fun n hn ↦ by simp [not_isNamed_modeElements lx flags n hn],
    Option.none_or]
  rcases filterNode with _ | filterNode
  · rfl
  · exact find?_cons_of_pos (hnode filterNode rfl)

/-- The way through a request adds nothing to what happens to a filter. -/
theorem filterArrives_iff (header : List WsXmlNode) (filter : Filter) :
    FilterArrives lx flags maxElements header filter ↔ FilterKept lx xmlNsWsMan filter := by
  have hnamed : ∀ content : Option (List WsXmlNode),
      ∀ n ∈ content.map (filterElement xmlNsWsMan filter.dialect),
        n.isNamed xmlNsWsMan wsmFilter = true := by
    intro content n hn
    obtain ⟨own, -, rfl⟩ := Option.mem_map.mp hn
    exact isNamed_iff.mpr ⟨rfl, rfl, rfl⟩
  rw [FilterArrives, FilterKept, enumerateRequest_some]
  constructor
  · rintro ⟨doc, hdoc, hread⟩
    cases hcontent : filterContent lx filter with
    | undefined => rw [hcontent] at hdoc; cases hdoc
    | value content =>
      rw [hcontent, value_bind] at hdoc
      rw [← value.inj hdoc, requestFilter_createEnvelope,
        find?_filter lx flags maxElements _ (hnamed content)] at hread
      rcases content with _ | content
      · cases hread
      · exact ⟨content, rfl, hread⟩
  · rintro ⟨content, hcontent, hread⟩
    refine ⟨_, by rw [hcontent, value_bind], ?_⟩
    rw [requestFilter_createEnvelope, find?_filter lx flags maxElements _ (hnamed (some content))]
    exact hread

/-- **When an association filter reaches the server**: at least three of its four optional fields
are set, every selector of its reference has a name and a value, and libxml2 keeps its texts. -/
theorem filterArrives_filterCreateAssoc_iff (lx : Libxml) (flags : EnumerationFlags)
    (maxElements : ℕ) (header : List WsXmlNode) (e : Epr) (assocType : AssocType)
    (assocClass resultClass role resultRole : Option String) (resultProp : List String) :
    FilterArrives lx flags maxElements header
        (filterCreateAssoc e assocType assocClass resultClass role resultRole resultProp) ↔
      3 ≤ (filterCreateAssoc e assocType assocClass resultClass role resultRole
          resultProp).fieldCount ∧
        e.complete = true ∧ e.mapTexts lx.kept = e ∧
        ∀ text ∈ (filterCreateAssoc e assocType assocClass resultClass role resultRole
          resultProp).texts, lx.kept text = text := by
  rw [filterArrives_iff]
  exact filterKept_assoc_iff lx xmlNsWsMan e assocType assocClass resultClass role resultRole
    resultProp

def associatorsFilter : Filter :=
  filterCreateAssoc ownerEpr .associatedInstances (some "Link_Owner") (some "Owner") none none
    ["Name"]

/-- Two of the four fields are set, and the result property is lost. -/
theorem requestFilter_associatorsFilter :
    (∃ doc filter, enumerateRequest keepsText {} 0 [] (some associatorsFilter) = .value doc ∧
        requestFilter doc = .value (some filter) ∧ filter.resultProp = []) ∧
      ¬ FilterArrives keepsText {} 0 [] associatorsFilter := by
  refine ⟨⟨_, _, rfl, rfl, rfl⟩, ?_⟩
  rintro ⟨doc, hdoc, hread⟩
  obtain rfl := value.inj hdoc
  have hprops := congrArg Filter.resultProp (Option.some.inj (value.inj hread))
  exact absurd hprops (by decide)

/-- **When a selector filter reaches the server**: every selector holds a name and a text that
libxml2 keeps. A selector with a reference is never read. -/
theorem filterArrives_filterCreateSelector_iff (lx : Libxml) (flags : EnumerationFlags)
    (maxElements : ℕ) (header : List WsXmlNode) (selectors : List (Cell KeyValue))
    (hne : selectors ≠ []) :
    FilterArrives lx flags maxElements header (filterCreateSelector selectors) ↔
      ∀ s ∈ selectors, IsKeptText lx s := by
  rw [filterArrives_iff]
  exact filterKept_selector_iff lx xmlNsWsMan hne

theorem filterArrives_nameFilter :
    FilterArrives keepsText {} 0 []
      (filterCreateSelector [.init (.text (.init (some "Name")) "eth0")]) := by
  refine (filterArrives_filterCreateSelector_iff keepsText {} 0 [] _ (by simp)).mpr fun s hs ↦ ?_
  exact ⟨"Name", "eth0", mem_singleton.mp hs, by decide⟩

def ownerFilter : Filter := filterCreateSelector (ownerEpr.selectors.map Cell.init)

/-- The text is read, the reference is not: two places of the array are never written. -/
theorem requestFilter_ownerFilter :
    (∃ doc filter, enumerateRequest keepsText {} 0 [] (some ownerFilter) = .value doc ∧
        requestFilter doc = .value (some filter) ∧
        filter.selectorset = [.init (.text (.init (some "Name")) "eth0"), .uninit, .uninit]) ∧
      ¬ FilterArrives keepsText {} 0 [] ownerFilter := by
  refine ⟨⟨_, _, rfl, rfl, rfl⟩, ?_⟩
  rintro ⟨doc, hdoc, hread⟩
  obtain rfl := value.inj hdoc
  have hset := congrArg (fun f ↦ f.selectorset.length) (Option.some.inj (value.inj hread))
  exact absurd hset (by decide)

end Openwsman
