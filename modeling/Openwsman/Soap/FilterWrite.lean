import Openwsman.Soap.EprWrite
import Openwsman.Soap.Filter

/-!
# Writing filters

`filter_serialize` of `wsman-filter.c`, for the three kinds of filter, and what `filter_deserialize`
makes of the element it writes.

The reader takes four children of an association filter for fields and the rest for result
properties, while the writer leaves out every field that is not set. With one field missing the
reference makes up for it; with more than one missing result properties are lost, or the filter with
them. In a selector filter a reference is written into the selector set without a `Selector` around
it, where the reader does not look for it.
-/

namespace Openwsman

open KeyValue List WsXmlNode

/-! ## Writing -/

def AssocType.elementName : AssocType → String
  | associatedInstances => wsmbAssociatedInstances
  | associationInstances => wsmbAssociationInstances

def Filter.fields (filter : Filter) : List (String × Option String) :=
  [(wsmbAssociationClassName, filter.assocClass), (wsmbRole, filter.role),
    (wsmbResultClassName, filter.resultClass), (wsmbResultRole, filter.resultRole)]

def fieldNodes (lx : Libxml) (fields : List (String × Option String)) : List WsXmlNode :=
  fields.flatMap fun field ↦
    field.2.toList.map fun text ↦ lx.child xmlNsCimBinding field.1 (some text)

def resultPropNodes (lx : Libxml) (resultProp : List String) : List WsXmlNode :=
  resultProp.map fun prop ↦ lx.child xmlNsCimBinding wsmbIncludeResultProperty (some prop)

def assocNode (lx : Libxml) (filter : Filter) (epr : Epr) : CResult WsXmlNode :=
  (eprSerialize lx (.elem xmlNsCimBinding filter.assocType.elementName []) (some xmlNsCimBinding)
      (some wsmbObject) (some epr) true).bind fun inst ↦
    .value (inst.mapContent
      (· ++ (fieldNodes lx filter.fields ++ resultPropNodes lx filter.resultProp)))

/-- What is written for one selector: a reference goes into the set as it is. -/
def filterSelectorNode (lx : Libxml) : KeyValue → CResult (List WsXmlNode)
  | .text key value => key.read.bind fun k ↦
      .value [namedSelector (k.getD "") (lx.content (some value))]
  | .epr _ none => .value []
  | .epr _ (some e) => (eprParams lx e).bind fun params ↦
      .value (eprElements lx none none true e.address params)

def filterSelectorNodes (lx : Libxml) : List (Cell KeyValue) → CResult (List WsXmlNode)
  | [] => .value []
  | s :: ss =>
    s.read.bind fun kv ↦
      (filterSelectorNode lx kv).bind fun nodes ↦
        (filterSelectorNodes lx ss).bind fun rest ↦ .value (nodes ++ rest)

def filterContent (lx : Libxml) (filter : Filter) : CResult (Option (List WsXmlNode)) :=
  match filter.query, filter.epr, filter.selectorset with
  | some query, _, _ => .value (some (lx.content (some query)))
  | none, some e, _ => (assocNode lx filter e).bind fun inst ↦ .value (some [inst])
  | none, none, [] => .value none
  | none, none, s :: ss => (filterSelectorNodes lx (s :: ss)).bind fun nodes ↦
      .value (some [.elem xmlNsWsMan wsmSelectorSet nodes])

def filterElement (ns dialect : String) (content : List WsXmlNode) : WsXmlNode :=
  .element (some ns) wsmFilter [⟨none, wsmDialect, dialect⟩] content

def filterSerialize (lx : Libxml) (node : WsXmlNode) (filter : Filter) (ns : String) :
    CResult (Option WsXmlNode) :=
  (filterContent lx filter).bind fun content ↦
    .value (content.map fun content ↦
      node.mapContent (· ++ [filterElement ns filter.dialect content]))

def filterCreateAssoc (epr : Epr) (assocType : AssocType)
    (assocClass resultClass role resultRole : Option String) (resultProp : List String) :
    Filter where
  dialect := wsmAssociationFilterDialect
  epr := some epr
  assocType := assocType
  assocClass := assocClass
  resultClass := resultClass
  role := role
  resultRole := resultRole
  resultProp := resultProp

def filterCreateSelector (selectors : List (Cell KeyValue)) : Filter where
  dialect := wsmSelectorFilterDialect
  selectorset := selectors

theorem filterDialect_filterElement (ns dialect : String) (content : List WsXmlNode) :
    filterDialect (filterElement ns dialect content) = dialect :=
  rfl

/-! ## Association filters -/

variable {fields : List (String × Option String)}

variable (lx : Libxml)

theorem not_isNamed_fieldNodes {name : String} (h : name ∉ fields.map Prod.fst) :
    ∀ n ∈ fieldNodes lx fields, n.isNamed xmlNsCimBinding name = false := by
  intro n hn
  obtain ⟨field, hfield, hn⟩ := mem_flatMap.mp hn
  obtain ⟨text, -, rfl⟩ := mem_map.mp hn
  refine lx.isNamed_child_of_ne (fun heq ↦ ?_) _
  rw [(Prod.mk.inj heq).2] at h
  exact h (mem_map_of_mem hfield)

theorem find?_fieldNodes (hnames : (fields.map Prod.fst).Nodup) {name : String}
    {text : Option String} (hmem : (name, text) ∈ fields) :
    (fieldNodes lx fields).find? (isNamed xmlNsCimBinding name) =
      text.map fun t ↦ lx.child xmlNsCimBinding name (some t) := by
  induction fields with
  | nil => simp at hmem
  | cons field fields ih =>
    rw [map_cons, nodup_cons] at hnames
    rw [fieldNodes, flatMap_cons, ← fieldNodes, find?_append]
    rcases mem_cons.mp hmem with rfl | hmem
    · have hrest : (fieldNodes lx fields).find? (isNamed xmlNsCimBinding name) = none :=
        find?_eq_none.mpr fun n hn ↦ by simp [not_isNamed_fieldNodes lx hnames.1 n hn]
      rw [hrest, Option.or_none]
      rcases text with _ | text
      · rfl
      · exact find?_cons_of_pos (lx.isNamed_child _ _ _)
    · rw [ih hnames.2 hmem]
      have hne : name ≠ field.1 := by
        rintro rfl
        exact hnames.1 (mem_map.mpr ⟨_, hmem, rfl⟩)
      refine Option.or_eq_right_of_none (find?_eq_none.mpr fun n hn ↦ ?_)
      obtain ⟨t, -, rfl⟩ := mem_map.mp hn
      simp [lx.isNamed_child_of_ne (fun heq ↦ hne (Prod.mk.inj heq).2)]

def Filter.fieldCount (filter : Filter) : ℕ := (filter.fields.filterMap Prod.snd).length

theorem length_fieldNodes (fields : List (String × Option String)) :
    (fieldNodes lx fields).length = (fields.filterMap Prod.snd).length := by
  induction fields with
  | nil => rfl
  | cons field fields ih =>
    rw [fieldNodes, flatMap_cons, ← fieldNodes, length_append, ih]
    rcases field with ⟨name, _ | text⟩
    · exact Nat.zero_add _
    · exact Nat.add_comm 1 _

section

variable (lx : Libxml) (filter : Filter)

def assocElement (object : List WsXmlNode) : WsXmlNode :=
  .elem xmlNsCimBinding filter.assocType.elementName
    (.elem xmlNsCimBinding wsmbObject object ::
      (fieldNodes lx filter.fields ++ resultPropNodes lx filter.resultProp))

theorem isNamed_resultPropNodes :
    ∀ n ∈ resultPropNodes lx filter.resultProp,
      n.isNamed xmlNsCimBinding wsmbIncludeResultProperty = true := by
  intro n hn
  obtain ⟨prop, -, rfl⟩ := mem_map.mp hn
  exact lx.isNamed_child _ _ _

theorem isElement_fieldNodes (fields : List (String × Option String)) :
    ∀ n ∈ fieldNodes lx fields, n.isElement = true := by
  intro n hn
  obtain ⟨field, -, hn⟩ := mem_flatMap.mp hn
  obtain ⟨text, -, rfl⟩ := mem_map.mp hn
  rfl

variable (object : List WsXmlNode)

theorem properNum_assocElement :
    properNum (assocElement lx filter object) =
      (filter.fieldCount : ℤ) + filter.resultProp.length - 3 := by
  have helements : (assocElement lx filter object).elements =
      (assocElement lx filter object).content := by
    refine filter_eq_self.mpr fun n hn ↦ ?_
    rcases mem_cons.mp hn with rfl | hn
    · rfl
    · rcases mem_append.mp hn with hn | hn
      · exact isElement_fieldNodes lx _ n hn
      · exact isElement_of_isNamed (isNamed_resultPropNodes lx filter n hn)
  have hcount : wsXmlGetChildCount (some (assocElement lx filter object)) =
      filter.fieldCount + filter.resultProp.length + 1 := by
    change (assocElement lx filter object).elements.length = _
    rw [helements, assocElement, content_elem, length_cons, length_append,
      length_fieldNodes, resultPropNodes, length_map, Filter.fieldCount]
  rw [properNum, hcount]
  omega

theorem nodup_fields : (filter.fields.map Prod.fst).Nodup := by
  change [wsmbAssociationClassName, wsmbRole, wsmbResultClassName, wsmbResultRole].Nodup
  decide

theorem ne_of_mem_fields {filter : Filter} {name : String}
    (hmem : name ∈ filter.fields.map Prod.fst) :
    name ≠ wsmbObject ∧ name ≠ wsmbIncludeResultProperty := by
  have hnames : ∀ name ∈ [wsmbAssociationClassName, wsmbRole, wsmbResultClassName, wsmbResultRole],
      name ≠ wsmbObject ∧ name ≠ wsmbIncludeResultProperty := by decide
  exact hnames name hmem

theorem cimBindingText_assocElement (name : String) (text : Option String)
    (hmem : (name, text) ∈ filter.fields) :
    cimBindingText (assocElement lx filter object) name = text.map lx.kept := by
  obtain ⟨hobject, hprop⟩ := ne_of_mem_fields (mem_map_of_mem hmem)
  have hobjectElem : (elem xmlNsCimBinding wsmbObject object).isNamed xmlNsCimBinding name =
      false :=
    isNamed_of_ne (isNamed_elem _ _ _) fun heq ↦ hobject (Prod.mk.inj heq).2
  have hprops : (resultPropNodes lx filter.resultProp).find? (isNamed xmlNsCimBinding name) =
      none := by
    refine find?_eq_none.mpr fun n hn ↦ ?_
    simp [isNamed_of_ne (isNamed_resultPropNodes lx filter n hn)
      fun heq ↦ hprop (Prod.mk.inj heq).2]
  rw [cimBindingText, wsXmlFirstChild_eq_find?, assocElement, content_elem,
    find?_cons_of_neg (by simp [hobjectElem]), find?_append,
    find?_fieldNodes lx (nodup_fields filter) hmem, hprops, Option.or_none]
  rcases text with _ | text
  · rfl
  · exact congrArg some (lx.chars_child xmlNsCimBinding name text)

theorem resultProps_assocElement :
    ((assocElement lx filter object).childrenNamed (some xmlNsCimBinding)
        (some wsmbIncludeResultProperty)).map (fun n ↦ wsXmlGetNodeTextSafe (some n)) =
      filter.resultProp.map lx.kept := by
  have hfields : (fieldNodes lx filter.fields).filter
      (isNamed xmlNsCimBinding wsmbIncludeResultProperty) = [] := by
    have hname : wsmbIncludeResultProperty ∉ filter.fields.map Prod.fst := fun hmem ↦
      (ne_of_mem_fields hmem).2 rfl
    refine filter_eq_nil_iff.mpr fun n hn ↦ ?_
    simp [not_isNamed_fieldNodes lx hname n hn]
  have hobject : (elem xmlNsCimBinding wsmbObject object).isNamed xmlNsCimBinding
      wsmbIncludeResultProperty = false := isNamed_of_ne (isNamed_elem _ _ _) (by decide)
  rw [childrenNamed_eq_filter, assocElement, content_elem,
    filter_cons_of_neg (by simp [hobject]), filter_append, hfields, nil_append,
    filter_eq_self.mpr (isNamed_resultPropNodes lx filter), resultPropNodes, map_map]
  exact map_congr_left fun prop _ ↦
    lx.chars_child xmlNsCimBinding wsmbIncludeResultProperty prop

theorem filterOfNode_assocElement (ns : String) (object : List WsXmlNode) (epr : Option Epr)
    (hepr : assocObject (assocElement lx filter object) = epr)
    (hkeys : Epr.keysWrittenOpt epr = true) :
    filterOfNode (filterElement ns wsmAssociationFilterDialect [assocElement lx filter object]) =
      .value (if filter.fieldCount + filter.resultProp.length < 3 then none
        else some
          { dialect := wsmAssociationFilterDialect
            assocType := filter.assocType
            epr := epr
            assocClass := filter.assocClass.map lx.kept
            role := filter.role.map lx.kept
            resultClass := filter.resultClass.map lx.kept
            resultRole := filter.resultRole.map lx.kept
            resultProp := (filter.resultProp.map lx.kept).take
              (filter.fieldCount + filter.resultProp.length - 3) }) := by
  have hinst : assocInstanceNode (filterElement ns wsmAssociationFilterDialect
      [assocElement lx filter object]) =
        some (filter.assocType, assocElement lx filter object) := by
    rw [assocInstanceNode, wsXmlFirstChild_eq_find?, wsXmlFirstChild_eq_find?]
    rcases htype : filter.assocType with _ | _
    · rw [filterElement, content,
        find?_cons_of_pos (by rw [assocElement, htype]; exact isNamed_elem _ _ _)]
    have hne : (assocElement lx filter object).isNamed xmlNsCimBinding wsmbAssociatedInstances =
        false := by
      rw [assocElement, htype]
      exact isNamed_of_ne (isNamed_elem _ _ _) (by decide)
    rw [filterElement, content, find?_cons_of_neg (by simp [hne]), find?_nil,
      find?_cons_of_pos (by rw [assocElement, htype]; exact isNamed_elem _ _ _)]
    rfl
  have hnum := properNum_assocElement lx filter object
  have hfield := cimBindingText_assocElement lx filter object
  rw [filterOfNode, filterDialect_filterElement, if_pos (beq_self_eq_true _), assocFilter, hinst]
  dsimp only
  rw [hepr, hkeys, if_pos rfl, map_take, resultProps_assocElement,
    hfield wsmbAssociationClassName filter.assocClass (by simp [Filter.fields]),
    hfield wsmbRole filter.role (by simp [Filter.fields]),
    hfield wsmbResultClassName filter.resultClass (by simp [Filter.fields]),
    hfield wsmbResultRole filter.resultRole (by simp [Filter.fields])]
  by_cases hlt : filter.fieldCount + filter.resultProp.length < 3
  · rw [if_pos (by omega), if_pos hlt]
  · rw [if_neg (by omega), if_neg hlt, show (properNum (assocElement lx filter object)).toNat =
      filter.fieldCount + filter.resultProp.length - 3 by omega]

def Filter.texts : List String := filter.fields.filterMap Prod.snd ++ filter.resultProp

theorem forall_mem_texts_iff (f : String → String) :
    (∀ text ∈ filter.texts, f text = text) ↔
      (filter.assocClass.map f = filter.assocClass ∧ filter.role.map f = filter.role ∧
        filter.resultClass.map f = filter.resultClass ∧
        filter.resultRole.map f = filter.resultRole) ∧
      filter.resultProp.map f = filter.resultProp := by
  have hprops : filter.resultProp.map f = filter.resultProp ↔
      ∀ text ∈ filter.resultProp, f text = text := by
    conv_lhs => rhs; rw [← map_id filter.resultProp]
    exact map_inj_left
  have hopt : ∀ text : Option String, text.map f = text ↔ ∀ t ∈ text.toList, f t = t := by
    rintro (_ | text) <;> simp
  rw [hprops, hopt, hopt, hopt, hopt]
  rcases filter with ⟨_, _, _, _, _, _ | _, _ | _, _ | _, _ | _, _⟩ <;>
    simp [Filter.texts, Filter.fields, and_assoc]

end

def FilterKept (lx : Libxml) (ns : String) (filter : Filter) : Prop :=
  ∃ content, filterContent lx filter = .value (some content) ∧
    filterOfNode (filterElement ns filter.dialect content) = .value (some filter)

theorem exists_filterContent_assoc {filter : Filter} (hquery : filter.query = none) {e : Epr}
    (hepr : filter.epr = some e) (hkeys : e.keysWritten = true) :
    ∃ object, filterContent lx filter = .value (some [assocElement lx filter object]) ∧
      assocObject (assocElement lx filter object) = some (e.readBack lx.kept) := by
  obtain ⟨params, hparams, hread⟩ := exists_eprParams lx e hkeys
  have hinst : (elem xmlNsCimBinding filter.assocType.elementName []).isElement = true := rfl
  have hobject := hread hinst rfl (some xmlNsCimBinding) (some wsmbObject) true (.inl rfl)
  refine ⟨eprElements lx none none true e.address params, ?_, ?_⟩
  · rw [filterContent, hquery, hepr]
    dsimp only
    rw [assocNode, eprSerialize, hparams]
    rfl
  · rw [← hobject]
    apply eprDeserialize_congr
    rw [eprNode_of_head rfl, eprNode_of_head rfl]
    rfl

theorem filterContent_assoc_of_not_keysWritten {filter : Filter}
    (hquery : filter.query = none) {e : Epr} (hepr : filter.epr = some e)
    (hkeys : e.keysWritten = false) : filterContent lx filter = .undefined := by
  rw [filterContent, hquery, hepr]
  dsimp only
  rw [assocNode, eprSerialize, eprParams_of_not_keysWritten lx e hkeys]
  rfl

theorem filterKept_assoc_iff (ns : String) (e : Epr) (assocType : AssocType)
    (assocClass resultClass role resultRole : Option String) (resultProp : List String) :
    FilterKept lx ns
        (filterCreateAssoc e assocType assocClass resultClass role resultRole resultProp) ↔
      3 ≤ (filterCreateAssoc e assocType assocClass resultClass role resultRole
          resultProp).fieldCount ∧
        e.complete = true ∧ e.mapTexts lx.kept = e ∧
        ∀ text ∈ (filterCreateAssoc e assocType assocClass resultClass role resultRole
          resultProp).texts, lx.kept text = text := by
  generalize hfilter :
    filterCreateAssoc e assocType assocClass resultClass role resultRole resultProp = filter
  have hquery : filter.query = none := by rw [← hfilter]; rfl
  have hepr : filter.epr = some e := by rw [← hfilter]; rfl
  have hdialect : filter.dialect = wsmAssociationFilterDialect := by rw [← hfilter]; rfl
  rw [forall_mem_texts_iff, ← and_assoc (a := e.complete = true), ← Epr.readBack_eq_self_iff]
  constructor
  · rintro ⟨content, hwrite, hread⟩
    cases hkeys : e.keysWritten with
    | false =>
      rw [filterContent_assoc_of_not_keysWritten lx hquery hepr hkeys] at hwrite
      cases hwrite
    | true =>
      obtain ⟨object, hcontent, hobject⟩ := exists_filterContent_assoc lx hquery hepr hkeys
      obtain rfl : [assocElement lx filter object] = content :=
        Option.some.inj (CResult.value.inj (hcontent.symm.trans hwrite))
      rw [hdialect, filterOfNode_assocElement lx filter ns object _ hobject
        ((e.readBack lx.kept).keysWritten_of_complete (e.complete_readBack lx.kept))] at hread
      have hread := CResult.value.inj hread
      by_cases hfew : filter.fieldCount + filter.resultProp.length < 3
      · rw [if_pos hfew] at hread
        cases hread
      rw [if_neg hfew] at hread
      have hread := Option.some.inj hread
      have hprops := congrArg Filter.resultProp hread
      have hlength := congrArg length hprops
      dsimp only at hprops hlength
      rw [length_take, length_map] at hlength
      rw [take_of_length_le (by rw [length_map]; omega)] at hprops
      exact ⟨by omega, Option.some.inj ((congrArg Filter.epr hread).trans hepr),
        ⟨congrArg Filter.assocClass hread, congrArg Filter.role hread,
          congrArg Filter.resultClass hread, congrArg Filter.resultRole hread⟩, hprops⟩
  · rintro ⟨hcount, hread, ⟨hclass, hrole, hresultClass, hresultRole⟩, hprops⟩
    have hkeys := e.keysWritten_of_complete ((Epr.readBack_eq_self_iff lx.kept e).mp hread).1
    obtain ⟨object, hcontent, hobject⟩ := exists_filterContent_assoc lx hquery hepr hkeys
    refine ⟨_, hcontent, ?_⟩
    rw [hread] at hobject
    rw [hdialect, filterOfNode_assocElement lx filter ns object _ hobject hkeys,
      if_neg (by omega), hclass, hrole, hresultClass, hresultRole, hprops,
      take_of_length_le (by omega)]
    subst hfilter
    rfl

/-! ## Selector filters -/

def textReadBack (lx : Libxml) : Cell KeyValue → Option KeyValue
  | .init (.text key value) => some (KeyValue.readBack lx.kept (.text key value))
  | _ => none

theorem filterSelector_namedSelector (name value : String) :
    filterSelector (namedSelector name (lx.content (some value))) =
      .value (.text (.init (some name)) (lx.kept value)) := by
  rw [filterSelector, wsXmlFirstChild_eq_find?]
  exact congrArg (fun s ↦ CResult.value (text (.init (some name)) s)) String.append_empty

theorem not_isNamed_eprElements (address : String) (params : List WsXmlNode) :
    ∀ n ∈ eprElements lx none none true address params,
      n.isNamed xmlNsWsMan wsmSelector = false := by
  intro n hn
  have hn : n ∈ [lx.child xmlNsAddressing wsaAddress (some address),
      .elem xmlNsAddressing wsaReferenceParameters params] := hn
  rcases mem_pair.mp hn with rfl | rfl
  · exact lx.isNamed_child_of_ne (by decide) _
  · exact isNamed_of_ne (isNamed_elem _ _ _) (by decide)

variable {nodes : List WsXmlNode}

theorem filterSelectors_filterSelectorNode {kv : KeyValue}
    (h : filterSelectorNode lx kv = .value nodes) :
    filterSelectors (nodes.filter (isNamed xmlNsWsMan wsmSelector)) =
      .value (textReadBack lx (.init kv)).toList := by
  rcases kv with ⟨key, value⟩ | ⟨key, _ | e⟩
  · obtain ⟨k, hk, hname⟩ : ∃ k, key.read = .value k ∧ k.getD "" = keyText key := by
      refine read_eq_value ?_
      rcases key with _ | key
      · cases h
      · rfl
    rw [filterSelectorNode, hk, CResult.value_bind] at h
    rw [← CResult.value.inj h, filter_cons_of_pos (isNamed_namedSelector _ _), filter_nil,
      filterSelectors, filterSelector_namedSelector, filterSelectors, hname]
    rfl
  · rw [← CResult.value.inj h]
    rfl
  rw [filterSelectorNode] at h
  cases hparams : eprParams lx e with
  | undefined => rw [hparams] at h; cases h
  | value params =>
    rw [hparams, CResult.value_bind] at h
    rw [← CResult.value.inj h, filter_eq_nil_iff.mpr fun n hn ↦ by
      simp [not_isNamed_eprElements lx _ _ n hn]]
    rfl

theorem filterSelectors_append (ns ms : List WsXmlNode) :
    filterSelectors (ns ++ ms) = (filterSelectors ns).bind fun ss ↦
      (filterSelectors ms).bind fun ts ↦ .value (ss ++ ts) := by
  induction ns with
  | nil => cases h : filterSelectors ms <;> simp [filterSelectors, h]
  | cons n ns ih =>
    rw [cons_append, filterSelectors, filterSelectors, ih]
    cases filterSelector n with
    | undefined => rfl
    | value s =>
      cases filterSelectors ns with
      | undefined => rfl
      | value ss => cases filterSelectors ms <;> rfl

variable {ss : List (Cell KeyValue)}

theorem filterSelectorNodes_cons {s : Cell KeyValue}
    (h : filterSelectorNodes lx (s :: ss) = .value nodes) :
    ∃ kv own rest, s = .init kv ∧ filterSelectorNode lx kv = .value own ∧
      filterSelectorNodes lx ss = .value rest ∧ nodes = own ++ rest := by
  rw [filterSelectorNodes] at h
  rcases s with _ | kv
  · cases h
  rw [Cell.read, CResult.value_bind] at h
  cases hown : filterSelectorNode lx kv with
  | undefined => rw [hown] at h; cases h
  | value own =>
    cases hrest : filterSelectorNodes lx ss with
    | undefined => rw [hown, hrest] at h; cases h
    | value rest =>
      rw [hown, hrest] at h
      exact ⟨kv, own, rest, rfl, hown, rfl, (CResult.value.inj h).symm⟩

theorem filterSelectors_filterSelectorNodes (h : filterSelectorNodes lx ss = .value nodes) :
    filterSelectors (nodes.filter (isNamed xmlNsWsMan wsmSelector)) =
      .value (ss.filterMap (textReadBack lx)) := by
  induction ss generalizing nodes with
  | nil =>
    rw [← CResult.value.inj h]
    rfl
  | cons s ss ih =>
    obtain ⟨kv, own, rest, rfl, hown, hrest, rfl⟩ := filterSelectorNodes_cons lx h
    rw [filter_append, filterSelectors_append, filterSelectors_filterSelectorNode lx hown,
      CResult.value_bind, ih hrest, CResult.value_bind, filterMap_cons]
    cases textReadBack lx (.init kv) <;> rfl

def IsKeptText (lx : Libxml) (s : Cell KeyValue) : Prop :=
  ∃ name value, s = .init (.text (.init (some name)) value) ∧ lx.kept value = value

theorem textReadBack_of_isKeptText {lx : Libxml} {s : Cell KeyValue} (h : IsKeptText lx s) :
    ∃ kv, s = .init kv ∧ textReadBack lx s = some kv := by
  obtain ⟨name, value, rfl, hkept⟩ := h
  refine ⟨_, rfl, ?_⟩
  rw [textReadBack, readBack, hkept, keyText]

theorem exists_filterSelectorNodes (h : ∀ s ∈ ss, IsKeptText lx s) :
    ∃ nodes, filterSelectorNodes lx ss = .value nodes ∧
      ∀ n ∈ nodes, n.isNamed xmlNsWsMan wsmSelector = true := by
  induction ss with
  | nil => exact ⟨[], rfl, by simp⟩
  | cons s ss ih =>
    obtain ⟨rest, hrest, hnamed⟩ := ih fun t ht ↦ h t (mem_cons_of_mem s ht)
    obtain ⟨name, value, rfl, -⟩ := h s mem_cons_self
    refine ⟨namedSelector name (lx.content (some value)) :: rest, ?_, ?_⟩
    · rw [filterSelectorNodes, hrest]
      rfl
    intro n hn
    rcases mem_cons.mp hn with rfl | hn
    · exact isNamed_namedSelector name _
    · exact hnamed n hn

theorem isKeptText_of_filterMap {lx : Libxml} {k : ℕ} (hwritten : ∀ s ∈ ss, s ≠ .uninit)
    (h : (ss.filterMap (textReadBack lx)).map Cell.init ++ List.replicate k .uninit = ss) :
    ∀ s ∈ ss, IsKeptText lx s := by
  -- what is read is a text or was never written, so every place holds a text
  have htext : ∀ s ∈ ss, ∃ name value, s = .init (.text (.init (some name)) value) := by
    intro s hs
    rw [← h] at hs
    rcases mem_append.mp hs with hs' | hs'
    · obtain ⟨kv, hkv, rfl⟩ := mem_map.mp hs'
      obtain ⟨t, -, ht⟩ := mem_filterMap.mp hkv
      rcases t with _ | ⟨key, value⟩ | ⟨key, e⟩
      · cases ht
      · exact ⟨_, _, congrArg Cell.init (Option.some.inj ht).symm⟩
      · cases ht
    · rw [h] at hs
      exact absurd (eq_of_mem_replicate hs') (hwritten s hs)
  clear hwritten
  -- so nothing is left out, and the places can be compared one by one
  induction ss with
  | nil => simp
  | cons s ss ih =>
    obtain ⟨name, value, rfl⟩ := htext s mem_cons_self
    have hcons := cons.inj h
    intro s hs
    rcases mem_cons.mp hs with rfl | hs
    · refine ⟨name, value, rfl, ?_⟩
      have hkv := Cell.init.inj hcons.1
      rw [readBack] at hkv
      exact (text.inj hkv).2
    · exact ih hcons.2 (fun t ht ↦ htext t (mem_cons_of_mem _ ht)) s hs

theorem ne_uninit_of_filterSelectorNodes
    (h : filterSelectorNodes lx ss = .value nodes) : ∀ s ∈ ss, s ≠ .uninit := by
  induction ss generalizing nodes with
  | nil => simp
  | cons s ss ih =>
    obtain ⟨kv, own, rest, rfl, -, hrest, -⟩ := filterSelectorNodes_cons lx h
    intro t ht
    rcases mem_cons.mp ht with rfl | ht
    · simp
    · exact ih hrest t ht

theorem filterContent_selector (hne : ss ≠ []) :
    filterContent lx (filterCreateSelector ss) = (filterSelectorNodes lx ss).bind fun nodes ↦
      .value (some [.elem xmlNsWsMan wsmSelectorSet nodes]) := by
  rcases ss with _ | ⟨s, ss⟩
  · exact absurd rfl hne
  · rfl

theorem filterOfNode_selectorSet (h : filterSelectorNodes lx ss = .value nodes) (ns : String) :
    filterOfNode (filterElement ns wsmSelectorFilterDialect
        [.elem xmlNsWsMan wsmSelectorSet nodes]) =
      .value (some (filterCreateSelector ((ss.filterMap (textReadBack lx)).map Cell.init ++
        List.replicate ((nodes.filter isElement).length -
          (nodes.filter (isNamed xmlNsWsMan wsmSelector)).length) .uninit))) := by
  have hset : wsXmlFirstChild (some (filterElement ns wsmSelectorFilterDialect
      [.elem xmlNsWsMan wsmSelectorSet nodes])) xmlNsWsMan wsmSelectorSet =
        some (.elem xmlNsWsMan wsmSelectorSet nodes) := by
    rw [wsXmlFirstChild_eq_find?]
    exact find?_cons_of_pos (isNamed_elem _ _ _)
  rw [filterOfNode, filterDialect_filterElement, if_neg (by decide), if_pos (beq_self_eq_true _),
    selectorFilter, hset]
  dsimp only
  rw [childrenNamed_eq_filter, content_elem, filterSelectors_filterSelectorNodes lx h]
  rfl

theorem filterKept_selector_iff (ns : String) (hne : ss ≠ []) :
    FilterKept lx ns (filterCreateSelector ss) ↔ ∀ s ∈ ss, IsKeptText lx s := by
  rw [FilterKept, filterContent_selector lx hne]
  constructor
  · rintro ⟨content, hwrite, hread⟩
    cases hnodes : filterSelectorNodes lx ss with
    | undefined => rw [hnodes] at hwrite; cases hwrite
    | value nodes =>
      rw [hnodes, CResult.value_bind] at hwrite
      obtain rfl := Option.some.inj (CResult.value.inj hwrite)
      rw [show (filterCreateSelector ss).dialect = wsmSelectorFilterDialect from rfl,
        filterOfNode_selectorSet lx hnodes] at hread
      exact isKeptText_of_filterMap (ne_uninit_of_filterSelectorNodes lx hnodes)
        (congrArg Filter.selectorset (Option.some.inj (CResult.value.inj hread)))
  · intro h
    obtain ⟨nodes, hnodes, hnamed⟩ := exists_filterSelectorNodes lx h
    refine ⟨_, by rw [hnodes, CResult.value_bind], ?_⟩
    have hread := filterOfNode_selectorSet lx hnodes ns
    rw [filter_eq_self.mpr hnamed, filter_eq_self.mpr fun n hn ↦
      isElement_of_isNamed (hnamed n hn), Nat.sub_self, replicate_zero, append_nil] at hread
    rw [show (filterCreateSelector ss).dialect = wsmSelectorFilterDialect from rfl, hread]
    have hall : (ss.filterMap (textReadBack lx)).map Cell.init = ss := by
      clear hread hnodes hne
      induction ss with
      | nil => rfl
      | cons s ss ih =>
        obtain ⟨kv, rfl, hkv⟩ := textReadBack_of_isKeptText (h s mem_cons_self)
        rw [filterMap_cons_some hkv, map_cons, ih fun t ht ↦ h t (mem_cons_of_mem _ ht)]
    rw [hall]

end Openwsman
