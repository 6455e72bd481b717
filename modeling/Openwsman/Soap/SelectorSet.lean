import Openwsman.Soap.Filter

/-!
# Selector sets

Both `epr_deserialize` and `filter_deserialize` make room for one selector per element child of a
`SelectorSet` and then look for its `Selector` children by their number. The two notions agree if
there is no other child. The first decoder moreover leaves the key of a selector without a `Name`
unwritten, which the second one notices when it copies a reference.
-/

namespace Openwsman

open Option List WsXmlNode

def isSelector (c : WsXmlNode) : Bool := wsXmlIsNodeQname c (some xmlNsWsMan) (some wsmSelector)

def decodedSelector (c : WsXmlNode) : KeyValue :=
  let key : Cell (Option String) := .init (wsXmlFindAttrValue (some c) none wsmName)
  if (wsXmlFirstChild (some c) xmlNsAddressing wsaEpr).isSome then .epr key (nestedEpr (some c))
  else .text key c.chars

def decodedSelectors (set : WsXmlNode) : List KeyValue :=
  (set.childrenNamed (some xmlNsWsMan) (some wsmSelector)).map decodedSelector

/-- Both decoders read exactly what the `Selector` children of the set of the filter `f` say, and
all names in it are defined, those in the references, too. -/
def DecodedExactly (f set : WsXmlNode) : Prop :=
  eprSelectors nestedEpr (some set) = decodedSelectors set ∧
    KeyValue.keysWrittenAll (decodedSelectors set) = true ∧
    selectorFilter f = .value (some
      { dialect := wsmSelectorFilterDialect, selectorset := (decodedSelectors set).map .init })

def nestedSet (c : WsXmlNode) : Option WsXmlNode :=
  (wsXmlFirstChild (some c) xmlNsAddressing wsaEpr).bind fun epr ↦
    (wsXmlFirstChild (some epr) xmlNsAddressing wsaAddress).bind fun _ ↦
    (wsXmlFirstChild (some epr) xmlNsAddressing wsaReferenceParameters).bind fun r ↦
    (wsXmlFirstChild (some r) xmlNsWsMan wsmResourceUri).bind fun _ ↦
    wsXmlFirstChild (some r) xmlNsWsMan wsmSelectorSet

/-- The set has no children but selectors with a `Name`, and neither has a set within it. -/
inductive NamedSet : WsXmlNode → Prop
  | intro {set : WsXmlNode} (selectors : ∀ c ∈ set.elements, isSelector c = true)
      (named : ∀ c ∈ set.elements, (wsXmlFindNodeAttr (some c) none wsmName).isSome = true)
      (nested : ∀ c ∈ set.elements, ∀ s, nestedSet c = some s → NamedSet s) : NamedSet set

/-! ## Which names are written -/

variable {set c : WsXmlNode}

theorem keysWritten_eprSelector : (eprSelector nestedEpr (some c)).keysWritten = true ↔
    (wsXmlFindNodeAttr (some c) none wsmName).isSome = true ∧
      ((wsXmlFirstChild (some c) xmlNsAddressing wsaEpr).isSome = true →
        Epr.keysWrittenOpt (nestedEpr (some c)) = true) := by
  rw [eprSelector]
  cases wsXmlFindNodeAttr (some c) none wsmName <;>
    cases wsXmlFirstChild (some c) xmlNsAddressing wsaEpr <;> simp [KeyValue.keysWritten]

theorem keysWritten_nestedEpr
    (h : (wsXmlFirstChild (some c) xmlNsAddressing wsaEpr).isSome = true) :
    Epr.keysWrittenOpt (nestedEpr (some c)) = true ↔
      ∀ s, nestedSet c = some s →
        KeyValue.keysWrittenAll (eprSelectors nestedEpr (some s)) = true := by
  obtain ⟨epr, hepr⟩ := isSome_iff_exists.mp h
  have hnode : eprNode (some c) (some xmlNsAddressing) (some wsaEpr) = some epr := hepr
  have hr : refParamNode (some c) (some epr) true =
      wsXmlFirstChild (some epr) xmlNsAddressing wsaReferenceParameters := rfl
  rw [nestedSet, hepr, bind_some]
  cases haddress : wsXmlFirstChild (some epr) xmlNsAddressing wsaAddress with
  | none => simp [nestedEpr, eprDeserialize, eprDeserializeTo, hnode, haddress, Epr.keysWrittenOpt]
  | some address =>
    cases hparams : wsXmlFirstChild (some epr) xmlNsAddressing wsaReferenceParameters with
    | none => simp [nestedEpr, eprDeserialize, eprDeserializeTo, hnode, haddress, hr, hparams,
        Epr.keysWrittenOpt]
    | some r =>
      cases huri : wsXmlFirstChild (some r) xmlNsWsMan wsmResourceUri with
      | none => simp [nestedEpr, eprDeserialize, eprDeserializeTo, hnode, haddress, hr, hparams,
          huri, Epr.keysWrittenOpt]
      | some uri =>
        rw [nestedEpr, eprDeserialize_eq_some (by rw [hnode]; exact haddress)
          (by rw [hnode, hr, hparams]) huri, Epr.keysWrittenOpt, Epr.keysWritten]
        simp only [bind_some, huri]
        cases wsXmlFirstChild (some r) xmlNsWsMan wsmSelectorSet with
        | none => simp [eprSelectors, wsXmlGetChildCount, KeyValue.keysWrittenAll]
        | some s => simp

theorem isSelector_of_keysWrittenAll
    (h : KeyValue.keysWrittenAll (eprSelectors nestedEpr (some set)) = true) :
    ∀ c ∈ set.elements, isSelector c = true := by
  by_contra hother
  have hlt : (set.childrenNamed (some xmlNsWsMan) (some wsmSelector)).length <
      set.elements.length := by
    rw [childrenNamed, length_filter_lt_length_iff_exists]
    simpa [isSelector] using hother
  have hplace := (KeyValue.keysWrittenAll_iff _).mp h _
    (mem_map_of_mem (mem_range.mpr hlt))
  rw [wsXmlGetChild_some, getElem?_eq_none (Nat.le_refl _)] at hplace
  cases hplace

theorem eprSelectors_of_selectors (h : ∀ c ∈ set.elements, isSelector c = true) :
    set.childrenNamed (some xmlNsWsMan) (some wsmSelector) = set.elements ∧
      eprSelectors nestedEpr (some set) =
        set.elements.map fun c ↦ eprSelector nestedEpr (some c) := by
  have hnamed : set.childrenNamed (some xmlNsWsMan) (some wsmSelector) = set.elements :=
    filter_eq_self.mpr h
  refine ⟨hnamed, ext_getElem? fun i ↦ ?_⟩
  simp only [eprSelectors, wsXmlGetChild_some, hnamed, wsXmlGetChildCount, getElem?_map]
  by_cases hi : i < set.elements.length
  · rw [getElem?_range hi, getElem?_eq_getElem hi, map_some, map_some, getElem?_eq_getElem hi]
  · rw [getElem?_eq_none (by simpa using hi), getElem?_eq_none (by simpa using hi)]
    rfl

theorem nestedSet_depth_lt {s : WsXmlNode} (h : nestedSet c = some s) : s.depth < c.depth := by
  simp only [nestedSet, bind_eq_some_iff] at h
  obtain ⟨epr, hepr, _, _, r, hr, _, _, hs⟩ := h
  have h₁ : epr.depth < c.depth := nodeDepth_wsXmlGetChild_lt hepr
  have h₂ : r.depth < epr.depth := nodeDepth_wsXmlGetChild_lt hr
  have h₃ : s.depth < r.depth := nodeDepth_wsXmlGetChild_lt hs
  omega

theorem keysWrittenAll_iff_namedSet (set : WsXmlNode) :
    KeyValue.keysWrittenAll (eprSelectors nestedEpr (some set)) = true ↔ NamedSet set := by
  induction hd : set.depth using Nat.strong_induction_on generalizing set with
  | _ n ih =>
    -- the sets within lie deeper, so what is claimed is known of them
    have hnested : ∀ c ∈ set.elements, ∀ s, nestedSet c = some s →
        (KeyValue.keysWrittenAll (eprSelectors nestedEpr (some s)) = true ↔ NamedSet s) := by
      intro c hc s hs
      have := nestedSet_depth_lt hs
      have := depth_lt_of_mem_elements hc
      exact ih s.depth (by omega) s rfl
    have hselector : ∀ c ∈ set.elements, (eprSelector nestedEpr (some c)).keysWritten = true ↔
        (wsXmlFindNodeAttr (some c) none wsmName).isSome = true ∧
          ∀ s, nestedSet c = some s → NamedSet s := by
      intro c hc
      rw [keysWritten_eprSelector, and_congr_right_iff]
      intro _
      cases hepr : wsXmlFirstChild (some c) xmlNsAddressing wsaEpr with
      | none => simp [nestedSet, hepr]
      | some epr =>
        rw [keysWritten_nestedEpr (by rw [hepr]; rfl)]
        simp only [isSome_some, forall_const]
        exact forall₂_congr fun s hs ↦ hnested c hc s hs
    constructor
    · intro h
      have hall := isSelector_of_keysWrittenAll h
      rw [(eprSelectors_of_selectors hall).2, KeyValue.keysWrittenAll_iff, List.forall_mem_map] at h
      exact ⟨hall, fun c hc ↦ ((hselector c hc).mp (h c hc)).1,
        fun c hc ↦ ((hselector c hc).mp (h c hc)).2⟩
    · rintro ⟨hall, hnamed, hsets⟩
      rw [(eprSelectors_of_selectors hall).2, KeyValue.keysWrittenAll_iff, List.forall_mem_map]
      exact fun c hc ↦ (hselector c hc).mpr ⟨hnamed c hc, hsets c hc⟩

/-! ## Both decoders -/

theorem eprSelector_eq_decodedSelector
    (h : (wsXmlFindNodeAttr (some c) none wsmName).isSome = true) :
    eprSelector nestedEpr (some c) = decodedSelector c := by
  obtain ⟨attr, hattr⟩ := isSome_iff_exists.mp h
  rw [eprSelector, decodedSelector, wsXmlFindAttrValue, hattr]
  rfl

theorem filterSelectors_eq {cs : List WsXmlNode}
    (h : ∀ c ∈ cs, (decodedSelector c).keysWritten = true) :
    filterSelectors cs = .value (cs.map decodedSelector) := by
  induction cs with
  | nil => rfl
  | cons c cs ih =>
    obtain ⟨hc, hcs⟩ := forall_mem_cons.mp h
    have hfilter : filterSelector c = .value (decodedSelector c) := by
      rw [filterSelector]
      cases hepr : wsXmlFirstChild (some c) xmlNsAddressing wsaEpr with
      | none => rw [decodedSelector, hepr]; rfl
      | some inst =>
        have hnested : eprDeserialize (some inst) none none true = nestedEpr (some c) :=
          eprDeserialize_congr hepr.symm
        rw [decodedSelector, hepr, isSome_some, if_pos rfl, KeyValue.keysWritten,
          Bool.and_eq_true] at hc
        dsimp only
        rw [hnested, if_pos hc.2, decodedSelector, hepr]
        rfl
    rw [filterSelectors, hfilter, ih hcs]
    rfl

/-- **A selector set is decoded exactly if it holds nothing but named selectors**, and so do the
sets of the references in it. -/
theorem decodedExactly_iff {f : WsXmlNode}
    (hset : wsXmlFirstChild (some f) xmlNsWsMan wsmSelectorSet = some set) :
    DecodedExactly f set ↔ NamedSet set := by
  rw [← keysWrittenAll_iff_namedSet]
  constructor
  · rintro ⟨heq, hkeys, -⟩
    rwa [heq]
  · intro h
    obtain ⟨hall, hnamed, -⟩ := (keysWrittenAll_iff_namedSet set).mp h
    obtain ⟨hchildren, heq⟩ := eprSelectors_of_selectors hall
    have hentries : eprSelectors nestedEpr (some set) = decodedSelectors set := by
      rw [heq, decodedSelectors, hchildren]
      exact map_congr_left fun c hc ↦ eprSelector_eq_decodedSelector (hnamed c hc)
    rw [hentries] at h
    refine ⟨hentries, h, ?_⟩
    have hcs : ∀ c ∈ set.elements, (decodedSelector c).keysWritten = true := by
      rw [decodedSelectors, hchildren] at h
      simpa using (KeyValue.keysWrittenAll_iff _).mp h
    rw [selectorFilter, hset]
    dsimp only
    rw [hchildren, filterSelectors_eq hcs, decodedSelectors, hchildren, wsXmlGetChildCount,
      Nat.sub_self, replicate_zero, CResult.value_bind, append_nil]

def selectorSetFilter (children : List WsXmlNode) : WsXmlNode :=
  .elem xmlNsWsMan wsmFilter [.elem xmlNsWsMan wsmSelectorSet children]

theorem not_decodedExactly_foreign : ¬DecodedExactly (selectorSetFilter [.elem "urn:x" "y" []])
    (.elem xmlNsWsMan wsmSelectorSet [.elem "urn:x" "y" []]) := by
  rintro ⟨heq, -⟩
  exact absurd (congrArg length heq) (by decide)

def nameSelector : WsXmlNode :=
  .element (some xmlNsWsMan) wsmSelector [⟨none, wsmName, "a"⟩] [.text "1"]

theorem decodedExactly_nameSelector :
    DecodedExactly (selectorSetFilter [nameSelector])
      (.elem xmlNsWsMan wsmSelectorSet [nameSelector]) := by
  have hall : ∀ c ∈ (elem xmlNsWsMan wsmSelectorSet [nameSelector]).elements, c = nameSelector :=
    fun c hc ↦ mem_singleton.mp hc
  refine (decodedExactly_iff rfl).mpr ⟨fun c hc ↦ ?_, fun c hc ↦ ?_, fun c hc s hs ↦ ?_⟩
  · rw [hall c hc]
    decide
  · rw [hall c hc]
    decide
  · rw [hall c hc] at hs
    cases hs

end Openwsman
