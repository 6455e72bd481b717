import Openwsman.Libc.Memory
import Openwsman.Xml.Node

/-!
# Endpoint references

`epr_deserialize` of `wsman-epr.c`. The selectors of a reference are stored in an array with one
place for every element child of the `SelectorSet`, and the loop that fills it asks for the `i`-th
`Selector`. A child with another name therefore leaves a place for which no selector is found, and
a selector without a `Name` leaves the key of its place unwritten: keys are `Cell`s.

A selector may hold a reference in turn, so `eprDeserialize` descends into the document. The
recursion is on a bound for the depth, and `eprDeserialize_of_depth_lt` says that every bound above
the depth of the node gives the same result.
-/

namespace Openwsman

open Nat List

mutual

inductive Epr where
  | mk (address uri : String) (selectors : List KeyValue)

inductive KeyValue where
  | text (key : Cell (Option String)) (value : String)
  | epr (key : Cell (Option String)) (value : Option Epr)

end

namespace Epr

def uri : Epr → String
  | mk _ u _ => u

def selectors : Epr → List KeyValue
  | mk _ _ s => s

end Epr

def KeyValue.key : KeyValue → Cell (Option String)
  | text k _ => k
  | epr k _ => k

mutual

/-- Every key of a reference and of the references in it has been written. `epr_copy` and
`epr_destroy` read all of them, so their behaviour is defined only then. -/
def Epr.keysWritten : Epr → Bool
  | .mk _ _ ss => KeyValue.keysWrittenAll ss

def KeyValue.keysWritten : KeyValue → Bool
  | .text k _ => k != .uninit
  | .epr k e => k != .uninit && Epr.keysWrittenOpt e

def Epr.keysWrittenOpt : Option Epr → Bool
  | none => true
  | some e => e.keysWritten

def KeyValue.keysWrittenAll : List KeyValue → Bool
  | [] => true
  | s :: ss => s.keysWritten && KeyValue.keysWrittenAll ss

end

theorem KeyValue.keysWrittenAll_iff (ss : List KeyValue) :
    KeyValue.keysWrittenAll ss = true ↔ ∀ s ∈ ss, s.keysWritten = true := by
  induction ss with
  | nil => simp [KeyValue.keysWrittenAll]
  | cons s ss ih => rw [KeyValue.keysWrittenAll, Bool.and_eq_true, ih, forall_mem_cons]

/-- Induction on a reference, with what is shown of the selectors on the way. -/
theorem Epr.induction {P : Epr → Prop} {Q : KeyValue → Prop}
    (mk : ∀ address uri ss, (∀ s ∈ ss, Q s) → P (.mk address uri ss))
    (text : ∀ key value, Q (.text key value)) (null : ∀ key, Q (.epr key none))
    (epr : ∀ key e, P e → Q (.epr key (some e))) (e : Epr) : P e :=
  @Epr.rec P Q (fun ss ↦ ∀ s ∈ ss, Q s) (fun value ↦ ∀ key, Q (.epr key value)) mk text
    (fun key _ h ↦ h key) (by simp) (fun _ _ hs hss ↦ forall_mem_cons.mpr ⟨hs, hss⟩) null
    (fun e he key ↦ epr key e he) e

/-! ## Depth of a document -/

namespace WsXmlNode

mutual

def depth : WsXmlNode → ℕ
  | element _ _ _ cs => depthAll cs + 1
  | text _ => 0

def depthAll : List WsXmlNode → ℕ
  | [] => 0
  | c :: cs => max c.depth (depthAll cs)

end

theorem depth_le_depthAll {c : WsXmlNode} {cs : List WsXmlNode} (h : c ∈ cs) :
    c.depth ≤ depthAll cs := by
  induction cs with
  | nil => exact absurd h (not_mem_nil)
  | cons d ds ih =>
    rw [depthAll]
    rcases mem_cons.mp h with rfl | h
    · exact le_max_left _ _
    · exact le_trans (ih h) (le_max_right _ _)

theorem depth_lt_of_mem_elements {p c : WsXmlNode} (h : c ∈ p.elements) : c.depth < p.depth := by
  have hmem : c ∈ p.content := mem_of_mem_filter h
  cases p with
  | element ns n as cs =>
    rw [depth]
    exact lt_succ_of_le (depth_le_depthAll hmem)
  | text s => exact absurd hmem (not_mem_nil)

end WsXmlNode

def nodeDepth (node : Option WsXmlNode) : ℕ := node.elim 0 WsXmlNode.depth

variable {node : Option WsXmlNode} {ns : Option String}

theorem nodeDepth_wsXmlGetChild_lt {i : ℕ} {name : Option String} {c : WsXmlNode}
    (h : wsXmlGetChild node i ns name = some c) : c.depth < nodeDepth node := by
  cases node with
  | none => exact absurd h (by simp)
  | some p =>
    rw [wsXmlGetChild_some, WsXmlNode.childrenNamed] at h
    exact WsXmlNode.depth_lt_of_mem_elements (mem_of_mem_filter (mem_of_getElem? h))

/-! ## Reading a reference -/

def eprNode (node : Option WsXmlNode) (ns eprNodeName : Option String) : Option WsXmlNode :=
  match eprNodeName with
  | none => node
  | some name => wsXmlGetChild node 0 ns (some name)

def refParamNode (node eprnode : Option WsXmlNode) (embedded : Bool) : Option WsXmlNode :=
  if embedded then wsXmlFirstChild eprnode xmlNsAddressing wsaReferenceParameters else node

def eprSelector (nested : Option WsXmlNode → Option Epr) (temp : Option WsXmlNode) : KeyValue :=
  let key : Cell (Option String) :=
    match wsXmlFindNodeAttr temp none wsmName with
    | some attr => .init (some attr.value)
    | none => .uninit
  if (wsXmlFirstChild temp xmlNsAddressing wsaEpr).isSome then .epr key (nested temp)
  else .text key (wsXmlGetNodeTextSafe temp)

def eprSelectors (nested : Option WsXmlNode → Option Epr) (selectorset : Option WsXmlNode) :
    List KeyValue :=
  (List.range (wsXmlGetChildCount selectorset)).map fun i ↦
    eprSelector nested (wsXmlGetChild selectorset i (some xmlNsWsMan) (some wsmSelector))

def eprDeserializeTo : ℕ → Option WsXmlNode → Option String → Option String → Bool → Option Epr
  | 0, _, _, _, _ => none
  | fuel + 1, node, ns, eprNodeName, embedded =>
    let eprnode := eprNode node ns eprNodeName
    match wsXmlFirstChild eprnode xmlNsAddressing (if embedded then wsaAddress else wsaTo) with
    | none => none
    | some address =>
      match refParamNode node eprnode embedded with
      | none => none
      | some refparam =>
        match wsXmlFirstChild (some refparam) xmlNsWsMan wsmResourceUri with
        | none => none
        | some uri =>
          some (.mk (wsXmlGetNodeTextSafe (some address)) (wsXmlGetNodeTextSafe (some uri))
            (eprSelectors
              (fun temp ↦ eprDeserializeTo fuel temp (some xmlNsAddressing) (some wsaEpr) true)
              (wsXmlFirstChild (some refparam) xmlNsWsMan wsmSelectorSet)))

def eprDeserialize (node : Option WsXmlNode) (ns eprNodeName : Option String) (embedded : Bool) :
    Option Epr :=
  eprDeserializeTo (nodeDepth node + 1) node ns eprNodeName embedded

variable {nm : Option String} {e : Bool} {r : WsXmlNode}

theorem nodeDepth_refParamNode_le (h : refParamNode node (eprNode node ns nm) e = some r) :
    r.depth ≤ nodeDepth node := by
  cases e with
  | false =>
    have hnode : node = some r := by simpa [refParamNode] using h
    rw [hnode]
    exact le_refl _
  | true =>
    have hr : r.depth < nodeDepth (eprNode node ns nm) :=
      nodeDepth_wsXmlGetChild_lt (by simpa [refParamNode, wsXmlFirstChild] using h)
    cases nm with
    | none => exact le_of_lt hr
    | some name =>
      cases hn : wsXmlGetChild node 0 ns (some name) with
      | none => rw [eprNode, hn] at hr; exact absurd hr (not_lt_zero _)
      | some c =>
        rw [eprNode, hn] at hr
        exact le_of_lt (lt_trans hr (nodeDepth_wsXmlGetChild_lt hn))

theorem depth_selector_lt {sel : WsXmlNode} {i : ℕ}
    (hr : refParamNode node (eprNode node ns nm) e = some r)
    (hsel : wsXmlGetChild (wsXmlFirstChild (some r) xmlNsWsMan wsmSelectorSet) i (some xmlNsWsMan)
      (some wsmSelector) = some sel) : sel.depth < nodeDepth node := by
  cases hs : wsXmlFirstChild (some r) xmlNsWsMan wsmSelectorSet with
  | none => rw [hs] at hsel; cases hsel
  | some set =>
    rw [hs] at hsel
    have h1 := nodeDepth_wsXmlGetChild_lt hsel
    have h2 := nodeDepth_wsXmlGetChild_lt (show wsXmlGetChild (some r) 0 _ _ = _ from hs)
    have h3 := nodeDepth_refParamNode_le hr
    simp only [nodeDepth, Option.elim_some] at h1 h2
    omega

/-- Two readers of nested references that agree on the selectors fill the array alike. A place
without a selector asks neither. -/
theorem eprSelectors_congr {f g : Option WsXmlNode → Option Epr} {set : Option WsXmlNode}
    (h : ∀ i sel, wsXmlGetChild set i (some xmlNsWsMan) (some wsmSelector) = some sel →
      f (some sel) = g (some sel)) : eprSelectors f set = eprSelectors g set := by
  refine map_congr_left fun i _ ↦ ?_
  cases hsel : wsXmlGetChild set i (some xmlNsWsMan) (some wsmSelector) with
  | none => rfl
  | some sel => rw [eprSelector, eprSelector, h i sel hsel]

theorem eprDeserializeTo_succ (fuel : ℕ) :
    ∀ (node : Option WsXmlNode) (ns nm : Option String) (e : Bool), nodeDepth node < fuel →
      eprDeserializeTo (fuel + 1) node ns nm e = eprDeserializeTo fuel node ns nm e := by
  induction fuel with
  | zero => intro node _ _ _ h; exact absurd h (not_lt_zero _)
  | succ fuel ih =>
    intro node ns nm e h
    rw [eprDeserializeTo, eprDeserializeTo]
    split
    · rfl
    split
    · rfl
    next hr =>
    split
    · rfl
    -- only the nested references see the bound, and they lie strictly deeper
    refine congrArg (fun ss ↦ some (Epr.mk _ _ ss)) (eprSelectors_congr fun i sel hsel ↦ ?_)
    have hlt := depth_selector_lt hr hsel
    exact ih (some sel) _ _ _ (by rw [nodeDepth, Option.elim_some]; omega)

/-- **The bound does not matter.** Every bound above the depth of the node reads the same
reference, so `eprDeserialize` reads it to its end. -/
theorem eprDeserialize_of_depth_lt {fuel : ℕ} (h : nodeDepth node < fuel) (ns nm : Option String)
    (e : Bool) : eprDeserializeTo fuel node ns nm e = eprDeserialize node ns nm e := by
  induction fuel with
  | zero => exact absurd h (Nat.not_lt_zero _)
  | succ fuel ih =>
    rcases Nat.lt_succ_iff_lt_or_eq.mp h with hlt | heq
    · rw [eprDeserializeTo_succ fuel node ns nm e hlt, ih hlt]
    · rw [eprDeserialize, heq]

def nestedEpr (temp : Option WsXmlNode) : Option Epr :=
  eprDeserialize temp (some xmlNsAddressing) (some wsaEpr) true

/-- The reader without its bound: nested references are read like any other. -/
theorem eprDeserialize_eq_some {address uri : WsXmlNode}
    (haddress : wsXmlFirstChild (eprNode node ns nm) xmlNsAddressing (if e then wsaAddress else
      wsaTo) = some address) (hr : refParamNode node (eprNode node ns nm) e = some r)
    (huri : wsXmlFirstChild (some r) xmlNsWsMan wsmResourceUri = some uri) :
    eprDeserialize node ns nm e = some (.mk address.chars uri.chars
      (eprSelectors nestedEpr (wsXmlFirstChild (some r) xmlNsWsMan wsmSelectorSet))) := by
  rw [eprDeserialize, eprDeserializeTo]
  simp only [haddress, hr, huri]
  refine congrArg (fun ss ↦ some (Epr.mk _ _ ss)) (eprSelectors_congr fun i sel hsel ↦ ?_)
  exact eprDeserialize_of_depth_lt (depth_selector_lt hr hsel) _ _ _

theorem eprDeserialize_congr {node' : Option WsXmlNode} {ns' nm' : Option String}
    (h : eprNode node ns nm = eprNode node' ns' nm') :
    eprDeserialize node ns nm true = eprDeserialize node' ns' nm' true := by
  have hnode : nodeDepth node < max (nodeDepth node) (nodeDepth node') + 1 := by omega
  have hnode' : nodeDepth node' < max (nodeDepth node) (nodeDepth node') + 1 := by omega
  rw [← eprDeserialize_of_depth_lt hnode, ← eprDeserialize_of_depth_lt hnode', eprDeserializeTo,
    eprDeserializeTo, h]
  rfl

end Openwsman
