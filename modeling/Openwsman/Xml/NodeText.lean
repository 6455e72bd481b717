import Openwsman.Lib.Transition
import Openwsman.Xml.Write

/-!
# The text of a node

`xml_parser_node_query` keeps the text of a node once it was asked for, and only a new text for this
very node makes it forget. A child that is added, or a text that is set further down, leaves the
node with a text that is no longer its own. Most ways to write a text hand it to
`xmlNodeSetContent`, which looks for references to entities in it.

A node is addressed by the positions of its ancestors and its own among their contents. New nodes
come last, so that a position stays that of its node until the node is gone.
-/

namespace Openwsman

open Option List WsXmlNode Transition

/-! ## Positions -/

namespace WsXmlNode

def nodeAt : WsXmlNode → List ℕ → Option WsXmlNode
  | n, [] => some n
  | n, i :: p => n.content[i]?.bind fun c ↦ nodeAt c p

def updateAt (f : WsXmlNode → WsXmlNode) : List ℕ → WsXmlNode → WsXmlNode
  | [], n => f n
  | i :: p, .element ns name attrs content =>
    .element ns name attrs (content.modify i (updateAt f p))
  | _, .text chars => .text chars

theorem nodeAt_append (n : WsXmlNode) (p q : List ℕ) :
    nodeAt n (p ++ q) = (nodeAt n p).bind fun m ↦ nodeAt m q := by
  induction p generalizing n with
  | nil => rfl
  | cons i p ih => simp only [cons_append, nodeAt, ih, bind_assoc]

/-- Seen from a position that is not above it, a change is one of what lies below its own. -/
theorem nodeAt_updateAt (f : WsXmlNode → WsXmlNode) {p q : List ℕ} (h : ¬q <+: p)
    (n : WsXmlNode) : nodeAt (updateAt f p n) q =
      if p <+: q then (nodeAt n p).bind fun m ↦ nodeAt (f m) (q.drop p.length)
      else nodeAt n q := by
  induction p generalizing q n with
  | nil => simp [updateAt, nodeAt]
  | cons i p ih =>
    cases q with
    | nil => exact absurd nil_prefix h
    | cons j q =>
      cases n with
      | text chars => simp [updateAt, nodeAt, content]
      | element ns name attrs cs =>
        simp only [updateAt, nodeAt, content, cons_prefix_cons, getElem?_modify]
        by_cases hij : i = j
        · subst hij
          have hq : ¬q <+: p := fun hq ↦ h (cons_prefix_cons.mpr ⟨rfl, hq⟩)
          cases cs[i]? with
          | none => simp
          | some c => simpa using ih hq c
        · cases cs[j]? <;> simp [hij]

end WsXmlNode

/-! ## Reading -/

structure TextDoc where
  root : WsXmlNode
  valText : List ℕ → Option String

inductive TextOp where
  | addChild (node : List ℕ) (nsUri : Option String) (name : String) (value : Option String)
  | setText (node : List ℕ) (text : String)
  | getText (node : List ℕ)

def TextOp.node : TextOp → List ℕ
  | addChild p _ _ _ | setText p _ | getText p => p

namespace TextDoc

variable (lx : Libxml) (d : TextDoc)

def nodeText (p : List ℕ) : String := (d.valText p).getD ((d.root.nodeAt p).elim "" chars)

def withChild (child : WsXmlNode) : WsXmlNode → WsXmlNode
  | .element ns name attrs content => .element ns name attrs (content ++ [child])
  | .text chars => .text chars

def withContent (content : List WsXmlNode) : WsXmlNode → WsXmlNode
  | .element ns name attrs _ => .element ns name attrs content
  | .text chars => .text chars

/-- Nodes that are new, or freed with the old content, have no text kept for them. -/
def step : TextOp → TextDoc
  | .addChild p ns name value =>
    let last := p ++ [(d.root.nodeAt p).elim 0 fun n ↦ n.content.length]
    ⟨d.root.updateAt (withChild (.element ns name [] (lx.content value))) p,
      fun q ↦ if last <+: q then none else d.valText q⟩
  | .setText p s =>
    ⟨d.root.updateAt (withContent (lx.content (some s))) p,
      fun q ↦ if p <+: q then none else d.valText q⟩
  | .getText p => ⟨d.root, fun q ↦ if q = p then some (d.nodeText p) else d.valText q⟩

def Coherent : Prop :=
  ∀ p n, d.root.nodeAt p = some n → ∀ text, d.valText p = some text → text = n.chars

/-- The nodes whose text a change concerns have not been read: those above it and, if a child is
added, the node itself. -/
def Unread : TextOp → Prop
  | .addChild p _ _ _ => ∀ q, q <+: p → d.valText q = none
  | .setText p _ => ∀ q, q <+: p → q ≠ p → d.valText q = none
  | .getText _ => True

end TextDoc

def textSystem (lx : Libxml) : System TextDoc TextOp where
  Init d := ∀ p, d.valText p = none
  Step d op d' := (d.root.nodeAt op.node).isSome ∧ d' = d.step lx op

namespace TextDoc

variable {lx : Libxml} {d : TextDoc}

theorem nodeText_of_coherent (h : d.Coherent) {p : List ℕ} {n : WsXmlNode}
    (hn : d.root.nodeAt p = some n) : d.nodeText p = n.chars := by
  rw [nodeText, hn]
  cases htext : d.valText p with
  | none => rfl
  | some text => exact h p n hn text htext

theorem coherent_step {op : TextOp} (h : d.Coherent) (hop : d.Unread op)
    (hnode : (d.root.nodeAt op.node).isSome) : (d.step lx op).Coherent := by
  obtain ⟨m, hm⟩ := isSome_iff_exists.mp hnode
  intro q n hn text htext
  cases op with
  | addChild p ns name value =>
    have hm : d.root.nodeAt p = some m := hm
    simp only [step, hm, elim_some] at hn htext
    split at htext
    · cases htext
    next hlast =>
    by_cases hq : q <+: p
    · rw [hop q hq] at htext
      cases htext
    rw [nodeAt_updateAt _ hq, hm, bind_some] at hn
    refine h q n ?_ text htext
    split at hn
    · next hp =>
      obtain ⟨r, rfl⟩ := hp
      rw [drop_left] at hn
      rw [nodeAt_append, hm, bind_some]
      -- below the node, and not in the new child: in a child that was there before
      match r, m with
      | [], _ => exact absurd (by simp) hq
      | i :: r, .text chars => exact hn
      | i :: r, .element ns name attrs cs =>
        simp only [withChild, nodeAt, content] at hn hlast ⊢
        rcases Nat.lt_trichotomy i cs.length with hi | rfl | hi
        · rwa [getElem?_append_left hi] at hn
        · exact absurd (prefix_append_right_inj p |>.mpr (by simp)) hlast
        · rw [getElem?_eq_none (by simp; omega)] at hn
          cases hn
    · exact hn
  | setText p s =>
    simp only [step] at hn htext
    split at htext
    · cases htext
    next hp =>
    by_cases hq : q <+: p
    · rw [hop q hq fun heq ↦ hp (heq ▸ prefix_rfl)] at htext
      cases htext
    rw [nodeAt_updateAt _ hq, if_neg hp] at hn
    exact h q n hn text htext
  | getText p =>
    simp only [step] at hn htext
    split at htext
    · next hq =>
      subst hq
      cases htext
      exact nodeText_of_coherent h hn
    · exact h q n hn text htext

end TextDoc

/-- **A text is what is stored, as long as nothing changes below a node that was read.** -/
theorem nodeText_eq_chars {lx : Libxml} {d : TextDoc}
    (h : Reachable ((textSystem lx).restrict TextDoc.Unread) d) {p : List ℕ} {n : WsXmlNode}
    (hn : d.root.nodeAt p = some n) : d.nodeText p = n.chars := by
  refine TextDoc.nodeText_of_coherent ?_ hn
  refine Reachable.induct (P := TextDoc.Coherent) ?_ ?_ h
  · intro d hinit p n _ text htext
    rw [hinit p] at htext
    cases htext
  · rintro d op _ _ hd ⟨⟨hnode, rfl⟩, hop⟩
    exact TextDoc.coherent_step hd hop hnode

def emptyRoot : TextDoc := ⟨.element none "r" [] [], fun _ ↦ none⟩

def addLeaf : TextOp := .addChild [] none "c" (some "a")

theorem nodeText_eq_chars_leaf : (emptyRoot.step keepsText addLeaf).nodeText [] =
    (emptyRoot.step keepsText addLeaf).root.chars :=
  nodeText_eq_chars (.step (s := emptyRoot) (l := addLeaf) (.init fun _ ↦ rfl)
    ⟨⟨rfl, rfl⟩, fun _ _ ↦ rfl⟩) rfl

theorem exists_stale_nodeText : ∃ d, Reachable (textSystem keepsText) d ∧
    d.root.nodeAt [] = some d.root ∧ d.nodeText [] ≠ d.root.chars :=
  ⟨(emptyRoot.step keepsText (.getText [])).step keepsText addLeaf,
    .step (.step (.init fun _ ↦ rfl) ⟨rfl, rfl⟩) ⟨rfl, rfl⟩, rfl, by decide⟩

/-! ## Writing -/

/-- Only `ws_xml_add_child_sort` lets its caller ask for escaping. -/
inductive StoreOp where
  | addChild (nsUri : Option String) (name : String)
  | addPrevSibling (nsUri : Option String) (name : String)
  | addChildSort (nsUri : Option String) (name : String) (xmlescape : Bool)
  | setNodeText (nsUri : Option String) (name : String) (attrs : List WsXmlAttr)

namespace Libxml

variable (lx : Libxml)

def makeNewXmlNode (nsUri : Option String) (name value : String) (xmlescape : Bool) : WsXmlNode :=
  .element nsUri name [] (if xmlescape then [.text value] else lx.content (some value))

def stored (value : String) : StoreOp → WsXmlNode
  | .addChild nsUri name | .addPrevSibling nsUri name => lx.makeNewXmlNode nsUri name value false
  | .addChildSort nsUri name xmlescape => lx.makeNewXmlNode nsUri name value xmlescape
  | .setNodeText nsUri name attrs => .element nsUri name attrs (lx.content (some value))

/-- `xmlNodeSetContent` resolves references, so that no text with an ampersand stays as it is. -/
def Resolves : Prop := ∀ text : String, '&' ∈ text.toList → lx.expand text ≠ text

variable {lx}

theorem kept_eq_self_iff (h : lx.Resolves) (text : String) :
    lx.kept text = text ↔ '&' ∉ text.toList := by
  rw [kept]
  split
  · next hmem =>
    have hmem : '&' ∈ text.toList := by simpa using hmem
    simp [h text hmem, hmem]
  · next hmem => simpa using hmem

/-- **A value is read back as it was given exactly if it has no ampersand or was escaped**, whether
the document is written out and parsed in between or not. -/
theorem chars_stored_iff (h : lx.Resolves) {reparse : WsXmlNode → WsXmlNode}
    (hreparse : ∀ n, (reparse n).chars = n.chars) (value : String) (op : StoreOp) :
    ((lx.stored value op).chars = value ∧ (reparse (lx.stored value op)).chars = value) ↔
      '&' ∉ value.toList ∨ ∃ nsUri name, op = .addChildSort nsUri name true := by
  have hkept : charsAll (lx.content (some value)) = lx.kept value := by
    rw [content, charsAll, chars, charsAll, String.append_empty]
  rw [hreparse, and_self, ← kept_eq_self_iff h]
  rcases op with _ | _ | ⟨nsUri, name, _ | _⟩ | _
  · simp [stored, makeNewXmlNode, chars, hkept]
  · simp [stored, makeNewXmlNode, chars, hkept]
  · simp [stored, makeNewXmlNode, chars, hkept]
  · simp [stored, makeNewXmlNode, chars, charsAll]
  · simp [stored, chars, hkept]

end Libxml

/-- A libxml2 that knows the entity of the ampersand only. -/
def resolveChars : List Char → List Char
  | '&' :: 'a' :: 'm' :: 'p' :: ';' :: cs => '&' :: resolveChars cs
  | '&' :: cs => resolveChars cs
  | c :: cs => c :: resolveChars cs
  | [] => []

def resolvingLibxml : Libxml where
  expand text := String.ofList (resolveChars text.toList)

theorem resolvingLibxml_resolves : resolvingLibxml.Resolves := by
  have hlength : ∀ cs : List Char, (resolveChars cs).length ≤ cs.length ∧
      ('&' ∈ cs → (resolveChars cs).length < cs.length) := by
    intro cs
    fun_induction resolveChars cs with
    | case1 cs ih => simp; omega
    | case2 cs _ ih => simp; omega
    | case3 c cs _ hc ih =>
      have hne : '&' ≠ c := fun h ↦ hc h.symm
      simpa [hne] using ih
    | case4 => simp
  intro text hmem heq
  have hlt := (hlength text.toList).2 hmem
  have hsame : resolveChars text.toList = text.toList := by
    simpa [resolvingLibxml] using congrArg String.toList heq
  rw [hsame] at hlt
  exact Nat.lt_irrefl _ hlt

theorem chars_stored_escaped :
    (resolvingLibxml.stored "a&amp;b" (.addChildSort none "c" true)).chars = "a&amp;b" :=
  ((Libxml.chars_stored_iff resolvingLibxml_resolves (fun n ↦ (rfl : (id n).chars = n.chars))
    _ _).mpr (.inr ⟨none, "c", rfl⟩)).1

theorem chars_stored_child_ne :
    (resolvingLibxml.stored "a&amp;b" (.addChild none "c")).chars ≠ "a&amp;b" := by
  decide

end Openwsman
