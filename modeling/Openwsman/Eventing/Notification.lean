import Openwsman.Eventing.Expiry
import Openwsman.Xml.Copy

/-!
# The header of a notification

A subscription has a template for its notifications and one for its heartbeats, both made when the
Subscribe is accepted. The header of a template has the address of the event sink, and what the sink
asked to get back: the children of the reference parameters in NotifyTo. Every message is a copy of
a template to which an action and an id are added.

If NotifyTo has reference properties, they are found but not entered: the elements of NotifyTo
itself are copied instead, the address and the reference properties as a whole among them.
-/

namespace Openwsman

open Bool WsXmlNode

def wsmAckRequested : String := "AckRequested"
def wsmAction : String := "Action"
def wsmEvents : String := "Events"
def wsmEvent : String := "Event"
def wsmanActionHeartbeat : String := "http://schemas.xmlsoap.org/wbmem/wsman/1/wsman/Heartbeat"
def wsmanActionEvent : String := "http://schemas.xmlsoap.org/wbmem/wsman/1/wsman/Event"

/-! ## Templates -/

def notifyToOf (indoc : WsXmlNode) : Option WsXmlNode :=
  wsXmlFirstChild (wsXmlFirstChild (subscribeOf indoc) xmlNsEventing wseventDelivery) xmlNsEventing
    wseventNotifyTo

def copiedNode (notifyTo : Option WsXmlNode) : Option WsXmlNode :=
  match wsXmlFirstChild notifyTo xmlNsAddressing wsaReferenceProperties with
  | none => wsXmlFirstChild notifyTo xmlNsAddressing wsaReferenceParameters
  | some _ => notifyTo

def ackRequested (mode : DeliveryMode) : Bool := mode == .events || mode == .pushWithAck

structure NotificationTemplates where
  templateDoc : WsXmlNode
  heartbeatDoc : WsXmlNode

def addToHeader (nodes : List WsXmlNode) : WsXmlNode → WsXmlNode :=
  changeSoapHeader (WsXmlNode.mapContent (· ++ nodes))

def addToBody (nodes : List WsXmlNode) : WsXmlNode → WsXmlNode :=
  changeSoapBody (WsXmlNode.mapContent (· ++ nodes))

def heartbeatAction (lx : Libxml) : WsXmlNode :=
  .element (some xmlNsAddressing) wsaAction
    [⟨some xmlNsXmlSchema, soapMustUnderstand, "true"⟩] (lx.content (some wsmanActionHeartbeat))

def ackElements (lx : Libxml) (mode : DeliveryMode) : List WsXmlNode :=
  if ackRequested mode then [lx.child xmlNsWsMan wsmAckRequested none] else []

def templateHeader (lx : Libxml) (indoc : WsXmlNode) (info : WsSubscribeInfo) : List WsXmlNode :=
  lx.child xmlNsAddressing wsaTo info.eprNotifyto :: ackElements lx info.deliveryMode ++
    match copiedNode (notifyToOf indoc) with
    | none => []
    | some node => lx.duplicateChildren node.content

def createNotificationTemplate (lx : Libxml) (indoc : WsXmlNode) (info : WsSubscribeInfo) :
    NotificationTemplates :=
  let notificationDoc := wsXmlCreateEnvelope (templateHeader lx indoc info) []
  { templateDoc := lx.duplicateDoc notificationDoc
    heartbeatDoc := addToHeader [heartbeatAction lx] (lx.duplicateDoc notificationDoc) }

/-! ## Messages -/

structure NotificationInfo where
  headerOpaqueData : Option WsXmlNode := none
  eventAction : Option String := none
  eventContent : Option WsXmlNode := none

inductive Sent where
  | notification (first : NotificationInfo) (rest : List NotificationInfo)
  | heartbeat

def NotificationInfo.contentCopies (lx : Libxml) (n : NotificationInfo) : List WsXmlNode :=
  match n.eventContent with
  | none => []
  | some root => lx.duplicateChildren root.content

def notificationHeader (lx : Libxml) (mode : DeliveryMode) (uuid : String) (n : NotificationInfo) :
    List WsXmlNode :=
  n.headerOpaqueData.toList.map lx.duplicateTree ++
    if mode = .events then
      [lx.child xmlNsAddressing wsaAction (some wseventDeliveryModeEvents),
        lx.child xmlNsAddressing wsaMessageId (some uuid)]
    else
      [lx.child xmlNsAddressing wsaMessageId (some uuid),
        lx.child xmlNsWsMan wsmAction (some (n.eventAction.getD wsmanActionEvent))]

def notificationBody (lx : Libxml) (mode : DeliveryMode) (n : NotificationInfo)
    (rest : List NotificationInfo) : List WsXmlNode :=
  if mode = .events then
    [.elem xmlNsWsMan wsmEvents ((n :: rest).map fun e ↦
      .element (some xmlNsWsMan) wsmEvent
        [⟨some xmlNsWsMan, wsmAction, e.eventAction.getD wsmanActionEvent⟩] (e.contentCopies lx))]
  else n.contentCopies lx

/-- The document of a message: a notification as `wse_notification_manager` builds it, a heartbeat
as `wse_event_sender` does. -/
def sentDoc (lx : Libxml) (mode : DeliveryMode) (templates : NotificationTemplates)
    (uuid : String) : Sent → WsXmlNode
  | .notification n rest =>
    addToBody (notificationBody lx mode n rest)
      (addToHeader (notificationHeader lx mode uuid n) (lx.duplicateDoc templates.templateDoc))
  | .heartbeat =>
    addToHeader [lx.child xmlNsAddressing wsaMessageId (some uuid)]
      (lx.duplicateDoc templates.heartbeatDoc)

/-! ## What the header should have -/

def sinkAddress (notifyTo : WsXmlNode) : String :=
  ((wsXmlFirstChild (some notifyTo) xmlNsAddressing wsaAddress).map WsXmlNode.chars).getD ""

def referenceChildren (notifyTo : WsXmlNode) : List WsXmlNode :=
  (notifyTo.childrenNamed (some xmlNsAddressing) (some wsaReferenceProperties) ++
    notifyTo.childrenNamed (some xmlNsAddressing) (some wsaReferenceParameters)).flatMap elements

def ownElements (lx : Libxml) (mode : DeliveryMode) (uuid : String) : Sent → List WsXmlNode
  | .notification n _ => ackElements lx mode ++ notificationHeader lx mode uuid n
  | .heartbeat =>
    ackElements lx mode ++
      [heartbeatAction lx, lx.child xmlNsAddressing wsaMessageId (some uuid)]

def HeaderCopies (lx : Libxml) (mode : DeliveryMode) (notifyTo : WsXmlNode) (uuid : String)
    (sent : Sent) (doc : WsXmlNode) : Prop :=
  ∃ header, wsXmlGetSoapHeader doc = some header ∧
    (header.content.map joined).Perm
      ((.elem xmlNsAddressing wsaTo [.text (sinkAddress notifyTo)] :: referenceChildren notifyTo ++
        ownElements lx mode uuid sent).map joined)

structure SingleReferences (notifyTo : WsXmlNode) : Prop where
  properties : notifyTo.childrenNamed (some xmlNsAddressing) (some wsaReferenceProperties) = []
  parameters : ∀ p ∈
    (notifyTo.childrenNamed (some xmlNsAddressing) (some wsaReferenceParameters)).tail,
    p.elements = []

/-! ## The header that is sent -/

section Header

variable (lx : Libxml)

theorem duplicateDoc_createEnvelope {header : List WsXmlNode} (h : header.any isElement = true)
    (body : List WsXmlNode) :
    ∃ body', lx.duplicateDoc (wsXmlCreateEnvelope header body) =
      wsXmlCreateEnvelope (lx.duplicateChildren header) body' := by
  obtain ⟨body', hbody⟩ : ∃ body', lx.duplicateTree (.element (some xmlNsSoap12) soapBody [] body) =
      .element (some xmlNsSoap12) soapBody [] body' := by
    rw [Libxml.duplicateTree]
    exact ⟨_, rfl⟩
  refine ⟨body', ?_⟩
  rw [wsXmlCreateEnvelope, elem, Libxml.duplicateDoc, lx.duplicateChildren_eq_map]
  change element _ _ _ [lx.duplicateTree (.element _ _ _ header),
    lx.duplicateTree (.element _ _ _ body)] = _
  rw [lx.duplicateTree_of_elements _ _ _ h, hbody]
  rfl

theorem addToHeader_createEnvelope (nodes header body : List WsXmlNode) :
    addToHeader nodes (wsXmlCreateEnvelope header body) =
      wsXmlCreateEnvelope (header ++ nodes) body := rfl

theorem addToBody_createEnvelope (nodes header body : List WsXmlNode) :
    addToBody nodes (wsXmlCreateEnvelope header body) =
      wsXmlCreateEnvelope header (body ++ nodes) := rfl

def addedElements (mode : DeliveryMode) (uuid : String) : Sent → List WsXmlNode
  | .notification n _ => notificationHeader lx mode uuid n
  | .heartbeat =>
    [lx.duplicateTree (heartbeatAction lx), lx.child xmlNsAddressing wsaMessageId (some uuid)]

theorem isElement_templateHeader {indoc : WsXmlNode} {info : WsSubscribeInfo} {c : WsXmlNode}
    (h : c ∈ templateHeader lx indoc info) : c.isElement = true := by
  rw [templateHeader, List.cons_append, List.mem_cons, List.mem_append] at h
  rcases h with rfl | hack | hcopy
  · rfl
  · rw [ackElements] at hack
    split at hack
    · obtain rfl := List.mem_singleton.mp hack
      rfl
    · cases hack
  · split at hcopy
    · cases hcopy
    rw [lx.duplicateChildren_eq_map, List.mem_map] at hcopy
    obtain ⟨d, hd, rfl⟩ := hcopy
    rw [lx.isElement_duplicateTree]
    exact (List.mem_filter.mp hd).2

theorem sentDoc_eq (indoc : WsXmlNode) (info : WsSubscribeInfo) (uuid : String) (sent : Sent) :
    ∃ body, sentDoc lx info.deliveryMode (createNotificationTemplate lx indoc info) uuid sent =
      wsXmlCreateEnvelope
        ((templateHeader lx indoc info).map (fun c ↦ lx.duplicateTree (lx.duplicateTree c)) ++
          addedElements lx info.deliveryMode uuid sent) body := by
  -- a list of elements is copied element by element
  have hmap : ∀ l : List WsXmlNode, (∀ c ∈ l, c.isElement = true) →
      lx.duplicateChildren l = l.map lx.duplicateTree := by
    intro l hl
    rw [lx.duplicateChildren_eq_map, List.filter_eq_self.mpr hl]
  have hfirst : (templateHeader lx indoc info).any isElement = true :=
    List.any_eq_true.mpr ⟨_, List.mem_cons_self, rfl⟩
  obtain ⟨body₁, hdoc⟩ := duplicateDoc_createEnvelope lx hfirst []
  have hheader : ∀ c ∈ (templateHeader lx indoc info).map lx.duplicateTree, c.isElement = true := by
    intro c hc
    obtain ⟨d, hd, rfl⟩ := List.mem_map.mp hc
    rw [lx.isElement_duplicateTree]
    exact isElement_templateHeader lx hd
  rw [hmap _ fun c ↦ isElement_templateHeader lx] at hdoc
  cases sent with
  | notification n rest =>
    have hany : ((templateHeader lx indoc info).map lx.duplicateTree).any isElement = true :=
      List.any_eq_true.mpr ⟨_, List.mem_cons_self, lx.isElement_duplicateTree _⟩
    obtain ⟨body₂, hcopy⟩ := duplicateDoc_createEnvelope lx hany body₁
    rw [hmap _ hheader] at hcopy
    refine ⟨body₂ ++ notificationBody lx info.deliveryMode n rest, ?_⟩
    rw [sentDoc, createNotificationTemplate, hdoc, hcopy, addToHeader_createEnvelope,
      addToBody_createEnvelope, List.map_map]
    rfl
  | heartbeat =>
    have hheader' : ∀ c ∈ (templateHeader lx indoc info).map lx.duplicateTree ++
        [heartbeatAction lx], c.isElement = true := by
      intro c hc
      rcases List.mem_append.mp hc with hc | hc
      · exact hheader c hc
      · obtain rfl := List.mem_singleton.mp hc
        rfl
    have hany : ((templateHeader lx indoc info).map lx.duplicateTree ++
        [heartbeatAction lx]).any isElement = true :=
      List.any_eq_true.mpr ⟨_, List.mem_cons_self, lx.isElement_duplicateTree _⟩
    obtain ⟨body₂, hcopy⟩ := duplicateDoc_createEnvelope lx hany body₁
    rw [hmap _ hheader', List.map_append, List.map_map] at hcopy
    refine ⟨body₂, ?_⟩
    rw [sentDoc, createNotificationTemplate]
    dsimp only
    rw [hdoc, addToHeader_createEnvelope, hcopy, addToHeader_createEnvelope, List.append_assoc]
    rfl

theorem joined_addedElements (mode : DeliveryMode) (uuid : String) (sent : Sent) :
    ((ackElements lx mode ++ addedElements lx mode uuid sent).map joined) =
      (ownElements lx mode uuid sent).map joined := by
  cases sent with
  | notification n rest => rfl
  | heartbeat =>
    have hamp : '&' ∉ wsmanActionHeartbeat.toList := by
      rw [wsmanActionHeartbeat, String.toList_ofList]
      decide
    have hplain : (heartbeatAction lx).plain = true := by
      have hchars : charsAll [text (lx.kept wsmanActionHeartbeat)] = wsmanActionHeartbeat := by
        rw [lx.kept_of_not_mem hamp, charsAll, chars, charsAll, String.append_empty]
      rw [heartbeatAction, plain, Libxml.content, hchars]
      simpa [isElement] using hamp
    rw [addedElements, ownElements, List.map_append, List.map_append, List.map_cons, List.map_cons,
      (lx.joined_duplicateTree _ rfl hplain).1]
    rfl

def copiedElements (notifyTo : WsXmlNode) : List WsXmlNode :=
  match copiedNode (some notifyTo) with
  | none => []
  | some node => node.elements

theorem joined_duplicateTree_twice {c : WsXmlNode} (hc : c.isElement = true)
    (hplain : c.plain = true) : (lx.duplicateTree (lx.duplicateTree c)).joined = c.joined := by
  obtain ⟨hjoined, hcopy⟩ := lx.joined_duplicateTree c hc hplain
  rw [← hjoined]
  exact (lx.joined_duplicateTree _ ((lx.isElement_duplicateTree c).trans hc) hcopy).1

section Template

variable {indoc notifyTo : WsXmlNode} {info : WsSubscribeInfo}

theorem joined_templateHeader (hnotify : notifyToOf indoc = some notifyTo)
    (hto : info.eprNotifyto = some (sinkAddress notifyTo))
    (haddress : '&' ∉ (sinkAddress notifyTo).toList) :
    ((templateHeader lx indoc info).map fun c ↦ lx.duplicateTree (lx.duplicateTree c)).map joined =
      (elem xmlNsAddressing wsaTo [.text (sinkAddress notifyTo)]).joined ::
        (ackElements lx info.deliveryMode).map joined ++
        (copiedElements notifyTo).map
          fun c ↦ (lx.duplicateTree (lx.duplicateTree (lx.duplicateTree c))).joined := by
  have haddr : lx.child xmlNsAddressing wsaTo info.eprNotifyto =
      .elem xmlNsAddressing wsaTo [.text (sinkAddress notifyTo)] := by
    rw [hto, Libxml.child, Libxml.content, lx.kept_of_not_mem haddress]
  have hplain : (elem xmlNsAddressing wsaTo [.text (sinkAddress notifyTo)]).plain = true := by
    rw [elem, plain, charsAll, chars, charsAll, String.append_empty]
    simpa [isElement] using haddress
  have hack : (ackElements lx info.deliveryMode).map
      (fun c ↦ (lx.duplicateTree (lx.duplicateTree c)).joined) =
        (ackElements lx info.deliveryMode).map joined := by
    apply List.map_congr_left
    intro c hc
    rw [ackElements] at hc
    split at hc
    · obtain rfl := List.mem_singleton.mp hc
      exact joined_duplicateTree_twice lx rfl rfl
    · cases hc
  have hcopied : (match copiedNode (notifyToOf indoc) with
      | none => []
      | some node => lx.duplicateChildren node.content) =
        (copiedElements notifyTo).map lx.duplicateTree := by
    rw [hnotify, copiedElements]
    split
    · rfl
    · rw [lx.duplicateChildren_eq_map]
      rfl
  have hfirst := joined_duplicateTree_twice lx rfl hplain
  rw [templateHeader, hcopied, haddr, List.map_map, List.map_append, List.map_cons, List.map_map]
  change (lx.duplicateTree (lx.duplicateTree _)).joined :: List.map _ _ ++ _ = _
  rw [hfirst]
  exact congrArg (fun l ↦ _ :: l ++ _) hack

theorem headerCopies_iff_perm (hnotify : notifyToOf indoc = some notifyTo)
    (hto : info.eprNotifyto = some (sinkAddress notifyTo))
    (haddress : '&' ∉ (sinkAddress notifyTo).toList) (uuid : String) (sent : Sent) :
    HeaderCopies lx info.deliveryMode notifyTo uuid sent
        (sentDoc lx info.deliveryMode (createNotificationTemplate lx indoc info) uuid sent) ↔
      ((copiedElements notifyTo).map fun c ↦
          (lx.duplicateTree (lx.duplicateTree (lx.duplicateTree c))).joined).Perm
        ((referenceChildren notifyTo).map joined) := by
  obtain ⟨body, hdoc⟩ := sentDoc_eq lx indoc info uuid sent
  have hheader := joined_templateHeader lx hnotify hto haddress
  have hown := joined_addedElements lx info.deliveryMode uuid sent
  rw [List.map_append] at hown
  rw [hdoc, HeaderCopies]
  rw [List.map_append, List.map_cons, ← hown]
  generalize (copiedElements notifyTo).map _ = copies at hheader ⊢
  generalize (referenceChildren notifyTo).map joined = references
  generalize (ackElements lx info.deliveryMode).map joined = ack at hheader ⊢
  generalize (elem xmlNsAddressing wsaTo [.text (sinkAddress notifyTo)]).joined = addr at hheader ⊢
  -- the rest of the header is the same on both sides
  generalize hadded : (addedElements lx info.deliveryMode uuid sent).map joined = added
  have hshift : (addr :: ack ++ copies ++ added).Perm (copies ++ (addr :: ack ++ added)) := by
    rw [← List.append_assoc]
    exact List.perm_append_comm.append_right added
  have hright : (addr :: references ++ (ack ++ added)).Perm
      (references ++ (addr :: ack ++ added)) :=
    List.perm_middle.symm
  constructor
  · rintro ⟨header, hsome, hperm⟩
    cases hsome
    rw [content_elem, List.map_append, hheader, hadded] at hperm
    exact (List.perm_append_right_iff _).mp (hshift.symm.trans (hperm.trans hright))
  · intro hperm
    refine ⟨_, rfl, ?_⟩
    rw [content_elem, List.map_append, hheader, hadded]
    exact hshift.trans ((hperm.append_right _).trans hright.symm)

end Template

end Header

/-! ## Which references are copied -/

theorem elementCountAll_flatMap_elements {l : List WsXmlNode} (hl : ∀ c ∈ l, c.isElement = true)
    {p q : WsXmlNode → Bool} (hpq : ∀ c, p c = true → q c = false) :
    elementCountAll ((l.filter p).flatMap elements) +
        elementCountAll ((l.filter q).flatMap elements) + (l.filter p).length ≤
      elementCountAll l := by
  induction l with
  | nil => simp [elementCountAll]
  | cons c l ih =>
    have ih := ih fun d hd ↦ hl d (List.mem_cons_of_mem c hd)
    have hc := elementCountAll_elements (hl c List.mem_cons_self)
    rw [elementCountAll]
    cases hp : p c with
    | true =>
      rw [List.filter_cons_of_pos hp, List.filter_cons_of_neg (by rw [hpq c hp]; exact
        false_ne_true), List.flatMap_cons, elementCountAll_append, List.length_cons]
      omega
    | false =>
      rw [List.filter_cons_of_neg (by rw [hp]; exact false_ne_true)]
      cases hq : q c with
      | true =>
        rw [List.filter_cons_of_pos hq, List.flatMap_cons, elementCountAll_append]
        omega
      | false =>
        rw [List.filter_cons_of_neg (by rw [hq]; exact false_ne_true)]
        omega

theorem isElement_of_mem_elements {n c : WsXmlNode} (h : c ∈ n.elements) : c.isElement = true :=
  (List.mem_filter.mp h).2

section References

variable {notifyTo : WsXmlNode}

theorem referenceChildren_lt
    (h : notifyTo.childrenNamed (some xmlNsAddressing) (some wsaReferenceProperties) ≠ []) :
    elementCountAll (referenceChildren notifyTo) < elementCountAll (copiedElements notifyTo) := by
  have hcopied : copiedElements notifyTo = notifyTo.elements := by
    rw [copiedElements, copiedNode, wsXmlFirstChild, wsXmlGetChild_some]
    cases hprops : notifyTo.childrenNamed (some xmlNsAddressing) (some wsaReferenceProperties) with
    | nil => exact absurd hprops h
    | cons first rest => rfl
  have hname : wsaReferenceProperties ≠ wsaReferenceParameters := by decide
  have hle := elementCountAll_flatMap_elements (l := notifyTo.elements)
    (p := fun c ↦ wsXmlIsNodeQname c (some xmlNsAddressing) (some wsaReferenceProperties))
    (q := fun c ↦ wsXmlIsNodeQname c (some xmlNsAddressing) (some wsaReferenceParameters))
    (fun c ↦ isElement_of_mem_elements) (by
      intro c hc
      rw [← not_eq_true]
      intro hc'
      rw [wsXmlIsNodeQname_iff] at hc hc'
      exact hname (hc.2.symm.trans hc'.2))
  have hpos := List.length_pos_iff.mpr h
  rw [hcopied, referenceChildren, List.flatMap_append, elementCountAll_append]
  exact lt_of_lt_of_le (Nat.lt_add_of_pos_right hpos) hle

theorem referenceChildren_eq
    (h : notifyTo.childrenNamed (some xmlNsAddressing) (some wsaReferenceProperties) = []) :
    referenceChildren notifyTo = copiedElements notifyTo ++
      (notifyTo.childrenNamed (some xmlNsAddressing)
        (some wsaReferenceParameters)).tail.flatMap elements := by
  rw [referenceChildren, h, List.nil_append, copiedElements, copiedNode, wsXmlFirstChild,
    wsXmlGetChild_some, h, wsXmlFirstChild, wsXmlGetChild_some]
  cases notifyTo.childrenNamed (some xmlNsAddressing) (some wsaReferenceParameters) <;> rfl

theorem singleReferences_of_count
    (h : elementCountAll (copiedElements notifyTo) = elementCountAll (referenceChildren notifyTo)) :
    SingleReferences notifyTo := by
  have hprops :
      notifyTo.childrenNamed (some xmlNsAddressing) (some wsaReferenceProperties) = [] := by
    by_contra hprops
    exact absurd h (referenceChildren_lt hprops).ne'
  refine ⟨hprops, ?_⟩
  rw [referenceChildren_eq hprops, elementCountAll_append] at h
  have hnil := eq_nil_of_elementCountAll_eq_zero
    (l := (notifyTo.childrenNamed (some xmlNsAddressing)
      (some wsaReferenceParameters)).tail.flatMap elements)
    (by
      intro c hc
      obtain ⟨p, -, hc⟩ := List.mem_flatMap.mp hc
      exact isElement_of_mem_elements hc) (by omega)
  exact List.flatMap_eq_nil_iff.mp hnil

end References

theorem eprNotifyto_of_createSubsInfo {δ : Type} {host : EventHost} {op : SoapOp δ} {id : String}
    {now : ℕ} {info : WsSubscribeInfo} {notifyTo : WsXmlNode}
    (h : createSubsInfo host op id now = .value (.ok info)) (hmode : info.deliveryMode ≠ .pull)
    (hnotify : notifyToOf op.inDoc = some notifyTo) :
    info.eprNotifyto = some (sinkAddress notifyTo) := by
  obtain ⟨subNode, parts, hparts, -, -, hinfo⟩ := createSubsInfo_ok h
  rw [hinfo] at hmode ⊢
  obtain ⟨-, -, ⟨hpull, -⟩ | ⟨-, address, haddress, hsink⟩⟩ :=
    deliveryParts_eq_ok.mp hparts.delivery
  · exact absurd hpull hmode
  have htext := (eventSink_eq_ok.mp hsink).1
  rw [notifyToOf, hparts.subscribe] at hnotify
  rw [notifyToAddress, hnotify] at htext
  rw [sinkAddress]
  cases haddr : wsXmlFirstChild (some notifyTo) xmlNsAddressing wsaAddress with
  | none => rw [haddr] at htext; cases htext
  | some node =>
    rw [haddr] at htext
    cases htext
    exact haddress

def referenceSubscribe (references : WsXmlNode) : WsXmlNode :=
  wsXmlCreateEnvelope (alarmHeader (xmlNsEventing ++ "/Subscribe") "uuid:first" [])
    [.elem xmlNsEventing wseventSubscribe
      [.elem xmlNsEventing wseventDelivery
          [.elem xmlNsEventing wseventNotifyTo
              [.elem xmlNsAddressing wsaAddress [.text "http://sink"], references]],
        .element (some xmlNsWsMan) wsmFilter [⟨none, wsmDialect, wsmWqlFilterDialect⟩]
          [.text "select * from Alarm"]]]

def sinkId : WsXmlNode := .elem "urn:sink" "Id" [.text "7"]

def sinkNotifyTo (name : String) : WsXmlNode :=
  .elem xmlNsEventing wseventNotifyTo
    [.elem xmlNsAddressing wsaAddress [.text "http://sink"], .elem xmlNsAddressing name [sinkId]]

def sinkRequest (name : String) : SoapOp EventResponse where
  inDoc := referenceSubscribe (.elem xmlNsAddressing name [sinkId])
  msg := {}

end Openwsman
