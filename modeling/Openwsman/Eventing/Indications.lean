import Openwsman.Eventing.Notification
import Openwsman.Eventing.Senders

/-!
# Indications

A CIM server reports indications to `wsman-cimindication-processor.c` in messages of CIM-XML, which
name the subscription they are for. Each export request in a message becomes an event in the pool:
its action and its element are made of the class of the instance in the request, and the properties
of the instance become the children of the element, arrays behind the others.

Requests and properties are looked up by their number among the children with a name. A message with
several requests is read with as many numbers as there are children of any name, so that the last
numbers may find nothing. This does no harm.
-/

namespace Openwsman

open List WsXmlNode KeyedTable

def cimxmlCim : String := "CIM"
def cimxmlCimversion : String := "CIMVERSION"
def cimxmlDtdversion : String := "DTDVERSION"
def cimxmlMessage : String := "MESSAGE"
def cimxmlSimpleexpreq : String := "SIMPLEEXPREQ"
def cimxmlSimpleexprsp : String := "SIMPLEEXPRSP"
def cimxmlMultiexpreq : String := "MULTIEXPREQ"
def cimxmlMultiexprsq : String := "MULTIEXPRSQ"
def cimxmlExpmethodcall : String := "EXPMETHODCALL"
def cimxmlExpmethodresponse : String := "EXPMETHODRESPONSE"
def cimxmlExpparamvalue : String := "EXPPARAMVALUE"
def cimxmlIreturnvalue : String := "IRETURNVALUE"
def cimxmlInstance : String := "INSTANCE"
def cimxmlProperty : String := "PROPERTY"
def cimxmlName : String := "NAME"
def cimxmlValue : String := "VALUE"
def cimxmlClassname : String := "CLASSNAME"
def cimxmlPropertyarray : String := "PROPERTY.ARRAY"
def cimxmlValuearray : String := "VALUE.ARRAY"

inductive CimxmlKnownStatusCode where
  | ok
  | unsupportedProtocolVersioin
  | multipleRequestsUnsupported
  | unsupportedCimVersion
  | unsupportedDtdVersion
  | requestNotValid
  | requestNotWellFormed
  | requestNotLooselyValid
  | headerMismatch
  | unsupportedOperation
  deriving DecidableEq

structure IndicationHost where
  lx : Libxml
  /-- The vendor namespaces of a subscription: prefixes of class names with their namespaces, in the
  order in which the table is scanned. -/
  vendorNamespaces : WsSubscribeInfo → List (String × String)
  nullText : String

/-! ## Events -/

def cimxmlChild (parent : Option WsXmlNode) (index : ℕ) (name : String) : Option WsXmlNode :=
  wsXmlGetChild parent index none (some name)

def cimxmlAttr (node : WsXmlNode) (name : String) : Option String :=
  wsXmlFindAttrValue (some node) none name

def getCimIndicationNamespace (host : IndicationHost) (subsInfo : WsSubscribeInfo)
    (classname : String) : Option String :=
  if strstr subsInfo.uri xmlNsCimClass then some subsInfo.uri
  else ((host.vendorNamespaces subsInfo).find? fun entry ↦ strstr classname entry.1).map Prod.snd

def indicationAction (host : IndicationHost) (subsInfo : WsSubscribeInfo) (classname : String) :
    String :=
  (getCimIndicationNamespace host subsInfo classname).getD host.nullText ++ "/" ++ classname

/-- A loop over the children with a name by their numbers, which ends when there is none with a
number. A child that has been looked at is not looked at again, so there is an end. -/
def childLoop {α : Type} (parent : WsXmlNode) (name : String) (body : WsXmlNode → List α) :
    ℕ → ℕ → List α
  | 0, _ => []
  | fuel + 1, n =>
    match cimxmlChild (some parent) n name with
    | none => []
    | some node => body node ++ childLoop parent name body fuel (n + 1)

def eachChild {α : Type} (parent : WsXmlNode) (name : String) (body : WsXmlNode → List α) :
    List α :=
  childLoop parent name body (wsXmlGetChildCount (some parent) + 1) 0

def indicationProperty (host : IndicationHost) (action : String) (property : Option String)
    (value : String) : List WsXmlNode :=
  match property with
  | none => []
  | some name => [host.lx.child action name (some value)]

def indicationArray (host : IndicationHost) (action : String) (node : WsXmlNode) : List WsXmlNode :=
  match cimxmlAttr node cimxmlName with
  | none => []
  | some property =>
    match cimxmlChild (some node) 0 cimxmlValuearray with
    | none => []
    | some valarraynode =>
      eachChild valarraynode cimxmlValue fun valnode ↦
        [host.lx.child action property (some valnode.chars)]

def createNotificationEntity (host : IndicationHost) (subsInfo : WsSubscribeInfo)
    (node : Option WsXmlNode) : Option NotificationInfo :=
  match cimxmlChild (cimxmlChild (cimxmlChild node 0 cimxmlExpmethodcall) 0 cimxmlExpparamvalue) 0
      cimxmlInstance with
  | none => none
  | some inst =>
    match cimxmlAttr inst cimxmlClassname with
    | none => some {}
    | some classname =>
      let action := indicationAction host subsInfo classname
      some
        { eventAction := some action
          eventContent := some (.elem action classname
            ((eachChild inst cimxmlProperty fun node ↦
              indicationProperty host action (cimxmlAttr node cimxmlName) node.chars) ++
              eachChild inst cimxmlPropertyarray fun node ↦ indicationArray host action node)) }

def addIndication (subsInfo : WsSubscribeInfo) (pool : EventPool NotificationInfo)
    (notificationinfo : Option NotificationInfo) : EventPool NotificationInfo :=
  match notificationinfo with
  | none => pool
  | some n =>
    if subsInfo.deliveryMode = .pull then
      (memEventPoolAddPullEvent pool subsInfo.subsId n).getD pool
    else memEventPoolAddEvent pool subsInfo.subsId n

def cimxmlMessageOf (indoc : WsXmlNode) : Option WsXmlNode :=
  cimxmlChild (some indoc) 0 cimxmlMessage

def createIndicationEvent (host : IndicationHost) (indoc : WsXmlNode) (subsInfo : WsSubscribeInfo)
    (pool : EventPool NotificationInfo) : EventPool NotificationInfo :=
  match cimxmlChild (cimxmlMessageOf indoc) 0 cimxmlMultiexpreq with
  | some tmp =>
    (List.range (wsXmlGetChildCount (some tmp))).foldl
      (fun pool i ↦ addIndication subsInfo pool
        (createNotificationEntity host subsInfo (cimxmlChild (some tmp) i cimxmlSimpleexpreq)))
      pool
  | none =>
    addIndication subsInfo pool
      (createNotificationEntity host subsInfo
        (cimxmlChild (cimxmlMessageOf indoc) 0 cimxmlSimpleexpreq))

/-! ## The call -/

def isvalidCimIndicationExport (doc : WsXmlNode) : Bool :=
  (cimxmlChild (cimxmlMessageOf doc) 0 cimxmlSimpleexpreq).isSome ||
    (cimxmlChild (cimxmlMessageOf doc) 0 cimxmlMultiexpreq).isSome

def cimxmlElem (name : String) (attrs : List WsXmlAttr) (content : List WsXmlNode) : WsXmlNode :=
  .element none name attrs content

def exportResponse : WsXmlNode :=
  cimxmlElem cimxmlExpmethodresponse [⟨none, cimxmlName, "ExportIndication"⟩]
    [cimxmlElem cimxmlIreturnvalue [] []]

def cimxmlBuildResponseMsg (indoc : WsXmlNode) : WsXmlNode :=
  let message := cimxmlMessageOf indoc
  let attrs := ((message.map WsXmlNode.attrs).getD []).map fun attr ↦ { attr with nsUri := none }
  let answer :=
    if (cimxmlChild message 0 cimxmlSimpleexpreq).isSome then
      cimxmlElem cimxmlSimpleexprsp [] [exportResponse]
    else
      cimxmlElem cimxmlMultiexprsq []
        (List.replicate (wsXmlGetChildCount (cimxmlChild message 0 cimxmlMultiexpreq))
          exportResponse)
  cimxmlElem cimxmlCim [⟨none, cimxmlCimversion, "2.0"⟩, ⟨none, cimxmlDtdversion, "2.0"⟩]
    [cimxmlElem cimxmlMessage attrs [answer]]

structure CimxmlAnswer where
  httpCode : ℕ := 0
  statusCode : CimxmlKnownStatusCode := .ok
  faultMsg : Option String := none
  response : Option WsXmlNode := none

def cimxmlReasonPhrase : CimxmlKnownStatusCode → Option String
  | .ok => none
  | .unsupportedProtocolVersioin => some "unsupported-protocol-version"
  | .multipleRequestsUnsupported => some "multiple-requests-unsupported"
  | .unsupportedCimVersion => some "unsupported-cim-version"
  | .unsupportedDtdVersion => some "unsupported-dtd-version"
  | .requestNotValid => some "request-not-valid"
  | .requestNotWellFormed => some "request-not-well-formed"
  | .requestNotLooselyValid => some "request-not-loosely-valid"
  | .headerMismatch => some "header-mismatch"
  | .unsupportedOperation => some "unsupported-operatioin"

def cimxmlRefusal (httpCode : ℕ) (status : CimxmlKnownStatusCode) : CimxmlAnswer where
  httpCode := httpCode
  statusCode := status
  faultMsg := cimxmlReasonPhrase status

def cimIndicationCall (host : IndicationHost) (subs : List WsSubscribeInfo) (uuid : String)
    (request : String) (pool : EventPool NotificationInfo) :
    CimxmlAnswer × EventPool NotificationInfo :=
  match host.lx.readMemory request with
  | none => (cimxmlRefusal wsmanStatusBadRequest .requestNotValid, pool)
  | some indicationRequest =>
    if !isvalidCimIndicationExport indicationRequest then
      (cimxmlRefusal wsmanStatusForbidden .unsupportedOperation, pool)
    else
      match subs.find? fun info ↦ info.subsId == uuid with
      | none => (cimxmlRefusal wsmanStatusNotFound .requestNotValid, pool)
      | some subsInfo =>
        ({ response := some (cimxmlBuildResponseMsg indicationRequest) },
          createIndicationEvent host indicationRequest subsInfo pool)

/-! ## What a message says -/

def cimxmlChildren (parent : WsXmlNode) (name : String) : List WsXmlNode :=
  parent.childrenNamed none (some name)

def exportRequests (indoc : WsXmlNode) : List WsXmlNode :=
  match cimxmlChild (cimxmlMessageOf indoc) 0 cimxmlMultiexpreq with
  | some multi => cimxmlChildren multi cimxmlSimpleexpreq
  | none => (cimxmlChild (cimxmlMessageOf indoc) 0 cimxmlSimpleexpreq).toList

def requestInstance (request : WsXmlNode) : Option WsXmlNode :=
  cimxmlChild
    (cimxmlChild (cimxmlChild (some request) 0 cimxmlExpmethodcall) 0 cimxmlExpparamvalue) 0
    cimxmlInstance

def namedProperties (inst : WsXmlNode) : List (String × String) :=
  (cimxmlChildren inst cimxmlProperty).filterMap fun p ↦
    (cimxmlAttr p cimxmlName).map fun name ↦ (name, p.chars)

def namedArrayValues (inst : WsXmlNode) : List (String × String) :=
  (cimxmlChildren inst cimxmlPropertyarray).flatMap fun array ↦
    match cimxmlAttr array cimxmlName, cimxmlChild (some array) 0 cimxmlValuearray with
    | some name, some values =>
      (cimxmlChildren values cimxmlValue).map fun value ↦ (name, value.chars)
    | _, _ => []

structure IndicationOf (host : IndicationHost) (subsInfo : WsSubscribeInfo) (inst : WsXmlNode)
    (e : NotificationInfo) (classname : String) : Prop where
  action : e.eventAction = some (indicationAction host subsInfo classname)
  content : ∃ root, e.eventContent = some root ∧ root.name = classname ∧
    root.nsUri = some (indicationAction host subsInfo classname) ∧
    root.content = (namedProperties inst ++ namedArrayValues inst).map fun (name, value) ↦
      host.lx.child (indicationAction host subsInfo classname) name (some value)

/-! ## The loops -/

section Loops

variable {α : Type} {parent : WsXmlNode} {name : String}

theorem cimxmlChild_eq_getElem? (parent : WsXmlNode) (n : ℕ) (name : String) :
    cimxmlChild (some parent) n name = (cimxmlChildren parent name)[n]? := rfl

theorem length_cimxmlChildren_le (parent : WsXmlNode) (name : String) :
    (cimxmlChildren parent name).length ≤ wsXmlGetChildCount (some parent) :=
  length_filter_le _ _

theorem childLoop_eq (body : WsXmlNode → List α) (fuel n : ℕ)
    (h : (cimxmlChildren parent name).length < n + fuel) :
    childLoop parent name body fuel n = ((cimxmlChildren parent name).drop n).flatMap body := by
  induction fuel generalizing n with
  | zero => rw [childLoop, List.drop_eq_nil_of_le (by omega), List.flatMap_nil]
  | succ fuel ih =>
    rw [childLoop, cimxmlChild_eq_getElem?]
    cases hnode : (cimxmlChildren parent name)[n]? with
    | none => rw [List.drop_eq_nil_of_le (List.getElem?_eq_none_iff.mp hnode), List.flatMap_nil]
    | some node =>
      obtain ⟨hn, rfl⟩ := List.getElem?_eq_some_iff.mp hnode
      rw [List.drop_eq_getElem_cons hn, List.flatMap_cons, ih (n + 1) (by omega)]

theorem eachChild_eq (parent : WsXmlNode) (name : String) (body : WsXmlNode → List α) :
    eachChild parent name body = (cimxmlChildren parent name).flatMap body := by
  have hle := length_cimxmlChildren_le parent name
  rw [eachChild, childLoop_eq body _ _ (by omega), drop_zero]

end Loops

section Entity

variable (host : IndicationHost) (subsInfo : WsSubscribeInfo)

theorem eachChild_property (action : String) (inst : WsXmlNode) :
    (eachChild inst cimxmlProperty fun node ↦
        indicationProperty host action (cimxmlAttr node cimxmlName) node.chars) =
      (namedProperties inst).map fun (name, value) ↦ host.lx.child action name (some value) := by
  rw [eachChild_eq, namedProperties]
  induction cimxmlChildren inst cimxmlProperty with
  | nil => rfl
  | cons p ps ih =>
    rw [flatMap_cons, ih, filterMap_cons]
    cases cimxmlAttr p cimxmlName <;> rfl

theorem eachChild_array (action : String) (inst : WsXmlNode) :
    (eachChild inst cimxmlPropertyarray fun node ↦ indicationArray host action node) =
      (namedArrayValues inst).map fun (name, value) ↦ host.lx.child action name (some value) := by
  rw [eachChild_eq, namedArrayValues]
  induction cimxmlChildren inst cimxmlPropertyarray with
  | nil => rfl
  | cons array arrays ih =>
    rw [flatMap_cons, ih, flatMap_cons, map_append]
    congr 1
    rw [indicationArray]
    cases cimxmlAttr array cimxmlName with
    | none => rfl
    | some name =>
      cases cimxmlChild (some array) 0 cimxmlValuearray with
      | none => rfl
      | some values =>
        dsimp only
        rw [eachChild_eq, ← map_eq_flatMap, map_map]
        rfl

theorem createNotificationEntity_eq_none {request : WsXmlNode}
    (h : requestInstance request = none) :
    createNotificationEntity host subsInfo (some request) = none := by
  rw [requestInstance] at h
  rw [createNotificationEntity, h]

theorem createNotificationEntity_eq_some {request inst : WsXmlNode} {classname : String}
    (h : requestInstance request = some inst)
    (hclass : cimxmlAttr inst cimxmlClassname = some classname) :
    ∃ e, createNotificationEntity host subsInfo (some request) = some e ∧
      IndicationOf host subsInfo inst e classname := by
  rw [requestInstance] at h
  rw [createNotificationEntity, h]
  dsimp only
  rw [hclass]
  dsimp only
  rw [eachChild_property, eachChild_array, ← map_append]
  exact ⟨_, rfl, rfl, _, rfl, rfl, rfl, rfl⟩

theorem createNotificationEntity_none : createNotificationEntity host subsInfo none = none := rfl

end Entity

/-! ## The events of a message -/

section Message

variable (host : IndicationHost) (subsInfo : WsSubscribeInfo)

def indicationEvents (indoc : WsXmlNode) : List NotificationInfo :=
  (exportRequests indoc).filterMap fun request ↦
    createNotificationEntity host subsInfo (some request)

theorem filterMap_range_getElem? {α β : Type} (l : List α) {g : Option α → Option β}
    (hg : g none = none) {count : ℕ} (hcount : l.length ≤ count) :
    (List.range count).filterMap (fun i ↦ g l[i]?) = l.filterMap fun a ↦ g (some a) := by
  induction l generalizing count with
  | nil => simp [hg]
  | cons a l ih =>
    obtain ⟨n, rfl⟩ : ∃ n, count = n + 1 := Nat.exists_eq_succ_of_ne_zero (by
      rintro rfl
      cases hcount)
    have ih := ih (Nat.le_of_succ_le_succ hcount)
    have htail : (range n).filterMap ((fun i ↦ g (a :: l)[i]?) ∘ Nat.succ) =
        l.filterMap fun a ↦ g (some a) := ih
    rw [range_succ_eq_map, filterMap_cons, filterMap_map, htail, filterMap_cons, getElem?_cons_zero]

theorem createIndicationEvent_eq_foldl (indoc : WsXmlNode) (pool : EventPool NotificationInfo) :
    createIndicationEvent host indoc subsInfo pool =
      (indicationEvents host subsInfo indoc).foldl
        (fun pool n ↦ addIndication subsInfo pool (some n)) pool := by
  have hskip : ∀ {ι : Type} (f : ι → Option NotificationInfo) (l : List ι)
      (pool : EventPool NotificationInfo),
      l.foldl (fun pool i ↦ addIndication subsInfo pool (f i)) pool =
        (l.filterMap f).foldl (fun pool n ↦ addIndication subsInfo pool (some n)) pool := by
    intro ι f l
    induction l with
    | nil => exact fun pool ↦ rfl
    | cons i l ih =>
      intro pool
      rw [foldl_cons, ih, filterMap_cons]
      cases f i <;> rfl
  rw [createIndicationEvent, indicationEvents, exportRequests]
  cases cimxmlChild (cimxmlMessageOf indoc) 0 cimxmlMultiexpreq with
  | none =>
    dsimp only
    cases cimxmlChild (cimxmlMessageOf indoc) 0 cimxmlSimpleexpreq with
    | none => rfl
    | some request =>
      rw [Option.toList_some, filterMap_cons, filterMap_nil]
      cases createNotificationEntity host subsInfo (some request) <;> rfl
  | some multi =>
    dsimp only
    rw [hskip]
    congr 1
    exact filterMap_range_getElem? (cimxmlChildren multi cimxmlSimpleexpreq)
      (createNotificationEntity_none host subsInfo) (length_cimxmlChildren_le _ _)

theorem poolQueue_foldl_addIndication (hpush : subsInfo.deliveryMode ≠ .pull)
    (events : List NotificationInfo) (pool : EventPool NotificationInfo) :
    poolQueue (events.foldl (fun pool n ↦ addIndication subsInfo pool (some n)) pool) =
      Function.update (poolQueue pool) (foldCase subsInfo.subsId)
        (queued pool subsInfo.subsId ++ events) := by
  induction events generalizing pool with
  | nil =>
    rw [foldl_nil, append_nil, queued_eq_poolQueue, Function.update_eq_self]
  | cons e events ih =>
    have hadd : addIndication subsInfo pool (some e) =
        memEventPoolAddEvent pool subsInfo.subsId e := if_neg hpush
    rw [foldl_cons, ih, hadd, queued_eq_poolQueue, poolQueue_memEventPoolAddEvent,
      Function.update_self, Function.update_idem, append_assoc, singleton_append]

theorem forall₂_indicationEvents {indoc : WsXmlNode}
    (hclass : ∀ request ∈ exportRequests indoc, ∀ inst, requestInstance request = some inst →
      (cimxmlAttr inst cimxmlClassname).isSome = true) :
    List.Forall₂
      (fun inst e ↦ ∃ classname, cimxmlAttr inst cimxmlClassname = some classname ∧
        IndicationOf host subsInfo inst e classname)
      ((exportRequests indoc).filterMap requestInstance)
      (indicationEvents host subsInfo indoc) := by
  rw [indicationEvents]
  generalize exportRequests indoc = requests at hclass
  induction requests with
  | nil => exact .nil
  | cons request requests ih =>
    have ih := ih fun r hr ↦ hclass r (mem_cons_of_mem request hr)
    cases hinst : requestInstance request with
    | none =>
      rw [filterMap_cons, hinst, filterMap_cons,
        createNotificationEntity_eq_none host subsInfo hinst]
      exact ih
    | some inst =>
      obtain ⟨classname, hname⟩ :=
        Option.isSome_iff_exists.mp (hclass request mem_cons_self inst hinst)
      obtain ⟨e, he, hevent⟩ := createNotificationEntity_eq_some host subsInfo hinst hname
      rw [filterMap_cons, hinst, filterMap_cons, he]
      exact .cons ⟨classname, hname, hevent⟩ ih

end Message

/-- **What a message of CIM-XML does.** A message that is an export, for a subscription in the list
that is not pulled, adds one event for each request with an instance to the queue of the
subscription, in the order of the message. Each event has one child for each named property and then
one for each value of a named array. No other queue changes. -/
theorem indications_queued (host : IndicationHost) {subs : List WsSubscribeInfo}
    {uuid request : String} {indoc : WsXmlNode} {subsInfo : WsSubscribeInfo}
    (hread : host.lx.readMemory request = some indoc)
    (hvalid : isvalidCimIndicationExport indoc = true)
    (hlisted : subs.find? (fun info ↦ info.subsId == uuid) = some subsInfo)
    (hpush : subsInfo.deliveryMode ≠ .pull)
    (hclass : ∀ request ∈ exportRequests indoc, ∀ inst, requestInstance request = some inst →
      (cimxmlAttr inst cimxmlClassname).isSome = true)
    (pool : EventPool NotificationInfo) :
    ∃ events : List NotificationInfo,
      List.Forall₂
        (fun inst e ↦ ∃ classname, cimxmlAttr inst cimxmlClassname = some classname ∧
          IndicationOf host subsInfo inst e classname)
        ((exportRequests indoc).filterMap requestInstance) events ∧
      poolQueue (cimIndicationCall host subs uuid request pool).2 =
        Function.update (poolQueue pool) (foldCase subsInfo.subsId)
          (queued pool subsInfo.subsId ++ events) := by
  refine ⟨indicationEvents host subsInfo indoc, forall₂_indicationEvents host subsInfo hclass, ?_⟩
  have hcall : (cimIndicationCall host subs uuid request pool).2 =
      createIndicationEvent host indoc subsInfo pool := by
    rw [cimIndicationCall, hread]
    dsimp only
    rw [hvalid, hlisted]
    rfl
  rw [hcall, createIndicationEvent_eq_foldl]
  exact poolQueue_foldl_addIndication subsInfo hpush _ pool

def alarmExportRequest : WsXmlNode :=
  cimxmlElem cimxmlSimpleexpreq []
    [cimxmlElem cimxmlExpmethodcall [] [cimxmlElem cimxmlExpparamvalue []
      [cimxmlElem cimxmlInstance [⟨none, cimxmlClassname, "ACME_Alarm"⟩]
        [cimxmlElem cimxmlPropertyarray [⟨none, cimxmlName, "Parts"⟩]
            [cimxmlElem cimxmlValuearray []
              [cimxmlElem cimxmlValue [] [.text "fan"], cimxmlElem cimxmlValue [] [.text "disk"]]],
          cimxmlElem cimxmlProperty [⟨none, cimxmlName, "Severity"⟩]
            [cimxmlElem cimxmlValue [] [.text "3"]]]]]]

def alarmExport : WsXmlNode :=
  cimxmlElem cimxmlCim [] [cimxmlElem cimxmlMessage [] [cimxmlElem cimxmlMultiexpreq []
    [cimxmlElem cimxmlSimpleexpreq [] [], cimxmlElem "COMMENT" [] [], alarmExportRequest]]]

def alarmIndications : IndicationHost where
  lx := { expand := id, readMemory := fun _ ↦ some alarmExport }
  vendorNamespaces _ := [("ACME", "http://acme")]
  nullText := "(null)"

theorem indications_queued_alarm :
    (exportRequests alarmExport).length = 2 ∧
      ∃ events : List NotificationInfo,
        List.Forall₂
          (fun inst e ↦ ∃ classname, cimxmlAttr inst cimxmlClassname = some classname ∧
            IndicationOf alarmIndications alarmInfo inst e classname)
          ((exportRequests alarmExport).filterMap requestInstance) events ∧
        poolQueue (cimIndicationCall alarmIndications [alarmInfo] "alarms" "" .empty).2 =
          Function.update (poolQueue .empty) (foldCase "alarms")
            (queued (.empty : EventPool NotificationInfo) "alarms" ++ events) := by
  refine ⟨by decide, indications_queued alarmIndications rfl (by decide) rfl (by decide) ?_ _⟩
  intro request hrequest inst hinst
  have hrequests :
      request = cimxmlElem cimxmlSimpleexpreq [] [] ∨ request = alarmExportRequest := by
    simpa using (show request ∈ [cimxmlElem cimxmlSimpleexpreq [] [], alarmExportRequest] from
      hrequest)
  rcases hrequests with rfl | rfl
  · cases hinst
  · cases hinst
    rfl

/-! ## Indications among the threads -/

theorem createIndicationEvent_eq_polled (host : IndicationHost) (indoc : WsXmlNode)
    (sub : Subscription) (w : EventWorld NotificationInfo) :
    createIndicationEvent host indoc sub.info w.pool =
      (w.polled sub (indicationEvents host sub.info indoc)).pool := by
  rw [createIndicationEvent_eq_foldl]
  generalize indicationEvents host sub.info indoc = events
  rw [EventWorld.polled]
  induction events generalizing w with
  | nil => rfl
  | cons e events ih =>
    have hadd : addIndication sub.info w.pool (some e) = (w.insertEvent sub e).pool := by
      rw [addIndication, EventWorld.insertEvent]
      split
      · cases memEventPoolAddPullEvent w.pool sub.info.subsId e <;> rfl
      · rfl
    rw [foldl_cons, foldl_cons, hadd, ih]

theorem reachable_polled {ε : Type} {host : EventHost} {sub : Subscription} (events : List ε)
    {w : EventWorld ε} (h : Transition.Reachable (eventSystem ε host) w)
    (listed : w.subs.lookup sub.ref = some sub) :
    Transition.Reachable (eventSystem ε host) (w.polled sub events) := by
  induction events generalizing w with
  | nil => exact h
  | cons e events ih =>
    obtain ⟨pool, inserted, hframe⟩ := EventWorld.polled_frame w sub [e]
    have hlisted : (w.insertEvent sub e).subs.lookup sub.ref = some sub := by
      have hsubs := congrArg EventWorld.subs hframe
      exact (congrArg (Table.lookup · sub.ref) hsubs).trans listed
    exact ih (h.step (.insert listed)) hlisted

theorem cimIndicationCall_cases (host : IndicationHost) (subs : List WsSubscribeInfo)
    (uuid request : String) (pool : EventPool NotificationInfo) :
    (cimIndicationCall host subs uuid request pool).2 = pool ∨
      ∃ indoc, ∃ info ∈ subs, (cimIndicationCall host subs uuid request pool).2 =
        createIndicationEvent host indoc info pool := by
  rw [cimIndicationCall]
  split
  · exact .inl rfl
  split
  · exact .inl rfl
  split
  · exact .inl rfl
  next info hinfo => exact .inr ⟨_, info, mem_of_find?_eq_some hinfo, rfl⟩

/-- **Indications are steps of the threads.** Whatever messages come in, the pool they leave is that
of a state that the threads can reach, with the same subscriptions and senders. -/
theorem reachable_cimIndicationCall {host : EventHost} {w : EventWorld NotificationInfo}
    (h : Transition.Reachable (eventSystem NotificationInfo host) w)
    (calls : List (IndicationHost × String × String)) :
    ∃ w', Transition.Reachable (eventSystem NotificationInfo host) w' ∧
      w'.pool = calls.foldl
        (fun pool c ↦ (cimIndicationCall c.1 w.eventState.subs c.2.1 c.2.2 pool).2) w.pool ∧
      w'.subs = w.subs ∧ w'.senders = w.senders := by
  induction calls generalizing w with
  | nil => exact ⟨w, h, rfl, rfl, rfl⟩
  | cons c calls ih =>
    rcases cimIndicationCall_cases c.1 w.eventState.subs c.2.1 c.2.2 w.pool with
      hpool | ⟨indoc, info, hinfo, hpool⟩
    · rw [foldl_cons, hpool]
      exact ih h
    · -- the events are put into the pool one after the other
      obtain ⟨sub, hsub, rfl⟩ := mem_map.mp hinfo
      obtain ⟨pool, inserted, hframe⟩ := w.polled_frame sub (indicationEvents c.1 sub.info indoc)
      have hnext := reachable_polled (indicationEvents c.1 sub.info indoc) h
        (Table.lookup_eq_some_iff.mpr ⟨hsub, rfl⟩)
      rw [createIndicationEvent_eq_polled, hframe] at hpool
      rw [hframe] at hnext
      rw [foldl_cons, hpool]
      exact ih hnext

theorem reachable_cimIndicationCall_alarm : ∃ w w' : EventWorld NotificationInfo,
    w.subsIds = ["alarms"] ∧ Transition.Reachable (eventSystem NotificationInfo alarmHost) w' ∧
      w'.pool = (cimIndicationCall alarmIndications w.eventState.subs "alarms" "" w.pool).2 := by
  have h : Transition.Reachable (eventSystem NotificationInfo alarmHost) _ :=
    .step (.init ⟨.empty, rfl⟩) (@EventStep.subscribe NotificationInfo alarmHost _ acceptAll
      "alarms" "uuid:answer" [] _ {} 1700000000 _ _ rfl (by decide) succeeds_endlessSubscribe.1)
  obtain ⟨w', hw', hpool, -⟩ := reachable_cimIndicationCall h [(alarmIndications, "alarms", "")]
  exact ⟨_, w', rfl, hw', hpool⟩

end Openwsman
