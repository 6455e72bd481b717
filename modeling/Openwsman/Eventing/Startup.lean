import Openwsman.Eventing.Stored

/-!
# Starting the server

`wsman_event_init` of `wsman-server-api.c` reads the files of the repository and gives each request
in them to the dispatcher again, unless `wsman_clean_subsrepository` finds that the subscription has
expired. A request that leads to a new subscription gets the id in the name of its file.

A file whose name is shorter than that of a generated id is not looked at, a date that cannot be
read back is refused, and two requests with the same message id are duplicates of each other. A
subscription with an expiry time of zero or before 1970 comes back although it has expired.

The files come in any order, and no time passes while the server starts. A request that is not
routed to the stub of Subscribe does not touch the subscriptions.
-/

namespace Openwsman

open CResult List KeyedTable Search

structure EventServer (ρ : Type) where
  host : EventHost
  mem : ρ → WsDispatchEndPointInfo
  dispatcher : Option (WsManDispatcherInfo ρ)

structure Loading where
  ids : List String
  state : EventState

def uriOfSubscription (s : EventState) (uuid : String) : Option String :=
  match s.subs.find? fun info ↦ info.subsId == String.ofList (uuid.toList.drop 5) with
  | some info => some info.uri
  | none =>
    (s.repo.lookup (String.ofList (uuid.toList.drop 5))).bind fun file ↦
      wsmanGetResourceUri file.doc

/-! ## The functions -/

def wsmanCleanSubsrepository (zone : TimeZone) (now : ℕ) (repo : SubsRepository) (file : SubsFile) :
    SubsRepository × Bool :=
  match wsXmlGetSoapBody file.doc with
  | none => (repo, false)
  | some _ =>
    match expiresOf file.doc with
    | none => (localSubscriptionOpDelete repo file.id, true)
    | some node =>
      match wsmanSetExpiretime (xmlDatetime zone) node.chars now with
      | .error _ => (repo, false)
      | .ok expire =>
        if timeExpired expire now then (localSubscriptionOpDelete repo file.id, true)
        else (repo, false)

/-- A name that `LocalSubscriptionOpLoad` takes for that of a subscription: it is at least 41 bytes
long. That it contains `uuid` goes without saying. -/
def isSubscriptionFile (file : SubsFile) : Bool := 41 ≤ 5 + file.id.utf8ByteSize

def renameLast (id : String) : List WsSubscribeInfo → List WsSubscribeInfo
  | [] => []
  | [info] => [{ info with subsId := id }]
  | info :: subs => info :: renameLast id subs

section

variable {ρ : Type} [DecidableEq ρ] (srv : EventServer ρ) (endPoint : EventEndPoint)
  (newId uuid : SubsFile → String) (now : ℕ)

def stubFor (file : SubsFile) (disp : SoapDispatch ρ) : EventStub :=
  if disp.serviceCallback = .wseSubscribeStub then
    wseSubscribeStub srv.host endPoint (newId file) now
  else fun s _ ↦ .value (s, none)

def dispatchFile (st : Loading) (file : SubsFile) : Handled (CResult EventState) EventResponse :=
  match wsmanBuildInboundEnvelope (some file.doc),
      getDispatchEntry srv.mem (uriOfSubscription st.state) srv.dispatcher file.doc with
  | none, some disp =>
    eventRequest srv.host (stubFor srv endPoint newId now file disp) (uuid file) st.ids st.state
      file.doc {}
  | _, _ => ⟨st.ids, .value st.state, false, none⟩

def wsmanReposNotificationDispatcher (st : Loading) (file : SubsFile) : CResult Loading :=
  (dispatchFile srv endPoint newId uuid now st file).service.bind fun s ↦
    if st.state.subs.length < s.subs.length then
      (copyId file.id).bind fun id ↦
        .value ⟨(dispatchFile srv endPoint newId uuid now st file).ids,
          { s with subs := renameLast id s.subs }⟩
    else .value ⟨(dispatchFile srv endPoint newId uuid now st file).ids, s⟩

def loadFile (st : Loading) (file : SubsFile) : CResult Loading :=
  if isSubscriptionFile file then
    match wsmanCleanSubsrepository srv.host.zone now st.state.repo file with
    | (repo, true) => .value { st with state := { st.state with repo := repo } }
    | (_, false) => wsmanReposNotificationDispatcher srv endPoint newId uuid now st file
  else .value st

def loadFiles : Loading → List SubsFile → CResult Loading
  | st, [] => .value st
  | st, file :: files =>
    (loadFile srv endPoint newId uuid now st file).bind fun st ↦ loadFiles st files

def wsmanEventInit (repo : SubsRepository) (files : List SubsFile) : CResult Loading :=
  loadFiles srv endPoint newId uuid now ⟨[], ⟨[], repo⟩⟩ files

end

/-! ## The message ids -/

theorem ids_processFiltersInbound {δ : Type} (ids : List String) (op : SoapOp δ) :
    (processFiltersInbound ids op).1 = (wsmanIsDuplicateMessageId ids op).1 := by
  rw [processFiltersInbound]
  obtain ⟨ids', op', duplicate⟩ := wsmanIsDuplicateMessageId ids op
  cases duplicate with
  | true => rfl
  | false =>
    dsimp only
    rw [if_neg Bool.false_ne_true]
    split
    · rfl
    split
    · rfl
    split <;> rfl

def idsAfter (ids : List String) (doc : WsXmlNode) : List String :=
  (wsmanIsDuplicateMessageId ids (createOpEntry doc {} : SoapOp EventResponse)).1

theorem ids_eventRequest (host : EventHost) (stub : EventStub) (uuid : String) (ids : List String)
    (s : EventState) (doc : WsXmlNode) :
    (eventRequest host stub uuid ids s doc {}).ids = idsAfter ids doc := by
  rw [idsAfter, ← ids_processFiltersInbound, eventRequest, processInboundOperation]
  dsimp only
  split <;> next h => rw [h]

/-! ## What comes back of a file -/

/-- What is asked to be the same after a restart: the id, the resource URI, the delivery mode and
the address of the event sink. -/
def WsSubscribeInfo.summary (info : WsSubscribeInfo) :
    String × String × DeliveryMode × Option String :=
  (info.subsId, info.uri, info.deliveryMode, info.eprNotifyto)

def fileTime (zone : TimeZone) (now : ℕ) (file : SubsFile) : Option ℕ :=
  match expiresOf file.doc with
  | none => none
  | some node => (wsmanSetExpiretime (xmlDatetime zone) node.chars now).toOption

def dispatchedAtStart (zone : TimeZone) (now : ℕ) (file : SubsFile) : Bool :=
  isSubscriptionFile file && (expiresOf file.doc).isSome &&
    (fileTime zone now file).all fun t ↦ !timeExpired t now

def rememberFile (zone : TimeZone) (now : ℕ) (ids : List String) (file : SubsFile) : List String :=
  if dispatchedAtStart zone now file then idsAfter ids file.doc else ids

/-- A file leads to a subscription: its name is long enough, it has an Expires that can be read and
has not passed or is zero, and its message id has not been seen. -/
def reloads (zone : TimeZone) (now : ℕ) (ids : List String) (file : SubsFile) : Bool :=
  isSubscriptionFile file && (fileTime zone now file).any (fun t ↦ !timeExpired t now) &&
    messageIdFresh ids file.doc

section

variable {ρ : Type} [DecidableEq ρ]

def StoredBySubscribe (srv : EventServer ρ) (file : SubsFile) (info : WsSubscribeInfo) : Prop :=
  ∃ (endPoint : EventEndPoint) (newId uuid : String) (ids : List String) (s s' : EventState)
    (doc : WsXmlNode) (msg : WsmanMessage) (now : ℕ) (uris : String → Option String)
    (disp : SoapDispatch ρ),
    wsmanIsEventRelatedRequest doc = false ∧ wsmanBuildInboundEnvelope (some doc) = none ∧
      getDispatchEntry srv.mem uris srv.dispatcher doc = some disp ∧
      disp.serviceCallback = .wseSubscribeStub ∧
      Succeeds (subscribeRequest srv.host endPoint newId uuid ids s doc msg now) s' ∧
      s'.subs = s.subs ++ [info] ∧ s'.repo.lookup info.subsId = some file

structure Restorable (srv : EventServer ρ) (file : SubsFile) (info : WsSubscribeInfo) : Prop where
  id : file.id = info.subsId
  size : file.id.utf8ByteSize < euidlen
  valid : wsmanBuildInboundEnvelope (some file.doc) = none
  routed : ∀ uris, ∃ disp, getDispatchEntry srv.mem uris srv.dispatcher file.doc = some disp ∧
    disp.serviceCallback = .wseSubscribeStub
  admitted : ∀ ids, Admitted ids file.doc ↔ messageIdFresh ids file.doc = true
  dated : ∀ node, expiresOf file.doc = some node →
    ∃ c, node.chars.toList.head? = some c ∧ isDigit c = true
  body : (wsXmlGetSoapBody file.doc).isSome = true
  created : ∀ (op : SoapOp EventResponse) (newId : String) (now t : ℕ), op.inDoc = file.doc →
    op.msg = {} →
      (∀ code, subscribeExpires srv.host.zone now (expiresOf file.doc) = .error code →
        createSubsInfo srv.host op newId now = .value (.error ⟨code, .wsmanDetailOk⟩)) ∧
      (subscribeExpires srv.host.zone now (expiresOf file.doc) = .ok t →
        createSubsInfo srv.host op newId now =
          .value (.ok { info with expires := t, authData := {} }))

theorem subscriptionOf_restored (id uri soapNs : String) (e t : ℕ) (parts : DeliveryParts)
    (auth : WsmanAuth) :
    ({ subscriptionOf id uri soapNs e parts auth with expires := t, authData := {} } :
      WsSubscribeInfo) = subscriptionOf id uri soapNs t parts {} := by
  simp only [subscriptionOf]

theorem StoredBySubscribe.restorable {srv : EventServer ρ} {file : SubsFile}
    {info : WsSubscribeInfo} (h : StoredBySubscribe srv file info) : Restorable srv file info := by
  obtain ⟨endPoint, newId, uuid, ids, s, s', doc, msg, now, uris, disp, hevent, hvalid, hentry,
    hstub, hsucc, hsubs, hfile⟩ := h
  obtain ⟨hadm, op, hdoc, hmsg, info', text, hcreate, hwritten, rfl⟩ := hsucc.subscribe
  cases append_cancel_left hsubs
  obtain ⟨subNode, parts, hparts, -, hid, hinfo⟩ := createSubsInfo_ok hcreate
  rw [hdoc] at hparts hid
  obtain ⟨hidEq, hsize⟩ := newSubsId_eq_value hid
  rw [EventState.lookup_subscribed, if_pos rfl] at hfile
  cases hfile
  have hsame := docSameBut_storedRequest text info.subsId doc
  obtain ⟨-, header, hheader⟩ := wsmanIsValidEnvelope_eq_none hvalid
  refine ⟨rfl, hsize, ?_, ?_, ?_, ?_, ?_, ?_⟩
  · rw [wsmanBuildInboundEnvelope_of_sameBut hsame, hvalid]
  · intro uris'
    exact ⟨disp, (getDispatchEntry_of_sameBut hsame hevent uris uris').trans hentry, hstub⟩
  · intro ids'
    rw [messageIdFresh_of_sameBut hsame]
    exact admitted_of_sameBut hsame hadm (all_subscribeSupported_storedRequest text _ doc)
  · intro node hnode
    rw [expiresOf_storedRequest, Option.map_eq_some_iff] at hnode
    obtain ⟨node', hnode', rfl⟩ := hnode
    rw [chars_wsXmlSetNodeText (isElement_of_wsXmlFirstChild hnode')]
    exact head?_wsmanExpiretime2xmldatetime hwritten
  · have hsome := hparts.stored text info.subsId
    cases hbody : wsXmlGetSoapBody (storedRequest text info.subsId doc) with
    | none =>
      have hsub := hsome.subscribe
      rw [subscribeOf, hbody] at hsub
      cases hsub
    | some body => rfl
  · intro op' newId' now' t hdoc' hmsg'
    dsimp only at hdoc' ⊢
    have hstored := hparts.stored text info.subsId
    rw [← hdoc'] at hstored
    have hnewId : newSubsId (storedRequest text info.subsId doc) newId' = .value info.subsId := by
      rw [newSubsId, formerUid_storedRequest text info.subsId doc hheader, Option.getD_some]
      have hkept : (formerUid doc).getD info.subsId = info.subsId := by
        cases hformer : formerUid doc with
        | none => rfl
        | some former =>
          rw [hformer, Option.getD_some] at hidEq
          rw [Option.getD_some, hidEq]
      rw [hkept, copyId, if_pos hsize]
    rw [createSubsInfo_of_parts hstored, hdoc', hmsg', hnewId]
    constructor
    · intro code hcode
      rw [hcode]
    intro ht
    have hrestored := subscriptionOf_restored info.subsId info.uri info.soapNs info.expires t
      parts info.authData
    rw [← hinfo] at hrestored
    rw [ht, hrestored]
    rfl

/-! ## One file -/

def WsSubscribeInfo.restored (info : WsSubscribeInfo) (t : ℕ) : WsSubscribeInfo :=
  { info with expires := t, authData := {} }

theorem summary_restored (info : WsSubscribeInfo) (t : ℕ) :
    (info.restored t).summary = info.summary := rfl

theorem renameLast_append (id : String) (subs : List WsSubscribeInfo) (info : WsSubscribeInfo) :
    renameLast id (subs ++ [info]) = subs ++ [{ info with subsId := id }] := by
  induction subs with
  | nil => rfl
  | cons first subs ih =>
    cases subs with
    | nil => rfl
    | cons second subs => exact congrArg (first :: ·) ih

def Rewritable (zone : TimeZone) (now : ℕ) (file : SubsFile) : Prop :=
  ∀ t, fileTime zone now file = some t → wsmanExpiretime2xmldatetime zone t ≠ .undefined

section

variable {srv : EventServer ρ} {endPoint : EventEndPoint} {newId uuid : SubsFile → String} {now : ℕ}
  {file : SubsFile} {info : WsSubscribeInfo} {st : Loading}

variable (hr : Restorable srv file info)

include hr

theorem dispatchFile_of_restorable :
    dispatchFile srv endPoint newId uuid now st file =
      subscribeRequest srv.host endPoint (newId file) (uuid file) st.ids st.state file.doc {}
        now := by
  obtain ⟨disp, hdisp, hstub⟩ := hr.routed (uriOfSubscription st.state)
  rw [dispatchFile, hr.valid, hdisp]
  dsimp only
  rw [stubFor, if_pos hstub, subscribeRequest]

theorem wsmanReposNotificationDispatcher_of_unchanged
    (h : (subscribeRequest srv.host endPoint (newId file) (uuid file) st.ids st.state file.doc {}
      now).service = .value st.state) :
    wsmanReposNotificationDispatcher srv endPoint newId uuid now st file =
      .value ⟨idsAfter st.ids file.doc, st.state⟩ := by
  rw [wsmanReposNotificationDispatcher, dispatchFile_of_restorable hr, h, value_bind,
    if_neg (lt_irrefl _), subscribeRequest, ids_eventRequest]

theorem wsmanReposNotificationDispatcher_of_error
    (h : subscribeExpires srv.host.zone now (expiresOf file.doc) =
      .error .wsenUnsupportedExpirationType) :
    wsmanReposNotificationDispatcher srv endPoint newId uuid now st file =
      .value ⟨idsAfter st.ids file.doc, st.state⟩ := by
  apply wsmanReposNotificationDispatcher_of_unchanged hr
  rw [subscribeRequest]
  rcases eventRequest_cases srv.host (wseSubscribeStub srv.host endPoint (newId file) now)
      (uuid file) st.ids st.state file.doc {} with
    ⟨-, op, hdoc, hmsg, ⟨hstub, -⟩ | ⟨s', out, hstub, hservice, -⟩⟩ | ⟨-, hservice, -⟩
  · rw [wseSubscribeStub, (hr.created op _ now 0 hdoc hmsg).1 _ h] at hstub
    cases hstub
  · rw [wseSubscribeStub, (hr.created op _ now 0 hdoc hmsg).1 _ h] at hstub
    cases hstub
    exact hservice
  · exact hservice

theorem wsmanReposNotificationDispatcher_of_ok (haccept : ∀ info, endPoint info = none) {t : ℕ}
    (h : subscribeExpires srv.host.zone now (expiresOf file.doc) = .ok t) :
    wsmanReposNotificationDispatcher srv endPoint newId uuid now st file =
      if messageIdFresh st.ids file.doc then
        (wsmanExpiretime2xmldatetime srv.host.zone t).bind fun text ↦
          .value ⟨idsAfter st.ids file.doc, st.state.subscribed (info.restored t) file.doc text⟩
      else .value ⟨idsAfter st.ids file.doc, st.state⟩ := by
  rcases eventRequest_cases srv.host (wseSubscribeStub srv.host endPoint (newId file) now)
      (uuid file) st.ids st.state file.doc {} with
    ⟨hadm, op, hdoc, hmsg, hstub⟩ | ⟨hadm, hservice, -⟩
  · rw [if_pos ((hr.admitted st.ids).mp hadm), wsmanReposNotificationDispatcher,
      dispatchFile_of_restorable hr, subscribeRequest, ids_eventRequest]
    rw [wseSubscribeStub, (hr.created op _ now t hdoc hmsg).2 h, value_bind] at hstub
    dsimp only at hstub
    rw [haccept] at hstub
    dsimp only at hstub
    cases hwrite : wsmanExpiretime2xmldatetime srv.host.zone t with
    | undefined =>
      rw [hwrite] at hstub
      rcases hstub with ⟨-, hservice⟩ | ⟨s', out, hcontra, -⟩
      · rw [hservice]
        rfl
      · cases hcontra
    | value text =>
      rw [hwrite] at hstub
      rcases hstub with ⟨hcontra, -⟩ | ⟨s', out, hout, hservice, -⟩
      · cases hcontra
      cases hout
      rw [hservice, value_bind, value_bind,
        if_pos (by simp [EventState.subscribed]), copyId, if_pos hr.size, value_bind,
        EventState.subscribed, renameLast_append, hr.id]
      rw [hdoc]
      rfl
  · rw [if_neg (fun hfresh ↦ hadm ((hr.admitted st.ids).mpr hfresh))]
    exact wsmanReposNotificationDispatcher_of_unchanged hr hservice

omit hr

theorem removed_wsmanCleanSubsrepository (zone : TimeZone) (now : ℕ) (repo : SubsRepository)
    (hbody : (wsXmlGetSoapBody file.doc).isSome = true) :
    ((expiresOf file.doc).isSome && (fileTime zone now file).all fun t ↦ !timeExpired t now) =
      !(wsmanCleanSubsrepository zone now repo file).2 := by
  obtain ⟨body, hbody⟩ := Option.isSome_iff_exists.mp hbody
  rw [wsmanCleanSubsrepository, hbody, fileTime]
  cases expiresOf file.doc with
  | none => rfl
  | some node =>
    dsimp only
    cases wsmanSetExpiretime (xmlDatetime zone) node.chars now with
    | error code => rfl
    | ok t =>
      dsimp only [Except.toOption]
      rw [Option.all_some]
      cases timeExpired t now <;> rfl

variable (endPoint newId uuid now st) in
theorem loadFile_eq (hr : Restorable srv file info) :
    (dispatchedAtStart srv.host.zone now file = true ∧
        loadFile srv endPoint newId uuid now st file =
          wsmanReposNotificationDispatcher srv endPoint newId uuid now st file) ∨
      (dispatchedAtStart srv.host.zone now file = false ∧
        ∃ repo, loadFile srv endPoint newId uuid now st file =
          .value ⟨st.ids, ⟨st.state.subs, repo⟩⟩) := by
  rw [loadFile, dispatchedAtStart]
  cases isSubscriptionFile file with
  | false => exact .inr ⟨rfl, st.state.repo, rfl⟩
  | true =>
    rw [if_pos rfl, Bool.true_and]
    have hremoved := removed_wsmanCleanSubsrepository srv.host.zone now st.state.repo hr.body
    rw [hremoved]
    obtain ⟨repo, removed⟩ := wsmanCleanSubsrepository srv.host.zone now st.state.repo file
    cases removed with
    | true => exact .inr ⟨rfl, repo, rfl⟩
    | false => exact .inl ⟨rfl, rfl⟩

theorem subscribeExpires_of_fileTime_eq_none (hr : Restorable srv file info)
    (hexpires : (expiresOf file.doc).isSome = true)
    (htime : fileTime srv.host.zone now file = none) :
    subscribeExpires srv.host.zone now (expiresOf file.doc) =
      .error .wsenUnsupportedExpirationType := by
  obtain ⟨node, hnode⟩ := Option.isSome_iff_exists.mp hexpires
  obtain ⟨c, hc, hdigit⟩ := hr.dated node hnode
  have hnot : ¬(node.chars.toList.head? == some 'P') = true := by
    rw [hc]
    rintro h
    obtain rfl : c = 'P' := by simpa using h
    cases hdigit
  rw [fileTime, hnode] at htime
  rw [hnode, subscribeExpires]
  dsimp only at htime ⊢
  rw [wsmanSetExpiretime, if_neg hnot] at htime ⊢
  split
  · next code h =>
    split at h
    · cases h
      rfl
    · cases h
  · next t h =>
    rw [h] at htime
    cases htime

theorem subscribeExpires_of_fileTime {zone : TimeZone} {t : ℕ}
    (htime : fileTime zone now file = some t) (hexpired : timeExpired t now = false) :
    subscribeExpires zone now (expiresOf file.doc) = .ok t := by
  rw [fileTime] at htime
  cases hnode : expiresOf file.doc with
  | none => rw [hnode] at htime; cases htime
  | some node =>
    rw [hnode] at htime
    rw [subscribeExpires]
    dsimp only at htime ⊢
    split
    · next code h =>
      rw [h] at htime
      cases htime
    · next t' h =>
      rw [h] at htime
      cases htime
      rw [hexpired, if_neg Bool.false_ne_true]

variable (newId uuid now st) in
/-- **One file.** It leaves the subscriptions alone, or it adds the one that was stored, if the time
can be written. -/
theorem loadFile_of_restorable (hr : Restorable srv file info)
    (haccept : ∀ info, endPoint info = none) :
    (reloads srv.host.zone now st.ids file = false ∧
        ∃ repo, loadFile srv endPoint newId uuid now st file =
          .value ⟨rememberFile srv.host.zone now st.ids file, ⟨st.state.subs, repo⟩⟩) ∨
      (reloads srv.host.zone now st.ids file = true ∧
        ∃ t, fileTime srv.host.zone now file = some t ∧
        loadFile srv endPoint newId uuid now st file =
          (wsmanExpiretime2xmldatetime srv.host.zone t).bind fun text ↦
            .value ⟨rememberFile srv.host.zone now st.ids file,
              st.state.subscribed (info.restored t) file.doc text⟩) := by
  rw [rememberFile, reloads]
  rcases loadFile_eq endPoint newId uuid now st hr with ⟨hdisp, hload⟩ | ⟨hdisp, repo, hload⟩
  · rw [hload, hdisp, if_pos rfl]
    rw [dispatchedAtStart, Bool.and_eq_true, Bool.and_eq_true] at hdisp
    obtain ⟨⟨hname, hexpires⟩, htime⟩ := hdisp
    rw [hname, Bool.true_and]
    cases hread : fileTime srv.host.zone now file with
    | none =>
      refine .inl ⟨rfl, st.state.repo, ?_⟩
      exact wsmanReposNotificationDispatcher_of_error hr
        (subscribeExpires_of_fileTime_eq_none hr hexpires hread)
    | some t =>
      rw [hread, Option.all_some, Bool.not_eq_true'] at htime
      rw [Option.any_some, htime, Bool.not_false, Bool.true_and,
        wsmanReposNotificationDispatcher_of_ok hr haccept
          (subscribeExpires_of_fileTime hread htime)]
      cases messageIdFresh st.ids file.doc with
      | false => exact .inl ⟨rfl, st.state.repo, rfl⟩
      | true => exact .inr ⟨rfl, t, rfl, rfl⟩
  · refine .inl ⟨?_, repo, by rw [hload, hdisp, if_neg Bool.false_ne_true]⟩
    rw [dispatchedAtStart] at hdisp
    cases hname : isSubscriptionFile file with
    | false => rfl
    | true =>
      rw [hname, Bool.true_and] at hdisp
      cases hread : fileTime srv.host.zone now file with
      | none => rfl
      | some t =>
        have hexpires : (expiresOf file.doc).isSome = true := by
          rw [fileTime] at hread
          split at hread
          · cases hread
          · next hnode => rw [hnode]; rfl
        rw [hread, hexpires, Bool.true_and, Option.all_some] at hdisp
        rw [Option.any_some, hdisp]
        rfl

/-! ## All files -/

def rememberedAfter (zone : TimeZone) (now : ℕ) (ids : List String)
    (records : List (SubsFile × WsSubscribeInfo)) : List String :=
  records.foldl (fun ids r ↦ rememberFile zone now ids r.1) ids

def reloaded (zone : TimeZone) (now : ℕ) (ids : List String)
    (records : List (SubsFile × WsSubscribeInfo)) : List (SubsFile × WsSubscribeInfo) :=
  select (fun ids r ↦ rememberFile zone now ids r.1) (fun ids r ↦ reloads zone now ids r.1) ids
    records

/-- **All files.** The server starts if every time that leads to a subscription can be written, and
then these subscriptions are added. -/
theorem loadFiles_iff (haccept : ∀ info, endPoint info = none)
    {records : List (SubsFile × WsSubscribeInfo)} (hrecords : ∀ r ∈ records, Restorable srv r.1 r.2)
    (summaries : List (String × String × DeliveryMode × Option String)) :
    (∃ st', loadFiles srv endPoint newId uuid now st (records.map Prod.fst) = .value st' ∧
        (st'.state.subs.map WsSubscribeInfo.summary).Perm summaries) ↔
      (∀ pre r, Reached (fun _ ↦ True) records pre r →
          reloads srv.host.zone now (rememberedAfter srv.host.zone now st.ids pre) r.1 = true →
          Rewritable srv.host.zone now r.1) ∧
        (st.state.subs.map WsSubscribeInfo.summary ++
          (reloaded srv.host.zone now st.ids records).map fun r ↦ r.2.summary).Perm summaries := by
  induction records generalizing st with
  | nil =>
    rw [map_nil, loadFiles, reloaded, select, map_nil, append_nil]
    constructor
    · rintro ⟨st', heq, hperm⟩
      cases heq
      exact ⟨fun pre r h ↦ absurd h not_reached_nil, hperm⟩
    · rintro ⟨-, hperm⟩
      exact ⟨st, rfl, hperm⟩
  | cons r records ih =>
    obtain ⟨hr, hrecords⟩ := forall_mem_cons.mp hrecords
    rw [map_cons, loadFiles, forall_reached_cons, reloaded, select]
    simp only [rememberedAfter, foldl_nil, foldl_cons, true_imp_iff]
    rcases loadFile_of_restorable newId uuid now st hr haccept with
      ⟨hnot, repo, hload⟩ | ⟨hreloads, t, htime, hload⟩
    · rw [hload, value_bind, ih hrecords, hnot, if_neg Bool.false_ne_true]
      simp only [Bool.false_eq_true, false_imp_iff, true_and]
      rfl
    · rw [hload, hreloads, if_pos rfl]
      cases hwrite : wsmanExpiretime2xmldatetime srv.host.zone t with
      | undefined =>
        refine iff_of_false ?_ fun h ↦ h.1.1 rfl t htime hwrite
        rintro ⟨st', heq, -⟩
        cases heq
      | value text =>
        have hwritable : Rewritable srv.host.zone now r.1 := by
          intro t' ht' hundef
          cases htime.symm.trans ht'
          cases hwrite.symm.trans hundef
        rw [value_bind, value_bind, ih hrecords]
        simp only [hwritable, true_imp_iff, true_and, EventState.subscribed, map_append,
          map_cons, map_nil, append_assoc, singleton_append, summary_restored]
        rfl

end

def expiresLater (now : ℕ) (r : SubsFile × WsSubscribeInfo) : Bool :=
  (expiresOf r.1.doc).isSome && decide ((now : ℤ) < toTimeT r.2.expires)

/-- Starting the server makes the subscriptions whose Expires lies in the future, and no others. -/
def Rebuilds (srv : EventServer ρ) (endPoint : EventEndPoint) (newId uuid : SubsFile → String)
    (now : ℕ) (repo : SubsRepository) (records : List (SubsFile × WsSubscribeInfo)) : Prop :=
  ∃ st, wsmanEventInit srv endPoint newId uuid now repo (records.map Prod.fst) = .value st ∧
    (st.state.subs.map WsSubscribeInfo.summary).Perm
      ((records.filter (expiresLater now)).map fun r ↦ r.2.summary)

/-- Each file is judged by whether its Expires lies in the future. One that does has a name that is
long enough, a date that can be read back and written again, and a message id that no file before it
has; one that does not lacks something of this. -/
def JudgedByExpires (zone : TimeZone) (now : ℕ) (records : List (SubsFile × WsSubscribeInfo)) :
    Prop :=
  ∀ pre r, Reached (fun _ ↦ True) records pre r →
    reloads zone now (rememberedAfter zone now [] pre) r.1 = expiresLater now r ∧
      (expiresLater now r = true → Rewritable zone now r.1)

/-- **Restart.** If all files were written by Subscribe requests that succeeded and the plugin
accepts, the subscriptions with an Expires in the future come back, and no others, exactly if each
file is judged by whether its Expires lies in the future. -/
theorem rebuilds_iff (srv : EventServer ρ) (endPoint : EventEndPoint)
    (newId uuid : SubsFile → String) (now : ℕ) (repo : SubsRepository)
    (records : List (SubsFile × WsSubscribeInfo)) (haccept : ∀ info, endPoint info = none)
    (hfiles : (records.map Prod.fst).Perm repo.entries)
    (hstored : ∀ r ∈ records, StoredBySubscribe srv r.1 r.2) :
    Rebuilds srv endPoint newId uuid now repo records ↔
      JudgedByExpires srv.host.zone now records := by
  have hrecords : ∀ r ∈ records, Restorable srv r.1 r.2 := fun r hr ↦ (hstored r hr).restorable
  -- the names of the files are different, so the subscriptions are
  have hkeys : (records.map fun r ↦ r.2.summary).Nodup := by
    have hids : (records.map fun r ↦ r.1.id).Nodup := by
      have hperm := hfiles.map SubsFile.id
      rw [map_map] at hperm
      exact hperm.nodup_iff.mpr repo.nodup
    have hsame : (records.map fun r ↦ r.2.summary).map Prod.fst = records.map fun r ↦ r.1.id := by
      rw [map_map]
      exact map_congr_left fun r hr ↦ (hrecords r hr).id.symm
    exact Nodup.of_map Prod.fst (hsame ▸ hids)
  rw [Rebuilds, wsmanEventInit, loadFiles_iff haccept hrecords, map_nil, nil_append,
    reloaded, perm_select_filter_iff hkeys, JudgedByExpires]
  constructor
  · rintro ⟨hwritable, hjudged⟩ pre r hreached
    refine ⟨hjudged pre r hreached, fun hlater ↦ hwritable pre r hreached ?_⟩
    exact (hjudged pre r hreached).trans hlater
  · intro h
    refine ⟨fun pre r hreached hreloads ↦ ?_, fun pre r hreached ↦ (h pre r hreached).1⟩
    exact (h pre r hreached).2 ((h pre r hreached).1.symm.trans hreloads)

end

def alarmServer : EventServer Unit where
  host := alarmHost
  mem _ := ⟨wsDispTypeSubscribe, none⟩
  dispatcher := some
    ⟨[{ wsmanResourceUri := some "urn:alarms", endPoints := [()] }],
      [((), ⟨.wseSubscribeStub, ()⟩)]⟩

def alarmSubscribe2030 : WsXmlNode :=
  alarmSubscribe "uuid:first" [] [expiresAt "2030-03-17T17:46:40+00:00"]

def alarmRecord (id : String) : SubsFile × WsSubscribeInfo :=
  (⟨id, storedRequest "2030-03-17T17:46:40+00:00" id alarmSubscribe2030⟩,
    { alarmInfo with subsId := id, expires := 1900000000 })

def firstAlarmId : String := "5c1f0a3e-0000-4000-8000-000000000001"

def secondAlarmId : String := "5c1f0a3e-0000-4000-8000-000000000002"

theorem storedBySubscribe_alarmRecord :
    ∀ id ∈ [firstAlarmId, secondAlarmId],
      StoredBySubscribe alarmServer (alarmRecord id).1 (alarmRecord id).2 := by
  intro id hid
  refine ⟨acceptAll, id, "uuid:answer", [], ⟨[], .empty⟩,
    EventState.subscribed ⟨[], .empty⟩ (alarmRecord id).2 alarmSubscribe2030
      "2030-03-17T17:46:40+00:00",
    alarmSubscribe2030, {}, 1700000000, fun _ ↦ none, ⟨.wseSubscribeStub, ()⟩, by decide, by decide,
    by decide, rfl, ?_, rfl, ?_⟩
  · rcases mem_pair.mp hid with rfl | rfl <;> exact ⟨rfl, by decide⟩
  · rw [EventState.lookup_subscribed, if_pos rfl]
    rfl

def alarmRepository : SubsRepository := .put .empty (alarmRecord firstAlarmId).1

theorem rebuilds_iff_alarm :
    Rebuilds alarmServer acceptAll (fun _ ↦ "new") (fun _ ↦ "uuid:answer") 1700000000
      alarmRepository [alarmRecord firstAlarmId] := by
  refine (rebuilds_iff alarmServer acceptAll _ _ _ _ _ (fun _ ↦ rfl) (Perm.refl _) ?_).mpr ?_
  · intro r hr
    obtain rfl := mem_singleton.mp hr
    exact storedBySubscribe_alarmRecord firstAlarmId (by simp)
  · refine forall_reached_cons.mpr
      ⟨⟨by decide, fun _ t ht hundef ↦ ?_⟩, fun _ pre r h ↦ absurd h not_reached_nil⟩
    obtain rfl : 1900000000 = t := Option.some.inj ht
    revert hundef
    decide

def alarmRepository2 : SubsRepository := .put alarmRepository (alarmRecord secondAlarmId).1

/-- Two subscriptions were made with the same message id, in two runs of the server. Both expire in
2030, but the second is refused when the server starts in 2023. -/
theorem second_alarm_not_reloaded :
    ([alarmRecord firstAlarmId, alarmRecord secondAlarmId].map Prod.fst).Perm
        alarmRepository2.entries ∧
      (∀ r ∈ [alarmRecord firstAlarmId, alarmRecord secondAlarmId],
        StoredBySubscribe alarmServer r.1 r.2 ∧ expiresLater 1700000000 r = true) ∧
      ¬Rebuilds alarmServer acceptAll (fun _ ↦ "new") (fun _ ↦ "uuid:answer") 1700000000
        alarmRepository2 [alarmRecord firstAlarmId, alarmRecord secondAlarmId] := by
  refine ⟨Perm.swap _ _ _, ?_, ?_⟩
  · intro r hr
    rcases mem_pair.mp hr with rfl | rfl
    · exact ⟨storedBySubscribe_alarmRecord firstAlarmId (by simp), by decide⟩
    · exact ⟨storedBySubscribe_alarmRecord secondAlarmId (by simp), by decide⟩
  · rintro ⟨st, hst, hperm⟩
    have hinit : wsmanEventInit alarmServer acceptAll (fun _ ↦ "new") (fun _ ↦ "uuid:answer")
        1700000000 alarmRepository2
        ([alarmRecord firstAlarmId, alarmRecord secondAlarmId].map Prod.fst) =
          .value ⟨["uuid:first"], EventState.subscribed ⟨[], alarmRepository2⟩
            (alarmRecord firstAlarmId).2 (alarmRecord firstAlarmId).1.doc
            "2030-03-17T17:46:40+00:00"⟩ := rfl
    obtain rfl := value.inj (hinit.symm.trans hst)
    exact absurd hperm.length_eq (by decide)

end Openwsman
