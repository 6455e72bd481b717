import Openwsman.Eventing.Expiry
import Openwsman.Eventing.Pool
import Openwsman.Lib.Transition

/-!
# The threads that work on the subscriptions

Besides the handlers of requests there are the notification manager (`wse_notification_manager`),
the heartbeat generator (`wsman_heartbeat_generator`) and the senders (`wse_event_sender`), one
thread for each notification or heartbeat on its way.

The manager and the heartbeat generator hold the lock of the list, `lockSubs`, for a whole pass; a
handler holds it only while it searches. Each subscription has a lock of its own,
`notificationlock`, and what is done under it happens at once here. So a step is a section under one
of the locks. A handler has three of them: it finds a subscription, it makes its change, and it
answers. It works on the subscription that it found even if that has left the list.

A subscription is known by a number that is used once. The events and what happened to them are
recorded in two histories, which nothing reads. Time is given to each section, and so is what the
rest of the world decides: which events the plugin has, whether a thread is created and whether a
notification is acknowledged. A section on a subscription that is no longer in memory has no effect.
-/

namespace Openwsman

open KeyedTable

/-! ## The state -/

structure Subscription where
  ref : ℕ
  info : WsSubscribeInfo

abbrev SubsMemList := Table Subscription.ref

structure WsEventThreadContext (ε : Type) where
  subsInfo : ℕ
  outdoc : Option (List ε)

/-- What `eventpoll` of a plugin does: it puts events into the pool, and it may say that they are
not to be sent yet. -/
structure EventPoll (ε : Type) where
  events : List ε := []
  pending : Bool := false

def WsSubscribeInfo.withPending (info : WsSubscribeInfo) (pending : Bool) : WsSubscribeInfo :=
  { info with flags := { info.flags with notificationPending := pending } }

inductive PassKind where
  | manager | heartbeat
  deriving DecidableEq, Repr

structure Pass where
  kind : PassKind
  ahead : List ℕ

/-- The requests about a subscription that are handled while other threads run. The id is that
behind `uuid:`. -/
inductive SubsRequest where
  | unsubscribe (id : String)
  | renew (id : String) (expires : ℕ)
  | pull (id : String) (maxElements : ℕ)

/-- The comparison by which a handler finds its subscription. The id in a Pull is compared with
regard to case. -/
def SubsRequest.names (request : SubsRequest) (sub : Subscription) : Bool :=
  match request with
  | .unsubscribe id | .renew id _ => hasSubsId id sub.info
  | .pull id _ => sub.info.subsId == id

structure Handler where
  subsInfo : ℕ
  request : SubsRequest
  changed : Bool := false

structure EventWorld (ε : Type) where
  subs : SubsMemList := .empty
  repo : SubsRepository
  pool : EventPool ε := .empty
  senders : List (WsEventThreadContext ε) := []
  pass : Option Pass := none
  handlers : List Handler := []
  next : ℕ := 0
  inserted : List (ℕ × ε) := []
  handed : List (ℕ × ε) := []

namespace EventWorld

variable {ε : Type}

def eventState (w : EventWorld ε) : EventState := ⟨w.subs.entries.map Subscription.info, w.repo⟩

def subsIds (w : EventWorld ε) : List String := w.subs.entries.map fun sub ↦ sub.info.subsId

def setInfo (w : EventWorld ε) (sub : Subscription) (info : WsSubscribeInfo) : EventWorld ε :=
  { w with subs := w.subs.replace { sub with info := info } }

def listed (w : EventWorld ε) (info : WsSubscribeInfo) : EventWorld ε :=
  { w with subs := w.subs.append ⟨w.next, info⟩, next := w.next + 1 }

def subscribed (w : EventWorld ε) (info : WsSubscribeInfo) (doc : WsXmlNode) (text : String) :
    EventWorld ε :=
  { w.listed info with
    repo := localSubscriptionOpSave w.repo info.subsId (storedRequest text info.subsId doc) }

def insertEvent (w : EventWorld ε) (sub : Subscription) (e : ε) : EventWorld ε :=
  let pool :=
    if sub.info.deliveryMode = .pull then memEventPoolAddPullEvent w.pool sub.info.subsId e
    else some (memEventPoolAddEvent w.pool sub.info.subsId e)
  match pool with
  | none => w
  | some pool => { w with pool := pool, inserted := w.inserted ++ [(sub.ref, e)] }

/-! ## The notification manager -/

def polled (w : EventWorld ε) (sub : Subscription) (events : List ε) : EventWorld ε :=
  events.foldl (fun w e ↦ w.insertEvent sub e) w

def removable (now : ℕ) (info : WsSubscribeInfo) : Bool :=
  (info.flags.unsubscribe || info.flags.cancelled || timeExpired info.expires now) &&
    !info.flags.notificationPending

def removed (w : EventWorld ε) (sub : Subscription) : EventWorld ε :=
  { w with
    subs := w.subs.erase sub.ref
    repo := localSubscriptionOpDelete w.repo sub.info.subsId
    pool := memEventPoolClearEvent w.pool sub.info.subsId }

def startSender (w : EventWorld ε) (sub : Subscription) (outdoc : Option (List ε))
    (created : Bool) : EventWorld ε :=
  if created then
    { w.setInfo sub (sub.info.withPending true) with
      senders := w.senders ++ [⟨sub.ref, outdoc⟩]
      handed := w.handed ++ (outdoc.getD []).map fun e ↦ (sub.ref, e) }
  else w

def batchSize (mode : DeliveryMode) (pool : EventPool ε) (uuid : String) : ℕ :=
  if mode = .events then memEventPoolCount pool uuid else 1

/-- If a sender is still at work, the events that were taken are given to nobody. -/
def managerSection (now : ℕ) (poll : EventPoll ε) (created : Bool) (w : EventWorld ε)
    (sub : Subscription) : EventWorld ε :=
  if removable now sub.info then w.removed sub
  else
    let w := w.polled sub poll.events
    if poll.pending || sub.info.deliveryMode == .pull then w
    else
      match takeEvents w.pool sub.info.subsId
          (batchSize sub.info.deliveryMode w.pool sub.info.subsId) with
      | ([], _) => w
      | (events, pool) =>
        if sub.info.flags.notificationPending then { w with pool := pool }
        else startSender { w with pool := pool } sub (some events) created

/-! ## Heartbeats and senders -/

def heartbeatSection (now : ℕ) (created : Bool) (w : EventWorld ε) (sub : Subscription) :
    EventWorld ε :=
  let info := sub.info
  if info.flags.unsubscribe || timeExpired info.expires now || info.heartbeatInterval == 0 ||
      info.deliveryMode == .pull then w
  else if 0 < info.heartbeatCountdown - 1000 then
    w.setInfo sub { info with heartbeatCountdown := info.heartbeatCountdown - 1000 }
  else
    let info := { info with heartbeatCountdown := toTimeT info.heartbeatInterval }
    if info.eventSentLastTime then w.setInfo sub { info with eventSentLastTime := false }
    else if info.flags.notificationPending then w.setInfo sub info
    else (w.setInfo sub info).startSender { sub with info := info } none created

def afterSending (now : ℕ) (acked notification : Bool) (info : WsSubscribeInfo) : WsSubscribeInfo :=
  let sent := !info.flags.unsubscribe && !timeExpired info.expires now
  let refused :=
    sent && (info.deliveryMode == .events || info.deliveryMode == .pushWithAck) && !acked
  { info with
    eventSentLastTime := info.eventSentLastTime || notification
    flags :=
      { info.flags with
        cancelled := info.flags.cancelled || refused, notificationPending := false } }

def senderSection (now : ℕ) (acked : Bool) (w : EventWorld ε) (thread : WsEventThreadContext ε) :
    EventWorld ε :=
  match w.subs.lookup thread.subsInfo with
  | none => w
  | some sub => w.setInfo sub (afterSending now acked thread.outdoc.isSome sub.info)

/-! ## Handlers -/

def changeSection (w : EventWorld ε) (handler : Handler) : EventWorld ε :=
  match w.subs.lookup handler.subsInfo with
  | none => w
  | some sub =>
    match handler.request with
    | .unsubscribe _ => w.setInfo sub sub.info.unsubscribed
    | .renew _ expires => w.setInfo sub (sub.info.withExpires expires)
    | .pull _ maxElements =>
      { w with pool := (takeEvents w.pool sub.info.subsId maxElements).2 }

def answerSection (text : String) (w : EventWorld ε) (handler : Handler) : EventWorld ε :=
  match handler.request with
  | .renew id _ => { w with repo := localSubscriptionOpUpdate w.repo id text }
  | _ => w

/-! ## The steps -/

end EventWorld

inductive EventLabel (ε : Type) where
  | subscribe (newId : String) (doc : WsXmlNode)
  | insert (sub : Subscription) (e : ε)
  | lock (kind : PassKind)
  | manager (sub : Subscription) (now : ℕ) (poll : EventPoll ε) (created : Bool)
  | heartbeat (sub : Subscription) (now : ℕ) (created : Bool)
  | unlock
  | send (thread : WsEventThreadContext ε)
  | find (request : SubsRequest)
  | refuse (handler : Handler)
  | change (handler : Handler)
  | answer (handler : Handler)

open EventWorld in
inductive EventStep {ε : Type} (host : EventHost) :
    EventWorld ε → EventLabel ε → EventWorld ε → Prop
  | subscribe {w endPoint newId uuid ids doc msg now info text} (free : w.pass = none)
      (fresh : newId ∉ w.subsIds)
      (accepted : (subscribeRequest host endPoint newId uuid ids w.eventState doc msg now).service =
        .value (w.eventState.subscribed info doc text)) :
      EventStep host w (.subscribe newId doc) (w.subscribed info doc text)
  | insert {w sub e} (listed : w.subs.lookup sub.ref = some sub) :
      EventStep host w (.insert sub e) (w.insertEvent sub e)
  | lock {w kind} (free : w.pass = none) :
      EventStep host w (.lock kind)
        { w with pass := some ⟨kind, w.subs.entries.map Subscription.ref⟩ }
  | manager {w sub ahead now poll created} (holds : w.pass = some ⟨.manager, sub.ref :: ahead⟩)
      (listed : w.subs.lookup sub.ref = some sub) :
      EventStep host w (.manager sub now poll created)
        { managerSection now poll created w sub with pass := some ⟨.manager, ahead⟩ }
  | heartbeat {w sub ahead now created} (holds : w.pass = some ⟨.heartbeat, sub.ref :: ahead⟩)
      (listed : w.subs.lookup sub.ref = some sub) :
      EventStep host w (.heartbeat sub now created)
        { heartbeatSection now created w sub with pass := some ⟨.heartbeat, ahead⟩ }
  | unlock {w kind} (done : w.pass = some ⟨kind, []⟩) :
      EventStep host w .unlock { w with pass := none }
  | send {w thread before after now acked} (alive : w.senders = before ++ thread :: after) :
      EventStep host w (.send thread)
        { senderSection now acked w thread with senders := before ++ after }
  | find {w request sub} (free : w.pass = none)
      (found : w.subs.entries.find? request.names = some sub) :
      EventStep host w (.find request)
        { w with handlers := w.handlers ++ [{ subsInfo := sub.ref, request := request }] }
  | refuse {w handler before after} (holds : w.handlers = before ++ handler :: after)
      (unchanged : handler.changed = false) :
      EventStep host w (.refuse handler) { w with handlers := before ++ after }
  | change {w handler before after} (holds : w.handlers = before ++ handler :: after)
      (unchanged : handler.changed = false) :
      EventStep host w (.change handler)
        { changeSection w handler with
          handlers := before ++ { handler with changed := true } :: after }
  | answer {w handler before after text} (holds : w.handlers = before ++ handler :: after)
      (changed : handler.changed = true)
      (written : ∀ sub, w.subs.lookup handler.subsInfo = some sub →
        wsmanExpiretime2xmldatetime host.zone sub.info.expires = .value text) :
      EventStep host w (.answer handler)
        { answerSection text w handler with handlers := before ++ after }

def eventSystem (ε : Type) (host : EventHost) :
    Transition.System (EventWorld ε) (EventLabel ε) where
  Init w := ∃ repo, w = { repo := repo }
  Step := EventStep host

/-! ## What the sections do -/

namespace EventWorld

variable {ε : Type} {w : EventWorld ε} {sub : Subscription} {ref : ℕ}

theorem lookup_setInfo (h : w.subs.lookup sub.ref = some sub) (info : WsSubscribeInfo) (ref : ℕ) :
    (w.setInfo sub info).subs.lookup ref =
      if sub.ref = ref then some { sub with info := info } else w.subs.lookup ref := by
  rw [setInfo, Table.lookup_replace]
  split
  · next hr =>
    subst hr
    rw [h]
    rfl
  · rfl

theorem lookup_removed (w : EventWorld ε) (sub : Subscription) (ref : ℕ) :
    (w.removed sub).subs.lookup ref = if sub.ref = ref then none else w.subs.lookup ref := by
  rw [removed]
  split
  · next hr =>
    subst hr
    exact Table.lookup_erase_self w.subs sub.ref
  · next hr => exact Table.lookup_erase_of_ne hr

theorem lookup_listed (h : w.subs.lookup w.next = none) (info : WsSubscribeInfo) (ref : ℕ) :
    (w.listed info).subs.lookup ref =
      if w.next = ref then some ⟨w.next, info⟩ else w.subs.lookup ref :=
  Table.lookup_append h ref

theorem polled_frame (w : EventWorld ε) (sub : Subscription) (events : List ε) :
    ∃ pool inserted, w.polled sub events = { w with pool := pool, inserted := inserted } := by
  induction events generalizing w with
  | nil => exact ⟨w.pool, w.inserted, rfl⟩
  | cons e events ih =>
    obtain ⟨pool, inserted, hrest⟩ := ih (w.insertEvent sub e)
    rw [polled, List.foldl_cons, ← polled, hrest, insertEvent]
    split <;> exact ⟨pool, inserted, rfl⟩

theorem managerSection_cases (now : ℕ) (poll : EventPoll ε) (created : Bool) (w : EventWorld ε)
    (sub : Subscription) :
    (removable now sub.info = true ∧ managerSection now poll created w sub = w.removed sub) ∨
    managerSection now poll created w sub = w.polled sub poll.events ∨
    ∃ n events pool, poll.pending = false ∧ sub.info.deliveryMode ≠ .pull ∧ events ≠ [] ∧
      takeEvents (w.polled sub poll.events).pool sub.info.subsId n = (events, pool) ∧
      (((sub.info.flags.notificationPending = true ∨ created = false) ∧
          managerSection now poll created w sub = { w.polled sub poll.events with pool := pool }) ∨
        (sub.info.flags.notificationPending = false ∧ created = true ∧
          managerSection now poll created w sub =
            startSender { w.polled sub poll.events with pool := pool } sub (some events)
              true)) := by
  rw [managerSection]
  cases hremovable : removable now sub.info with
  | true => exact .inl ⟨rfl, rfl⟩
  | false =>
    refine .inr ?_
    rw [if_neg Bool.false_ne_true]
    dsimp only
    cases hskip : poll.pending || sub.info.deliveryMode == .pull with
    | true => exact .inl rfl
    | false =>
      rw [if_neg Bool.false_ne_true]
      obtain ⟨hpending, hmode⟩ := Bool.or_eq_false_iff.mp hskip
      split
      · exact .inl rfl
      next events pool hne htake =>
      refine .inr ⟨_, events, pool, hpending, by simpa using hmode, hne, htake, ?_⟩
      cases sub.info.flags.notificationPending with
      | true => exact .inl ⟨.inl rfl, rfl⟩
      | false =>
        cases created with
        | true => exact .inr ⟨rfl, rfl, rfl⟩
        | false => exact .inl ⟨.inr rfl, rfl⟩

theorem heartbeatSection_cases (now : ℕ) (created : Bool) (w : EventWorld ε) (sub : Subscription) :
    heartbeatSection now created w sub = w ∨
    ∃ info : WsSubscribeInfo, info.subsId = sub.info.subsId ∧
      info.deliveryMode = sub.info.deliveryMode ∧ info.flags = sub.info.flags ∧
      (heartbeatSection now created w sub = w.setInfo sub info ∨
        (sub.info.flags.notificationPending = false ∧
          heartbeatSection now created w sub =
            (w.setInfo sub info).startSender { sub with info := info } none created)) := by
  rw [heartbeatSection]
  dsimp only
  split
  · exact .inl rfl
  refine .inr ?_
  split
  · refine ⟨_, ?_, ?_, ?_, .inl rfl⟩ <;> rfl
  split
  · refine ⟨_, ?_, ?_, ?_, .inl rfl⟩ <;> rfl
  split
  · refine ⟨_, ?_, ?_, ?_, .inl rfl⟩ <;> rfl
  · next hpending => refine ⟨_, ?_, ?_, ?_, .inr ⟨by simpa using hpending, rfl⟩⟩ <;> rfl

structure FreshSubs (info : WsSubscribeInfo) : Prop where
  flags : info.flags = {}
  countdown : info.heartbeatCountdown = toTimeT info.heartbeatInterval

theorem freshSubs_of_createSubsInfo {δ : Type} {host : EventHost} {op : SoapOp δ} {uuid : String}
    {now : ℕ} {info : WsSubscribeInfo} (h : createSubsInfo host op uuid now = .value (.ok info)) :
    FreshSubs info := by
  obtain ⟨subNode, parts, -, -, -, hinfo⟩ := createSubsInfo_ok h
  have hcountdown := congrArg WsSubscribeInfo.heartbeatCountdown hinfo
  have hinterval := congrArg WsSubscribeInfo.heartbeatInterval hinfo
  dsimp only [subscriptionOf] at hcountdown hinterval
  exact ⟨congrArg WsSubscribeInfo.flags hinfo, by rw [hcountdown, hinterval]⟩

theorem accepted_spec {host : EventHost} {endPoint : EventEndPoint} {newId uuid : String}
    {ids : List String} {s : EventState} {doc : WsXmlNode} {msg : WsmanMessage} {now : ℕ}
    {info : WsSubscribeInfo} {text : String}
    (h : (subscribeRequest host endPoint newId uuid ids s doc msg now).service =
      .value (s.subscribed info doc text)) :
    info.subsId = (formerUid doc).getD newId ∧ FreshSubs info := by
  -- the list is longer than before, so the request was not refused
  have hne : s.subscribed info doc text ≠ s := by
    intro heq
    have hlength := congrArg (fun s ↦ s.subs.length) heq
    simp [EventState.subscribed] at hlength
  rw [subscribeRequest] at h
  rcases eventRequest_cases host (wseSubscribeStub host endPoint newId now) uuid ids s doc msg with
    ⟨-, op, hdoc, -, ⟨-, hundef⟩ | ⟨s', out, hstub, hservice, -⟩⟩ | ⟨-, hservice, -⟩
  · cases hundef.symm.trans h
  · cases hservice.symm.trans h
    rcases wseSubscribeStub_cases hstub with ⟨heq, -⟩ | ⟨info', text', hcreate, -, -, heq, -⟩
    · exact absurd heq hne
    obtain rfl : info = info' := by
      have hsubs := congrArg EventState.subs heq
      simpa [EventState.subscribed] using hsubs
    obtain ⟨subNode, parts, -, -, hid, -⟩ := createSubsInfo_ok hcreate
    rw [hdoc] at hid
    exact ⟨(newSubsId_eq_value hid).1, freshSubs_of_createSubsInfo hcreate⟩
  · exact absurd (CResult.value.inj (hservice.symm.trans h)).symm hne

structure SameSubs (info info' : WsSubscribeInfo) : Prop where
  subsId : info'.subsId = info.subsId
  deliveryMode : info'.deliveryMode = info.deliveryMode

end EventWorld

open EventWorld

variable {ε : Type}

inductive ListEffect (w : EventWorld ε) :
    EventLabel ε → SubsMemList → ℕ → List (WsEventThreadContext ε) → Prop
  | keep {l} : ListEffect w l w.subs w.next w.senders
  | change {l sub info} (listed : w.subs.lookup sub.ref = some sub) (same : SameSubs sub.info info)
      (pending : info.flags.notificationPending = sub.info.flags.notificationPending) :
      ListEffect w l (w.subs.replace { sub with info := info }) w.next w.senders
  | remove {sub now poll created} (listed : w.subs.lookup sub.ref = some sub)
      (ended : removable now sub.info = true) :
      ListEffect w (.manager sub now poll created) (w.subs.erase sub.ref) w.next w.senders
  | add {newId doc info} (fresh : newId ∉ w.subsIds) (id : info.subsId = (formerUid doc).getD newId)
      (flags : info.flags = {}) :
      ListEffect w (.subscribe newId doc) (w.subs.append ⟨w.next, info⟩) (w.next + 1) w.senders
  | start {l sub info outdoc} (listed : w.subs.lookup sub.ref = some sub)
      (same : SameSubs sub.info info) (idle : sub.info.flags.notificationPending = false)
      (pending : info.flags.notificationPending = true) :
      ListEffect w l (w.subs.replace { sub with info := info }) w.next
        (w.senders ++ [⟨sub.ref, outdoc⟩])
  | finish {l sub info thread before after} (alive : w.senders = before ++ thread :: after)
      (listed : w.subs.lookup sub.ref = some sub) (own : thread.subsInfo = sub.ref)
      (same : SameSubs sub.info info) (done : info.flags.notificationPending = false) :
      ListEffect w l (w.subs.replace { sub with info := info }) w.next (before ++ after)
  | stray {l thread before after} (alive : w.senders = before ++ thread :: after)
      (gone : w.subs.lookup thread.subsInfo = none) :
      ListEffect w l w.subs w.next (before ++ after)

variable {l : EventLabel ε}

theorem ListEffect.startSender {w v : EventWorld ε} {sub : Subscription} {info : WsSubscribeInfo}
    (hsubs : v.subs = w.subs.replace { sub with info := info }) (hnext : v.next = w.next)
    (hsenders : v.senders = w.senders) (listed : w.subs.lookup sub.ref = some sub)
    (same : SameSubs sub.info info) (flags : info.flags = sub.info.flags)
    (idle : sub.info.flags.notificationPending = false) (outdoc : Option (List ε)) (created : Bool)
    :
    ListEffect w l (v.startSender { sub with info := info } outdoc created).subs
      (v.startSender { sub with info := info } outdoc created).next
      (v.startSender { sub with info := info } outdoc created).senders := by
  cases created with
  | false =>
    rw [EventWorld.startSender, if_neg Bool.false_ne_true, hsubs, hnext, hsenders]
    exact .change listed same (congrArg _ flags)
  | true =>
    rw [EventWorld.startSender, if_pos rfl]
    dsimp only [setInfo]
    rw [hsubs, hnext, hsenders, Table.replace_replace w.subs (a := ⟨sub.ref, info⟩)
      (b := ⟨sub.ref, info.withPending true⟩) rfl]
    exact .start listed ⟨same.subsId, same.deliveryMode⟩ idle rfl

variable {host : EventHost}

theorem EventStep.effect {w w' : EventWorld ε} (h : EventStep host w l w') :
    ListEffect w l w'.subs w'.next w'.senders := by
  cases h with
  | subscribe free fresh accepted =>
    obtain ⟨hid, hfresh⟩ := accepted_spec accepted
    exact .add fresh hid hfresh.flags
  | insert listed =>
    rw [insertEvent]
    split <;> exact .keep
  | lock free => exact .keep
  | @manager sub ahead now poll created holds listed =>
    obtain ⟨pool, inserted, hframe⟩ := polled_frame w sub poll.events
    rcases managerSection_cases now poll created w sub with
      ⟨hremovable, heq⟩ | heq | ⟨n, events, pool', -, -, -, -, ⟨-, heq⟩ | ⟨hidle, -, heq⟩⟩
    · rw [heq]
      exact .remove listed hremovable
    · rw [heq, hframe]
      exact .keep
    · rw [heq, hframe]
      exact .keep
    · rw [heq, hframe]
      exact .start listed ⟨rfl, rfl⟩ hidle rfl
  | @heartbeat sub ahead now created holds listed =>
    rcases heartbeatSection_cases now created w sub with
      heq | ⟨info, hid, hmode, hflags, heq | ⟨hidle, heq⟩⟩
    · rw [heq]
      exact .keep
    · rw [heq]
      exact .change listed ⟨hid, hmode⟩ (congrArg _ hflags)
    · rw [heq]
      exact ListEffect.startSender (v := w.setInfo sub info) rfl rfl rfl listed ⟨hid, hmode⟩ hflags
        hidle none created
  | unlock done => exact .keep
  | @send thread before after now acked alive =>
    rw [senderSection]
    split
    · next hnone => exact .stray alive hnone
    · next sub hsub =>
      have href : sub.ref = thread.subsInfo := Table.key_of_lookup hsub
      exact .finish alive (href ▸ hsub) href.symm ⟨rfl, rfl⟩ rfl
  | find free found => exact .keep
  | refuse holds unchanged => exact .keep
  | @change handler before after holds unchanged =>
    rw [changeSection]
    split
    · exact .keep
    next sub hsub =>
    have href : sub.ref = handler.subsInfo := Table.key_of_lookup hsub
    split
    · exact .change (href ▸ hsub) ⟨rfl, rfl⟩ rfl
    · exact .change (href ▸ hsub) ⟨rfl, rfl⟩ rfl
    · exact .keep
  | @answer handler before after text holds changed written =>
    rw [answerSection]
    split <;> exact .keep

/-! ## The numbers of subscriptions -/

namespace EventWorld

def RefsBelow (w : EventWorld ε) : Prop := ∀ ref sub, w.subs.lookup ref = some sub → ref < w.next

theorem RefsBelow.lookup_next {w : EventWorld ε} (h : RefsBelow w) :
    w.subs.lookup w.next = none := by
  cases hsub : w.subs.lookup w.next with
  | none => rfl
  | some sub => exact absurd (h w.next sub hsub) (lt_irrefl _)

end EventWorld

theorem EventStep.refsBelow {w w' : EventWorld ε} (h : EventStep host w l w') (hw : RefsBelow w) :
    RefsBelow w' := by
  intro ref sub' hlookup
  have hreplace : ∀ {sub : Subscription} {info : WsSubscribeInfo},
      (w.subs.replace { sub with info := info }).lookup ref = some sub' → ref < w.next := by
    intro sub info hsub
    rw [Table.lookup_replace] at hsub
    split at hsub
    · obtain ⟨old, hold, -⟩ := Option.map_eq_some_iff.mp hsub
      exact hw ref old hold
    · exact hw ref sub' hsub
  have heffect := h.effect
  generalize w'.subs = subs at hlookup heffect
  generalize w'.next = next at heffect ⊢
  generalize w'.senders = senders at heffect
  cases heffect with
  | keep => exact hw ref sub' hlookup
  | change listed same pending => exact hreplace hlookup
  | @remove sub now poll created listed ended =>
    rw [Table.erase, Table.lookup_filter, Option.filter_eq_some_iff] at hlookup
    exact hw ref sub' hlookup.1
  | add fresh id flags =>
    rw [Table.lookup_append hw.lookup_next] at hlookup
    split at hlookup
    · next heq => exact heq ▸ Nat.lt_succ_self _
    · exact Nat.lt_succ_of_lt (hw ref sub' hlookup)
  | start listed same idle pending => exact hreplace hlookup
  | finish alive listed own same done => exact hreplace hlookup
  | stray alive gone => exact hw ref sub' hlookup

theorem refsBelow_of_reachable {w : EventWorld ε}
    (h : Transition.Reachable (eventSystem ε host) w) : RefsBelow w := by
  refine Transition.Reachable.induct (fun w hinit ↦ ?_) (fun _ _ _ _ ih hstep ↦ ?_) h
  · obtain ⟨repo, rfl⟩ := hinit
    intro ref sub hlookup
    cases hlookup
  · exact EventStep.refsBelow hstep ih

end Openwsman
