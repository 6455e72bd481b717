import Openwsman.Eventing.Senders
import Openwsman.Lib.Outbox

/-!
# What becomes of the events

An event that is put into the pool waits until the manager takes it out and gives it to a sender.
The manager takes events out before it looks whether a sender is still at work, and if one is, it
gives the document with the events to nobody. Events may also go astray when the ids of two
subscriptions differ only in case, since these share a queue, and when a client pulls from a
subscription whose events are pushed.

In runs without these nothing is lost: each section is an operation on the outboxes of
`Openwsman.Lib.Outbox`, with the ids folded to one case as keys.
-/

namespace Openwsman

open Function List KeyedTable Transition EventWorld Outbox

variable {ε : Type} {w w' : EventWorld ε} {sub : Subscription} {info : WsSubscribeInfo}

def eventsOf (log : List (ℕ × ε)) (ref : ℕ) : List ε :=
  (log.filter fun entry ↦ entry.1 = ref).map Prod.snd

theorem eventsOf_append_map (log : List (ℕ × ε)) (ref : ℕ) (events : List ε) :
    eventsOf (log ++ events.map fun e ↦ (ref, e)) =
      Function.update (eventsOf log) ref (eventsOf log ref ++ events) := by
  funext r
  rw [eventsOf, filter_append, map_append, update_apply]
  by_cases hr : r = ref
  · subst hr
    rw [if_pos rfl, eventsOf]
    simp [filter_map, comp_def]
  · rw [if_neg hr, eventsOf]
    simp [filter_map, comp_def, Ne.symm hr]

/-! ## The outboxes -/

def boxOf (sub : Subscription) : List Char × Bool :=
  (foldCase sub.info.subsId, sub.info.deliveryMode != .pull)

def EventWorld.outbox (w : EventWorld ε) : Outbox.State (List Char) ε where
  box ref := (w.subs.lookup ref).map boxOf
  queue := poolQueue w.pool
  inserted := eventsOf w.inserted
  handed := eventsOf w.handed

theorem boxOf_of_same (same : SameSubs sub.info info) :
    boxOf { sub with info := info } = boxOf sub := by
  rw [boxOf, boxOf]
  dsimp only
  rw [same.subsId, same.deliveryMode]

theorem outbox_setInfo (listed : w.subs.lookup sub.ref = some sub) (info : WsSubscribeInfo)
    (same : SameSubs sub.info info) : (w.setInfo sub info).outbox = w.outbox := by
  have hbox : (w.setInfo sub info).outbox.box = w.outbox.box := by
    funext ref
    dsimp only [outbox]
    rw [lookup_setInfo listed]
    split
    · next href => rw [Option.map_some, boxOf_of_same same, ← href, listed, Option.map_some]
    · rfl
  rw [outbox, outbox, State.mk.injEq]
  exact ⟨hbox, rfl, rfl, rfl⟩

theorem outbox_insertEvent (w : EventWorld ε) (sub : Subscription) (e : ε) :
    (w.insertEvent sub e).outbox = w.outbox ∨
      (w.insertEvent sub e).outbox = w.outbox.put sub.ref (foldCase sub.info.subsId) e := by
  have hput : ({ w with
      pool := memEventPoolAddEvent w.pool sub.info.subsId e
      inserted := w.inserted ++ [(sub.ref, e)] } : EventWorld ε).outbox =
        w.outbox.put sub.ref (foldCase sub.info.subsId) e := by
    rw [outbox, State.put, State.mk.injEq]
    refine ⟨rfl, ?_, eventsOf_append_map w.inserted sub.ref [e], rfl⟩
    rw [poolQueue_memEventPoolAddEvent, queued_eq_poolQueue]
    rfl
  rw [insertEvent]
  split
  · exact .inl rfl
  next pool hpool =>
  split at hpool
  · rw [memEventPoolAddPullEvent] at hpool
    split at hpool
    · cases hpool
    · cases hpool
      exact .inr hput
  · cases hpool
    exact .inr hput

theorem outbox_removed (w : EventWorld ε) (sub : Subscription) :
    (w.removed sub).outbox = w.outbox.close sub.ref (foldCase sub.info.subsId) := by
  rw [outbox, State.close, State.mk.injEq]
  refine ⟨?_, poolQueue_memEventPoolClearEvent w.pool sub.info.subsId, rfl, rfl⟩
  funext ref
  rw [lookup_removed, update_apply]
  by_cases href : sub.ref = ref
  · rw [if_pos href, if_pos href.symm]
    rfl
  · rw [if_neg href, if_neg (Ne.symm href)]
    rfl

theorem outbox_listed (h : RefsBelow w) (info : WsSubscribeInfo) :
    (w.listed info).outbox =
      w.outbox.add w.next (foldCase info.subsId) (info.deliveryMode != .pull) := by
  rw [outbox, State.add, State.mk.injEq]
  refine ⟨?_, rfl, rfl, rfl⟩
  funext ref
  rw [lookup_listed h.lookup_next, update_apply]
  by_cases href : w.next = ref
  · rw [if_pos href, if_pos href.symm]
    rfl
  · rw [if_neg href, if_neg (Ne.symm href)]
    rfl

theorem outbox_startSender (listed : w.subs.lookup sub.ref = some sub) {n : ℕ} {events : List ε}
    {pool : EventPool ε} (htake : takeEvents w.pool sub.info.subsId n = (events, pool)) :
    (startSender { w with pool := pool } sub (some events) true).outbox =
      w.outbox.hand sub.ref (foldCase sub.info.subsId) n := by
  have hevents := takeEvents_fst w.pool sub.info.subsId n
  have hqueue := poolQueue_takeEvents w.pool sub.info.subsId n
  rw [htake, queued_eq_poolQueue] at hevents hqueue
  dsimp only at hevents hqueue
  have hbox := congrArg State.box (outbox_setInfo listed (sub.info.withPending true) ⟨rfl, rfl⟩)
  rw [startSender, if_pos rfl, outbox, State.hand, State.mk.injEq]
  refine ⟨hbox, hqueue, rfl, ?_⟩
  dsimp only [Option.getD_some]
  rw [eventsOf_append_map, hevents]
  rfl

/-! ## Nothing is lost -/

structure InOrder (w : EventWorld ε) : Prop where
  kept : Kept w.outbox
  unused : ∀ ref, w.next ≤ ref → w.outbox.inserted ref = []

namespace InOrder

theorem of_eq (h : InOrder w) (houtbox : w'.outbox = w.outbox) (hnext : w'.next = w.next) :
    InOrder w' := by
  refine ⟨houtbox ▸ h.kept, ?_⟩
  rw [houtbox, hnext]
  exact h.unused

theorem box_eq (listed : w.subs.lookup sub.ref = some sub) :
    w.outbox.box sub.ref = some (boxOf sub) := by
  dsimp only [outbox]
  rw [listed, Option.map_some]

theorem insertEvent (h : InOrder w) (hbelow : RefsBelow w)
    (listed : w.subs.lookup sub.ref = some sub) (e : ε) : InOrder (w.insertEvent sub e) := by
  have hnext : (w.insertEvent sub e).next = w.next := by
    rw [EventWorld.insertEvent]
    split <;> rfl
  rcases outbox_insertEvent w sub e with heq | heq
  · exact h.of_eq heq hnext
  refine ⟨heq ▸ h.kept.put (box_eq listed) e, fun ref href ↦ ?_⟩
  have hne : ref ≠ sub.ref := by
    have := hbelow sub.ref sub listed
    omega
  rw [heq, State.put]
  dsimp only
  rw [update_of_ne hne]
  exact h.unused ref (hnext ▸ href)

theorem polled (h : InOrder w) (hbelow : RefsBelow w) (listed : w.subs.lookup sub.ref = some sub)
    (events : List ε) : InOrder (w.polled sub events) := by
  induction events generalizing w with
  | nil => exact h
  | cons e events ih =>
    obtain ⟨pool, inserted, hframe⟩ := polled_frame w sub [e]
    have hsingle : w.polled sub [e] = w.insertEvent sub e := rfl
    rw [hsingle] at hframe
    refine ih (h.insertEvent hbelow listed e) ?_ ?_
    · show RefsBelow (w.insertEvent sub e)
      rw [hframe]
      exact hbelow
    · show (w.insertEvent sub e).subs.lookup sub.ref = some sub
      rw [hframe]
      exact listed

end InOrder

/-- A step does not lose events: a new subscription has an id that differs from all others in more
than case, the manager creates its threads and does not come to a subscription with a sender at work
and something to send, and clients pull only from subscriptions that are meant for it. -/
def KeepsEvents (w : EventWorld ε) : EventLabel ε → Prop
  | .subscribe newId doc => ∀ ref sub, w.subs.lookup ref = some sub →
    foldCase sub.info.subsId ≠ foldCase ((formerUid doc).getD newId)
  | .manager sub _ poll created => created = true ∧
    (sub.info.flags.notificationPending = true → sub.info.deliveryMode ≠ .pull →
      poll.pending = false → queued w.pool sub.info.subsId = [] ∧ poll.events = [])
  | .change handler => ∀ id n sub, handler.request = .pull id n →
    w.subs.lookup handler.subsInfo = some sub → sub.info.deliveryMode = .pull
  | _ => True

theorem InOrder.managerSection (h : InOrder w) (hbelow : RefsBelow w)
    (listed : w.subs.lookup sub.ref = some sub) {now : ℕ} {poll : EventPoll ε} {created : Bool}
    (hkeeps : KeepsEvents w (.manager sub now poll created)) :
    InOrder (managerSection now poll created w sub) := by
  have hpolled := h.polled hbelow listed poll.events
  obtain ⟨hcreated, hquiet⟩ := hkeeps
  obtain ⟨pool, inserted, hframe⟩ := polled_frame w sub poll.events
  have hlisted : (w.polled sub poll.events).subs.lookup sub.ref = some sub := by
    rw [hframe]
    exact listed
  rcases managerSection_cases now poll created w sub with ⟨-, heq⟩ | heq |
    ⟨n, events, pool', hpending, hmode, hne, htake, ⟨hlost, heq⟩ | ⟨-, -, heq⟩⟩
  · rw [heq]
    refine ⟨?_, h.unused⟩
    rw [outbox_removed]
    exact h.kept.close (box_eq listed)
  · rw [heq]
    exact hpolled
  · -- there was nothing to lose
    exfalso
    have hflag : sub.info.flags.notificationPending = true :=
      hlost.resolve_right (by rw [hcreated]; simp)
    obtain ⟨hempty, hnone⟩ := hquiet hflag hmode hpending
    have hevents := takeEvents_fst (w.polled sub poll.events).pool sub.info.subsId n
    rw [htake, hnone, EventWorld.polled, foldl_nil, hempty, take_nil] at hevents
    exact hne hevents
  · rw [heq]
    have hbox : (w.polled sub poll.events).outbox.box sub.ref =
        some (foldCase sub.info.subsId, true) := by
      rw [box_eq hlisted, boxOf, bne_iff_ne.mpr hmode]
    have houtbox := outbox_startSender hlisted htake
    refine ⟨houtbox ▸ hpolled.kept.hand hbox n, fun ref href ↦ ?_⟩
    rw [houtbox]
    refine hpolled.unused ref ?_
    rw [startSender, if_pos rfl] at href
    exact href

theorem InOrder.listed (h : InOrder w) (hbelow : RefsBelow w) {info : WsSubscribeInfo}
    (hnew : ∀ ref sub, w.subs.lookup ref = some sub →
      foldCase sub.info.subsId ≠ foldCase info.subsId) : InOrder (w.listed info) := by
  refine ⟨?_, fun ref href ↦ h.unused ref (Nat.le_of_succ_le href)⟩
  rw [outbox_listed hbelow info]
  refine h.kept.add (fun ref c hbox ↦ ?_) (h.unused w.next (le_refl _)) ?_
  · obtain ⟨sub, hsub, hboxOf⟩ := Option.map_eq_some_iff.mp hbox
    exact hnew ref sub hsub (congrArg Prod.fst hboxOf)
  · dsimp only [outbox]
    rw [hbelow.lookup_next]
    rfl

theorem InOrder.heartbeatSection (h : InOrder w) (listed : w.subs.lookup sub.ref = some sub)
    (now : ℕ) (created : Bool) : InOrder (heartbeatSection now created w sub) := by
  rcases heartbeatSection_cases now created w sub with
    heq | ⟨info, hid, hmode, hflags, heq | ⟨-, heq⟩⟩
  · rw [heq]
    exact h
  · rw [heq]
    exact h.of_eq (outbox_setInfo listed info ⟨hid, hmode⟩) rfl
  rw [heq, startSender]
  have hfirst := outbox_setInfo listed info ⟨hid, hmode⟩
  split
  · have hsecond : ((w.setInfo sub info).setInfo { sub with info := info }
        (info.withPending true)).outbox = (w.setInfo sub info).outbox := by
      refine outbox_setInfo ?_ _ ⟨rfl, rfl⟩
      rw [lookup_setInfo listed, if_pos rfl]
    refine h.of_eq (Eq.trans ?_ (hsecond.trans hfirst)) rfl
    rw [outbox, outbox, State.mk.injEq]
    refine ⟨rfl, rfl, rfl, ?_⟩
    rw [Option.getD_none, map_nil, append_nil]
    rfl
  · exact h.of_eq hfirst rfl

theorem InOrder.senderSection (h : InOrder w) (now : ℕ) (acked : Bool)
    (thread : WsEventThreadContext ε) : InOrder (senderSection now acked w thread) := by
  rw [EventWorld.senderSection]
  split
  · exact h
  next sub hsub =>
  have href : sub.ref = thread.subsInfo := Table.key_of_lookup hsub
  exact h.of_eq (outbox_setInfo (href ▸ hsub)
    (afterSending now acked thread.outdoc.isSome sub.info) ⟨rfl, rfl⟩) rfl

theorem InOrder.taken (h : InOrder w) (listed : w.subs.lookup sub.ref = some sub)
    (hmode : sub.info.deliveryMode = .pull) (n : ℕ) :
    InOrder { w with pool := (takeEvents w.pool sub.info.subsId n).2 } := by
  have hbox : w.outbox.box sub.ref = some (foldCase sub.info.subsId, false) := by
    rw [box_eq listed, boxOf, hmode]
    rfl
  have hqueue := poolQueue_takeEvents w.pool sub.info.subsId n
  rw [queued_eq_poolQueue] at hqueue
  refine ⟨?_, h.unused⟩
  have houtbox : ({ w with pool := (takeEvents w.pool sub.info.subsId n).2 } :
      EventWorld ε).outbox = w.outbox.discard (foldCase sub.info.subsId) n := by
    rw [outbox, State.discard, State.mk.injEq]
    exact ⟨rfl, hqueue, rfl, rfl⟩
  exact houtbox ▸ h.kept.discard hbox n

theorem InOrder.changeSection (h : InOrder w) {handler : Handler}
    (hkeeps : KeepsEvents w (.change handler)) : InOrder (changeSection w handler) := by
  rw [EventWorld.changeSection]
  split
  · exact h
  next sub hsub =>
  have href : sub.ref = handler.subsInfo := Table.key_of_lookup hsub
  have listed : w.subs.lookup sub.ref = some sub := href ▸ hsub
  split
  · exact h.of_eq (outbox_setInfo listed sub.info.unsubscribed ⟨rfl, rfl⟩) rfl
  · next id expires hrequest =>
    exact h.of_eq (outbox_setInfo listed (sub.info.withExpires expires) ⟨rfl, rfl⟩) rfl
  · next id n hrequest => exact h.taken listed (hkeeps id n sub hrequest hsub) n

theorem InOrder.step {host : EventHost} {l : EventLabel ε} (h : InOrder w) (hbelow : RefsBelow w)
    (hstep : EventStep host w l w') (hkeeps : KeepsEvents w l) : InOrder w' := by
  cases hstep with
  | @subscribe endPoint newId uuid ids doc msg now info text free fresh accepted =>
    obtain ⟨hid, -⟩ := accepted_spec accepted
    have hlisted : InOrder (w.listed info) := by
      refine h.listed hbelow fun ref sub hsub ↦ ?_
      rw [hid]
      exact hkeeps ref sub hsub
    exact hlisted.of_eq rfl rfl
  | insert listed => exact h.insertEvent hbelow listed _
  | lock free => exact h.of_eq rfl rfl
  | manager holds listed => exact (h.managerSection hbelow listed hkeeps).of_eq rfl rfl
  | heartbeat holds listed => exact (h.heartbeatSection listed _ _).of_eq rfl rfl
  | unlock done => exact h.of_eq rfl rfl
  | send alive => exact (h.senderSection _ _ _).of_eq rfl rfl
  | find free found => exact h.of_eq rfl rfl
  | refuse holds unchanged => exact h.of_eq rfl rfl
  | change holds unchanged => exact (h.changeSection hkeeps).of_eq rfl rfl
  | @answer handler before after text holds changed written =>
    rw [answerSection]
    split <;> exact h.of_eq rfl rfl

theorem inOrder_of_reachable {host : EventHost}
    (h : Reachable ((eventSystem ε host).restrict KeepsEvents) w) : InOrder w := by
  refine Reachable.induct (fun w hinit ↦ ?_) (fun w l w' hw ih hstep ↦ ?_) h
  · obtain ⟨repo, rfl⟩ := hinit
    refine ⟨⟨?_, fun _ _ ↦ rfl, ?_, fun _ ↦ prefix_refl _⟩, fun _ _ ↦ rfl⟩
    · intro r r' k c c' hbox
      cases hbox
    · intro r k hbox
      cases hbox
  · exact ih.step (refsBelow_of_reachable hw.of_restrict) hstep.1 hstep.2

/-- **Events.** In every run whose steps keep events: what was put into the pool for a subscription
in the list whose events are not pulled is what was given to senders, in this order, followed by
what waits in the pool; and for every subscription that there has been, what was given to senders
are the first of the events put in. -/
theorem events_kept {host : EventHost}
    (h : Reachable ((eventSystem ε host).restrict KeepsEvents) w) :
    (∀ ref sub, w.subs.lookup ref = some sub → sub.info.deliveryMode ≠ .pull →
      eventsOf w.inserted ref = eventsOf w.handed ref ++ queued w.pool sub.info.subsId) ∧
    ∀ ref, eventsOf w.handed ref <+: eventsOf w.inserted ref := by
  have hkept := (inOrder_of_reachable h).kept
  refine ⟨fun ref sub hsub hmode ↦ ?_, hkept.given⟩
  rw [queued_eq_poolQueue]
  refine hkept.kept ref (foldCase sub.info.subsId) ?_
  dsimp only [outbox]
  rw [hsub, Option.map_some, boxOf, bne_iff_ne.mpr hmode]

theorem events_kept_sink :
    eventsOf sinkPending.inserted 0 =
        eventsOf sinkPending.handed 0 ++ queued sinkPending.pool "alarms" ∧
      eventsOf sinkPending.handed 0 = [1] := by
  have hinit : Reachable ((eventSystem ℕ alarmHost).restrict KeepsEvents) { repo := .empty } :=
    .init ⟨.empty, rfl⟩
  have hlisted : Reachable ((eventSystem ℕ alarmHost).restrict KeepsEvents) sinkListed :=
    hinit.step ⟨@EventStep.subscribe ℕ alarmHost _ acceptAll "alarms" "uuid:answer" []
      _ {} 1700000000 _ _ rfl (by decide) succeeds_endlessSubscribe.1, fun _ _ hsub ↦ by cases hsub⟩
  have hinsert : Reachable ((eventSystem ℕ alarmHost).restrict KeepsEvents)
      (sinkListed.insertEvent sink 1) := hlisted.step ⟨.insert rfl, trivial⟩
  have hlock : Reachable ((eventSystem ℕ alarmHost).restrict KeepsEvents) sinkVisited :=
    hinsert.step ⟨@EventStep.lock ℕ alarmHost _ .manager rfl, trivial⟩
  have hpending : Reachable ((eventSystem ℕ alarmHost).restrict KeepsEvents) sinkPending :=
    hlock.step ⟨@EventStep.manager ℕ alarmHost _ sink [] 5 {} true rfl rfl, rfl, fun h ↦ by cases h⟩
  exact ⟨(events_kept hpending).1 0 { sink with info := sink.info.withPending true } rfl
    (by decide), by decide⟩

def sinkBusy : Subscription := { sink with info := sink.info.withPending true }

def sinkLost : EventWorld ℕ :=
  { managerSection 6 {} true
      { sinkPending.insertEvent sinkBusy 2 with pass := some ⟨.manager, [0]⟩ } sinkBusy with
    pass := some ⟨.manager, []⟩ }

/-- Two events were put into the pool for a subscription that is in the list. Only the first was
given to a sender, and nothing waits. -/
theorem second_event_lost :
    Reachable (eventSystem ℕ alarmHost) sinkLost ∧ sinkLost.subs.lookup 0 = some sinkBusy ∧
      sinkBusy.info.deliveryMode = .push ∧ eventsOf sinkLost.inserted 0 = [1, 2] ∧
      eventsOf sinkLost.handed 0 = [1] ∧ queued sinkLost.pool sinkBusy.info.subsId = [] := by
  refine ⟨?_, rfl, rfl, by decide, by decide, by decide⟩
  have hunlock := reachable_sinkPending.step (@EventStep.unlock ℕ alarmHost _ .manager rfl)
  have hinsert := hunlock.step (@EventStep.insert ℕ alarmHost _ sinkBusy 2 rfl)
  have hlock := hinsert.step (@EventStep.lock ℕ alarmHost _ .manager rfl)
  exact hlock.step (@EventStep.manager ℕ alarmHost _ sinkBusy [] 6 {} true rfl rfl)

end Openwsman
