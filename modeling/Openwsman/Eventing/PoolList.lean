import Openwsman.Eventing.Pool
import Openwsman.Eventing.Subscription
import Openwsman.Lib.Machine
import Openwsman.Lib.QueueMap

/-!
# The event pool as a list of lists

`wsman-event-pool.c` has one global list of entries. Every function searches it from the start for
an entry whose id is the given one without regard to case, and works on the list of events in it;
the functions that add an event append a new entry if they find none. Clearing deletes the entry. So
the list behaves as a map from folded ids to queues: it refines `QueueMap`, over any sequence of
operations, and so does the pool that the threads of the server share.

The id of an entry is a buffer of `EUIDLEN` bytes that is filled by `strcpy`, so an id has to fit
into it. The maximum for pulled events is a parameter: `MemEventPoolInit` may set it, though the
server never does.
-/

namespace Openwsman

open Option List Search

variable {ε : Type}

/-! ## The functions -/

structure IdBuffer where
  text : String
  fits : text.utf8ByteSize < euidlen

namespace PoolList

def isEntryOf (uuid : IdBuffer) (entry : EventEntry ε) : Bool :=
  strcaseEq entry.subscriptionId uuid.text

def findEntry (list : List (EventEntry ε)) (uuid : IdBuffer) : Option (EventEntry ε) :=
  list.find? (isEntryOf uuid)

def setEvents (list : List (EventEntry ε)) (uuid : IdBuffer) (events : List ε) :
    List (EventEntry ε) :=
  modifyFirst (isEntryOf uuid) (fun entry ↦ { entry with eventContentList := events }) list

def memEventPoolCount (list : List (EventEntry ε)) (uuid : IdBuffer) : ℕ :=
  match findEntry list uuid with
  | none => 0
  | some entry => entry.eventContentList.length

def withEntry (list : List (EventEntry ε)) (uuid : IdBuffer) :
    List (EventEntry ε) × EventEntry ε :=
  match findEntry list uuid with
  | none => (list ++ [⟨uuid.text, []⟩], ⟨uuid.text, []⟩)
  | some entry => (list, entry)

def memEventPoolAddEvent (list : List (EventEntry ε)) (uuid : IdBuffer) (notification : Option ε) :
    ℤ × List (EventEntry ε) :=
  match notification with
  | none => (0, list)
  | some notification =>
    let (list, entry) := withEntry list uuid
    (0, setEvents list uuid (entry.eventContentList ++ [notification]))

def memEventPoolAddPullEvent (max : ℕ) (list : List (EventEntry ε)) (uuid : IdBuffer)
    (notification : Option ε) : ℤ × List (EventEntry ε) :=
  match notification with
  | none => (0, list)
  | some notification =>
    let (list, entry) := withEntry list uuid
    if max < entry.eventContentList.length then (-1, list)
    else (0, setEvents list uuid (entry.eventContentList ++ [notification]))

def memEventPoolGetAndDeleteEvent (list : List (EventEntry ε)) (uuid : IdBuffer) :
    ℤ × Option ε × List (EventEntry ε) :=
  match findEntry list uuid with
  | none => (-1, none, list)
  | some entry =>
    match entry.eventContentList with
    | [] => (-1, none, list)
    | notification :: rest => (0, some notification, setEvents list uuid rest)

def memEventPoolClearEvent (list : List (EventEntry ε)) (uuid : IdBuffer) (proc : Bool) :
    ℤ × List ε × List (EventEntry ε) :=
  match findEntry list uuid with
  | none => (-1, [], list)
  | some entry =>
    (0, if proc then entry.eventContentList else [], list.eraseP (isEntryOf uuid))

/-! ## The pool as a machine -/

/-- The operations of `EventPoolOpSet`. Events are not `NULL`, and clearing has a callback. -/
inductive PoolOp (ε : Type) where
  | count (uuid : IdBuffer)
  | add (uuid : IdBuffer) (notification : ε)
  | addpull (uuid : IdBuffer) (notification : ε)
  | remove (uuid : IdBuffer)
  | clear (uuid : IdBuffer)

open QueueMap (Answer)

def addAnswer (result : ℤ) : Answer ε := if result = 0 then .appended else .refused

def poolStep (max : ℕ) (list : List (EventEntry ε)) :
    PoolOp ε → List (EventEntry ε) × Answer ε
  | .count uuid => (list, .length (memEventPoolCount list uuid))
  | .add uuid notification =>
    let (result, list) := memEventPoolAddEvent list uuid (some notification)
    (list, addAnswer result)
  | .addpull uuid notification =>
    let (result, list) := memEventPoolAddPullEvent max list uuid (some notification)
    (list, addAnswer result)
  | .remove uuid =>
    let (result, notification, list) := memEventPoolGetAndDeleteEvent list uuid
    (list, .oldest (if result = 0 then notification else none))
  | .clear uuid =>
    let (_, passed, list) := memEventPoolClearEvent list uuid true
    (list, .cleared passed)

def PoolOp.onQueues : PoolOp ε → QueueMap.Op (List Char) ε
  | .count uuid => .length (foldCase uuid.text)
  | .add uuid notification => .append (foldCase uuid.text) notification
  | .addpull uuid notification => .appendBounded (foldCase uuid.text) notification
  | .remove uuid => .take (foldCase uuid.text)
  | .clear uuid => .clear (foldCase uuid.text)

/-! ## Queues in the list -/

def queues (list : List (EventEntry ε)) (k : List Char) : List ε :=
  ((list.find? fun entry ↦ entry.key = k).map EventEntry.eventContentList).getD []

def DistinctIds (list : List (EventEntry ε)) : Prop := (list.map EventEntry.key).Nodup

theorem isEntryOf_eq (uuid : IdBuffer) (entry : EventEntry ε) :
    isEntryOf uuid entry = decide (entry.key = foldCase uuid.text) :=
  strcaseEq_eq_decide entry.subscriptionId uuid.text

theorem findEntry_eq (list : List (EventEntry ε)) (uuid : IdBuffer) :
    findEntry list uuid = list.find? fun entry ↦ entry.key = foldCase uuid.text :=
  congrArg (fun p ↦ list.find? p) (funext (isEntryOf_eq uuid))

variable {list : List (EventEntry ε)}

theorem queues_eq_of_findEntry {uuid : IdBuffer} {found : Option (EventEntry ε)}
    (h : findEntry list uuid = found) :
    queues list (foldCase uuid.text) = (found.map EventEntry.eventContentList).getD [] := by
  rw [queues, ← findEntry_eq, h]

theorem queues_cons (entry : EventEntry ε) (list : List (EventEntry ε)) (k : List Char) :
    queues (entry :: list) k = if entry.key = k then entry.eventContentList else queues list k := by
  rw [queues, find?_cons]
  by_cases hk : entry.key = k
  · rw [decide_eq_true hk, if_pos hk]
    rfl
  · rw [decide_eq_false hk, if_neg hk]
    rfl

theorem queues_eq_nil {k : List Char} (h : ∀ entry ∈ list, entry.key ≠ k) : queues list k = [] := by
  induction list with
  | nil => rfl
  | cons entry list ih =>
    rw [queues_cons, if_neg (h entry mem_cons_self)]
    exact ih fun other hother ↦ h other (mem_cons_of_mem entry hother)

theorem queues_setEvents {uuid : IdBuffer} {entry : EventEntry ε}
    (h : findEntry list uuid = some entry) (events : List ε) :
    queues (setEvents list uuid events) =
      Function.update (queues list) (foldCase uuid.text) events := by
  funext k
  rw [Function.update_apply]
  split
  · next hk =>
    have hfound : findEntry (setEvents list uuid events) uuid =
        some { entry with eventContentList := events } := by
      rw [findEntry] at h
      rw [findEntry, setEvents, find?_modifyFirst, h, map_some]
      exact fun a ha ↦ ha
    rw [hk, queues_eq_of_findEntry hfound, map_some, getD_some]
  · next hk =>
    rw [queues, queues]
    congr 2
    -- no entry with another key is the one that was changed
    have hother : (setEvents list uuid events).filter (fun entry ↦ entry.key = k) =
        list.filter fun entry ↦ entry.key = k := by
      apply filter_modifyFirst_of_not
      intro a ha
      rw [isEntryOf_eq, decide_eq_true_eq] at ha
      have hak : ¬a.key = k := fun hkey ↦ hk (hkey.symm.trans ha)
      exact ⟨decide_eq_false hak, decide_eq_false hak⟩
    rw [← head?_filter, ← head?_filter, hother]

theorem distinctIds_setEvents (h : DistinctIds list) (uuid : IdBuffer) (events : List ε) :
    DistinctIds (setEvents list uuid events) := by
  have hkeys : (setEvents list uuid events).map EventEntry.key = list.map EventEntry.key :=
    map_modifyFirst fun _ _ ↦ rfl
  rw [DistinctIds, hkeys]
  exact h

theorem withEntry_spec (h : DistinctIds list) (uuid : IdBuffer) :
    DistinctIds (withEntry list uuid).1 ∧ queues (withEntry list uuid).1 = queues list ∧
      findEntry (withEntry list uuid).1 uuid = some (withEntry list uuid).2 ∧
      (withEntry list uuid).2.eventContentList = queues list (foldCase uuid.text) := by
  rw [withEntry]
  cases hfind : findEntry list uuid with
  | some entry => exact ⟨h, rfl, hfind, (queues_eq_of_findEntry hfind).symm⟩
  | none =>
    have hkey : ∀ entry ∈ list, entry.key ≠ foldCase uuid.text := by
      intro entry hentry heq
      rw [findEntry_eq, find?_eq_none] at hfind
      exact hfind entry hentry (decide_eq_true heq)
    refine ⟨?_, ?_, ?_, (queues_eq_of_findEntry hfind).symm⟩
    · rw [DistinctIds, map_append, map_singleton, nodup_append]
      refine ⟨h, nodup_singleton _, ?_⟩
      intro k hk k' hk'
      obtain ⟨entry, hentry, rfl⟩ := mem_map.mp hk
      rw [mem_singleton.mp hk']
      exact hkey entry hentry
    · funext k
      rw [queues, queues, find?_append]
      cases list.find? fun entry ↦ entry.key = k with
      | some entry => rfl
      | none =>
        rw [none_or, find?_singleton]
        split <;> rfl
    · rw [findEntry, find?_append, ← findEntry, hfind, none_or, find?_singleton, if_pos]
      exact strcaseEq_self uuid.text

theorem addEvent_spec (h : DistinctIds list) (uuid : IdBuffer) (e : ε) :
    DistinctIds (setEvents (withEntry list uuid).1 uuid
        ((withEntry list uuid).2.eventContentList ++ [e])) ∧
      queues (setEvents (withEntry list uuid).1 uuid
          ((withEntry list uuid).2.eventContentList ++ [e])) =
        Function.update (queues list) (foldCase uuid.text)
          (queues list (foldCase uuid.text) ++ [e]) := by
  obtain ⟨hdistinct, hqueues, hfind, hevents⟩ := withEntry_spec h uuid
  refine ⟨distinctIds_setEvents hdistinct uuid _, ?_⟩
  rw [queues_setEvents hfind, hqueues, hevents]

theorem queues_eraseP (h : DistinctIds list) (uuid : IdBuffer) :
    queues (list.eraseP (isEntryOf uuid)) =
      Function.update (queues list) (foldCase uuid.text) [] := by
  funext k
  rw [Function.update_apply]
  induction list with
  | nil => simp [queues]
  | cons entry list ih =>
    rw [DistinctIds, map_cons, nodup_cons] at h
    by_cases hentry : entry.key = foldCase uuid.text
    · rw [eraseP_cons_of_pos ((isEntryOf_eq uuid entry).trans (decide_eq_true hentry)),
        queues_cons, hentry]
      by_cases hk : k = foldCase uuid.text
      · rw [if_pos hk]
        apply queues_eq_nil
        intro other hother heq
        apply h.1
        rw [hentry, ← hk, ← heq]
        exact mem_map_of_mem hother
      · rw [if_neg hk, if_neg (Ne.symm hk)]
    · rw [eraseP_cons_of_neg (by rw [isEntryOf_eq]; simpa using hentry), queues_cons,
        queues_cons, ih h.2]
      by_cases hk : entry.key = k
      · rw [if_pos hk, if_neg (by rw [← hk]; exact hentry), if_pos hk]
      · rw [if_neg hk, if_neg hk]

/-! ## Refinement -/

theorem poolStep_abstracts (max : ℕ) (list : List (EventEntry ε)) (op : PoolOp ε)
    (h : DistinctIds list) :
    DistinctIds (poolStep max list op).1 ∧
      QueueMap.step max (queues list) op.onQueues =
        (queues (poolStep max list op).1, (poolStep max list op).2) := by
  cases op with
  | count uuid =>
    refine ⟨h, ?_⟩
    rw [poolStep, memEventPoolCount, PoolOp.onQueues, QueueMap.step]
    cases hfind : findEntry list uuid with
    | none => rw [queues_eq_of_findEntry hfind]; rfl
    | some entry => rw [queues_eq_of_findEntry hfind]; rfl
  | add uuid e =>
    obtain ⟨hdistinct, hqueues⟩ := addEvent_spec h uuid e
    refine ⟨hdistinct, ?_⟩
    rw [PoolOp.onQueues, QueueMap.step, ← hqueues]
    rfl
  | addpull uuid e =>
    obtain ⟨hdistinct, hqueues⟩ := addEvent_spec h uuid e
    obtain ⟨hentry, hsame, -, hevents⟩ := withEntry_spec h uuid
    rw [poolStep, memEventPoolAddPullEvent, PoolOp.onQueues, QueueMap.step]
    dsimp only
    rw [hevents]
    rw [hevents] at hdistinct hqueues
    by_cases hmax : max < (queues list (foldCase uuid.text)).length
    · rw [if_pos hmax, if_pos hmax]
      exact ⟨hentry, Prod.ext hsame.symm rfl⟩
    · rw [if_neg hmax, if_neg hmax]
      exact ⟨hdistinct, Prod.ext hqueues.symm rfl⟩
  | remove uuid =>
    rw [poolStep, memEventPoolGetAndDeleteEvent, PoolOp.onQueues, QueueMap.step]
    cases hfind : findEntry list uuid with
    | none =>
      rw [queues_eq_of_findEntry hfind]
      exact ⟨h, rfl⟩
    | some entry =>
      rw [queues_eq_of_findEntry hfind, map_some, getD_some]
      dsimp only
      cases entry.eventContentList with
      | nil => exact ⟨h, rfl⟩
      | cons e rest =>
        exact ⟨distinctIds_setEvents h uuid rest, Prod.ext (queues_setEvents hfind rest).symm rfl⟩
  | clear uuid =>
    rw [poolStep, memEventPoolClearEvent, PoolOp.onQueues, QueueMap.step]
    cases hfind : findEntry list uuid with
    | none =>
      have hnil := queues_eq_of_findEntry hfind
      refine ⟨h, ?_⟩
      rw [hnil]
      refine Prod.ext ?_ rfl
      dsimp only
      rw [← show queues list (foldCase uuid.text) = [] from hnil, Function.update_eq_self]
    | some entry =>
      refine ⟨h.sublist ((eraseP_sublist).map EventEntry.key), ?_⟩
      rw [queues_eq_of_findEntry hfind]
      exact Prod.ext (queues_eraseP h uuid).symm rfl

/-- **The event pool.** Over every sequence of operations, from the empty pool on, the answers are
those of a map from folded ids to queues, and the list holds the queues of that map. -/
theorem poolRun_eq_queueMap (max : ℕ) (ops : List (PoolOp ε)) :
    Machine.run (QueueMap.step max) (fun _ ↦ []) (ops.map PoolOp.onQueues) =
      (queues (Machine.run (poolStep max) [] ops).1, (Machine.run (poolStep max) [] ops).2) :=
  (Machine.run_abstracts (poolStep_abstracts max) (show DistinctIds ([] : List (EventEntry ε)) from
    nodup_nil) ops).2

/-! ## The pool that the threads share -/

def sharedStep (pool : EventPool ε) : PoolOp ε → EventPool ε
  | .count _ => pool
  | .add uuid notification => Openwsman.memEventPoolAddEvent pool uuid.text notification
  | .addpull uuid notification =>
    (Openwsman.memEventPoolAddPullEvent pool uuid.text notification).getD pool
  | .remove uuid =>
    ((Openwsman.memEventPoolGetAndDeleteEvent pool uuid.text).map Prod.snd).getD pool
  | .clear uuid => Openwsman.memEventPoolClearEvent pool uuid.text

theorem poolQueue_sharedStep (pool : EventPool ε) (op : PoolOp ε) :
    poolQueue (sharedStep pool op) =
      (QueueMap.step maxPullEventNumber (poolQueue pool) op.onQueues).1 := by
  cases op with
  | count uuid => rfl
  | add uuid e =>
    rw [sharedStep, poolQueue_memEventPoolAddEvent, queued_eq_poolQueue]
    rfl
  | addpull uuid e =>
    rw [sharedStep, Openwsman.memEventPoolAddPullEvent, Openwsman.memEventPoolCount,
      queued_eq_poolQueue, PoolOp.onQueues, QueueMap.step]
    split
    · rfl
    · rw [getD_some, poolQueue_memEventPoolAddEvent, queued_eq_poolQueue]
  | remove uuid =>
    rw [sharedStep, PoolOp.onQueues, QueueMap.step]
    cases htake : Openwsman.memEventPoolGetAndDeleteEvent pool uuid.text with
    | none =>
      have hnil := memEventPoolGetAndDeleteEvent_eq_none.mp htake
      rw [queued_eq_poolQueue] at hnil
      rw [hnil]
      rfl
    | some taken =>
      obtain ⟨hhead, hrest⟩ := memEventPoolGetAndDeleteEvent_eq_some htake
      rw [queued_eq_poolQueue] at hhead
      rw [hhead]
      exact hrest
  | clear uuid => exact poolQueue_memEventPoolClearEvent pool uuid.text

end PoolList

end Openwsman
