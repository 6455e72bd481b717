import Mathlib.Logic.Function.Basic
import Openwsman.Lib.KeyedTable
import Openwsman.Libc.Text

/-!
# The event pool

`wsman-event-pool.c` keeps the events of each subscription in a queue of its own. The queue is found
by the id of the subscription, without regard to case, and it is made when the first event is added.

The functions are described by `queued`, the events that wait for an id. Two ids that differ only in
case have the same queue; `poolQueue` has the queues by what the ids have in common.
-/

namespace Openwsman

open Function List KeyedTable

structure EventEntry (ε : Type) where
  subscriptionId : String
  eventContentList : List ε

def EventEntry.key {ε : Type} (entry : EventEntry ε) : List Char := foldCase entry.subscriptionId

abbrev EventPool (ε : Type) := Table (EventEntry.key (ε := ε))

def maxPullEventNumber : ℕ := 16

variable {ε : Type}

/-! ## The functions -/

def poolEntry (pool : EventPool ε) (uuid : String) : EventEntry ε :=
  (pool.lookup (foldCase uuid)).getD ⟨uuid, []⟩

def queued (pool : EventPool ε) (uuid : String) : List ε := (poolEntry pool uuid).eventContentList

def memEventPoolCount (pool : EventPool ε) (uuid : String) : ℕ := (queued pool uuid).length

def memEventPoolAddEvent (pool : EventPool ε) (uuid : String) (notification : ε) : EventPool ε :=
  let entry := poolEntry pool uuid
  pool.put { entry with eventContentList := entry.eventContentList ++ [notification] }

def memEventPoolAddPullEvent (pool : EventPool ε) (uuid : String) (notification : ε) :
    Option (EventPool ε) :=
  if maxPullEventNumber < memEventPoolCount pool uuid then none
  else some (memEventPoolAddEvent pool uuid notification)

def memEventPoolGetAndDeleteEvent (pool : EventPool ε) (uuid : String) :
    Option (ε × EventPool ε) :=
  let entry := poolEntry pool uuid
  match entry.eventContentList with
  | [] => none
  | notification :: rest => some (notification, pool.put { entry with eventContentList := rest })

def memEventPoolClearEvent (pool : EventPool ε) (uuid : String) : EventPool ε :=
  pool.erase (foldCase uuid)

def takeEvents (pool : EventPool ε) (uuid : String) : ℕ → List ε × EventPool ε
  | 0 => ([], pool)
  | n + 1 =>
    match memEventPoolGetAndDeleteEvent pool uuid with
    | none => ([], pool)
    | some (notification, pool) =>
      let (notifications, pool) := takeEvents pool uuid n
      (notification :: notifications, pool)

/-! ## What waits afterwards -/

def poolQueue (pool : EventPool ε) (key : List Char) : List ε :=
  ((pool.lookup key).map EventEntry.eventContentList).getD []

variable (pool : EventPool ε) (uuid : String)

theorem queued_eq_poolQueue : queued pool uuid = poolQueue pool (foldCase uuid) := by
  rw [queued, poolEntry, poolQueue]
  cases pool.lookup (foldCase uuid) <;> rfl

theorem key_poolEntry : (poolEntry pool uuid).key = foldCase uuid := by
  rw [poolEntry]
  cases h : pool.lookup (foldCase uuid) with
  | none => rfl
  | some entry => exact Table.key_of_lookup h

theorem poolQueue_put (events : List ε) :
    poolQueue (pool.put { poolEntry pool uuid with eventContentList := events }) =
      Function.update (poolQueue pool) (foldCase uuid) events := by
  have hkey : EventEntry.key { poolEntry pool uuid with eventContentList := events } =
      foldCase uuid := key_poolEntry pool uuid
  funext k
  rw [poolQueue, Table.lookup_put, hkey, update_apply]
  by_cases hk : foldCase uuid = k
  · rw [if_pos hk, if_pos hk.symm]
    rfl
  · rw [if_neg hk, if_neg (Ne.symm hk)]
    rfl

theorem poolQueue_memEventPoolAddEvent (e : ε) :
    poolQueue (memEventPoolAddEvent pool uuid e) =
      Function.update (poolQueue pool) (foldCase uuid) (queued pool uuid ++ [e]) := by
  rw [memEventPoolAddEvent, poolQueue_put]
  rfl

theorem poolQueue_memEventPoolClearEvent :
    poolQueue (memEventPoolClearEvent pool uuid) =
      Function.update (poolQueue pool) (foldCase uuid) [] := by
  funext k
  rw [memEventPoolClearEvent, poolQueue, update_apply]
  by_cases hk : k = foldCase uuid
  · rw [if_pos hk, hk, Table.lookup_erase_self]
    rfl
  · rw [if_neg hk, Table.lookup_erase_of_ne (Ne.symm hk)]
    rfl

theorem memEventPoolGetAndDeleteEvent_eq_none {pool : EventPool ε} {uuid : String} :
    memEventPoolGetAndDeleteEvent pool uuid = none ↔ queued pool uuid = [] := by
  rw [memEventPoolGetAndDeleteEvent, queued]
  cases (poolEntry pool uuid).eventContentList <;> simp

theorem memEventPoolGetAndDeleteEvent_eq_some {pool pool' : EventPool ε} {uuid : String} {e : ε}
    (h : memEventPoolGetAndDeleteEvent pool uuid = some (e, pool')) :
    queued pool uuid = e :: queued pool' uuid ∧
      poolQueue pool' = Function.update (poolQueue pool) (foldCase uuid) (queued pool' uuid) := by
  rw [memEventPoolGetAndDeleteEvent] at h
  split at h
  · cases h
  next notification rest hlist =>
  cases h
  rw [queued_eq_poolQueue (pool.put _), poolQueue_put, update_self]
  exact ⟨hlist, rfl⟩

theorem takeEvents_fst (n : ℕ) : (takeEvents pool uuid n).1 = (queued pool uuid).take n := by
  induction n generalizing pool with
  | zero => rw [takeEvents, take_zero]
  | succ n ih =>
    rw [takeEvents]
    cases h : memEventPoolGetAndDeleteEvent pool uuid with
    | none => rw [memEventPoolGetAndDeleteEvent_eq_none.mp h, take_nil]
    | some taken =>
      obtain ⟨e, pool'⟩ := taken
      rw [(memEventPoolGetAndDeleteEvent_eq_some h).1, take_succ_cons, ← ih]

theorem poolQueue_takeEvents (n : ℕ) :
    poolQueue (takeEvents pool uuid n).2 =
      Function.update (poolQueue pool) (foldCase uuid) ((queued pool uuid).drop n) := by
  induction n generalizing pool with
  | zero => rw [takeEvents, drop_zero, queued_eq_poolQueue, update_eq_self]
  | succ n ih =>
    rw [takeEvents]
    cases h : memEventPoolGetAndDeleteEvent pool uuid with
    | none =>
      have hnil := memEventPoolGetAndDeleteEvent_eq_none.mp h
      dsimp only
      rw [hnil, drop_nil, ← hnil, queued_eq_poolQueue, update_eq_self]
    | some taken =>
      obtain ⟨e, pool'⟩ := taken
      obtain ⟨hhead, hqueue⟩ := memEventPoolGetAndDeleteEvent_eq_some h
      dsimp only
      rw [ih, hqueue, update_idem, hhead, drop_succ_cons]

end Openwsman
