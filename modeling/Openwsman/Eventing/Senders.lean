import Openwsman.Eventing.Threads

/-!
# One sender at a time

A sender is started only if the flag that a notification is pending is not set, and it clears the
flag at the end of its section. So the flag of a subscription in the list says exactly whether a
sender is at work for it, and the manager does not remove the subscription before.
-/

namespace Openwsman

open List KeyedTable Transition EventWorld

variable {ε : Type}

def senderCount (senders : List (WsEventThreadContext ε)) (ref : ℕ) : ℕ :=
  senders.countP fun thread ↦ thread.subsInfo = ref

variable {senders : List (WsEventThreadContext ε)}

theorem senderCount_eq_zero_iff {ref : ℕ} :
    senderCount senders ref = 0 ↔ ∀ thread ∈ senders, thread.subsInfo ≠ ref := by
  simp [senderCount, countP_eq_zero]

theorem senderCount_append_singleton (senders : List (WsEventThreadContext ε))
    (thread : WsEventThreadContext ε) (ref : ℕ) :
    senderCount (senders ++ [thread]) ref =
      senderCount senders ref + if thread.subsInfo = ref then 1 else 0 := by
  simp [senderCount, countP_append, countP_singleton]

theorem senderCount_middle (before after : List (WsEventThreadContext ε))
    (thread : WsEventThreadContext ε) (ref : ℕ) :
    senderCount (before ++ thread :: after) ref =
      senderCount (before ++ after) ref + if thread.subsInfo = ref then 1 else 0 := by
  simp [senderCount, countP_append, countP_cons, add_assoc]

structure SendersAgree (subs : SubsMemList) (senders : List (WsEventThreadContext ε)) : Prop where
  count : ∀ ref sub, subs.lookup ref = some sub →
    senderCount senders ref = sub.info.flags.notificationPending.toNat
  alive : ∀ thread ∈ senders, (subs.lookup thread.subsInfo).isSome = true

section

variable {subs : SubsMemList} {sub : Subscription} (h : SendersAgree subs senders)

include h

theorem SendersAgree.replace (hsub : subs.lookup sub.ref = some sub)
    {info : WsSubscribeInfo} {senders' : List (WsEventThreadContext ε)}
    (hcount : senderCount senders' sub.ref = info.flags.notificationPending.toNat)
    (hothers : ∀ ref, sub.ref ≠ ref → senderCount senders' ref = senderCount senders ref)
    (hmem : ∀ thread ∈ senders', thread ∈ senders ∨ thread.subsInfo = sub.ref) :
    SendersAgree (subs.replace { sub with info := info }) senders' := by
  constructor
  · intro ref sub' hlookup
    rw [Table.lookup_replace] at hlookup
    split at hlookup
    · next href =>
      obtain rfl : sub.ref = ref := href
      rw [hsub] at hlookup
      cases hlookup
      exact hcount
    · next href =>
      rw [hothers ref href]
      exact h.count ref sub' hlookup
  · intro thread hthread
    rw [Table.lookup_replace]
    split
    · next href =>
      have href : sub.ref = thread.subsInfo := href
      rw [← href, hsub]
      rfl
    · next href =>
      rcases hmem thread hthread with hold | hown
      · exact h.alive thread hold
      · exact absurd hown.symm href

theorem SendersAgree.idle (hsub : subs.lookup sub.ref = some sub)
    (hidle : sub.info.flags.notificationPending = false) : senderCount senders sub.ref = 0 := by
  rw [h.count sub.ref sub hsub, hidle]
  rfl

theorem SendersAgree.erase (hsub : subs.lookup sub.ref = some sub)
    (hidle : sub.info.flags.notificationPending = false) :
    SendersAgree (subs.erase sub.ref) senders := by
  have hnone := senderCount_eq_zero_iff.mp (h.idle hsub hidle)
  constructor
  · intro ref sub' hlookup
    rw [Table.erase, Table.lookup_filter, Option.filter_eq_some_iff] at hlookup
    exact h.count ref sub' hlookup.1
  · intro thread hthread
    rw [Table.lookup_erase_of_ne (hnone thread hthread).symm]
    exact h.alive thread hthread

theorem SendersAgree.append {next : ℕ}
    (hnext : subs.lookup next = none) {info : WsSubscribeInfo} (hflags : info.flags = {}) :
    SendersAgree (subs.append ⟨next, info⟩) senders := by
  constructor
  · intro ref sub hlookup
    rw [Table.lookup_append hnext] at hlookup
    split at hlookup
    · next href =>
      obtain rfl : next = ref := href
      cases hlookup
      rw [hflags]
      -- a sender for the new number would be one for a subscription in the list
      apply senderCount_eq_zero_iff.mpr
      rintro thread hthread rfl
      have halive := h.alive thread hthread
      rw [hnext] at halive
      cases halive
    · exact h.count ref sub hlookup
  · intro thread hthread
    rw [Table.lookup_append hnext]
    split
    · rfl
    · exact h.alive thread hthread

end

theorem ListEffect.sendersAgree {w : EventWorld ε} {l : EventLabel ε} {subs : SubsMemList}
    {next : ℕ} (heffect : ListEffect w l subs next senders) (hbelow : RefsBelow w)
    (h : SendersAgree w.subs w.senders) : SendersAgree subs senders := by
  cases heffect with
  | keep => exact h
  | @change _ sub info listed same pending =>
    refine h.replace listed ?_ (fun _ _ ↦ rfl) (fun _ ↦ .inl)
    rw [pending]
    exact h.count sub.ref sub listed
  | @remove sub now poll created listed ended =>
    refine h.erase listed ?_
    rw [removable, Bool.and_eq_true, Bool.not_eq_true'] at ended
    exact ended.2
  | add fresh id flags => exact h.append hbelow.lookup_next flags
  | @start _ sub info outdoc listed same idle pending =>
    refine h.replace listed ?_ (fun ref href ↦ ?_) (fun thread hthread ↦ ?_)
    · rw [senderCount_append_singleton, h.idle listed idle, pending, if_pos rfl]
      rfl
    · rw [senderCount_append_singleton, if_neg href, add_zero]
    · rcases mem_append.mp hthread with hold | hnew
      · exact .inl hold
      · exact .inr (congrArg _ (mem_singleton.mp hnew))
  | @finish _ sub info thread before after alive listed own same done =>
    have hmiddle := senderCount_middle before after thread
    refine h.replace listed ?_ (fun ref href ↦ ?_) (fun other hother ↦ .inl ?_)
    · have hcount := h.count sub.ref sub listed
      rw [alive, hmiddle, if_pos own] at hcount
      have hle := Bool.toNat_le sub.info.flags.notificationPending
      rw [done]
      show senderCount (before ++ after) sub.ref = 0
      omega
    · rw [alive, hmiddle, if_neg (own ▸ href), add_zero]
    rw [alive]
    rcases mem_append.mp hother with hbefore | hafter
    · exact mem_append_left _ hbefore
    · exact mem_append_right _ (mem_cons_of_mem _ hafter)
  | @stray _ thread before after alive gone =>
    have halive := h.alive thread (by rw [alive]; simp)
    rw [gone] at halive
    cases halive

theorem sendersAgree_of_reachable {host : EventHost} {w : EventWorld ε}
    (h : Reachable (eventSystem ε host) w) : SendersAgree w.subs w.senders := by
  refine Reachable.induct (P := fun w ↦ SendersAgree w.subs w.senders) (fun w hinit ↦ ?_)
    (fun w l w' hw ih hstep ↦ ?_) h
  · obtain ⟨repo, rfl⟩ := hinit
    constructor
    · intro ref sub hlookup
      cases hlookup
    · intro thread hthread
      cases hthread
  · exact (EventStep.effect hstep).sendersAgree (refsBelow_of_reachable hw) ih

/-- **One sender at a time.** At every moment of every run: the flag of a subscription in the list
is set exactly if one sender is at work for it, there is at most one, and every sender at work has
its subscription in the list. -/
theorem pending_iff_sender {host : EventHost} {w : EventWorld ε}
    (h : Reachable (eventSystem ε host) w) :
    (∀ ref sub, w.subs.lookup ref = some sub →
      (sub.info.flags.notificationPending = true ↔ senderCount w.senders ref = 1) ∧
        senderCount w.senders ref ≤ 1) ∧
    ∀ thread ∈ w.senders, (w.subs.lookup thread.subsInfo).isSome = true := by
  have hagree := sendersAgree_of_reachable h
  refine ⟨fun ref sub hsub ↦ ?_, hagree.alive⟩
  rw [hagree.count ref sub hsub]
  cases sub.info.flags.notificationPending <;> simp

def sink : Subscription := ⟨0, { alarmInfo with expires := 0 }⟩

def sinkListed : EventWorld ℕ :=
  EventWorld.subscribed { repo := .empty } sink.info (alarmSubscribe "uuid:first" [] [])
    "1970-01-01T00:00:00+00:00"

def sinkVisited : EventWorld ℕ :=
  { sinkListed.insertEvent sink 1 with pass := some ⟨.manager, [0]⟩ }

def sinkPending : EventWorld ℕ :=
  { managerSection 5 {} true sinkVisited sink with pass := some ⟨.manager, []⟩ }

theorem reachable_sinkListed : Reachable (eventSystem ℕ alarmHost) sinkListed :=
  .step (.init ⟨.empty, rfl⟩)
    (@EventStep.subscribe ℕ alarmHost _ acceptAll "alarms" "uuid:answer" [] _ {} 1700000000 _ _ rfl
      (by decide) succeeds_endlessSubscribe.1)

theorem reachable_sinkPending : Reachable (eventSystem ℕ alarmHost) sinkPending := by
  have hinsert : Reachable (eventSystem ℕ alarmHost) (sinkListed.insertEvent sink 1) :=
    reachable_sinkListed.step (.insert rfl)
  have hlock : Reachable (eventSystem ℕ alarmHost) sinkVisited :=
    hinsert.step (@EventStep.lock ℕ alarmHost _ .manager rfl)
  exact hlock.step (@EventStep.manager ℕ alarmHost _ sink [] 5 {} true rfl rfl)

theorem pending_iff_sender_sink :
    (sinkPending.senders.length = 1 ∧ ∀ ref sub, sinkPending.subs.lookup ref = some sub →
      (sub.info.flags.notificationPending = true ↔ senderCount sinkPending.senders ref = 1) ∧
        senderCount sinkPending.senders ref ≤ 1) ∧
    ∀ thread ∈ sinkPending.senders, (sinkPending.subs.lookup thread.subsInfo).isSome = true :=
  ⟨⟨rfl, (pending_iff_sender reachable_sinkPending).1⟩,
    (pending_iff_sender reachable_sinkPending).2⟩

end Openwsman
