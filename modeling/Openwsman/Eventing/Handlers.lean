import Openwsman.Eventing.Threads

/-!
# Handlers and the manager

The handler of an Unsubscribe, a Renew or a Pull finds its subscription while it holds the lock of
the list, and gives the lock back. Nothing keeps the manager from removing the subscription before
the handler makes its change. If that happens, the handler changes memory that has been freed and
answers as if the subscription were there.
-/

namespace Openwsman

open List KeyedTable Transition EventWorld

variable {ε : Type} {w w' : EventWorld ε} {l : EventLabel ε}

def HandlesListed (w : EventWorld ε) : EventLabel ε → Prop
  | .change handler | .answer handler => (w.subs.lookup handler.subsInfo).isSome = true
  | _ => True

/-- The manager does not come to a subscription that has ended while a handler is at work with it.
-/
def Undisturbed (w : EventWorld ε) : EventLabel ε → Prop
  | .manager sub now _ _ =>
    removable now sub.info = true → ∀ handler ∈ w.handlers, handler.subsInfo ≠ sub.ref
  | _ => True

theorem ListEffect.isSome_lookup {subs : SubsMemList} {next : ℕ}
    {senders : List (WsEventThreadContext ε)} (heffect : ListEffect w l subs next senders)
    (hbelow : RefsBelow w) {ref : ℕ} (h : (w.subs.lookup ref).isSome = true) :
    (subs.lookup ref).isSome = true ∨ ∃ sub now poll created,
      l = .manager sub now poll created ∧ removable now sub.info = true ∧ sub.ref = ref := by
  have hreplace : ∀ a : Subscription, ((w.subs.replace a).lookup ref).isSome = true := by
    intro a
    rw [Table.lookup_replace]
    split
    · rw [Option.isSome_map]
      exact h
    · exact h
  cases heffect with
  | keep => exact .inl h
  | change listed same pending => exact .inl (hreplace _)
  | @remove sub now poll created listed ended =>
    by_cases href : sub.ref = ref
    · exact .inr ⟨sub, now, poll, created, rfl, ended, href⟩
    · left
      rw [Table.lookup_erase_of_ne href]
      exact h
  | add fresh id flags =>
    left
    rw [Table.lookup_append hbelow.lookup_next]
    split
    · rfl
    · exact h
  | start listed same idle pending => exact .inl (hreplace _)
  | finish alive listed own same done => exact .inl (hreplace _)
  | stray alive gone => exact .inl h

theorem handlers_managerSection (now : ℕ) (poll : EventPoll ε) (created : Bool) (w : EventWorld ε)
    (sub : Subscription) : (managerSection now poll created w sub).handlers = w.handlers := by
  obtain ⟨pool, inserted, hframe⟩ := polled_frame w sub poll.events
  rcases managerSection_cases now poll created w sub with
    ⟨-, heq⟩ | heq | ⟨n, events, pool', -, -, -, -, ⟨-, heq⟩ | ⟨-, -, heq⟩⟩
  · rw [heq]
    rfl
  · rw [heq, hframe]
  · rw [heq, hframe]
  · rw [heq, hframe]
    rfl

theorem handlers_heartbeatSection (now : ℕ) (created : Bool) (w : EventWorld ε)
    (sub : Subscription) : (heartbeatSection now created w sub).handlers = w.handlers := by
  rcases heartbeatSection_cases now created w sub with
    heq | ⟨info, -, -, -, heq | ⟨-, heq⟩⟩
  · rw [heq]
  · rw [heq]
    rfl
  rw [heq, startSender]
  split <;> rfl

theorem EventStep.mem_handlers {host : EventHost} (h : EventStep host w l w') {handler : Handler}
    (hmem : handler ∈ w'.handlers) :
    (∃ old ∈ w.handlers, old.subsInfo = handler.subsInfo) ∨
      (w.subs.lookup handler.subsInfo).isSome = true := by
  have hsame : w'.handlers = w.handlers →
      ∃ old ∈ w.handlers, old.subsInfo = handler.subsInfo := fun heq ↦ ⟨handler, heq ▸ hmem, rfl⟩
  cases h with
  | subscribe free fresh accepted => exact .inl (hsame rfl)
  | insert listed =>
    refine .inl (hsame ?_)
    rw [insertEvent]
    split <;> rfl
  | lock free => exact .inl (hsame rfl)
  | manager holds listed => exact .inl (hsame (handlers_managerSection _ _ _ _ _))
  | heartbeat holds listed => exact .inl (hsame (handlers_heartbeatSection _ _ _ _))
  | unlock done => exact .inl (hsame rfl)
  | send alive =>
    refine .inl (hsame ?_)
    dsimp only
    rw [senderSection]
    split <;> rfl
  | @find request sub free found =>
    rcases mem_append.mp hmem with hold | hnew
    · exact .inl ⟨handler, hold, rfl⟩
    obtain rfl := mem_singleton.mp hnew
    right
    rw [Table.lookup_eq_some_iff.mpr ⟨mem_of_find?_eq_some found, rfl⟩]
    rfl
  | @refuse other before after holds unchanged =>
    refine .inl ⟨handler, ?_, rfl⟩
    rw [holds]
    exact ((sublist_cons_self other after).append_left before).subset hmem
  | @change other before after holds unchanged =>
    rw [holds]
    rcases mem_append.mp hmem with hbefore | hafter
    · exact .inl ⟨handler, mem_append_left _ hbefore, rfl⟩
    rcases mem_cons.mp hafter with rfl | hafter
    · exact .inl ⟨other, by simp, rfl⟩
    · exact .inl ⟨handler, mem_append_right _ (mem_cons_of_mem _ hafter), rfl⟩
  | @answer other before after text holds changed written =>
    refine .inl ⟨handler, ?_, rfl⟩
    rw [holds]
    exact ((sublist_cons_self other after).append_left before).subset hmem

theorem handlers_listed {host : EventHost}
    (h : Reachable ((eventSystem ε host).restrict Undisturbed) w) :
    ∀ handler ∈ w.handlers, (w.subs.lookup handler.subsInfo).isSome = true := by
  refine Reachable.induct
    (P := fun w ↦ ∀ handler ∈ w.handlers, (w.subs.lookup handler.subsInfo).isSome = true)
    (fun w hinit ↦ ?_) (fun w l w' hw ih hstep ↦ ?_) h
  · obtain ⟨repo, rfl⟩ := hinit
    intro handler hmem
    cases hmem
  · intro handler hmem
    obtain ⟨hstep, hquiet⟩ := hstep
    have hbefore : (w.subs.lookup handler.subsInfo).isSome = true := by
      rcases EventStep.mem_handlers hstep hmem with ⟨old, hold, heq⟩ | hlisted
      · exact heq ▸ ih old hold
      · exact hlisted
    rcases (EventStep.effect hstep).isSome_lookup (refsBelow_of_reachable hw.of_restrict) hbefore
      with hafter | ⟨sub, now, poll, created, rfl, hended, href⟩
    · exact hafter
    -- the manager took away the subscription, which no handler had
    exfalso
    cases hstep with
    | manager holds listed =>
      rw [handlers_managerSection] at hmem
      exact hquiet hended handler hmem href.symm

/-- **Handlers.** In every run in which the manager never comes to an ended subscription while a
handler is at work with it, each change of a handler is made to a subscription in the list, and so
it is for each answer. -/
theorem handles_listed {host : EventHost}
    (h : Reachable ((eventSystem ε host).restrict Undisturbed) w) (hstep : EventStep host w l w') :
    HandlesListed w l := by
  have hlisted := handlers_listed h
  cases hstep with
  | @change handler before after holds unchanged => exact hlisted handler (by rw [holds]; simp)
  | @answer handler before after text holds changed written =>
    exact hlisted handler (by rw [holds]; simp)
  | subscribe free fresh accepted => trivial
  | insert listed => trivial
  | lock free => trivial
  | manager holds listed => trivial
  | heartbeat holds listed => trivial
  | unlock done => trivial
  | send alive => trivial
  | find free found => trivial
  | refuse holds unchanged => trivial

def alarmListed : EventWorld ℕ :=
  EventWorld.subscribed { repo := .empty } alarmInfo
    (alarmSubscribe "uuid:first" [] [expiresAt "2027-01-15T08:00:00+00:00"])
    "2027-01-15T08:00:00+00:00"

def renewFound : EventWorld ℕ :=
  { alarmListed with handlers := [{ subsInfo := 0, request := .renew "alarms" 1900000000 }] }

theorem reachable_renewFound :
    Reachable ((eventSystem ℕ alarmHost).restrict Undisturbed) renewFound := by
  have hinit : Reachable ((eventSystem ℕ alarmHost).restrict Undisturbed) { repo := .empty } :=
    .init ⟨.empty, rfl⟩
  have hlisted : Reachable ((eventSystem ℕ alarmHost).restrict Undisturbed) alarmListed :=
    hinit.step ⟨@EventStep.subscribe ℕ alarmHost _ acceptAll "alarms" "uuid:answer" [] _ {}
      1700000000 alarmInfo _ rfl (by decide) succeeds_alarmSubscribe.1, trivial⟩
  exact hlisted.step ⟨@EventStep.find ℕ alarmHost _ (.renew "alarms" 1900000000) ⟨0, alarmInfo⟩ rfl
    rfl, trivial⟩

theorem handles_listed_renew :
    HandlesListed renewFound
      (.change { subsInfo := 0, request := .renew "alarms" 1900000000 } : EventLabel ℕ) :=
  handles_listed reachable_renewFound (@EventStep.change ℕ alarmHost _ _ [] [] rfl rfl)

def renewLate : EventWorld ℕ :=
  { managerSection 1800000000 {} true { renewFound with pass := some ⟨.manager, [0]⟩ }
      ⟨0, alarmInfo⟩ with
    pass := some ⟨.manager, []⟩ }

/-- The Renew of a subscription that has been removed is carried out and answered. -/
theorem renew_of_removed :
    ∃ w w' w'' : EventWorld ℕ, ∃ handler : Handler,
      Reachable (eventSystem ℕ alarmHost) w ∧ EventStep alarmHost w (.change handler) w' ∧
        EventStep alarmHost w' (.answer { handler with changed := true }) w'' ∧
        w.subs.lookup handler.subsInfo = none ∧ w'.subs.lookup handler.subsInfo = none := by
  have hlock := reachable_renewFound.of_restrict.step (@EventStep.lock ℕ alarmHost _ .manager rfl)
  have hlate : Reachable (eventSystem ℕ alarmHost) renewLate :=
    hlock.step (@EventStep.manager ℕ alarmHost _ ⟨0, alarmInfo⟩ [] 1800000000 {} true rfl rfl)
  exact ⟨renewLate, _, _, { subsInfo := 0, request := .renew "alarms" 1900000000 }, hlate,
    @EventStep.change ℕ alarmHost _ _ [] [] rfl rfl,
    @EventStep.answer ℕ alarmHost _ _ [] [] "" rfl rfl (fun sub hsub ↦ by cases hsub), rfl, rfl⟩

end Openwsman
