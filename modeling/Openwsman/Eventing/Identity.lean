import Openwsman.Eventing.Startup
import Openwsman.Eventing.Threads

/-!
# The ids of the subscriptions

A new subscription gets a generated id, unless the request has a header `FormerUID`: then it gets
the id in that header. The header is meant for the requests in the repository, but any client may
send it, and nobody looks whether a subscription with the id is in the list. When the server starts,
each subscription gets its id from the name of its file, so then the ids are different.
-/

namespace Openwsman

open CResult List KeyedTable Transition EventWorld

/-! ## What start-up does to the ids -/

section

variable {ρ : Type} [DecidableEq ρ] {srv : EventServer ρ} {endPoint : EventEndPoint}
  {newId uuid : SubsFile → String} {now : ℕ} {st st' : Loading} {file : SubsFile}

theorem subs_dispatchFile {s : EventState}
    (h : (dispatchFile srv endPoint newId uuid now st file).service = .value s) :
    s.subs = st.state.subs ∨ ∃ info, FreshSubs info ∧ s.subs = st.state.subs ++ [info] := by
  rw [dispatchFile] at h
  split at h
  · next disp _ _ =>
    rcases eventRequest_cases srv.host (stubFor srv endPoint newId now file disp) (uuid file) st.ids
        st.state file.doc {} with
      ⟨-, op, -, -, ⟨-, hundef⟩ | ⟨s', out, hstub, hservice, -⟩⟩ | ⟨-, hservice, -⟩
    · cases hundef.symm.trans h
    · cases hservice.symm.trans h
      rw [stubFor] at hstub
      split at hstub
      · rcases wseSubscribeStub_cases hstub with ⟨rfl, -⟩ | ⟨info, text, hcreate, -, -, rfl, -⟩
        · exact .inl rfl
        · exact .inr ⟨info, freshSubs_of_createSubsInfo hcreate, rfl⟩
      · cases hstub
        exact .inl rfl
    · cases hservice.symm.trans h
      exact .inl rfl
  · cases h
    exact .inl rfl

theorem copyId_eq_value {text id : String} (h : copyId text = .value id) : id = text := by
  rw [copyId] at h
  split at h
  · cases h
    rfl
  · cases h

theorem subs_loadFile (h : loadFile srv endPoint newId uuid now st file = .value st') :
    st'.state.subs = st.state.subs ∨
      ∃ info, FreshSubs info ∧ info.subsId = file.id ∧
        st'.state.subs = st.state.subs ++ [info] := by
  rw [loadFile] at h
  split at h
  · split at h
    · cases h
      exact .inl rfl
    rw [wsmanReposNotificationDispatcher] at h
    obtain ⟨s, hservice, h⟩ := bind_eq_value.mp h
    split at h
    · next hlonger =>
      obtain ⟨id, hid, h⟩ := bind_eq_value.mp h
      cases h
      obtain rfl := copyId_eq_value hid
      rcases subs_dispatchFile hservice with hsame | ⟨info, hfresh, hadd⟩
      · rw [hsame] at hlonger
        exact absurd hlonger (lt_irrefl _)
      right
      dsimp only
      rw [hadd, renameLast_append]
      exact ⟨{ info with subsId := file.id }, ⟨hfresh.flags, hfresh.countdown⟩, rfl, rfl⟩
    · next hlonger =>
      cases h
      rcases subs_dispatchFile hservice with hsame | ⟨info, -, hadd⟩
      · exact .inl hsame
      · rw [hadd, length_append] at hlonger
        exact absurd (Nat.lt_succ_self _) hlonger
  · cases h
    exact .inl rfl

variable {files : List SubsFile}

theorem ids_loadFiles (h : loadFiles srv endPoint newId uuid now st files = .value st') :
    (st'.state.subs.map WsSubscribeInfo.subsId).Sublist
      (st.state.subs.map WsSubscribeInfo.subsId ++ files.map SubsFile.id) := by
  induction files generalizing st with
  | nil =>
    rw [loadFiles] at h
    cases h
    rw [map_nil, append_nil]
  | cons file files ih =>
    rw [loadFiles] at h
    obtain ⟨st₁, hload, h⟩ := bind_eq_value.mp h
    refine (ih h).trans ?_
    rw [map_cons]
    rcases subs_loadFile hload with heq | ⟨info, -, hid, heq⟩
    · rw [heq]
      exact (Sublist.refl _).append (sublist_cons_self _ _)
    · rw [heq, map_append, map_singleton, hid, append_assoc, singleton_append]

theorem freshSubs_loadFiles (h : loadFiles srv endPoint newId uuid now st files = .value st')
    (hst : ∀ info ∈ st.state.subs, FreshSubs info) : ∀ info ∈ st'.state.subs, FreshSubs info := by
  induction files generalizing st with
  | nil =>
    rw [loadFiles] at h
    cases h
    exact hst
  | cons file files ih =>
    rw [loadFiles] at h
    obtain ⟨st₁, hload, h⟩ := bind_eq_value.mp h
    apply ih h
    rcases subs_loadFile hload with heq | ⟨info, hfresh, -, heq⟩
    · rw [heq]
      exact hst
    · rw [heq, forall_mem_append, forall_mem_singleton]
      exact ⟨hst, hfresh⟩

theorem nodup_ids_wsmanEventInit {repo : SubsRepository} (hfiles : files.Perm repo.entries)
    (h : wsmanEventInit srv endPoint newId uuid now repo files = .value st) :
    (st.state.subs.map WsSubscribeInfo.subsId).Nodup := by
  have hsublist := ids_loadFiles h
  rw [map_nil, nil_append] at hsublist
  refine Nodup.sublist hsublist ?_
  exact (hfiles.map SubsFile.id).nodup_iff.mpr repo.nodup

end

/-! ## Runs with restarts -/

variable {ε : Type}

def EventWorld.restarted (s : EventState) : EventWorld ε := s.subs.foldl listed { repo := s.repo }

inductive EventServerLabel (ε : Type) where
  | event (l : EventLabel ε)
  | reload

inductive EventServerStep {ρ : Type} [DecidableEq ρ] (srv : EventServer ρ) :
    EventWorld ε → EventServerLabel ε → EventWorld ε → Prop
  | event {w l w'} (h : EventStep srv.host w l w') : EventServerStep srv w (.event l) w'
  | reload {w endPoint newId uuid now files st} (hfiles : files.Perm w.repo.entries)
      (h : wsmanEventInit srv endPoint newId uuid now w.repo files = .value st) :
      EventServerStep srv w .reload (restarted st.state)

def eventServerSystem (ε : Type) {ρ : Type} [DecidableEq ρ] (srv : EventServer ρ) :
    System (EventWorld ε) (EventServerLabel ε) where
  Init w := ∃ repo, w = { repo := repo }
  Step := EventServerStep srv

def NamesNoListed (w : EventWorld ε) : EventServerLabel ε → Prop
  | .event (.subscribe _ doc) => ∀ id, formerUid doc = some id → id ∉ w.subsIds
  | _ => True

variable {w : EventWorld ε}

theorem RefsBelow.listed (h : RefsBelow w) (info : WsSubscribeInfo) :
    RefsBelow (w.listed info) := by
  intro ref sub hlookup
  rw [lookup_listed h.lookup_next] at hlookup
  split at hlookup
  · next heq => exact heq ▸ Nat.lt_succ_self _
  · exact Nat.lt_succ_of_lt (h ref sub hlookup)

theorem subsIds_foldl_listed (h : RefsBelow w) (infos : List WsSubscribeInfo) :
    RefsBelow (infos.foldl EventWorld.listed w) ∧
      (infos.foldl EventWorld.listed w).subsIds =
        w.subsIds ++ infos.map WsSubscribeInfo.subsId := by
  induction infos generalizing w with
  | nil => exact ⟨h, (append_nil _).symm⟩
  | cons info infos ih =>
    obtain ⟨hbelow, hids⟩ := ih (RefsBelow.listed h info)
    refine ⟨hbelow, hids.trans ?_⟩
    have hentries : (w.listed info).subsIds = w.subsIds ++ [info.subsId] := by
      rw [subsIds, EventWorld.listed]
      dsimp only
      rw [Table.entries_append h.lookup_next, map_append]
      rfl
    rw [hentries, append_assoc, map_cons, singleton_append]

theorem refsBelow_empty (repo : SubsRepository) : RefsBelow ({ repo := repo } : EventWorld ε) := by
  intro ref sub hlookup
  cases hlookup

theorem ListEffect.subsIds {l : EventLabel ε} {subs : SubsMemList} {next : ℕ}
    {senders : List (WsEventThreadContext ε)} (heffect : ListEffect w l subs next senders)
    (hbelow : RefsBelow w) :
    (subs.entries.map fun sub ↦ sub.info.subsId).Sublist w.subsIds ∨
      ∃ newId doc, l = .subscribe newId doc ∧ newId ∉ w.subsIds ∧
        (subs.entries.map fun sub ↦ sub.info.subsId) =
          w.subsIds ++ [(formerUid doc).getD newId] := by
  have hreplace : ∀ {sub : Subscription} {info : WsSubscribeInfo},
      w.subs.lookup sub.ref = some sub → SameSubs sub.info info →
      ((w.subs.replace { sub with info := info }).entries.map fun sub ↦ sub.info.subsId).Sublist
        w.subsIds := by
    intro sub info listed same
    have heq : ((w.subs.replace { sub with info := info }).entries.map fun sub ↦ sub.info.subsId) =
        w.subsIds := by
      rw [Table.replace, EventWorld.subsIds]
      dsimp only
      rw [map_map]
      apply map_congr_left
      intro other hother
      dsimp only [Function.comp_apply]
      split
      · next href =>
        have hlookup := Table.lookup_eq_some_iff.mpr ⟨hother, href⟩
        cases listed.symm.trans hlookup
        exact same.subsId
      · rfl
    rw [heq]
  cases heffect with
  | keep => exact .inl (Sublist.refl _)
  | change listed same pending => exact .inl (hreplace listed same)
  | remove listed ended => exact .inl (filter_sublist.map _)
  | @add newId doc info fresh id flags =>
    refine .inr ⟨newId, doc, rfl, fresh, ?_⟩
    rw [Table.entries_append hbelow.lookup_next, map_append, ← id]
    rfl
  | start listed same idle pending => exact .inl (hreplace listed same)
  | finish alive listed own same done => exact .inl (hreplace listed same)
  | stray alive gone => exact .inl (Sublist.refl _)

/-- **Ids.** In every run, over restarts, in which no client names the id of a subscription in the
list, the ids of the subscriptions are different. -/
theorem subsIds_nodup {ρ : Type} [DecidableEq ρ] {srv : EventServer ρ} {w : EventWorld ε}
    (h : Reachable ((eventServerSystem ε srv).restrict NamesNoListed) w) : w.subsIds.Nodup := by
  refine (Reachable.induct (P := fun w ↦ RefsBelow w ∧ w.subsIds.Nodup) (fun w hinit ↦ ?_)
    (fun w l w' _ ih hstep ↦ ?_) h).2
  · obtain ⟨repo, rfl⟩ := hinit
    exact ⟨refsBelow_empty repo, nodup_nil⟩
  obtain ⟨hbelow, hnodup⟩ := ih
  obtain ⟨hstep, hnames⟩ := hstep
  cases hstep with
  | event hevent =>
    refine ⟨hevent.refsBelow hbelow, ?_⟩
    rcases hevent.effect.subsIds hbelow with hsublist | ⟨newId, doc, rfl, hfresh, heq⟩
    · exact hnodup.sublist hsublist
    rw [EventWorld.subsIds, heq, nodup_append]
    refine ⟨hnodup, nodup_singleton _, fun id hid id' hid' ↦ ?_⟩
    obtain rfl := mem_singleton.mp hid'
    -- the id was generated, or the client chose one that is not in the list
    rintro rfl
    cases hformer : formerUid doc with
    | none =>
      rw [hformer] at hid
      exact hfresh hid
    | some former =>
      rw [hformer] at hid
      exact hnames former hformer hid
  | reload hfiles hinit =>
    obtain ⟨hbelow', hids⟩ := subsIds_foldl_listed (refsBelow_empty _) _
    exact ⟨hbelow', hids ▸ nodup_ids_wsmanEventInit hfiles hinit⟩

def alarmReloaded : EventWorld ℕ :=
  restarted (EventState.subscribed ⟨[], alarmRepository⟩ (alarmRecord firstAlarmId).2
    (alarmRecord firstAlarmId).1.doc "2030-03-17T17:46:40+00:00")

theorem subsIds_nodup_reloaded :
    alarmReloaded.subsIds = [firstAlarmId] ∧ alarmReloaded.subsIds.Nodup := by
  have hinit : Reachable ((eventServerSystem ℕ alarmServer).restrict NamesNoListed)
      { repo := alarmRepository } := .init ⟨alarmRepository, rfl⟩
  have hreload : Reachable ((eventServerSystem ℕ alarmServer).restrict NamesNoListed)
      alarmReloaded :=
    hinit.step ⟨@EventServerStep.reload ℕ Unit _ alarmServer _ acceptAll (fun _ ↦ "new")
      (fun _ ↦ "uuid:answer") 1700000000 [(alarmRecord firstAlarmId).1] ⟨["uuid:first"], _⟩
      (Perm.refl _) rfl, trivial⟩
  exact ⟨by decide, subsIds_nodup hreload⟩

def intruder : WsXmlNode :=
  alarmSubscribe "uuid:second" [.elem xmlNsOpenwsman "FormerUID" [.text "alarms"]] []

def alarmTwice : EventWorld ℕ :=
  EventWorld.subscribed
    (EventWorld.subscribed { repo := .empty } { alarmInfo with expires := 0 }
      (alarmSubscribe "uuid:first" [] []) "1970-01-01T00:00:00+00:00")
    { alarmInfo with expires := 0 } intruder "1970-01-01T00:00:00+00:00"

/-- A client takes the id of a subscription in the list. -/
theorem id_taken_twice :
    Reachable (eventServerSystem ℕ alarmServer) alarmTwice ∧
      alarmTwice.subsIds = ["alarms", "alarms"] := by
  refine ⟨?_, by decide⟩
  have hinit : Reachable (eventServerSystem ℕ alarmServer) { repo := .empty } := .init ⟨.empty, rfl⟩
  have hfirst := hinit.step (.event (@EventStep.subscribe ℕ alarmHost _ acceptAll "alarms"
    "uuid:answer" [] (alarmSubscribe "uuid:first" [] []) {} 1700000000
    { alarmInfo with expires := 0 } _ rfl (by decide) succeeds_endlessSubscribe.1))
  exact hfirst.step (.event (@EventStep.subscribe ℕ alarmHost _ acceptAll "other" "uuid:answer" []
    intruder {} 5 _ _ rfl (by decide) rfl))

end Openwsman
