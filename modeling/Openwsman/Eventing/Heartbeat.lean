import Openwsman.Eventing.Identity
import Openwsman.Eventing.Senders
import Openwsman.Lib.Segment

/-!
# Heartbeats come in time

The heartbeat generator makes a pass over the list every second and takes a second off the countdown
of each subscription with heartbeats. When a countdown runs out, a heartbeat is sent, unless a
notification was sent since the countdown ran out the last time; then only the mark for that is
cleared. The mark is set by the sender of the notification, when it is at work.

So a countdown may run out and nothing is started, but not twice in a row. A pass that finds a
sender at work when the countdown runs out would start none, and is excluded.
-/

namespace Openwsman

open Nat Option List KeyedTable Transition EventWorld

variable {ε : Type} {host : EventHost} {w w' : EventWorld ε} {l : EventLabel ε} {ref : ℕ}

/-! ## What the generator reads -/

structure SameBeat (info info' : WsSubscribeInfo) : Prop where
  deliveryMode : info'.deliveryMode = info.deliveryMode
  interval : info'.heartbeatInterval = info.heartbeatInterval
  countdown : info'.heartbeatCountdown = info.heartbeatCountdown
  sent : info'.eventSentLastTime = info.eventSentLastTime

theorem SameBeat.refl (info : WsSubscribeInfo) : SameBeat info info := ⟨rfl, rfl, rfl, rfl⟩

variable {sub' : Subscription}

variable {sub : Subscription}

theorem sameBeat_of_lookup {found : Option Subscription} (hsub : found = some sub)
    (hsub' : found = some sub') : SameBeat sub.info sub'.info := by
  obtain rfl := some.inj (hsub.symm.trans hsub')
  exact .refl sub.info

theorem SameBeat.timing {info info' : WsSubscribeInfo} {p : Prop}
    (h : SameBeat info info' ∨ (SameBeat { info with eventSentLastTime := true } info' ∧ p)) :
    info'.deliveryMode = info.deliveryMode ∧ info'.heartbeatInterval = info.heartbeatInterval ∧
      info'.heartbeatCountdown = info.heartbeatCountdown := by
  rcases h with hsame | ⟨hsame, -⟩ <;> exact ⟨hsame.deliveryMode, hsame.interval, hsame.countdown⟩

theorem sameBeat_replace {subs : SubsMemList} {changed sub : Subscription} (info : WsSubscribeInfo)
    (hchanged : subs.lookup changed.ref = some changed) (hsame : SameBeat changed.info info)
    (hsub : subs.lookup ref = some sub)
    (hsub' : (subs.replace { changed with info := info }).lookup ref = some sub') :
    SameBeat sub.info sub'.info := by
  rw [Table.lookup_replace] at hsub'
  split at hsub'
  · next href =>
    obtain rfl : changed.ref = ref := href
    rw [hchanged] at hsub hsub'
    cases hsub
    cases hsub'
    exact hsame
  · exact sameBeat_of_lookup hsub hsub'

def isBeat (ref : ℕ) (step : EventWorld ε × EventLabel ε × EventWorld ε) : Bool :=
  match step.2.1 with
  | .heartbeat sub _ _ => sub.ref == ref
  | _ => false

theorem sameBeat_of_subs_eq (hsubs : w'.subs = w.subs) (hsub : w.subs.lookup ref = some sub)
    (hsub' : w'.subs.lookup ref = some sub') :
    SameBeat sub.info sub'.info := by
  rw [hsubs] at hsub'
  exact sameBeat_of_lookup hsub hsub'

theorem subs_insertEvent (w : EventWorld ε) (sub : Subscription) (e : ε) :
    (w.insertEvent sub e).subs = w.subs := by
  rw [insertEvent]
  split <;> rfl

theorem sameBeat_managerSection {visited sub : Subscription} (now : ℕ) (poll : EventPoll ε)
    (created : Bool) (listed : w.subs.lookup visited.ref = some visited)
    (hsub : w.subs.lookup ref = some sub)
    (hsub' : (managerSection now poll created w visited).subs.lookup ref = some sub') :
    SameBeat sub.info sub'.info := by
  obtain ⟨pool, inserted, hframe⟩ := polled_frame w visited poll.events
  rcases managerSection_cases now poll created w visited with
    ⟨-, heq⟩ | heq | ⟨n, events, pool', -, -, -, -, ⟨-, heq⟩ | ⟨-, -, heq⟩⟩
  · rw [heq, lookup_removed] at hsub'
    split at hsub'
    · cases hsub'
    · exact sameBeat_of_lookup hsub hsub'
  · rw [heq, hframe] at hsub'
    exact sameBeat_of_lookup hsub hsub'
  · rw [heq, hframe] at hsub'
    exact sameBeat_of_lookup hsub hsub'
  · rw [heq, hframe] at hsub'
    exact sameBeat_replace (visited.info.withPending true) listed ⟨rfl, rfl, rfl, rfl⟩ hsub hsub'

theorem lookup_heartbeatSection_of_ne {visited : Subscription} (now : ℕ) (created : Bool)
    (href : visited.ref ≠ ref) :
    (heartbeatSection now created w visited).subs.lookup ref = w.subs.lookup ref := by
  have hset : ∀ (v : EventWorld ε) (info : WsSubscribeInfo),
      (v.setInfo visited info).subs.lookup ref = v.subs.lookup ref := by
    intro v info
    rw [setInfo, Table.lookup_replace, if_neg href]
  rcases heartbeatSection_cases now created w visited with
    heq | ⟨info, -, -, -, heq | ⟨-, heq⟩⟩
  · rw [heq]
  · rw [heq, hset]
  rw [heq, startSender]
  cases created with
  | true => exact (Table.lookup_replace _ _ _).trans ((if_neg href).trans (hset w info))
  | false => exact hset w info

theorem sameBeat_changeSection {handler : Handler} (hsub : w.subs.lookup ref = some sub)
    (hsub' : (changeSection w handler).subs.lookup ref = some sub') :
    SameBeat sub.info sub'.info := by
  rw [changeSection] at hsub'
  split at hsub'
  · exact sameBeat_of_lookup hsub hsub'
  next changed hchanged =>
  have href : changed.ref = handler.subsInfo := Table.key_of_lookup hchanged
  rw [← href] at hchanged
  split at hsub'
  · exact sameBeat_replace changed.info.unsubscribed hchanged ⟨rfl, rfl, rfl, rfl⟩ hsub hsub'
  · next expires _ =>
    exact sameBeat_replace (changed.info.withExpires expires) hchanged ⟨rfl, rfl, rfl, rfl⟩ hsub
      hsub'
  · exact sameBeat_of_lookup hsub hsub'

theorem beat_senderSection {thread : WsEventThreadContext ε} (now : ℕ) (acked : Bool)
    (hsub : w.subs.lookup ref = some sub)
    (hsub' : (senderSection now acked w thread).subs.lookup ref = some sub') :
    SameBeat sub.info sub'.info ∨
      (SameBeat { sub.info with eventSentLastTime := true } sub'.info ∧ thread.subsInfo = ref) := by
  rw [senderSection] at hsub'
  split at hsub'
  · exact .inl (sameBeat_of_lookup hsub hsub')
  next served hserved =>
  have href : served.ref = thread.subsInfo := Table.key_of_lookup hserved
  rw [lookup_setInfo (href ▸ hserved)] at hsub'
  split at hsub'
  · next hown =>
    obtain rfl : served = sub := by
      rw [← href, hown] at hserved
      exact some.inj (hserved.symm.trans hsub)
    cases hsub'
    cases hout : thread.outdoc.isSome with
    | false => exact .inl ⟨rfl, rfl, rfl, by simp [afterSending]⟩
    | true => exact .inr ⟨⟨rfl, rfl, rfl, by simp [afterSending]⟩, href.symm.trans hown⟩
  · exact .inl (sameBeat_of_lookup hsub hsub')

theorem EventStep.beat_cases (h : EventStep host w l w') (hbelow : RefsBelow w)
    (hsub : w.subs.lookup ref = some sub) :
    (∃ now created ahead, l = .heartbeat sub now created ∧
      w' = { heartbeatSection now created w sub with pass := some ⟨.heartbeat, ahead⟩ }) ∨
    (isBeat ref (w, l, w') = false ∧
      ∀ sub', w'.subs.lookup ref = some sub' →
        SameBeat sub.info sub'.info ∨
          (SameBeat { sub.info with eventSentLastTime := true } sub'.info ∧
            0 < senderCount w.senders ref)) := by
  have hkeep : ∀ v : EventWorld ε, v.subs = w.subs → ∀ sub', v.subs.lookup ref = some sub' →
      SameBeat sub.info sub'.info ∨
        (SameBeat { sub.info with eventSentLastTime := true } sub'.info ∧
          0 < senderCount w.senders ref) :=
    fun v hsubs sub' hsub' ↦ .inl (sameBeat_of_subs_eq hsubs hsub hsub')
  cases h with
  | @subscribe endPoint newId uuid ids doc msg now info text free fresh accepted =>
    refine .inr ⟨rfl, fun sub' hsub' ↦ .inl ?_⟩
    have hlisted : (w.listed info).subs.lookup ref = some sub' := hsub'
    rw [lookup_listed hbelow.lookup_next, if_neg (ne_of_gt (hbelow ref sub hsub))] at hlisted
    exact sameBeat_of_lookup hsub hlisted
  | insert listed =>
    exact .inr ⟨rfl, hkeep _ (subs_insertEvent _ _ _)⟩
  | lock free => exact .inr ⟨rfl, hkeep _ rfl⟩
  | @manager visited ahead now poll created holds listed =>
    refine .inr ⟨rfl, fun sub' hsub' ↦ .inl ?_⟩
    exact sameBeat_managerSection now poll created listed hsub hsub'
  | @heartbeat visited ahead now created holds listed =>
    by_cases href : visited.ref = ref
    · obtain rfl : visited = sub := by
        rw [href] at listed
        exact some.inj (listed.symm.trans hsub)
      exact .inl ⟨now, created, ahead, rfl, rfl⟩
    · refine .inr ⟨beq_false_of_ne href, fun sub' hsub' ↦ .inl ?_⟩
      have hother := lookup_heartbeatSection_of_ne (w := w) now created href
      exact sameBeat_of_lookup hsub (hother.symm.trans hsub')
  | unlock done => exact .inr ⟨rfl, hkeep _ rfl⟩
  | @send thread before after now acked alive =>
    refine .inr ⟨rfl, fun sub' hsub' ↦ ?_⟩
    rcases beat_senderSection now acked hsub hsub' with hsame | ⟨hmarked, hown⟩
    · exact .inl hsame
    · refine .inr ⟨hmarked, ?_⟩
      rw [alive, senderCount_middle, if_pos hown]
      exact succ_pos _
  | find free found => exact .inr ⟨rfl, hkeep _ rfl⟩
  | refuse holds unchanged => exact .inr ⟨rfl, hkeep _ rfl⟩
  | change holds unchanged =>
    exact .inr ⟨rfl, fun sub' hsub' ↦ .inl (sameBeat_changeSection hsub hsub')⟩
  | @answer handler before after text holds changed written =>
    refine .inr ⟨rfl, hkeep _ ?_⟩
    rw [answerSection]
    split <;> rfl

/-! ## The section of the heartbeat generator -/

section Section

variable {now : ℕ} {created : Bool} {sub : Subscription}

structure IsCounted (now : ℕ) (info : WsSubscribeInfo) : Prop where
  subscribed : info.flags.unsubscribe = false
  unexpired : timeExpired info.expires now = false
  interval : info.heartbeatInterval ≠ 0
  deliveryMode : info.deliveryMode ≠ .pull

theorem heartbeatSection_of_isCounted (h : IsCounted now sub.info) :
    heartbeatSection now created w sub =
      if 0 < sub.info.heartbeatCountdown - 1000 then
        w.setInfo sub
          { sub.info with heartbeatCountdown := sub.info.heartbeatCountdown - 1000 }
      else
        let info := { sub.info with heartbeatCountdown := toTimeT sub.info.heartbeatInterval }
        if info.eventSentLastTime then w.setInfo sub { info with eventSentLastTime := false }
        else if info.flags.notificationPending then w.setInfo sub info
        else (w.setInfo sub info).startSender { sub with info := info } none created := by
  rw [heartbeatSection]
  dsimp only
  rw [if_neg]
  simp [h.subscribed, h.unexpired, h.interval, h.deliveryMode]

theorem lookup_setInfo_self (sub : Subscription) (h : w.subs.lookup sub.ref = some sub)
    (info : WsSubscribeInfo) :
    (w.setInfo sub info).subs.lookup sub.ref = some { sub with info := info } := by
  rw [lookup_setInfo h, if_pos rfl]

theorem heartbeatSection_counts (h : w.subs.lookup sub.ref = some sub)
    (hcounted : IsCounted now sub.info) (hmore : 1000 < sub.info.heartbeatCountdown) :
    (heartbeatSection now created w sub).subs.lookup sub.ref =
        some { sub with
          info := { sub.info with
            heartbeatCountdown := sub.info.heartbeatCountdown - 1000 } } ∧
      (heartbeatSection now created w sub).senders = w.senders := by
  rw [heartbeatSection_of_isCounted hcounted, if_pos (by omega)]
  exact ⟨lookup_setInfo_self sub h _, rfl⟩

theorem heartbeatSection_clears (h : w.subs.lookup sub.ref = some sub)
    (hcounted : IsCounted now sub.info) (hout : sub.info.heartbeatCountdown ≤ 1000)
    (hsent : sub.info.eventSentLastTime = true) :
    (heartbeatSection now created w sub).subs.lookup sub.ref =
        some { sub with
          info := { sub.info with
            heartbeatCountdown := toTimeT sub.info.heartbeatInterval
            eventSentLastTime := false } } ∧
      (heartbeatSection now created w sub).senders = w.senders := by
  rw [heartbeatSection_of_isCounted hcounted, if_neg (by omega)]
  dsimp only
  rw [hsent, if_pos rfl]
  exact ⟨lookup_setInfo_self sub h _, rfl⟩

theorem heartbeatSection_starts (hcounted : IsCounted now sub.info)
    (hout : sub.info.heartbeatCountdown ≤ 1000) (hsent : sub.info.eventSentLastTime = false)
    (hidle : sub.info.flags.notificationPending = false) :
    (heartbeatSection now true w sub).senders = w.senders ++ [⟨sub.ref, none⟩] := by
  rw [heartbeatSection_of_isCounted hcounted, if_neg (by omega)]
  dsimp only
  rw [hsent, if_neg Bool.false_ne_true, hidle, if_neg Bool.false_ne_true, startSender, if_pos rfl]
  rfl

end Section

/-! ## What holds in every state -/

theorem bmod_natCast_le (n m : ℕ) : (n : ℤ).bmod m ≤ n := by
  have hmod : (n : ℤ) % (m : ℤ) ≤ n := by
    exact_mod_cast mod_le n m
  rw [Int.bmod_def]
  split
  · exact hmod
  · exact (sub_le_self _ (Int.natCast_nonneg m)).trans hmod

theorem toTimeT_le (n : ℕ) : toTimeT n ≤ n := bmod_natCast_le n _

structure BeatInv (w : EventWorld ε) : Prop where
  below : RefsBelow w
  senders : SendersAgree w.subs w.senders
  bounded : ∀ ref sub, w.subs.lookup ref = some sub →
    sub.info.heartbeatCountdown ≤ sub.info.heartbeatInterval

theorem sameBeat_startSender {created : Bool} {sub sub' : Subscription} {info : WsSubscribeInfo}
    (h : w.subs.lookup sub.ref = some sub)
    (hsub' : ((w.setInfo sub info).startSender { sub with info := info } none created).subs.lookup
      sub.ref = some sub') : SameBeat info sub'.info := by
  have hlisted : (w.setInfo sub info).subs.lookup sub.ref = some { sub with info := info } :=
    lookup_setInfo_self sub h info
  rw [startSender] at hsub'
  split at hsub'
  · exact sameBeat_replace (info.withPending true) hlisted ⟨rfl, rfl, rfl, rfl⟩ hlisted hsub'
  · cases hlisted.symm.trans hsub'
    exact .refl _

theorem beat_heartbeatSection {now : ℕ} {created : Bool} (h : w.subs.lookup sub.ref = some sub)
    (hsub' : (heartbeatSection now created w sub).subs.lookup sub.ref = some sub') :
    ∃ countdown sent,
      SameBeat { sub.info with heartbeatCountdown := countdown, eventSentLastTime := sent }
        sub'.info ∧
      (countdown ≤ sub.info.heartbeatCountdown ∨
        countdown = toTimeT sub.info.heartbeatInterval) := by
  have hset : ∀ info : WsSubscribeInfo, (w.setInfo sub info).subs.lookup sub.ref = some sub' →
      SameBeat info sub'.info := by
    intro info hlookup
    rw [lookup_setInfo_self sub h, some.injEq] at hlookup
    rw [← hlookup]
    exact .refl info
  rw [heartbeatSection] at hsub'
  generalize toTimeT sub.info.heartbeatInterval = reset at hsub' ⊢
  dsimp only at hsub'
  split at hsub'
  · cases h.symm.trans hsub'
    exact ⟨_, _, .refl _, .inl le_rfl⟩
  split at hsub'
  · exact ⟨_, _, hset _ hsub', .inl (by omega)⟩
  split at hsub'
  · exact ⟨_, _, hset _ hsub', .inr rfl⟩
  split at hsub'
  · exact ⟨_, _, hset _ hsub', .inr rfl⟩
  · exact ⟨_, _, sameBeat_startSender h hsub', .inr rfl⟩

theorem EventStep.freshSubs (h : EventStep host w l w') (hbelow : RefsBelow w)
    (hnone : w.subs.lookup ref = none) (hsub' : w'.subs.lookup ref = some sub') :
    FreshSubs sub'.info := by
  by_cases hnew : ∃ newId doc, l = .subscribe newId doc
  · obtain ⟨newId, doc, rfl⟩ := hnew
    cases h with
    | @subscribe endPoint newId uuid ids doc msg now info text free fresh accepted =>
      have hlisted : (w.listed info).subs.lookup ref = some sub' := hsub'
      rw [lookup_listed hbelow.lookup_next, hnone] at hlisted
      split at hlisted
      · cases hlisted
        exact (accepted_spec accepted).2
      · cases hlisted
  · -- every other step changes or removes what is in the list
    have hreplace : ∀ changed : Subscription, (w.subs.replace changed).lookup ref ≠ some sub' := by
      intro changed hlookup
      rw [Table.lookup_replace, hnone] at hlookup
      split at hlookup <;> cases hlookup
    have heffect := h.effect
    generalize w'.subs = subs at hsub' heffect
    generalize w'.next = next at heffect
    generalize w'.senders = senders at heffect
    cases heffect with
    | keep => cases hnone.symm.trans hsub'
    | change listed same pending => exact absurd hsub' (hreplace _)
    | remove listed ended =>
      rw [Table.erase, Table.lookup_filter, hnone] at hsub'
      cases hsub'
    | @add newId doc info fresh id flags => exact absurd ⟨newId, doc, rfl⟩ hnew
    | start listed same idle pending => exact absurd hsub' (hreplace _)
    | finish alive listed own same done => exact absurd hsub' (hreplace _)
    | stray alive gone => cases hnone.symm.trans hsub'

theorem BeatInv.step (hw : BeatInv w) (h : EventStep host w l w') : BeatInv w' where
  below := h.refsBelow hw.below
  senders := h.effect.sendersAgree hw.below hw.senders
  bounded := by
    intro ref sub' hsub'
    cases hsub : w.subs.lookup ref with
    | none =>
      rw [(h.freshSubs hw.below hsub hsub').countdown]
      exact toTimeT_le _
    | some sub =>
      have hbounded := hw.bounded ref sub hsub
      rcases h.beat_cases hw.below hsub with ⟨now, created, ahead, -, rfl⟩ | ⟨-, hbeat⟩
      · obtain rfl : sub.ref = ref := Table.key_of_lookup hsub
        obtain ⟨countdown, sent, hsame, hle | hreset⟩ := beat_heartbeatSection hsub hsub'
        · rw [hsame.countdown, hsame.interval]
          exact hle.trans hbounded
        · rw [hsame.countdown, hsame.interval]
          exact hreset.le.trans (toTimeT_le sub.info.heartbeatInterval)
      · obtain ⟨-, hinterval, hcountdown⟩ := SameBeat.timing (hbeat sub' hsub')
        rw [hcountdown, hinterval]
        exact hbounded

theorem BeatInv.listed (hw : BeatInv w) {info : WsSubscribeInfo} (hfresh : FreshSubs info) :
    BeatInv (w.listed info) where
  below := RefsBelow.listed hw.below info
  senders := hw.senders.append hw.below.lookup_next hfresh.flags
  bounded := by
    intro ref sub hsub
    rw [lookup_listed hw.below.lookup_next] at hsub
    split at hsub
    · cases hsub
      rw [hfresh.countdown]
      exact toTimeT_le _
    · exact hw.bounded ref sub hsub

theorem beatInv_empty (repo : SubsRepository) : BeatInv ({ repo := repo } : EventWorld ε) where
  below := refsBelow_empty repo
  senders := ⟨by rintro ref sub ⟨⟩, by rintro thread ⟨⟩⟩
  bounded := by rintro ref sub ⟨⟩

theorem beatInv_of_reachable {ρ : Type} [DecidableEq ρ] {srv : EventServer ρ}
    (h : Reachable (eventServerSystem ε srv) w) : BeatInv w := by
  refine Reachable.induct (fun w hinit ↦ ?_) (fun w l w' _ ih hstep ↦ ?_) h
  · obtain ⟨repo, rfl⟩ := hinit
    exact beatInv_empty repo
  cases hstep with
  | event hevent => exact ih.step hevent
  | @reload endPoint newId uuid now files st hfiles hinit =>
    have hfresh := freshSubs_loadFiles hinit (by simp)
    have hlist : ∀ (infos : List WsSubscribeInfo) (v : EventWorld ε), BeatInv v →
        (∀ info ∈ infos, FreshSubs info) → BeatInv (infos.foldl EventWorld.listed v) := by
      intro infos
      induction infos with
      | nil => exact fun v hv _ ↦ hv
      | cons info infos ihs =>
        intro v hv hall
        rw [foldl_cons]
        exact ihs _ (hv.listed (hall info mem_cons_self))
          fun other hother ↦ hall other (mem_cons_of_mem info hother)
    exact hlist _ _ (beatInv_empty _) hfresh

/-! ## Passes and sections -/

def isHeartbeatPass (step : EventWorld ε × EventLabel ε × EventWorld ε) : Bool :=
  match step.2.1 with
  | .lock .heartbeat => true
  | _ => false

def owedBeats (ref : ℕ) (w : EventWorld ε) : ℕ :=
  match w.pass with
  | some ⟨.heartbeat, ahead⟩ => ahead.count ref
  | _ => 0

theorem owedBeats_of_pass_eq (h : w'.pass = w.pass) : owedBeats ref w' = owedBeats ref w := by
  rw [owedBeats, owedBeats, h]

theorem EventStep.owedBeats (h : EventStep host w l w') (hsub : w.subs.lookup ref = some sub) :
    owedBeats ref w + (if isHeartbeatPass (w, l, w') then 1 else 0) =
      owedBeats ref w' + (if isBeat ref (w, l, w') then 1 else 0) := by
  cases h with
  | subscribe free fresh accepted => rfl
  | @insert visited e listed =>
    have hpass : (w.insertEvent visited e).pass = w.pass := by
      rw [insertEvent]
      split <;> rfl
    rw [owedBeats_of_pass_eq hpass]
    rfl
  | @lock kind free =>
    have hnone : Openwsman.owedBeats ref w = 0 := by
      rw [Openwsman.owedBeats, free]
    cases kind with
    | manager => rw [hnone]; rfl
    | heartbeat =>
      have hmem : ref ∈ w.subs.entries.map Subscription.ref := by
        obtain ⟨hentry, rfl⟩ := Table.lookup_eq_some_iff.mp hsub
        exact mem_map_of_mem hentry
      have hcount := count_eq_one_of_mem w.subs.nodup hmem
      rw [hnone, zero_add]
      exact hcount.symm
  | manager holds listed =>
    rw [Openwsman.owedBeats, holds]
    rfl
  | @heartbeat visited ahead now created holds listed =>
    rw [Openwsman.owedBeats, holds]
    exact count_cons
  | @unlock kind done =>
    rw [Openwsman.owedBeats, done]
    cases kind <;> rfl
  | @send thread before after now acked alive =>
    have hpass : (senderSection now acked w thread).pass = w.pass := by
      rw [senderSection]
      split <;> rfl
    exact (owedBeats_of_pass_eq hpass).symm
  | find free found => rfl
  | refuse holds unchanged => rfl
  | @change handler before after holds unchanged =>
    have hpass : (changeSection w handler).pass = w.pass := by
      rw [changeSection]
      split
      · rfl
      split <;> rfl
    exact (owedBeats_of_pass_eq hpass).symm
  | @answer handler before after text holds changed written =>
    have hpass : (answerSection text w handler).pass = w.pass := by
      rw [answerSection]
      split <;> rfl
    exact (owedBeats_of_pass_eq hpass).symm

/-! ## The window -/

def StartsSender (ref : ℕ) (w w' : EventWorld ε) : Prop :=
  ∃ outdoc, w'.senders = w.senders ++ [⟨ref, outdoc⟩]

def runsOut (ref : ℕ) (step : EventWorld ε × EventLabel ε × EventWorld ε) : Bool :=
  match step.2.1 with
  | .heartbeat sub _ _ => sub.ref == ref && decide (sub.info.heartbeatCountdown ≤ 1000)
  | _ => false

theorem isBeat_heartbeat (w w' : EventWorld ε) (sub : Subscription) (now : ℕ) (created : Bool) :
    isBeat ref (w, .heartbeat sub now created, w') = (sub.ref == ref) := rfl

theorem runsOut_heartbeat (w w' : EventWorld ε) (sub : Subscription) (now : ℕ) (created : Bool) :
    runsOut ref (w, .heartbeat sub now created, w') =
      (sub.ref == ref && decide (sub.info.heartbeatCountdown ≤ 1000)) := rfl

theorem isBeat_of_runsOut (h : runsOut ref (w, l, w') = true) : isBeat ref (w, l, w') = true := by
  cases l with
  | heartbeat sub now created => exact (Bool.and_eq_true_iff.mp h).1
  | _ => cases h

/-- What is asked of the steps in a window: the subscription is in the list and not unsubscribed,
and when the heartbeat generator comes to it, it has not expired, a thread can be created, and no
sender is at work for it if the countdown runs out. -/
structure SteadyStep (ref : ℕ) (w : EventWorld ε) (l : EventLabel ε) : Prop where
  listed : ∃ sub, w.subs.lookup ref = some sub ∧ sub.info.flags.unsubscribe = false
  beat : ∀ sub now created, l = .heartbeat sub now created → sub.ref = ref →
    timeExpired sub.info.expires now = false ∧ created = true ∧
      (sub.info.heartbeatCountdown ≤ 1000 → senderCount w.senders ref = 0)

def BeatsEvery (ref k : ℕ) (w : EventWorld ε) : Prop :=
  ∀ sub, w.subs.lookup ref = some sub →
    sub.info.deliveryMode ≠ .pull ∧ sub.info.heartbeatInterval = 1000 * k

/-- Nothing is to come that would set the mark of a subscription: the mark is clear and no sender is
at work. -/
structure Quiet (ref : ℕ) (w : EventWorld ε) : Prop where
  sent : ∀ sub, w.subs.lookup ref = some sub → sub.info.eventSentLastTime = false
  idle : senderCount w.senders ref = 0

section Window

variable {k : ℕ}

theorem EventStep.senderCount_eq_zero (h : EventStep host w l w')
    (hidle : senderCount w.senders ref = 0) (hno : ¬StartsSender ref w w') :
    senderCount w'.senders ref = 0 := by
  have heffect := h.effect
  rw [StartsSender] at hno
  generalize w'.subs = subs at heffect
  generalize w'.next = next at heffect
  generalize w'.senders = senders at heffect hno ⊢
  cases heffect with
  | keep => exact hidle
  | change listed same pending => exact hidle
  | remove listed ended => exact hidle
  | add fresh id flags => exact hidle
  | @start _ sub info outdoc listed same idle pending =>
    by_cases href : sub.ref = ref
    · exact absurd ⟨outdoc, by rw [href]⟩ hno
    · rw [senderCount_append_singleton, hidle, if_neg href]
  | finish alive listed own same done =>
    rw [alive, senderCount_middle] at hidle
    exact (Nat.add_eq_zero_iff.mp hidle).1
  | stray alive gone =>
    rw [alive, senderCount_middle] at hidle
    exact (Nat.add_eq_zero_iff.mp hidle).1

theorem SteadyStep.section_spec {sub : Subscription} {now : ℕ} {created : Bool} {ahead : List ℕ}
    (hw : BeatInv w) (hk : 1 ≤ k) (hbeats : BeatsEvery ref k w)
    (hsub : w.subs.lookup ref = some sub)
    (hsteady : SteadyStep ref w (.heartbeat sub now created))
    (hw' : w' = { heartbeatSection now created w sub with pass := some ⟨.heartbeat, ahead⟩ }) :
    (1000 < sub.info.heartbeatCountdown ∧
      w'.subs.lookup ref = some { sub with
        info := { sub.info with heartbeatCountdown := sub.info.heartbeatCountdown - 1000 } }) ∨
    (sub.info.heartbeatCountdown ≤ 1000 ∧ senderCount w.senders ref = 0 ∧
      ((sub.info.eventSentLastTime = true ∧
          w'.subs.lookup ref = some { sub with
            info := { sub.info with
              heartbeatCountdown := toTimeT sub.info.heartbeatInterval
              eventSentLastTime := false } }) ∨
        (sub.info.eventSentLastTime = false ∧ StartsSender ref w w'))) := by
  obtain rfl : sub.ref = ref := Table.key_of_lookup hsub
  obtain ⟨hmode, hinterval⟩ := hbeats sub hsub
  obtain ⟨listed, hlisted, hsubscribed⟩ := hsteady.listed
  obtain rfl := some.inj (hlisted.symm.trans hsub)
  obtain ⟨hunexpired, rfl, hidle⟩ := hsteady.beat listed now created rfl rfl
  have hcounted : IsCounted now listed.info := ⟨hsubscribed, hunexpired, by omega, hmode⟩
  rw [hw']
  by_cases hmore : 1000 < listed.info.heartbeatCountdown
  · exact .inl ⟨hmore, (heartbeatSection_counts hsub hcounted hmore).1⟩
  have hout := not_lt.mp hmore
  have hcount := hidle hout
  refine .inr ⟨hout, hcount, ?_⟩
  cases hsent : listed.info.eventSentLastTime with
  | true => exact .inl ⟨rfl, (heartbeatSection_clears hsub hcounted hout hsent).1⟩
  | false =>
    -- without a sender at work the flag is not set
    have hpending := hw.senders.count listed.ref listed hsub
    rw [hcount] at hpending
    have hflag : listed.info.flags.notificationPending = false := by
      cases hflag : listed.info.flags.notificationPending with
      | false => rfl
      | true => rw [hflag] at hpending; cases hpending
    exact .inr ⟨rfl, none, heartbeatSection_starts hcounted hout hsent hflag⟩

theorem BeatsEvery.step (hbeats : BeatsEvery ref k w) (hbelow : RefsBelow w)
    (h : EventStep host w l w') {sub : Subscription} (hsub : w.subs.lookup ref = some sub) :
    BeatsEvery ref k w' := by
  obtain ⟨hmode, hinterval⟩ := hbeats sub hsub
  intro sub' hsub'
  rcases h.beat_cases hbelow hsub with ⟨now, created, ahead, -, rfl⟩ | ⟨-, hbeat⟩
  · obtain rfl : sub.ref = ref := Table.key_of_lookup hsub
    obtain ⟨countdown, sent, hsame, -⟩ := beat_heartbeatSection hsub hsub'
    rw [hsame.deliveryMode, hsame.interval]
    exact ⟨hmode, hinterval⟩
  · obtain ⟨hmode', hinterval', -⟩ := SameBeat.timing (hbeat sub' hsub')
    rw [hmode', hinterval']
    exact ⟨hmode, hinterval⟩

def DueWithin (ref n : ℕ) (w : EventWorld ε) : Prop :=
  ∀ sub, w.subs.lookup ref = some sub → sub.info.heartbeatCountdown ≤ 1000 * (n + 1)

theorem DueWithin.step {n : ℕ} (hdue : DueWithin ref n w) (hw : BeatInv w) (hk : 1 ≤ k)
    (hbeats : BeatsEvery ref k w) (hsteady : SteadyStep ref w l)
    (h : EventStep host w l w') (hmore : runsOut ref (w, l, w') = false) :
    if isBeat ref (w, l, w') then ∃ m, n = m + 1 ∧ DueWithin ref m w' else DueWithin ref n w' := by
  obtain ⟨sub, hsub, -⟩ := hsteady.listed
  have hcountdown := hdue sub hsub
  rcases h.beat_cases hw.below hsub with ⟨now, created, ahead, rfl, hw'⟩ | ⟨hbeat, hsame⟩
  · have href : (sub.ref == ref) = true := beq_iff_eq.mpr (Table.key_of_lookup hsub)
    rcases hsteady.section_spec hw hk hbeats hsub hw' with ⟨hlong, hsub'⟩ | ⟨hout, -⟩
    · rw [isBeat_heartbeat, if_pos href]
      obtain ⟨m, rfl⟩ : ∃ m, n = m + 1 := exists_eq_succ_of_ne_zero (by rintro rfl; omega)
      refine ⟨m, rfl, ?_⟩
      intro sub' hlookup
      cases hsub'.symm.trans hlookup
      dsimp only
      push_cast at hcountdown ⊢
      omega
    · rw [runsOut_heartbeat, href, decide_eq_true hout] at hmore
      cases hmore
  · rw [hbeat, if_neg Bool.false_ne_true]
    intro sub' hsub'
    rw [(SameBeat.timing (hsame sub' hsub')).2.2]
    exact hcountdown

theorem Quiet.step (hquiet : Quiet ref w) (hw : BeatInv w) (hk : 1 ≤ k)
    (hbeats : BeatsEvery ref k w) (hsteady : SteadyStep ref w l)
    (h : EventStep host w l w') (hno : ¬StartsSender ref w w') :
    Quiet ref w' ∧ runsOut ref (w, l, w') = false := by
  obtain ⟨sub, hsub, -⟩ := hsteady.listed
  have hsent := hquiet.sent sub hsub
  have hidle := h.senderCount_eq_zero hquiet.idle hno
  rcases h.beat_cases hw.below hsub with ⟨now, created, ahead, rfl, hw'⟩ | ⟨hbeat, hsame⟩
  · rcases hsteady.section_spec hw hk hbeats hsub hw' with
      ⟨hlong, hsub'⟩ | ⟨-, -, ⟨hmarked, -⟩ | ⟨-, hstarts⟩⟩
    · refine ⟨⟨?_, hidle⟩, ?_⟩
      · intro sub' hlookup
        cases hsub'.symm.trans hlookup
        exact hsent
      · rw [runsOut_heartbeat, Bool.and_eq_false_iff]
        exact .inr (decide_eq_false (not_le.mpr hlong))
    · rw [hsent] at hmarked
      cases hmarked
    · exact absurd hstarts hno
  · refine ⟨⟨?_, hidle⟩, ?_⟩
    · intro sub' hsub'
      rcases hsame sub' hsub' with hsame | ⟨-, hwork⟩
      · rw [hsame.sent, hsent]
      · rw [hquiet.idle] at hwork
        cases hwork
    · rw [← Bool.not_eq_true]
      intro hout
      rw [isBeat_of_runsOut hout] at hbeat
      cases hbeat

theorem SteadyStep.quiet_of_runsOut {n : ℕ} (hsteady : SteadyStep ref w l) (hw : BeatInv w)
    (hbeats : BeatsEvery ref (n + 1) w) (h : EventStep host w l w')
    (hout : runsOut ref (w, l, w') = true) (hno : ¬StartsSender ref w w') :
    Quiet ref w' ∧ DueWithin ref n w' := by
  obtain ⟨sub, hsub, -⟩ := hsteady.listed
  rcases h.beat_cases hw.below hsub with ⟨now, created, ahead, rfl, hw'⟩ | ⟨hother, -⟩
  · rw [runsOut_heartbeat, Bool.and_eq_true, decide_eq_true_eq] at hout
    rcases hsteady.section_spec hw (succ_pos n) hbeats hsub hw' with
      ⟨hlong, -⟩ | ⟨-, hidle, ⟨-, hsub'⟩ | ⟨-, hstarts⟩⟩
    · exact absurd hout.2 (not_le.mpr hlong)
    · refine ⟨⟨?_, h.senderCount_eq_zero hidle hno⟩, ?_⟩
      · intro sub' hlookup
        cases hsub'.symm.trans hlookup
        rfl
      · intro sub' hlookup
        cases hsub'.symm.trans hlookup
        have hinterval := (hbeats sub hsub).2
        have hreset := toTimeT_le sub.info.heartbeatInterval
        dsimp only
        generalize toTimeT sub.info.heartbeatInterval = reset at hreset ⊢
        omega
    · exact absurd hstarts hno
  · rw [isBeat_of_runsOut hout] at hother
    cases hother

/-- **Heartbeats come in time.** Take any reachable state of a server, over restarts, and from it
any steps of the threads that begin and end between passes and have `2k` passes of the heartbeat
generator. For a subscription that is not pulled and has an interval of `k` seconds, one of the
steps starts a sender, if the steps are steady. -/
theorem sender_started_in_window {ρ : Type} [DecidableEq ρ] {srv : EventServer ρ}
    (hreach : Reachable (eventServerSystem ε srv) w)
    {steps : List (EventWorld ε × EventLabel ε × EventWorld ε)}
    (hrun : Segment (eventSystem ε srv.host) w steps w') (hk : 1 ≤ k)
    (hbegin : w.pass = none) (hend : w'.pass = none)
    (hpasses : steps.countP isHeartbeatPass = 2 * k) (hbeats : BeatsEvery ref k w)
    (hsteady : ∀ a l b, (a, l, b) ∈ steps → SteadyStep ref a l) :
    ∃ a l b, (a, l, b) ∈ steps ∧ StartsSender ref a b := by
  by_contra hnone
  push Not at hnone
  -- the invariants hold before every step
  have hinv := (hrun.induct (P := fun v ↦ BeatInv v ∧ BeatsEvery ref k v)
    ⟨beatInv_of_reachable hreach, hbeats⟩ (by
      intro a l b hmem hstep ha
      obtain ⟨sub, hsub, -⟩ := (hsteady a l b hmem).listed
      exact ⟨ha.1.step hstep, ha.2.step ha.1.below hstep hsub⟩)).1
  -- each pass has a section on the subscription
  have hsections : steps.countP (isBeat ref) = 2 * k := by
    have hbalance := hrun.balance (m := owedBeats ref) (p := isHeartbeatPass) (q := isBeat ref) (by
      intro a l b hmem hstep
      obtain ⟨sub, hsub, -⟩ := (hsteady a l b hmem).listed
      exact hstep.owedBeats hsub)
    rw [owedBeats, owedBeats, hbegin, hend, hpasses] at hbalance
    omega
  have hdueStep : ∀ a l b, (a, l, b) ∈ steps → (eventSystem ε srv.host).Step a l b →
      runsOut ref (a, l, b) = false → ∀ n, DueWithin ref n a →
      if isBeat ref (a, l, b) then ∃ m, n = m + 1 ∧ DueWithin ref m b else DueWithin ref n b := by
    intro a l b hmem hstep hmore n hdue
    obtain ⟨-, ha, hbeats⟩ := hinv a l b hmem
    exact hdue.step ha hk hbeats (hsteady a l b hmem) hstep hmore
  obtain ⟨n, rfl⟩ : ∃ n, k = n + 1 := exists_eq_succ_of_ne_zero (by omega)
  have hdue : DueWithin ref n w := by
    intro sub hsub
    have hbounded := (beatInv_of_reachable hreach).bounded ref sub hsub
    rw [(hbeats sub hsub).2] at hbounded
    exact_mod_cast hbounded
  -- the countdown runs out a first time, and the mark is cleared
  obtain ⟨pre, ⟨a, l, b⟩, post, rfl, hout, hpre⟩ :=
    hrun.exists_hit (isBeat ref) (runsOut ref) hdue (by omega) hdueStep
  have hmem : (a, l, b) ∈ pre ++ (a, l, b) :: post := by simp
  obtain ⟨t, -, hrest⟩ := hrun.of_append
  cases hrest with
  | cons hstep hpost =>
    obtain ⟨-, ha, hbeats⟩ := hinv a l b hmem
    have hbeat := isBeat_of_runsOut hout
    obtain ⟨hquiet, hagain⟩ :=
      (hsteady a l b hmem).quiet_of_runsOut ha hbeats hstep hout (hnone a l b hmem)
    -- so it cannot run out a second time
    have htail : ∀ a' l' b', (a', l', b') ∈ post → (a', l', b') ∈ pre ++ (a, l, b) :: post := by
      intro a' l' b' hmem'
      exact mem_append_right _ (mem_cons_of_mem _ hmem')
    have hquietStep : ∀ a' l' b', (a', l', b') ∈ post → EventStep srv.host a' l' b' →
        Quiet ref a' → Quiet ref b' ∧ runsOut ref (a', l', b') = false := by
      intro a' l' b' hmem' hstep' hq
      obtain ⟨-, ha', hbeats'⟩ := hinv a' l' b' (htail a' l' b' hmem')
      exact hq.step ha' hk hbeats' (hsteady a' l' b' (htail a' l' b' hmem')) hstep'
        (hnone a' l' b' (htail a' l' b' hmem'))
    have hall := (hpost.induct (P := Quiet ref) hquiet
      fun a' l' b' hmem' hstep' hq ↦ (hquietStep a' l' b' hmem' hstep' hq).1).1
    have hleft : n < post.countP (isBeat ref) := by
      rw [countP_append, countP_cons_of_pos hbeat] at hsections
      omega
    obtain ⟨pre', ⟨a', l', b'⟩, post', rfl, hout', -⟩ :=
      hpost.exists_hit (isBeat ref) (runsOut ref) hagain hleft
        fun a' l' b' hmem' ↦ hdueStep a' l' b' (htail a' l' b' hmem')
    have hmem' : (a', l', b') ∈ pre' ++ (a', l', b') :: post' := by simp
    obtain ⟨hstep', hq⟩ := hall a' l' b' hmem'
    rw [(hquietStep a' l' b' hmem' hstep' hq).2] at hout'
    cases hout'

end Window

/-! ## Two passes over a subscription with a heartbeat every second -/

def beatSubscribe : WsXmlNode :=
  wsXmlCreateEnvelope (alarmHeader (xmlNsEventing ++ "/Subscribe") "uuid:first" [])
    [.elem xmlNsEventing wseventSubscribe
      [.elem xmlNsEventing wseventDelivery
          [.elem xmlNsEventing wseventNotifyTo
              [.elem xmlNsAddressing wsaAddress [.text "http://sink"]],
            .elem xmlNsWsMan wsmHeartbeats [.text "PT1S"]],
        .element (some xmlNsWsMan) wsmFilter [⟨none, wsmDialect, wsmWqlFilterDialect⟩]
          [.text "select * from Alarm"]]]

def beatSink : Subscription :=
  ⟨0, { alarmInfo with
    expires := 0, heartbeatInterval := 1000, heartbeatCountdown := toTimeT 1000 }⟩

def beatListed : EventWorld ℕ :=
  EventWorld.subscribed { repo := .empty } beatSink.info beatSubscribe "1970-01-01T00:00:00+00:00"

def beatLocked (w : EventWorld ℕ) : EventWorld ℕ := { w with pass := some ⟨.heartbeat, [0]⟩ }

def beatVisited (w : EventWorld ℕ) (now : ℕ) : EventWorld ℕ :=
  { heartbeatSection now true (beatLocked w) beatSink with pass := some ⟨.heartbeat, []⟩ }

def beatPassed (w : EventWorld ℕ) (now : ℕ) : EventWorld ℕ :=
  { beatVisited w now with pass := none }

def beatSent : EventWorld ℕ :=
  { senderSection 6 true (beatPassed beatListed 5) ⟨0, none⟩ with senders := [] }

def beatWindow : List (EventWorld ℕ × EventLabel ℕ × EventWorld ℕ) :=
  [(beatListed, .lock .heartbeat, beatLocked beatListed),
    (beatLocked beatListed, .heartbeat beatSink 5 true, beatVisited beatListed 5),
    (beatVisited beatListed 5, .unlock, beatPassed beatListed 5),
    (beatPassed beatListed 5, .send ⟨0, none⟩, beatSent),
    (beatSent, .lock .heartbeat, beatLocked beatSent),
    (beatLocked beatSent, .heartbeat beatSink 7 true, beatVisited beatSent 7),
    (beatVisited beatSent 7, .unlock, beatPassed beatSent 7)]

theorem segment_beatPassed {w w' : EventWorld ℕ} (now : ℕ)
    {steps : List (EventWorld ℕ × EventLabel ℕ × EventWorld ℕ)}
    (hlisted : w.subs.lookup 0 = some beatSink)
    (hlock : EventStep alarmHost w (.lock .heartbeat) (beatLocked w))
    (hrest : Segment (eventSystem ℕ alarmHost) (beatPassed w now) steps w') :
    Segment (eventSystem ℕ alarmHost) w
      ((w, .lock .heartbeat, beatLocked w) ::
        (beatLocked w, .heartbeat beatSink now true, beatVisited w now) ::
        (beatVisited w now, .unlock, beatPassed w now) :: steps) w' :=
  .cons hlock <| .cons (.heartbeat rfl hlisted) <| .cons (.unlock rfl) hrest

theorem heartbeatSection_beatSink (now : ℕ) (w : EventWorld ℕ) :
    heartbeatSection now true w beatSink =
      (w.setInfo beatSink beatSink.info).startSender beatSink none true := by
  rw [heartbeatSection_of_isCounted ⟨rfl, rfl, by decide, by decide⟩, if_neg (by decide)]
  rfl

theorem lookup_beatSent : beatSent.subs.lookup 0 = some beatSink := by
  rw [beatSent, beatPassed, beatVisited, heartbeatSection_beatSink]
  rfl

theorem segment_beatWindow :
    Segment (eventSystem ℕ alarmHost) beatListed beatWindow (beatPassed beatSent 7) :=
  segment_beatPassed 5 rfl (.lock rfl) <|
    .cons (@EventStep.send ℕ alarmHost _ _ [] [] 6 true rfl) <|
    segment_beatPassed 7 lookup_beatSent (.lock rfl) (.nil _)

theorem steadyStep_beatWindow {a b : EventWorld ℕ} {l : EventLabel ℕ}
    (h : (a, l, b) ∈ beatWindow) : SteadyStep 0 a l := by
  simp only [beatWindow, mem_cons, not_mem_nil, or_false, Prod.mk.injEq] at h
  rcases h with ⟨rfl, rfl, -⟩ | ⟨rfl, rfl, -⟩ | ⟨rfl, rfl, -⟩ | ⟨rfl, rfl, -⟩ | ⟨rfl, rfl, -⟩ |
    ⟨rfl, rfl, -⟩ | ⟨rfl, rfl, -⟩
  · exact ⟨⟨_, rfl, rfl⟩, by rintro sub now created ⟨⟩⟩
  · refine ⟨⟨_, rfl, rfl⟩, ?_⟩
    rintro sub now created ⟨⟩ -
    exact ⟨rfl, rfl, fun _ ↦ rfl⟩
  · exact ⟨⟨_, rfl, rfl⟩, by rintro sub now created ⟨⟩⟩
  · exact ⟨⟨_, rfl, rfl⟩, by rintro sub now created ⟨⟩⟩
  · exact ⟨⟨_, rfl, rfl⟩, by rintro sub now created ⟨⟩⟩
  · refine ⟨⟨_, rfl, rfl⟩, ?_⟩
    rintro sub now created ⟨⟩ -
    exact ⟨rfl, rfl, fun _ ↦ rfl⟩
  · exact ⟨⟨_, rfl, rfl⟩, by rintro sub now created ⟨⟩⟩

theorem succeeds_beatSubscribe :
    Succeeds (subscribeRequest alarmHost acceptAll "alarms" "uuid:answer" [] ⟨[], .empty⟩
      beatSubscribe {} 1700000000)
      (EventState.subscribed ⟨[], .empty⟩ beatSink.info beatSubscribe
        "1970-01-01T00:00:00+00:00") :=
  ⟨rfl, rfl⟩

theorem reachable_beatListed : Reachable (eventServerSystem ℕ alarmServer) beatListed := by
  have hinit : Reachable (eventServerSystem ℕ alarmServer) { repo := .empty } := .init ⟨.empty, rfl⟩
  exact hinit.step (.event (@EventStep.subscribe ℕ alarmHost _ acceptAll "alarms" "uuid:answer" []
    beatSubscribe {} 1700000000 beatSink.info _ rfl (by decide) succeeds_beatSubscribe.1))

theorem sender_started_in_window_beat :
    (beatWindow.countP isHeartbeatPass = 2 * 1 ∧ BeatsEvery 0 1 beatListed) ∧
      ∃ a l b, (a, l, b) ∈ beatWindow ∧ StartsSender 0 a b := by
  have hbeats : BeatsEvery 0 1 beatListed := by
    intro sub hsub
    have hlisted : beatListed.subs.lookup 0 = some beatSink := rfl
    cases hlisted.symm.trans hsub
    exact ⟨by decide, rfl⟩
  have hpasses : beatWindow.countP isHeartbeatPass = 2 * 1 := rfl
  exact ⟨⟨hpasses, hbeats⟩, sender_started_in_window reachable_beatListed segment_beatWindow le_rfl
    rfl rfl hpasses hbeats fun _ _ _ hmem ↦ steadyStep_beatWindow hmem⟩

end Openwsman
