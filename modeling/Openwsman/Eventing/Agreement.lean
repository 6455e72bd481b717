import Openwsman.Eventing.Stored
import Openwsman.Lib.Transition

/-!
# Memory and repository

The expiry time of a subscription is kept twice: as a number in memory, and as a date in the file of
the subscription. A Subscribe writes both, and so does a Renew. In a time zone without daylight
saving a date is read back as the number that was written, provided that its year can be read
(`wsmanSetExpiretime_written`).

The two stay the same as long as no Subscribe takes the id of a subscription in the list, every
Renew spells the id as the subscription does and finds an Expires in the file, and the years that
are asked for can be read. A Subscribe without an Expires leaves a file without one, and a Renew
does not add it.
-/

namespace Openwsman

open List KeyedTable Search Transition

/-! ## The runs -/

inductive RequestLabel where
  | subscribe (newId : String) (doc : WsXmlNode) (now : ℕ)
  | renew (doc : WsXmlNode) (now : ℕ)

inductive RequestStep (host : EventHost) : EventState → RequestLabel → EventState → Prop
  | subscribe {s endPoint newId uuid ids doc msg now s'}
      (h : Succeeds (subscribeRequest host endPoint newId uuid ids s doc msg now) s') :
      RequestStep host s (.subscribe newId doc now) s'
  | renew {s endPoint uuid ids doc msg now s'}
      (h : Succeeds (renewRequest host endPoint uuid ids s doc msg now) s') :
      RequestStep host s (.renew doc now) s'

def requestSystem (host : EventHost) : System EventState RequestLabel where
  Init s := s.subs = []
  Step := RequestStep host

def Agreement (zone : TimeZone) (s : EventState) : Prop :=
  ∀ info ∈ s.subs, ∀ now, fileExpiry zone now s info.subsId = some (.ok info.expires)

def KeepsAgreement (zone : TimeZone) (s : EventState) : RequestLabel → Prop
  | .subscribe newId doc now =>
    (formerUid doc).getD newId ∉ s.subs.map WsSubscribeInfo.subsId ∧
      ∀ node t, expiresOf doc = some node → requestedTime zone now node.chars = some t →
        yearReadable zone (toULong t) = true
  | .renew doc now =>
    ∀ id info text t, renewTarget s.subs doc = .value (some (id, info)) →
      renewText doc = some text → requestedTime zone now text = some t →
      NamesFile s id info ∧ yearReadable zone (toULong t) = true

/-! ## Reading back -/

theorem wsmanSetExpiretime_written {offset : ℤ} {e : ℕ} {text : String}
    (hwritten : wsmanExpiretime2xmldatetime (.fixed offset) e = .value text)
    (hreadable : yearReadable (.fixed offset) e = true) (he : e < 2 ^ 64) (now : ℕ) :
    wsmanSetExpiretime (xmlDatetime (.fixed offset)) text now = .ok e := by
  rw [wsmanSetExpiretime_eq_ok_iff]
  refine ⟨toTimeT e, ?_, toULong_toTimeT he⟩
  -- the text begins with a digit, so it is no duration
  have hdate : ¬(text.toList.head? == some 'P') = true := by
    obtain ⟨c, hc, hdigit⟩ := head?_wsmanExpiretime2xmldatetime hwritten
    rw [hc]
    intro h
    obtain rfl : c = 'P' := by simpa using h
    cases hdigit
  rw [requestedTime, if_neg hdate, xmlDatetime_wsmanExpiretime2xmldatetime hwritten,
    if_pos hreadable]

theorem subscribeExpires_eq_ok {zone : TimeZone} {now e : ℕ} {node : WsXmlNode}
    (h : subscribeExpires zone now (some node) = .ok e) :
    ∃ t, requestedTime zone now node.chars = some t ∧ toULong t = e := by
  rw [subscribeExpires] at h
  split at h
  · cases h
  next e' he' =>
  split at h
  · cases h
  · cases h
    exact wsmanSetExpiretime_eq_ok_iff.mp he'

/-! ## The steps -/

section

variable {offset : ℤ} {host : EventHost} {s s' : EventState}

variable {now : ℕ}

theorem fileExpiry_subscribed {op : SoapOp EventResponse} {newId text : String}
    {info : WsSubscribeInfo} (hcreate : createSubsInfo host op newId now = .value (.ok info))
    (hzone : host.zone = .fixed offset)
    (hwritten : wsmanExpiretime2xmldatetime host.zone info.expires = .value text)
    (hreadable : ∀ node t, expiresOf op.inDoc = some node → requestedTime host.zone now node.chars =
      some t → yearReadable host.zone (toULong t) = true) (now' : ℕ) :
    fileExpiry host.zone now' (s.subscribed info op.inDoc text) info.subsId =
      some (.ok info.expires) := by
  obtain ⟨subNode, parts, -, hexpires, -, -⟩ := createSubsInfo_ok hcreate
  rw [fileExpiry, EventState.lookup_subscribed, if_pos rfl, Option.map_some,
    storedExpiry_of_expiresOf (expiresOf_storedRequest text info.subsId op.inDoc)]
  cases hnode : expiresOf op.inDoc with
  | none =>
    rw [hnode] at hexpires
    exact congrArg some hexpires
  | some node =>
    rw [hnode] at hexpires
    obtain ⟨t, ht, he⟩ := subscribeExpires_eq_ok hexpires
    have hread := hreadable node t hnode ht
    rw [he, hzone] at hread
    rw [hzone] at hwritten ⊢
    exact congrArg some (wsmanSetExpiretime_written hwritten hread (he ▸ toULong_lt t) now')

theorem fileExpiry_subscribed_of_ne {info : WsSubscribeInfo} {k : String} (hne : info.subsId ≠ k)
    (zone : TimeZone) (now : ℕ) (doc : WsXmlNode) (text : String) :
    fileExpiry zone now (s.subscribed info doc text) k = fileExpiry zone now s k := by
  rw [fileExpiry, EventState.lookup_subscribed, if_neg hne, fileExpiry]

theorem fileExpiry_renewed_of_ne {id k : String} (hne : id ≠ k) (zone : TimeZone) (now expires : ℕ)
    (text : String) :
    fileExpiry zone now (s.renewed id expires text) k = fileExpiry zone now s k := by
  rw [fileExpiry, EventState.lookup_renewed, if_neg hne, fileExpiry]

structure Agreed (zone : TimeZone) (s : EventState) : Prop where
  nodup : (s.subs.map WsSubscribeInfo.subsId).Nodup
  files : Agreement zone s

theorem Agreed.subscribe {endPoint : EventEndPoint} {newId uuid : String} {ids : List String}
    {doc : WsXmlNode} {msg : WsmanMessage} (h : Agreed host.zone s)
    (hzone : host.zone = .fixed offset)
    (hkeeps : KeepsAgreement host.zone s (.subscribe newId doc now))
    (hsucc : Succeeds (subscribeRequest host endPoint newId uuid ids s doc msg now) s') :
    Agreed host.zone s' := by
  obtain ⟨hfresh, hreadable⟩ := hkeeps
  obtain ⟨-, op, rfl, -, info, text, hcreate, hwritten, rfl⟩ := hsucc.subscribe
  obtain ⟨subNode, parts, -, -, hid, -⟩ := createSubsInfo_ok hcreate
  rw [← (newSubsId_eq_value hid).1] at hfresh
  constructor
  · rw [EventState.subscribed, map_append, nodup_append]
    refine ⟨h.nodup, nodup_singleton _, fun k hk k' hk' ↦ ?_⟩
    obtain rfl := mem_singleton.mp hk'
    rintro rfl
    exact hfresh hk
  · intro other hother
    rcases mem_append.mp hother with hold | hnew
    · have hne : info.subsId ≠ other.subsId := fun heq ↦
        hfresh (heq ▸ mem_map_of_mem hold)
      intro now'
      rw [fileExpiry_subscribed_of_ne hne]
      exact h.files other hold now'
    · obtain rfl := mem_singleton.mp hnew
      exact fileExpiry_subscribed hcreate hzone hwritten hreadable

theorem Agreed.renew {endPoint : EventEndPoint} {uuid : String} {ids : List String}
    {doc : WsXmlNode} {msg : WsmanMessage} (h : Agreed host.zone s)
    (hzone : host.zone = .fixed offset) (hkeeps : KeepsAgreement host.zone s (.renew doc now))
    (hsucc : Succeeds (renewRequest host endPoint uuid ids s doc msg now) s') :
    Agreed host.zone s' := by
  obtain ⟨id, info, e, text, htarget, hexpires, hwritten, rfl⟩ := hsucc.renew
  obtain ⟨asked, t, hasked, ht, rfl⟩ := renewExpires_eq_ok_iff.mp hexpires
  obtain ⟨hnames, hreadable⟩ := hkeeps id info asked t htarget hasked ht
  obtain ⟨pre, post, hsubs, hmodify⟩ := modifyFirst_of_find?_eq_some
    (f := fun info ↦ info.withExpires (toULong t)) (renewTarget_eq_some htarget)
  have hnodup := h.nodup
  constructor
  · show ((modifyFirst (hasSubsId id) _ s.subs).map WsSubscribeInfo.subsId).Nodup
    rw [map_modifyFirst]
    · exact hnodup
    · exact fun _ _ ↦ rfl
  · -- the other subscriptions have other ids
    have hothers : ∀ other ∈ pre ++ post, ∀ now,
        fileExpiry host.zone now (s.renewed id (toULong t) text) other.subsId =
          some (.ok other.expires) := by
      intro other hother now
      rw [hsubs, map_append, map_cons, perm_middle.nodup_iff, nodup_cons, ← map_append] at hnodup
      have hne : id ≠ other.subsId := fun heq ↦
        hnodup.1 (hnames.1 ▸ heq ▸ mem_map_of_mem hother)
      rw [fileExpiry_renewed_of_ne hne]
      apply h.files other
      rw [hsubs, perm_middle.mem_iff]
      exact mem_cons_of_mem _ hother
    intro other hother now'
    have hmem : other ∈ info.withExpires (toULong t) :: (pre ++ post) := by
      rw [← perm_middle.mem_iff, ← hmodify]
      exact hother
    rcases mem_cons.mp hmem with rfl | hmem
    · show fileExpiry _ _ _ info.subsId = some (.ok (toULong t))
      rw [fileExpiry_renewed_of_namesFile hnames]
      rw [hzone] at hwritten hreadable ⊢
      exact congrArg some (wsmanSetExpiretime_written hwritten hreadable (toULong_lt t) now')
    · exact hothers other hmem now'

end

/-- **Memory and repository.** In a time zone without daylight saving, and in every sequence of
Subscribe and Renew requests that succeed and keep the agreement, the file of every subscription in
the list says when the subscription expires. -/
theorem agreement_of_reachable {host : EventHost} {offset : ℤ} {s : EventState}
    (hzone : host.zone = .fixed offset)
    (h : Reachable ((requestSystem host).restrict (KeepsAgreement host.zone)) s) :
    Agreement host.zone s := by
  refine (Reachable.induct (P := Agreed host.zone) (fun s hinit ↦ ?_) (fun s l s' _ ih hstep ↦ ?_)
    h).files
  · have hnil : s.subs = [] := hinit
    refine ⟨hnil ▸ nodup_nil, fun info hinfo ↦ ?_⟩
    rw [hnil] at hinfo
    cases hinfo
  · obtain ⟨hstep, hkeeps⟩ := hstep
    cases hstep with
    | subscribe hsucc => exact ih.subscribe hzone hkeeps hsucc
    | renew hsucc => exact ih.renew hzone hkeeps hsucc

def alarmSubscribe2027 : WsXmlNode :=
  alarmSubscribe "uuid:first" [] [expiresAt "2027-01-15T08:00:00+00:00"]

theorem keepsAgreement_alarmSubscribe2027 :
    KeepsAgreement alarmHost.zone ⟨[], .empty⟩
      (.subscribe "alarms" alarmSubscribe2027 1700000000) := by
  refine ⟨by decide, fun node t hnode ht ↦ ?_⟩
  have hasked : (expiresOf alarmSubscribe2027).bind
      (fun node ↦ requestedTime alarmHost.zone 1700000000 node.chars) = some 1800000000 := by decide
  rw [hnode, Option.bind_some, ht] at hasked
  cases hasked
  decide

theorem keepsAgreement_alarmRenew2030 :
    KeepsAgreement alarmHost.zone alarmState (.renew alarmRenew2030 1700000000) := by
  intro id info text t htarget htext ht
  have hnamed :
      renewTarget alarmState.subs alarmRenew2030 = .value (some ("alarms", alarmInfo)) := by decide
  rw [hnamed] at htarget
  cases htarget
  have hasked : (renewText alarmRenew2030).bind (requestedTime alarmHost.zone 1700000000) =
      some 1900000000 := by decide
  rw [htext, Option.bind_some, ht] at hasked
  cases hasked
  exact ⟨⟨rfl, _, rfl, by decide⟩, by decide⟩

theorem agreement_of_reachable_alarm :
    alarmHost.zone = .fixed 0 ∧
      Reachable ((requestSystem alarmHost).restrict (KeepsAgreement alarmHost.zone))
        alarmState2030 ∧
      Agreement alarmHost.zone alarmState2030 := by
  have hinit : Reachable ((requestSystem alarmHost).restrict (KeepsAgreement alarmHost.zone))
      ⟨[], .empty⟩ := .init rfl
  have hfirst : RequestStep alarmHost ⟨[], .empty⟩
      (.subscribe "alarms" alarmSubscribe2027 1700000000) alarmState :=
    .subscribe succeeds_alarmSubscribe
  have hsecond : RequestStep alarmHost alarmState (.renew alarmRenew2030 1700000000)
      alarmState2030 := .renew succeeds_alarmRenew2030
  have hrenewed := (hinit.step ⟨hfirst, keepsAgreement_alarmSubscribe2027⟩).step
    ⟨hsecond, keepsAgreement_alarmRenew2030⟩
  exact ⟨rfl, hrenewed, agreement_of_reachable rfl hrenewed⟩

def endlessState2030 : EventState :=
  endlessState.renewed "alarms" 1900000000 "2030-03-17T17:46:40+00:00"

/-- A subscription is made without an Expires and then renewed: it ends in 2030 in memory, and never
in its file. -/
theorem renewed_file_says_never :
    Reachable (requestSystem alarmHost) endlessState2030 ∧
      ¬Agreement alarmHost.zone endlessState2030 ∧
      endlessState2030.subs.map WsSubscribeInfo.expires = [1900000000] ∧
      fileExpiry alarmHost.zone 1700000000 endlessState2030 "alarms" = some (.ok 0) := by
  refine ⟨?_, fun hagree ↦ ?_, by decide, by decide⟩
  · have hinit : Reachable (requestSystem alarmHost) ⟨[], .empty⟩ := .init rfl
    have hfirst : RequestStep alarmHost ⟨[], .empty⟩
        (.subscribe "alarms" (alarmSubscribe "uuid:first" [] []) 1700000000) endlessState :=
      .subscribe succeeds_endlessSubscribe
    have hsecond : RequestStep alarmHost endlessState (.renew alarmRenew2030 1700000000)
        endlessState2030 :=
      @RequestStep.renew alarmHost _ acceptAll "uuid:answer" [] _ {} _ _ ⟨rfl, rfl⟩
    exact (hinit.step hfirst).step hsecond
  · have hsame := hagree { alarmInfo with expires := 1900000000 } (.head _) 1700000000
    exact absurd hsame (by decide)

end Openwsman
