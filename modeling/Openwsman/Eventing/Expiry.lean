import Openwsman.Eventing.Subscription

/-!
# Expiry times

A Subscribe or a Renew says in its `wse:Expires` when the subscription is to expire, as a duration
or as a date. What the server keeps of it is a number of seconds since 1970 in memory, and a date in
the file of the subscription.

A Subscribe with the time zero is taken for one that never expires, and the time in a Renew is not
checked at all. A Renew writes both before it asks the plugin, and it finds the file by the
identifier as it is spelled in the request.
-/

namespace Openwsman

open Int Option KeyedTable Search

/-! ## The time asked for -/

def requestedTime (zone : TimeZone) (now : ℕ) (text : String) : Option ℤ :=
  if text.toList.head? == some 'P' then (wsDeserializeDuration text).map fun timeout ↦ now + timeout
  else xmlDatetime zone text

variable {zone : TimeZone}

theorem wsmanSetExpiretime_eq_ok_iff {now : ℕ} {text : String} {e : ℕ} :
    wsmanSetExpiretime (xmlDatetime zone) text now = .ok e ↔
      ∃ t, requestedTime zone now text = some t ∧ toULong t = e := by
  rw [wsmanSetExpiretime, requestedTime]
  split
  · cases wsDeserializeDuration text <;> simp
  · cases xmlDatetime zone text <;> simp

theorem renewExpires_eq_ok_iff {now : ℕ} {asked : Option String} {e : ℕ} :
    renewExpires zone now asked = .ok e ↔
      ∃ text t, asked = some text ∧ requestedTime zone now text = some t ∧ toULong t = e := by
  cases asked with
  | none => simp [renewExpires]
  | some text => simp [renewExpires, wsmanSetExpiretime_eq_ok_iff]

theorem toULong_of_nonneg {t : ℤ} (h : 0 ≤ t) (h' : t < 2 ^ 64) : (toULong t : ℤ) = t := by
  rw [toULong, emod_eq_of_lt h h', toNat_of_nonneg h]

theorem toULong_of_neg {t : ℤ} (h : t < 0) (h' : -2 ^ 64 ≤ t) :
    (toULong t : ℤ) = t + 2 ^ 64 := by
  have hmod : t % 2 ^ 64 = t + 2 ^ 64 := by
    rw [← add_emod_right]
    exact emod_eq_of_lt (by omega) (by omega)
  rw [toULong, hmod, toNat_of_nonneg (by omega)]

theorem toULong_lt (t : ℤ) : toULong t < 2 ^ 64 := by
  rw [toULong]
  omega

/-! ## Later than now -/

section

variable (host : EventHost) (endPoint : EventEndPoint) (newId uuid : String) (ids : List String)
  (s : EventState) (doc : WsXmlNode) (msg : WsmanMessage) (now : ℕ)

def subscribeRequest : Handled (CResult EventState) EventResponse :=
  eventRequest host (wseSubscribeStub host endPoint newId now) uuid ids s doc msg

def renewRequest : Handled (CResult EventState) EventResponse :=
  eventRequest host (wseRenewStub host endPoint now) uuid ids s doc msg

def Succeeds (handled : Handled (CResult EventState) EventResponse) (s' : EventState) : Prop :=
  handled.service = .value s' ∧ (answerBody handled).isSome = true

def memoryExpiry (id : String) : Option ℕ :=
  (s.subs.find? (hasSubsId id)).map WsSubscribeInfo.expires

variable {host endPoint newId uuid ids s doc msg now} {s' : EventState}

theorem Succeeds.stub {stub : EventStub}
    (h : Succeeds (eventRequest host stub uuid ids s doc msg) s') :
    Admitted ids doc ∧ ∃ op : SoapOp EventResponse, op.inDoc = doc ∧ op.msg = msg ∧
      ∃ out, stub s op = .value (s', out) ∧ out.bind SoapDoc.body ≠ none := by
  obtain ⟨hservice, hbody⟩ := h
  rcases eventRequest_cases host stub uuid ids s doc msg with
    ⟨hadm, op, hdoc, hmsg, ⟨-, hundef⟩ | ⟨s₁, out, hstub, hservice', hbody'⟩⟩ | ⟨-, -, hnone⟩
  · cases hundef.symm.trans hservice
  · cases hservice'.symm.trans hservice
    refine ⟨hadm, op, hdoc, hmsg, out, hstub, fun hout ↦ ?_⟩
    rw [hbody'] at hbody
    cases out with
    | none => cases hbody
    | some d =>
      rw [bind_some] at hout hbody
      rw [hout, ite_self] at hbody
      cases hbody
  · rw [hnone] at hbody
    cases hbody

theorem Succeeds.subscribe
    (h : Succeeds (subscribeRequest host endPoint newId uuid ids s doc msg now) s') :
    Admitted ids doc ∧ ∃ op : SoapOp EventResponse, op.inDoc = doc ∧ op.msg = msg ∧ ∃ info text,
      createSubsInfo host op newId now = .value (.ok info) ∧
        wsmanExpiretime2xmldatetime host.zone info.expires = .value text ∧
        s' = s.subscribed info doc text := by
  obtain ⟨hadm, op, hdoc, hmsg, out, hstub, hout⟩ := Succeeds.stub h
  refine ⟨hadm, op, hdoc, hmsg, ?_⟩
  rcases wseSubscribeStub_cases hstub with ⟨-, hnone⟩ | ⟨info, text, hcreate, -, htext, heq, -⟩
  · exact absurd hnone hout
  · rw [hdoc] at heq
    exact ⟨info, text, hcreate, htext, heq⟩

theorem Succeeds.renew
    (h : Succeeds (renewRequest host endPoint uuid ids s doc msg now) s') :
    ∃ id info expires text, renewTarget s.subs doc = .value (some (id, info)) ∧
      renewExpires host.zone now (renewText doc) = .ok expires ∧
      wsmanExpiretime2xmldatetime host.zone expires = .value text ∧
      s' = s.renewed id expires text := by
  obtain ⟨-, op, hdoc, -, out, hstub, hout⟩ := Succeeds.stub h
  rcases wseRenewStub_cases hstub with ⟨-, hnone, -⟩ | ⟨id, info, e, text, ht, he, hw, heq, -⟩
  · exact absurd hnone hout
  · rw [hdoc] at ht he
    exact ⟨id, info, e, text, ht, he, hw, heq⟩

theorem memoryExpiry_renewed {id : String} {info : WsSubscribeInfo}
    (h : s.subs.find? (hasSubsId id) = some info) (expires : ℕ) (text : String) :
    memoryExpiry (s.renewed id expires text) id = some expires := by
  rw [memoryExpiry, EventState.renewed]
  dsimp only
  rw [find?_modifyFirst, h]
  · rfl
  · exact fun _ hinfo ↦ hinfo

end

/-- **Expiry in the future.** For a request with an Expires that succeeds, `t` being the point in
time that it asks for: after a Subscribe the new subscription expires later than now exactly if `t`
is not the beginning of 1970, and after a Renew the subscription does exactly if `t` is later than
now or before 1970. -/
theorem storedLater_iff (host : EventHost) (endPoint : EventEndPoint) (newId uuid : String)
    (ids : List String) (s s' : EventState) (doc : WsXmlNode) (msg : WsmanMessage) (now : ℕ) (t : ℤ)
    (hnow : now < 2 ^ 63) (ht : -2 ^ 63 ≤ t ∧ t < 2 ^ 63) :
    (∀ node, expiresOf doc = some node → requestedTime host.zone now node.chars = some t →
        Succeeds (subscribeRequest host endPoint newId uuid ids s doc msg now) s' →
        ((∃ info, s'.subs = s.subs ++ [info] ∧ now < info.expires) ↔ t ≠ 0)) ∧
      (∀ text id info, renewText doc = some text → requestedTime host.zone now text = some t →
        renewTarget s.subs doc = .value (some (id, info)) →
        Succeeds (renewRequest host endPoint uuid ids s doc msg now) s' →
        ((∃ e, memoryExpiry s' id = some e ∧ now < e) ↔ (now : ℤ) < t ∨ t < 0)) := by
  have hzero : toULong t = 0 ↔ t = 0 := by
    rcases lt_or_ge t 0 with hneg | hpos
    · have := toULong_of_neg hneg (by omega)
      omega
    · have := toULong_of_nonneg hpos (by omega)
      omega
  constructor
  · intro node hnode hreq hsucc
    obtain ⟨-, op, hdoc, -, info, text, hcreate, -, rfl⟩ := hsucc.subscribe
    obtain ⟨subNode, parts, -, hexpires, -⟩ := createSubsInfo_ok hcreate
    rw [hdoc, hnode, subscribeExpires, wsmanSetExpiretime_eq_ok_iff.mpr ⟨t, hreq, rfl⟩] at hexpires
    dsimp only at hexpires
    split at hexpires
    · cases hexpires
    next hexp =>
    have hinfo : toULong t = info.expires := Except.ok.inj hexpires
    rw [timeExpired, Bool.not_eq_true, Bool.and_eq_false_iff, bne_eq_false_iff_eq,
      Bool.not_eq_false', decide_eq_true_eq] at hexp
    rw [ne_eq, ← hzero]
    constructor
    · rintro ⟨info', hsubs, hlater⟩ h0
      cases List.append_cancel_left hsubs
      omega
    · intro hne
      refine ⟨info, rfl, ?_⟩
      rw [← hinfo]
      exact hexp.resolve_left hne
  · intro text id info htext hreq htarget hsucc
    obtain ⟨id', info', e, text', htarget', he, -, rfl⟩ := hsucc.renew
    cases htarget.symm.trans htarget'
    rw [htext, renewExpires, wsmanSetExpiretime_eq_ok_iff] at he
    obtain ⟨t', hreq', rfl⟩ := he
    obtain rfl := some.inj (hreq.symm.trans hreq')
    rw [memoryExpiry_renewed (renewTarget_eq_some htarget)]
    simp only [some.injEq, exists_eq_left']
    rcases lt_or_ge t 0 with hneg | hpos
    · have := toULong_of_neg hneg (by omega)
      omega
    · have := toULong_of_nonneg hpos (by omega)
      omega

def alarmHost : EventHost where
  dump _ _ := 0
  zone := .fixed 0
  uriParses _ := true

def alarmHeader (action messageId : String) (more : List WsXmlNode) : List WsXmlNode :=
  [.elem xmlNsAddressing wsaTo [.text "http://localhost/wsman"],
    .elem xmlNsWsMan wsmResourceUri [.text "urn:alarms"],
    .elem xmlNsAddressing wsaAction [.text action],
    .elem xmlNsAddressing wsaMessageId [.text messageId],
    .elem xmlNsAddressing wsaReplyTo []] ++ more

def alarmSubscribe (messageId : String) (more content : List WsXmlNode) : WsXmlNode :=
  wsXmlCreateEnvelope (alarmHeader (xmlNsEventing ++ "/Subscribe") messageId more)
    [.elem xmlNsEventing wseventSubscribe
      ([.elem xmlNsEventing wseventDelivery
          [.elem xmlNsEventing wseventNotifyTo
            [.elem xmlNsAddressing wsaAddress [.text "http://sink"]]],
        .element (some xmlNsWsMan) wsmFilter [⟨none, wsmDialect, wsmWqlFilterDialect⟩]
          [.text "select * from Alarm"]] ++ content)]

def expiresAt (text : String) : WsXmlNode := .elem xmlNsEventing wseventExpires [.text text]

def alarmRenew (identifier expires : String) : WsXmlNode :=
  wsXmlCreateEnvelope
    (alarmHeader evtActionRenew "uuid:renew"
      [.elem xmlNsEventing wseventIdentifier [.text identifier]])
    [.elem xmlNsEventing wseventRenew [expiresAt expires]]

def alarmInfo : WsSubscribeInfo where
  subsId := "alarms"
  soapNs := xmlNsSoap12
  uri := "urn:alarms"
  eprNotifyto := some "http://sink"
  expires := 1800000000
  deliveryMode := .push

def alarmState : EventState :=
  EventState.subscribed ⟨[], .empty⟩ alarmInfo
    (alarmSubscribe "uuid:first" [] [expiresAt "2027-01-15T08:00:00+00:00"])
    "2027-01-15T08:00:00+00:00"

def alarmRenew2030 : WsXmlNode := alarmRenew "uuid:alarms" "2030-03-17T17:46:40+00:00"

def alarmState2030 : EventState :=
  alarmState.renewed "alarms" 1900000000 "2030-03-17T17:46:40+00:00"

def acceptAll : EventEndPoint := fun _ ↦ none

theorem succeeds_alarmSubscribe :
    Succeeds (subscribeRequest alarmHost acceptAll "alarms" "uuid:answer" [] ⟨[], .empty⟩
      (alarmSubscribe "uuid:first" [] [expiresAt "2027-01-15T08:00:00+00:00"]) {} 1700000000)
      alarmState :=
  ⟨rfl, rfl⟩

theorem succeeds_alarmRenew2030 :
    Succeeds (renewRequest alarmHost acceptAll "uuid:answer" [] alarmState alarmRenew2030 {}
      1700000000) alarmState2030 :=
  ⟨rfl, rfl⟩

def endlessState : EventState :=
  EventState.subscribed ⟨[], .empty⟩ { alarmInfo with expires := 0 }
    (alarmSubscribe "uuid:first" [] []) "1970-01-01T00:00:00+00:00"

theorem succeeds_endlessSubscribe :
    Succeeds (subscribeRequest alarmHost acceptAll "alarms" "uuid:answer" [] ⟨[], .empty⟩
      (alarmSubscribe "uuid:first" [] []) {} 1700000000) endlessState :=
  ⟨rfl, rfl⟩

theorem storedLater_iff_alarm :
    (1700000000 < 2 ^ 63 ∧ (-2 ^ 63 ≤ (1900000000 : ℤ) ∧ (1900000000 : ℤ) < 2 ^ 63)) ∧
      ∃ s', Succeeds (renewRequest alarmHost acceptAll "uuid:answer" [] alarmState
          (alarmRenew "uuid:alarms" "2030-03-17T17:46:40+00:00") {} 1700000000) s' ∧
        ((∃ e, memoryExpiry s' "alarms" = some e ∧ 1700000000 < e) ↔
          ((1700000000 : ℕ) : ℤ) < 1900000000 ∨ (1900000000 : ℤ) < 0) :=
  ⟨⟨by decide, by decide⟩, alarmState2030, succeeds_alarmRenew2030,
    (storedLater_iff alarmHost acceptAll "alarms" "uuid:answer" [] alarmState _
      (alarmRenew "uuid:alarms" "2030-03-17T17:46:40+00:00") {} 1700000000 1900000000 (by decide)
      (by decide)).2 "2030-03-17T17:46:40+00:00" "alarms" alarmInfo (by decide) (by decide)
      (by decide) succeeds_alarmRenew2030⟩

/-- A Renew succeeds with a time that has passed, and a Subscribe until the beginning of 1970 makes
a subscription that never expires. -/
theorem expired_renew_and_endless_subscribe :
    (∃ s' e, Succeeds (renewRequest alarmHost acceptAll "uuid:answer" [] alarmState
        (alarmRenew "uuid:alarms" "2000-01-01T00:00:00+00:00") {} 1700000000) s' ∧
      memoryExpiry s' "alarms" = some e ∧ e ≠ 0 ∧ ¬1700000000 < e) ∧
    ∃ s', Succeeds (subscribeRequest alarmHost acceptAll "alarms" "uuid:answer" [] ⟨[], .empty⟩
        (alarmSubscribe "uuid:first" [] [expiresAt "1970-01-01T00:00:00+00:00"]) {} 1700000000) s' ∧
      s'.subs.map WsSubscribeInfo.expires = [0] :=
  ⟨⟨_, 946684800, ⟨rfl, rfl⟩, by decide, by decide, by decide⟩, _, ⟨rfl, rfl⟩, by decide⟩

/-! ## In memory and in the file -/

theorem isElement_of_wsXmlFirstChild {parent : Option WsXmlNode} {ns name : String} {n : WsXmlNode}
    (h : wsXmlFirstChild parent ns name = some n) : n.isElement = true := by
  cases parent with
  | none => cases h
  | some p =>
    rw [wsXmlFirstChild, wsXmlGetChild_some, WsXmlNode.childrenNamed_eq_filter] at h
    have hmem := List.mem_of_getElem? h
    exact WsXmlNode.isElement_of_isNamed (List.mem_filter.mp hmem).2

theorem subscribeOf_setExpires (text : String) (doc : WsXmlNode) :
    subscribeOf (setExpires text doc) =
      (subscribeOf doc).map
        (changeFirstChild xmlNsEventing wseventExpires (wsXmlSetNodeText text)) := by
  rw [subscribeOf, setExpires, wsXmlGetSoapBody_changeSoapBody (tag_changeFirstChild _ _ _),
    subscribeOf]
  cases wsXmlGetSoapBody doc with
  | none => rfl
  | some body =>
    rw [map_some, firstChild_changeFirstChild (tag_changeFirstChild _ _ _)]

theorem expiresOf_setExpires (text : String) (doc : WsXmlNode) :
    expiresOf (setExpires text doc) = (expiresOf doc).map (wsXmlSetNodeText text) := by
  rw [expiresOf, expiresOf, subscribeOf_setExpires]
  cases subscribeOf doc with
  | none => rfl
  | some subscribe =>
    rw [map_some, firstChild_changeFirstChild (tag_wsXmlSetNodeText text)]

def storedExpiry (zone : TimeZone) (now : ℕ) (doc : WsXmlNode) : Except WsmanFaultCodeType ℕ :=
  match expiresOf doc with
  | none => .ok 0
  | some node => wsmanSetExpiretime (xmlDatetime zone) node.chars now

theorem storedExpiry_of_expiresOf {now : ℕ} {text : String} {doc doc' : WsXmlNode}
    (h : expiresOf doc' = (expiresOf doc).map (wsXmlSetNodeText text)) :
    storedExpiry zone now doc' =
      if (expiresOf doc).isSome then wsmanSetExpiretime (xmlDatetime zone) text now else .ok 0 := by
  rw [storedExpiry, h]
  cases hnode : expiresOf doc with
  | none => rfl
  | some node =>
    rw [map_some]
    dsimp only
    rw [chars_wsXmlSetNodeText (isElement_of_wsXmlFirstChild hnode)]
    rfl

def fileExpiry (zone : TimeZone) (now : ℕ) (s : EventState) (id : String) :
    Option (Except WsmanFaultCodeType ℕ) :=
  (s.repo.lookup id).map fun file ↦ storedExpiry zone now file.doc

theorem lookup_localSubscriptionOpUpdate (repo : SubsRepository) (uuid text k : String) :
    (localSubscriptionOpUpdate repo uuid text).lookup k =
      if uuid = k then (repo.lookup k).map fun file ↦ { file with doc := setExpires text file.doc }
      else repo.lookup k := by
  rw [localSubscriptionOpUpdate]
  cases hfile : repo.lookup uuid with
  | none =>
    dsimp only
    split
    · next h => rw [← h, hfile, map_none]
    · rfl
  | some file =>
    dsimp only
    have hid : file.id = uuid := Table.key_of_lookup hfile
    rw [Table.lookup_replace, hid]
    split
    · next h => rw [← h, hfile, map_some, map_some, hid]
    · rfl

theorem EventState.lookup_renewed (s : EventState) (id : String) (expires : ℕ) (text k : String) :
    (s.renewed id expires text).repo.lookup k =
      if id = k then
        (s.repo.lookup k).map fun file ↦ { file with doc := setExpires text file.doc }
      else s.repo.lookup k :=
  lookup_localSubscriptionOpUpdate _ _ _ _

def NamesFile (s : EventState) (id : String) (info : WsSubscribeInfo) : Prop :=
  id = info.subsId ∧ ∃ file, s.repo.lookup id = some file ∧ (expiresOf file.doc).isSome = true

section

variable {zone : TimeZone} {now : ℕ} {s : EventState} {id : String} {info : WsSubscribeInfo}

theorem fileExpiry_renewed_of_namesFile (h : NamesFile s id info) (expires : ℕ) (text : String) :
    fileExpiry zone now (s.renewed id expires text) info.subsId =
      some (wsmanSetExpiretime (xmlDatetime zone) text now) := by
  obtain ⟨rfl, file, hfile, hexpires⟩ := h
  rw [fileExpiry, EventState.lookup_renewed, if_pos rfl, hfile, map_some, map_some,
    storedExpiry_of_expiresOf (expiresOf_setExpires text file.doc), if_pos hexpires]

theorem fileExpiry_renewed_of_not_namesFile (h : ¬NamesFile s id info) (expires : ℕ)
    (text : String) :
    fileExpiry zone now (s.renewed id expires text) info.subsId =
      fileExpiry zone now s info.subsId := by
  rw [fileExpiry, fileExpiry, EventState.lookup_renewed]
  split
  · next hid =>
    cases hfile : s.repo.lookup info.subsId with
    | none => rfl
    | some file =>
      have hnone : expiresOf file.doc = none := by
        cases hexpires : expiresOf file.doc with
        | none => rfl
        | some node =>
          refine absurd ⟨hid, file, ?_, ?_⟩ h
          · rw [hid, hfile]
          · rw [hexpires, isSome_some]
      have hnone' : expiresOf (setExpires text file.doc) = none := by
        rw [expiresOf_setExpires, hnone, map_none]
      rw [map_some, map_some, map_some, storedExpiry, storedExpiry, hnone, hnone']
  · rfl

end

section

variable (host : EventHost) (endPoint : EventEndPoint) (uuid : String) (ids : List String)
  (s : EventState) (doc : WsXmlNode) (msg : WsmanMessage) (now : ℕ)

/-- A Renew that is answered with a fault has changed neither of the two expiry times of the
subscription, and after one that succeeds both are the one that was asked for. -/
def RenewAllOrNothing : Prop :=
  ∀ s', (renewRequest host endPoint uuid ids s doc msg now).service = .value s' →
    (answerBody (renewRequest host endPoint uuid ids s doc msg now) = none →
      ∀ id info, renewTarget s.subs doc = .value (some (id, info)) →
        memoryExpiry s' id = memoryExpiry s id ∧
          fileExpiry host.zone now s' info.subsId = fileExpiry host.zone now s info.subsId) ∧
    (answerBody (renewRequest host endPoint uuid ids s doc msg now) ≠ none →
      ∃ id info text t, renewTarget s.subs doc = .value (some (id, info)) ∧
        renewText doc = some text ∧ requestedTime host.zone now text = some t ∧
        memoryExpiry s' id = some (toULong t) ∧
        fileExpiry host.zone now s' info.subsId = some (.ok (toULong t)))

def RenewAccepted (info : WsSubscribeInfo) (expires : ℕ) : Prop :=
  endPoint (info.withExpires expires) = none ∧
    responseTooLong host uuid doc msg (renewResponse doc) = false

/-- What is needed of a Renew that gets as far as changing the expiry time of a subscription:
`written` is the new time as a date. If it is accepted, the date must get into the file and be read
as the new time, or the file says so already. If it is refused, the time must be the one that is
there. -/
def RenewHarmless (id : String) (info : WsSubscribeInfo) (expires : ℕ) (written : String) : Prop :=
  (RenewAccepted host endPoint uuid doc msg info expires →
    (NamesFile s id info ∧ wsmanSetExpiretime (xmlDatetime host.zone) written now = .ok expires) ∨
      (¬NamesFile s id info ∧ fileExpiry host.zone now s info.subsId = some (.ok expires))) ∧
  (¬RenewAccepted host endPoint uuid doc msg info expires →
    expires = info.expires ∧ (NamesFile s id info → fileExpiry host.zone now s info.subsId =
      some (wsmanSetExpiretime (xmlDatetime host.zone) written now)))

variable {host endPoint uuid ids s doc msg now}

theorem body_renewAnswer (host : EventHost) (endPoint : EventEndPoint) (uuid : String)
    (doc : WsXmlNode) (msg : WsmanMessage) (info : WsSubscribeInfo) (expires : ℕ) :
    ((renewAnswer endPoint doc info expires).bind fun d ↦
        if responseTooLong host uuid doc msg d then none else d.body) ≠ none ↔
      RenewAccepted host endPoint uuid doc msg info expires := by
  rw [renewAnswer, RenewAccepted]
  cases endPoint (info.withExpires expires) with
  | some status =>
    dsimp only
    cases hfault : (wsmanGenerateFault status.faultCode status.faultDetailCode :
        Option EventDoc) with
    | none => simp
    | some d => simp [wsmanGenerateFault_body hfault]
  | none =>
    dsimp only
    rw [bind_some]
    cases responseTooLong host uuid doc msg (renewResponse doc) with
    | true => simp
    | false => simp [renewResponse, SoapDoc.body]

variable {id : String} {info : WsSubscribeInfo}

theorem renewHarmless_iff (host : EventHost) (endPoint : EventEndPoint) (uuid : String)
    (doc : WsXmlNode) (msg : WsmanMessage) (now expires : ℕ) (written : String)
    (hfound : s.subs.find? (hasSubsId id) = some info) :
    RenewHarmless host endPoint uuid s doc msg now id info expires written ↔
      (RenewAccepted host endPoint uuid doc msg info expires →
        fileExpiry host.zone now (s.renewed id expires written) info.subsId =
          some (.ok expires)) ∧
      (¬RenewAccepted host endPoint uuid doc msg info expires →
        memoryExpiry (s.renewed id expires written) id = memoryExpiry s id ∧
          fileExpiry host.zone now (s.renewed id expires written) info.subsId =
            fileExpiry host.zone now s info.subsId) := by
  have hbefore : memoryExpiry s id = some info.expires := by
    rw [memoryExpiry, hfound, map_some]
  rw [RenewHarmless, memoryExpiry_renewed hfound, hbefore, some.injEq]
  by_cases hnames : NamesFile s id info
  · rw [fileExpiry_renewed_of_namesFile hnames]
    simp only [hnames, true_and, not_true_eq_false, false_and, or_false, true_imp_iff, some.injEq]
    rw [eq_comm (b := fileExpiry host.zone now s info.subsId)]
  · rw [fileExpiry_renewed_of_not_namesFile hnames]
    simp only [hnames, false_and, false_or, not_false_eq_true, true_and, false_imp_iff, and_true]

theorem renewAllOrNothing_of_unchanged
    (hservice : (renewRequest host endPoint uuid ids s doc msg now).service = .value s)
    (hnone : answerBody (renewRequest host endPoint uuid ids s doc msg now) = none) :
    RenewAllOrNothing host endPoint uuid ids s doc msg now := by
  intro s' hs'
  cases hservice.symm.trans hs'
  exact ⟨fun _ id info _ ↦ ⟨rfl, rfl⟩, fun h ↦ absurd hnone h⟩

theorem renewAllOrNothing_iff_of_renewed {text written : String} {t : ℤ}
    (htarget : renewTarget s.subs doc = .value (some (id, info)))
    (htext : renewText doc = some text) (ht : requestedTime host.zone now text = some t)
    (hservice : (renewRequest host endPoint uuid ids s doc msg now).service = .value (s.renewed id
      (toULong t) written))
    (hanswer : answerBody (renewRequest host endPoint uuid ids s doc msg now) ≠ none ↔ RenewAccepted
      host endPoint uuid doc msg info (toULong t)) :
    RenewAllOrNothing host endPoint uuid ids s doc msg now ↔
      RenewHarmless host endPoint uuid s doc msg now id info (toULong t) written := by
  have hfound := renewTarget_eq_some htarget
  rw [renewHarmless_iff host endPoint uuid doc msg now (toULong t) written hfound]
  constructor
  · intro h
    obtain ⟨hfault, hsuccess⟩ := h _ hservice
    refine ⟨fun hacc ↦ ?_, fun hacc ↦ ?_⟩
    · obtain ⟨id₁, info₁, text₁, t₁, htarget₁, htext₁, ht₁, -, hfile⟩ :=
        hsuccess (hanswer.mpr hacc)
      cases htarget.symm.trans htarget₁
      cases htext.symm.trans htext₁
      cases ht.symm.trans ht₁
      exact hfile
    · exact hfault (not_not.mp fun hne ↦ hacc (hanswer.mp hne)) id info htarget
  · rintro ⟨hsuccess, hfault⟩ s' hs'
    cases hservice.symm.trans hs'
    refine ⟨fun hnone id' info' htarget' ↦ ?_, fun hsome ↦ ?_⟩
    · cases htarget.symm.trans htarget'
      exact hfault fun hacc ↦ hanswer.mpr hacc hnone
    · exact ⟨id, info, text, t, htarget, htext, ht, memoryExpiry_renewed hfound _ _,
        hsuccess (hanswer.mp hsome)⟩

theorem wseRenewStub_of_target {op : SoapOp EventResponse} {written : String} {expires : ℕ}
    (htarget : renewTarget s.subs op.inDoc = .value (some (id, info)))
    (hexpires : renewExpires host.zone now (renewText op.inDoc) = .ok expires)
    (hwritten : wsmanExpiretime2xmldatetime host.zone expires = .value written) :
    wseRenewStub host endPoint now s op =
      .value (s.renewed id expires written, renewAnswer endPoint op.inDoc info expires) := by
  rw [renewTarget] at htarget
  rw [wseRenewStub]
  cases hid : identifierOf op.inDoc with
  | none => rw [hid] at htarget; cases htarget
  | some identifier =>
    rw [hid] at htarget
    dsimp only at htarget ⊢
    rw [htarget, CResult.value_bind]
    dsimp only
    rw [hexpires]
    dsimp only
    rw [hwritten]
    rfl

end

def refuseAll : EventEndPoint := fun _ ↦ some ⟨.wsmanAccessDenied, .wsmanDetailOk⟩

end Openwsman
