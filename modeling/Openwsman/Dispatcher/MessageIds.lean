import Mathlib.Logic.Function.Basic
import Openwsman.Dispatcher.Inbound
import Openwsman.Lib.Transition
import Openwsman.Lib.Window

/-!
# The list of processed message ids

`wsman_is_duplicate_message_id` keeps the ids of the requests it has let pass in a list that all
threads share. A thread that runs the function is before the lock, waits for the lock with the id it
has read, or has returned. What happens under the lock, the search, the eviction of old ids and the
append, is one step of the system, `lockedSection`, and so is everything in front of it. So the id
that a thread waits with is looked up in a list that may have changed since.

The state also records the ids that were accepted, in order of acceptance. The list is the end of
that record.
-/

namespace Openwsman

open List Transition

variable {δ τ : Type}

/-! ## The function in two parts -/

def searchMsgId (msgId : String) : List String → Bool
  | [] => false
  | data :: ids => data == msgId || searchMsgId msgId ids

def lockedSection (ids : List String) (op : SoapOp δ) (msgId : String) :
    List String × SoapOp δ × Bool :=
  if searchMsgId msgId ids then
    (ids, refuse op .wsaInvalidMessageInformationHeader .wsaDetailDuplicateMessageId)
  else (Window.evict processedMsgIdMaxSize ids ++ [msgId], op, false)

inductive CheckPhase (δ : Type) where
  | idle
  | waiting (op : SoapOp δ) (msgId : String)
  | returned (op : SoapOp δ) (retVal : Bool)

def beforeLock (op : SoapOp δ) : CheckPhase δ :=
  match wsXmlFirstChild (wsmanGetSoapHeaderElement op.inDoc none none) xmlNsAddressing
      wsaMessageId with
  | some msgIdNode =>
    if msgIdNode.chars == "" then
      let r := refuse op .wsaInvalidMessageInformationHeader .wsmanDetailOk
      .returned r.1 r.2
    else .waiting op msgIdNode.chars
  | none =>
    if !wsmanIsIdentifyRequest op.inDoc then
      let r := refuse op .wsaMessageInformationHeaderRequired .wsmanDetailOk
      .returned r.1 r.2
    else .returned op false

theorem searchMsgId_eq_contains (msgId : String) (ids : List String) :
    searchMsgId msgId ids = ids.contains msgId := by
  induction ids with
  | nil => rfl
  | cons data ids ih =>
    rw [searchMsgId, ih, contains_cons, BEq.comm]

variable (ids : List String)

theorem rememberMsgId_eq_push (msgId : String) :
    rememberMsgId ids msgId = Window.push processedMsgIdMaxSize ids msgId := by
  rw [rememberMsgId, Window.push, Window.evict_eq_drop]

theorem lockedSection_eq (op : SoapOp δ) (msgId : String) :
    lockedSection ids op msgId =
      if msgId ∈ ids then
        (ids, refuse op .wsaInvalidMessageInformationHeader .wsaDetailDuplicateMessageId)
      else (Window.push processedMsgIdMaxSize ids msgId, op, false) := by
  rw [lockedSection, searchMsgId_eq_contains, contains_eq_mem, Window.push]
  simp only [decide_eq_true_eq]

theorem wsmanIsDuplicateMessageId_eq_phases (op : SoapOp δ) :
    (∃ msgId, beforeLock op = .waiting op msgId ∧
        wsmanIsDuplicateMessageId ids op = lockedSection ids op msgId) ∨
      ∃ op' retVal, beforeLock op = .returned op' retVal ∧
        wsmanIsDuplicateMessageId ids op = (ids, op', retVal) := by
  rw [beforeLock, wsmanIsDuplicateMessageId]
  cases wsXmlFirstChild (wsmanGetSoapHeaderElement op.inDoc none none) xmlNsAddressing
      wsaMessageId with
  | none =>
    apply Or.inr
    cases wsmanIsIdentifyRequest op.inDoc with
    | true => exact ⟨op, false, rfl, rfl⟩
    | false => exact ⟨_, true, rfl, rfl⟩
  | some node =>
    dsimp only
    by_cases hempty : node.chars = ""
    · rw [hempty]
      exact Or.inr ⟨_, true, rfl, rfl⟩
    · have hne : ¬(node.chars == "") = true := by simpa using hempty
      refine Or.inl ⟨node.chars, if_neg hne, ?_⟩
      rw [if_neg hne, lockedSection, searchMsgId_eq_contains, rememberMsgId_eq_push, Window.push]

theorem beforeLock_of_messageId {op : SoapOp δ} {node : WsXmlNode}
    (hnode : wsXmlFirstChild (headerOf op.inDoc) xmlNsAddressing wsaMessageId = some node)
    (hne : node.chars ≠ "") : beforeLock op = .waiting op node.chars := by
  rw [headerOf] at hnode
  rw [beforeLock, hnode]
  exact if_neg (by simpa using hne)

/-! ## All threads -/

structure IdServer (τ δ : Type) where
  ids : List String
  phase : τ → CheckPhase δ
  accepted : List String

inductive IdLabel (τ δ : Type) where
  | enter (t : τ) (op : SoapOp δ)
  | locked (t : τ)
  | leave (t : τ)

variable [DecidableEq τ]

def IdServer.afterLock (s : IdServer τ δ) (t : τ) (op : SoapOp δ) (msgId : String) :
    IdServer τ δ :=
  let r := lockedSection s.ids op msgId
  { ids := r.1
    phase := Function.update s.phase t (.returned r.2.1 r.2.2)
    accepted := if r.2.2 then s.accepted else s.accepted ++ [msgId] }

inductive IdStep : IdServer τ δ → IdLabel τ δ → IdServer τ δ → Prop where
  | enter {s : IdServer τ δ} {t : τ} (op : SoapOp δ) : s.phase t = .idle →
      IdStep s (.enter t op) { s with phase := Function.update s.phase t (beforeLock op) }
  | locked {s : IdServer τ δ} {t : τ} {op : SoapOp δ} {msgId : String} :
      s.phase t = .waiting op msgId → IdStep s (.locked t) (s.afterLock t op msgId)
  | leave {s : IdServer τ δ} {t : τ} {op : SoapOp δ} {retVal : Bool} :
      s.phase t = .returned op retVal →
      IdStep s (.leave t) { s with phase := Function.update s.phase t .idle }

def idSystem (τ δ : Type) [DecidableEq τ] : System (IdServer τ δ) (IdLabel τ δ) where
  Init s := s = ⟨[], fun _ ↦ .idle, []⟩
  Step := IdStep

theorem IdServer.afterLock_spec (s : IdServer τ δ) (t : τ) (op : SoapOp δ) (msgId : String) :
    (msgId ∈ s.ids ∧ (s.afterLock t op msgId).ids = s.ids ∧
        (s.afterLock t op msgId).accepted = s.accepted ∧
        (s.afterLock t op msgId).phase t = .returned
          (generateOpFault op .wsaInvalidMessageInformationHeader .wsaDetailDuplicateMessageId)
          true) ∨
      (msgId ∉ s.ids ∧
        (s.afterLock t op msgId).ids = Window.push processedMsgIdMaxSize s.ids msgId ∧
        (s.afterLock t op msgId).accepted = s.accepted ++ [msgId] ∧
        (s.afterLock t op msgId).phase t = .returned op false) := by
  by_cases hmem : msgId ∈ s.ids
  · refine .inl ⟨hmem, ?_⟩
    rw [afterLock, lockedSection_eq, if_pos hmem]
    exact ⟨rfl, rfl, Function.update_self t _ s.phase⟩
  · refine .inr ⟨hmem, ?_⟩
    rw [afterLock, lockedSection_eq, if_neg hmem]
    exact ⟨rfl, rfl, Function.update_self t _ s.phase⟩

/-! ## The window -/

/-- The list is the end of the record, and no id is in it twice. -/
def WindowInv (s : IdServer τ δ) : Prop :=
  s.ids = s.accepted.rtake processedMsgIdMaxSize ∧ s.ids.Nodup

variable {s : IdServer τ δ}

theorem windowInv_step {s' : IdServer τ δ} {l : IdLabel τ δ} (h : WindowInv s)
    (hstep : IdStep s l s') : WindowInv s' := by
  cases hstep with
  | enter op _ => exact h
  | leave _ => exact h
  | @locked t op msgId _ =>
    obtain ⟨hids, hnodup⟩ := h
    rcases s.afterLock_spec t op msgId with ⟨_, heq, hacc, _⟩ | ⟨hnew, heq, hacc, _⟩
    · rw [WindowInv, heq, hacc]
      exact ⟨hids, hnodup⟩
    rw [WindowInv, heq, hacc]
    refine ⟨?_, Window.nodup_push hnodup hnew⟩
    rw [hids]
    exact Window.push_rtake (by decide) s.accepted msgId

theorem windowInv_of_reachable (h : Reachable (idSystem τ δ) s) : WindowInv s := by
  refine Reachable.induct (P := WindowInv) ?_ ?_ h
  · intro s hs
    have hinit : s = ⟨[], fun _ ↦ .idle, []⟩ := hs
    rw [hinit]
    exact ⟨(rtake_nil processedMsgIdMaxSize).symm, nodup_nil⟩
  · intro s l s' _ hinv hstep
    exact windowInv_step hinv hstep

structure LatestAccepted (s : IdServer τ δ) : Prop where
  bounded : s.ids.length ≤ 200
  distinct : s.ids.Nodup
  latest : s.ids = s.accepted.rtake 200
  entered : ∀ t op s', IdStep s (.enter t op) s' → s'.ids = s.ids ∧ s'.accepted = s.accepted ∧
    ∀ node, wsXmlFirstChild (headerOf op.inDoc) xmlNsAddressing wsaMessageId = some node →
      node.chars ≠ "" → s'.phase t = .waiting op node.chars
  refused : ∀ t op msgId s', s.phase t = .waiting op msgId → IdStep s (.locked t) s' →
    msgId ∈ s.ids → s'.ids = s.ids ∧ s'.accepted = s.accepted ∧ s'.phase t = .returned
      (generateOpFault op .wsaInvalidMessageInformationHeader .wsaDetailDuplicateMessageId) true
  passed : ∀ t op msgId s', s.phase t = .waiting op msgId → IdStep s (.locked t) s' →
    msgId ∉ s.ids → s'.accepted = s.accepted ++ [msgId] ∧ s'.phase t = .returned op false

theorem IdStep.eq_afterLock {s' : IdServer τ δ} {t : τ} {op : SoapOp δ} {msgId : String}
    (hphase : s.phase t = .waiting op msgId) (hstep : IdStep s (.locked t) s') :
    s' = s.afterLock t op msgId := by
  cases hstep with
  | locked h =>
    rw [hphase, CheckPhase.waiting.injEq] at h
    rw [h.1, h.2]

/-- **The window of accepted ids.** Whatever requests come in and however their threads interleave,
the list holds the last two hundred accepted ids. -/
theorem processed_ids_are_latest_accepted {s : IdServer τ δ} (h : Reachable (idSystem τ δ) s) :
    LatestAccepted s := by
  obtain ⟨hids, hnodup⟩ := windowInv_of_reachable h
  refine ⟨?_, hnodup, hids, ?_, ?_, ?_⟩
  · rw [hids]
    exact Window.length_rtake_le processedMsgIdMaxSize s.accepted
  · intro t op s' hstep
    cases hstep with
    | enter _ hidle =>
      refine ⟨rfl, rfl, ?_⟩
      intro node hnode hne
      rw [← beforeLock_of_messageId hnode hne]
      exact Function.update_self t _ s.phase
  · intro t op msgId s' hphase hstep hmem
    rw [hstep.eq_afterLock hphase]
    rcases s.afterLock_spec t op msgId with ⟨_, heq, hacc, hret⟩ | ⟨hnew, _⟩
    · exact ⟨heq, hacc, hret⟩
    · exact absurd hmem hnew
  · intro t op msgId s' hphase hstep hnew
    rw [hstep.eq_afterLock hphase]
    rcases s.afterLock_spec t op msgId with ⟨hmem, _⟩ | ⟨_, _, hacc, hret⟩
    · exact absurd hmem hnew
    · exact ⟨hacc, hret⟩

def identifiedOp : SoapOp Unit :=
  { inDoc := wsXmlCreateEnvelope [.elem xmlNsAddressing wsaMessageId [.text "uuid:1"]] []
    msg := {} }

def bothWaiting : IdServer Bool Unit :=
  ⟨[], Function.update (Function.update (fun _ ↦ .idle) true (beforeLock identifiedOp)) false
    (beforeLock identifiedOp), []⟩

theorem bothWaiting_reachable : Reachable (idSystem Bool Unit) bothWaiting := by
  have hinit : Reachable (idSystem Bool Unit) ⟨[], fun _ ↦ .idle, []⟩ := .init rfl
  have hone := hinit.step (IdStep.enter (t := true) identifiedOp rfl)
  exact hone.step (IdStep.enter (t := false) identifiedOp rfl)

theorem processed_ids_are_latest_accepted_one_of_two :
    (bothWaiting.afterLock false identifiedOp "uuid:1").ids = ["uuid:1"] ∧
      LatestAccepted (bothWaiting.afterLock false identifiedOp "uuid:1") :=
  ⟨rfl, processed_ids_are_latest_accepted
    (bothWaiting_reachable.step (IdStep.locked (t := false) rfl))⟩

end Openwsman
