import Openwsman.Eventing.Pull
import Openwsman.Eventing.Startup

/-!
# Resolving identifiers

A subscription is named by the text `uuid:` and its id. The text is resolved in five places: when a
request is routed, by a Pull, by an Unsubscribe, by a Renew, and by the repository, whose files are
named after the ids. None of them looks at the first five characters. The router, the Pull and the
repository compare the rest with regard to case, the other two without.
-/

namespace Openwsman

open Option CResult List Search KeyedTable

/-! ## The places -/

/-- The subscription by whose resource URI `wsman_dispatcher` routes a request: one in the list, or
else one that has only a file. -/
def routedSubscription (s : EventState) (uuid : String) :
    CResult (Option (WsSubscribeInfo ⊕ SubsFile)) :=
  (behindScheme uuid).bind fun id ↦
    match s.subs.find? fun info ↦ info.subsId == id with
    | some info => .value (some (.inl info))
    | none => .value ((s.repo.lookup id).map .inr)

def storedSubscription (s : EventState) (uuid : String) : CResult (Option SubsFile) :=
  (behindScheme uuid).bind fun id ↦ .value (s.repo.lookup id)

variable {s : EventState} {uuid : String} {found : Option WsSubscribeInfo}

theorem uriOfSubscription_eq {found : Option (WsSubscribeInfo ⊕ SubsFile)}
    (h : routedSubscription s uuid = .value found) :
    uriOfSubscription s uuid = found.bind
      (Sum.elim (fun info ↦ some info.uri) fun file ↦ wsmanGetResourceUri file.doc) := by
  rw [routedSubscription, behindScheme] at h
  split at h
  · cases h
  rw [value_bind] at h
  split at h
  · next hfind =>
    rw [← value.inj h, uriOfSubscription, hfind]
    rfl
  · next hfind =>
    rw [← value.inj h, uriOfSubscription, hfind]
    rcases s.repo.lookup (String.ofList (uuid.toList.drop 5)) with _ | file <;> rfl

structure Resolves (s : EventState) (uuid : String) (found : Option WsSubscribeInfo) : Prop where
  routing : routedSubscription s uuid = .value (found.map .inl)
  pull : searchPullSubs s.subs uuid = .value found
  stubs : ∃ id, searchSubs s.subs uuid = .value (found.map fun info ↦ (id, info))
  repository : ∃ file, storedSubscription s uuid = .value file ∧
    file.map SubsFile.id = found.map WsSubscribeInfo.subsId

/-- The places agree, and what they find is the subscription that the identifier was made for. -/
def ResolvesExactly (s : EventState) (uuid : String) : Prop :=
  ∃ found, Resolves s uuid found ∧
    ∀ info ∈ s.subs, found = some info ↔ uuid = "uuid:" ++ info.subsId

/-! ## When they agree -/

def behindFive (uuid : String) : String := String.ofList (uuid.toList.drop 5)

theorem behindScheme_of_le (h : 5 ≤ uuid.length) :
    behindScheme uuid = .value (behindFive uuid) := by
  rw [behindScheme, if_neg (by omega), behindFive]

theorem behindFive_uuid (id : String) : behindFive ("uuid:" ++ id) = id := by
  rw [behindFive, String.toList_append]
  exact String.ofList_toList

theorem five_le_length_of_behindScheme {α : Type} {f : String → CResult α} {a : α}
    (h : (behindScheme uuid).bind f = .value a) : 5 ≤ uuid.length := by
  rw [behindScheme] at h
  split at h
  · cases h
  · omega

section

variable {s : EventState} {uuid : String}

theorem searchSubs_of_le (h : 5 ≤ uuid.length) :
    searchSubs s.subs uuid = .value ((s.subs.find? (hasSubsId (behindFive uuid))).map fun info ↦
      (behindFive uuid, info)) := by
  rw [searchSubs, behindScheme_of_le h]
  cases hsubs : s.subs <;> rfl

theorem searchPullSubs_of_le (h : 5 ≤ uuid.length) :
    searchPullSubs s.subs uuid =
      .value (s.subs.find? fun info ↦ info.subsId == behindFive uuid) := by
  rw [searchPullSubs, behindScheme_of_le h]
  cases hsubs : s.subs <;> rfl

end

theorem resolves_none (hle : 5 ≤ uuid.length)
    (hnone : s.subs.find? (hasSubsId (behindFive uuid)) = none)
    (hfile : s.repo.lookup (behindFive uuid) = none) : Resolves s uuid none := by
  have hexact : (s.subs.find? fun info ↦ info.subsId == behindFive uuid) = none := by
    refine find?_eq_none.mpr fun info hinfo heq ↦ ?_
    refine find?_eq_none.mp hnone info hinfo ?_
    rw [hasSubsId, beq_iff_eq.mp heq]
    exact strcaseEq_self _
  refine ⟨?_, ?_, ⟨behindFive uuid, ?_⟩, ⟨none, ?_, rfl⟩⟩
  · rw [routedSubscription, behindScheme_of_le hle, value_bind, hexact, hfile]
    rfl
  · rw [searchPullSubs_of_le hle, hexact]
  · rw [searchSubs_of_le hle, hnone, map_none]
  · rw [storedSubscription, behindScheme_of_le hle, value_bind, hfile]

/-- An identifier that was made for a subscription is resolved to it, unless an earlier id is the
same in another case. -/
theorem resolves_some {info : WsSubscribeInfo}
    (honly : ∀ other ∈ s.subs, other.subsId = info.subsId → other = info)
    (hfile : (s.repo.lookup info.subsId).isSome = true)
    (hfirst : s.subs.find? (hasSubsId info.subsId) = some info) :
    Resolves s ("uuid:" ++ info.subsId) (some info) := by
  have hmem := mem_of_find?_eq_some hfirst
  have hle : 5 ≤ ("uuid:" ++ info.subsId).length :=
    five_le_length_of_behindScheme (f := value) (by rw [behindScheme_uuid, value_bind])
  have hexact : (s.subs.find? fun i ↦ i.subsId == info.subsId) = some info := by
    have hsome : (s.subs.find? fun i ↦ i.subsId == info.subsId).isSome = true :=
      find?_isSome.mpr ⟨info, hmem, beq_self_eq_true _⟩
    obtain ⟨other, hother⟩ := isSome_iff_exists.mp hsome
    have heq := find?_some hother
    rw [hother, honly other (mem_of_find?_eq_some hother) (beq_iff_eq.mp heq)]
  obtain ⟨file, hfile⟩ := isSome_iff_exists.mp hfile
  refine ⟨?_, ?_, ⟨info.subsId, ?_⟩, ⟨some file, ?_, ?_⟩⟩
  · rw [routedSubscription, behindScheme_uuid, value_bind, hexact]
    rfl
  · rw [searchPullSubs_of_le hle, behindFive_uuid, hexact]
  · rw [searchSubs_of_le hle, behindFive_uuid, hfirst]
  · rw [storedSubscription, behindScheme_uuid, value_bind, hfile]
  · exact congrArg some (Table.key_of_lookup hfile)

theorem Resolves.isSome_iff (h : Resolves s uuid found) (hle : 5 ≤ uuid.length) :
    found.isSome = true ↔ ∃ info ∈ s.subs, info.subsId = behindFive uuid := by
  have hpull := h.pull
  rw [searchPullSubs_of_le hle] at hpull
  rw [← value.inj hpull, find?_isSome]
  simp only [beq_iff_eq]

theorem Resolves.isSome_lookup_iff (h : Resolves s uuid found) (hle : 5 ≤ uuid.length) :
    (s.repo.lookup (behindFive uuid)).isSome = true ↔ found.isSome = true := by
  obtain ⟨file, hfile, hids⟩ := h.repository
  rw [storedSubscription, behindScheme_of_le hle, value_bind] at hfile
  have hsome := congrArg isSome hids
  rw [isSome_map, isSome_map] at hsome
  rw [value.inj hfile, hsome]

def listedState : EventState where
  subs := [{ pulledSubscription with subsId := "a1" }]
  repo := (Table.empty : SubsRepository).put ⟨"a1", wsXmlCreateEnvelope [] []⟩

end Openwsman
