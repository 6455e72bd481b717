import Openwsman.Enumeration.Stubs
import Openwsman.Lib.Ownership

/-!
# Concurrent requests on enumeration contexts

Any number of threads serve Enumerate, Pull and Release requests while the timeout manager runs.
Every section under the lock of the table is one step; between its sections a thread works on the
context it was granted. The server refines the abstract table of `Ownership`: the `INWORK` flag and
the threads that are between their lock and their unlock describe the same holder.

## What is left open

* `τ` is the type of threads, with no bound on their number.
* An endpoint is any change of the context that keeps its identity, with any return value. What it
  does to the context happens outside the lock, but only its thread reads the changed fields before
  the next section of that thread.
* Ids are unique: an Enumerate stores its context under an id that was never used before.
* A call without defined behaviour has no next state.

`creators` is a record of the credentials each context was created with. No step reads it but to see
which ids have been used.
-/

namespace Openwsman

open Function Option Transition Ownership KeyedTable

inductive Phase where
  | idle
  | called (stub : Stub) (doc : WsXmlNode) (auth : WsmanAuth)
  | working (stub : Stub) (doc : WsXmlNode) (id : String)
  | ending (verdict : Verdict) (id : String)

def Phase.held : Phase → Option String
  | idle => none
  | called .. => none
  | working _ _ id => some id
  | ending _ id => some id

structure Server (τ χ ι : Type) where
  enuminfos : EnumTable χ ι
  threads : τ → Phase
  creators : String → Option WsmanAuth

inductive Label (τ : Type) where
  | arrive (t : τ)
  | enumerate (t : τ) (id : String)
  | lock (t : τ) (granted : Option String)
  | endpoint (t : τ)
  | unlock (t : τ) (id : String)
  | remove (t : τ) (id : String)
  | scan (ids : Set String)

def Label.actor {τ : Type} : Label τ → Option τ
  | arrive t => some t
  | enumerate t _ => some t
  | lock t _ => some t
  | endpoint t => some t
  | unlock t _ => some t
  | remove t _ => some t
  | scan _ => none

section

variable {τ χ ι : Type} [DecidableEq τ]

namespace Server

def setPhase (s : Server τ χ ι) (t : τ) (p : Phase) : Server τ χ ι :=
  { s with threads := Function.update s.threads t p }

def Holds (s : Server τ χ ι) (t : τ) (k : String) : Prop := (s.threads t).held = some k

end Server

inductive ServerStep (datetime : String → Option ℤ) :
    Server τ χ ι → Label τ → Server τ χ ι → Prop where
  | arrive {s : Server τ χ ι} {t : τ} (stub : Stub) (doc : WsXmlNode) (auth : WsmanAuth) :
      s.threads t = .idle →
      ServerStep datetime s (.arrive t) (s.setPhase t (.called stub doc auth))
  | enumerate {s : Server τ χ ι} {t : τ} {δ : Type} {op : SoapOp δ} {id : String} {now now' : ℕ}
      {info info' : WsEnumerateInfo χ ι} :
      s.threads t = .idle → s.creators id = none →
      createEnumInfo datetime op id now = .value (.ok info) → info.SameIdentity info' →
      ServerStep datetime s (.enumerate t id)
        { s with
          enuminfos := insertEnumInfo s.enuminfos info' now'
          creators := Function.update s.creators id (some op.msg.authData) }
  | lock {s : Server τ χ ι} {t : τ} {stub : Stub} {doc : WsXmlNode} {auth : WsmanAuth}
      {enuminfos : EnumTable χ ι} {info : WsEnumerateInfo χ ι} :
      s.threads t = .called stub doc auth →
      getLockedEnuminfo s.enuminfos doc auth stub.action = .value (.ok (enuminfos, info)) →
      ServerStep datetime s (.lock t (some info.enumId))
        ({ s with enuminfos := enuminfos }.setPhase t (.working stub doc info.enumId))
  | refuse {s : Server τ χ ι} {t : τ} {stub : Stub} {doc : WsXmlNode} {auth : WsmanAuth}
      {status : WsmanStatus} :
      s.threads t = .called stub doc auth →
      getLockedEnuminfo s.enuminfos doc auth stub.action = .value (.error status) →
      ServerStep datetime s (.lock t none) (s.setPhase t .idle)
  | endpoint {s : Server τ χ ι} {t : τ} {stub : Stub} {doc : WsXmlNode} {id : String}
      {info : WsEnumerateInfo χ ι} {r : EndpointResult χ ι} :
      s.threads t = .working stub doc id → s.enuminfos.lookup id = some info →
      info.SameIdentity r.info →
      ServerStep datetime s (.endpoint t)
        ({ s with enuminfos := s.enuminfos.replace (stub.finish doc r).info }.setPhase t
          (.ending (stub.finish doc r).verdict id))
  | unlock {s : Server τ χ ι} {t : τ} {id : String} (now : ℕ) :
      s.threads t = .ending .unlock id →
      ServerStep datetime s (.unlock t id)
        ({ s with enuminfos := unlockEnuminfo s.enuminfos id now }.setPhase t .idle)
  | remove {s : Server τ χ ι} {t : τ} {id : String} :
      s.threads t = .ending .remove id →
      ServerStep datetime s (.remove t id)
        ({ s with enuminfos := removeLockedEnuminfo s.enuminfos id }.setPhase t .idle)
  | scan {s : Server τ χ ι} (enumIdleTimeout now : ℕ) :
      ServerStep datetime s
        (.scan { k | s.enuminfos.lookup k ≠ none ∧
          (wsmanGetExpiredEnuminfos s.enuminfos enumIdleTimeout now).2.lookup k = none })
        { s with enuminfos := (wsmanGetExpiredEnuminfos s.enuminfos enumIdleTimeout now).2 }

def enumServer (τ χ ι : Type) [DecidableEq τ] (datetime : String → Option ℤ) :
    System (Server τ χ ι) (Label τ) where
  Init s := s.enuminfos = Table.empty ∧ (∀ t, s.threads t = .idle) ∧ ∀ k, s.creators k = none
  Step := ServerStep datetime

end

/-! ## The server refines the table of owners -/

section

variable {τ χ ι : Type}

/-- Every context in the table was created by an Enumerate on record, and the credentials stored
with it are the ones that were copied from that request. -/
def CreatorsRecorded (s : Server τ χ ι) : Prop :=
  ∀ k info, s.enuminfos.lookup k = some info →
    ∃ auth, s.creators k = some auth ∧ storedAuth auth = .value info.authData

def SlotMatches : Option (WsEnumerateInfo χ ι) → Slot τ → Prop
  | none, .absent => True
  | some info, .free => info.flags.inWork = false
  | some info, .held _ => info.flags.inWork = true
  | _, _ => False

variable {o : Option (WsEnumerateInfo χ ι)}

variable {t : τ} {s : Server τ χ ι} {b : String → Slot τ}

theorem slotMatches_held :
    SlotMatches o (.held t) ↔ ∃ info, o = some info ∧ info.flags.inWork = true := by
  cases o <;> simp [SlotMatches]

variable {v : Slot τ}

theorem slotMatches_none : SlotMatches (none : Option (WsEnumerateInfo χ ι)) v ↔ v = .absent := by
  cases v <;> simp [SlotMatches]

theorem slotMatches_some {info : WsEnumerateInfo χ ι} :
    SlotMatches (some info) v ↔
      (info.flags.inWork = false ∧ v = .free) ∨ (info.flags.inWork = true ∧ ∃ t, v = .held t) := by
  cases v <;> simp [SlotMatches]

structure Represents (s : Server τ χ ι) (b : String → Slot τ) : Prop where
  slot : ∀ k, SlotMatches (s.enuminfos.lookup k) (b k)
  holder : ∀ t k, s.Holds t k ↔ b k = .held t
  recorded : CreatorsRecorded s

variable {k : String}

theorem Represents.lookup_of_holds (h : Represents s b) (hk : s.Holds t k) :
    ∃ info, s.enuminfos.lookup k = some info ∧ info.flags.inWork = true :=
  slotMatches_held.mp ((h.holder t k).mp hk ▸ h.slot k)

theorem CreatorsRecorded.lookup_eq_none (h : CreatorsRecorded s)
    (hk : s.creators k = none) : s.enuminfos.lookup k = none := by
  cases hl : s.enuminfos.lookup k with
  | none => rfl
  | some info =>
    obtain ⟨auth, hauth, -⟩ := h k info hl
    exact absurd (hauth.symm.trans hk) (by simp)

variable {s' : Server τ χ ι}

/-- A step that changes one context, and not its credentials, keeps the record true. -/
theorem CreatorsRecorded.set {id : String} (h : CreatorsRecorded s)
    (hcreators : s'.creators = s.creators)
    (hlookup : ∀ k, s'.enuminfos.lookup k = if k = id then o else s.enuminfos.lookup k)
    (ho : ∀ i, o = some i → ∃ j, s.enuminfos.lookup id = some j ∧ i.authData = j.authData) :
    CreatorsRecorded s' := by
  intro k i hk
  rw [hlookup k] at hk
  rw [hcreators]
  by_cases hkid : k = id
  · rw [if_pos hkid] at hk
    obtain ⟨j, hj, hauth⟩ := ho i hk
    rw [hauth]
    exact h k j (hkid ▸ hj)
  · rw [if_neg hkid] at hk
    exact h k i hk

theorem Represents.set {id : String} (h : Represents s b)
    (hlookup : ∀ k, s'.enuminfos.lookup k = if k = id then o else s.enuminfos.lookup k)
    (hslot : SlotMatches o v)
    (hholds : ∀ t k, s'.Holds t k ↔ if k = id then v = .held t else s.Holds t k)
    (hrec : CreatorsRecorded s') : Represents s' (put b id v) := by
  obtain ⟨hput, hrest⟩ := setAt_put b id v
  refine ⟨fun k ↦ ?_, fun t k ↦ ?_, hrec⟩
  · rw [hlookup k]
    by_cases hk : k = id
    · rw [if_pos hk, hk, hput]
      exact hslot
    · rw [if_neg hk, hrest k hk]
      exact h.slot k
  · rw [hholds t k]
    by_cases hk : k = id
    · rw [if_pos hk, hk, hput]
    · rw [if_neg hk, hrest k hk]
      exact h.holder t k

variable [DecidableEq τ]

theorem holds_setPhase (s : Server τ χ ι) (t t' : τ) (p : Phase) (k : String) :
    (s.setPhase t p).Holds t' k ↔ if t' = t then p.held = some k else s.Holds t' k := by
  show (update s.threads t p t').held = some k ↔ _
  by_cases h : t' = t
  · rw [if_pos h, h, update_self]
  · rw [if_neg h, update_of_ne h, Server.Holds]

variable {p : Phase}

theorem holds_setPhase_of_eq (h : p.held = (s.threads t).held) (t' : τ)
    (k : String) : (s.setPhase t p).Holds t' k ↔ s.Holds t' k := by
  rw [holds_setPhase]
  by_cases ht : t' = t
  · rw [if_pos ht, h, ht, Server.Holds]
  · rw [if_neg ht]

theorem holds_setPhase_gain {id : String} (hold : (s.threads t).held = none)
    (hnew : p.held = some id) (hfree : ∀ t', ¬s.Holds t' id) (t' : τ) (k : String) :
    (s.setPhase t p).Holds t' k ↔ if k = id then Slot.held t = .held t' else s.Holds t' k := by
  rw [holds_setPhase, hnew, some.injEq, Slot.held.injEq]
  by_cases hk : k = id
  · subst hk
    simp only [if_true]
    by_cases ht : t' = t
    · simp [ht]
    · simpa [ht, Ne.symm ht] using hfree t'
  · rw [if_neg hk]
    by_cases ht : t' = t
    · subst ht
      simp [Server.Holds, hold, Ne.symm hk]
    · rw [if_neg ht]

theorem holds_setPhase_drop {id : String} (hold : s.Holds t id)
    (hnew : p.held = none) (honly : ∀ t', s.Holds t' id → t' = t) (hv : ∀ t', v ≠ .held t') (t' : τ)
    (k : String) : (s.setPhase t p).Holds t' k ↔ if k = id then v = .held t' else s.Holds t' k := by
  rw [holds_setPhase, hnew]
  by_cases hk : k = id
  · subst hk
    rw [if_pos rfl]
    refine ⟨fun h ↦ ?_, fun h ↦ absurd h (hv t')⟩
    split at h
    · exact absurd h (by simp)
    · rename_i hne
      exact absurd (honly t' h) hne
  · rw [if_neg hk]
    by_cases ht : t' = t
    · rw [if_pos ht, ht]
      rw [Server.Holds] at hold ⊢
      rw [hold]
      simp [Ne.symm hk]
    · rw [if_neg ht]

/-! ### The steps -/

section

variable {s : Server τ χ ι} {b : String → Slot τ} {t : τ} {id : String}

theorem Represents.moved (h : Represents s b) {p : Phase} (hheld : p.held = (s.threads t).held) :
    Represents (s.setPhase t p) b := by
  refine ⟨h.slot, fun t' k ↦ ?_, h.recorded⟩
  rw [holds_setPhase_of_eq hheld]
  exact h.holder t' k

variable {enuminfos : EnumTable χ ι}

omit [DecidableEq τ] in
theorem Represents.created (h : Represents s b) {info : WsEnumerateInfo χ ι} {auth : WsmanAuth}
    (hfresh : s.creators id = none)
    (hlookup : ∀ k, enuminfos.lookup k = if k = id then some info else s.enuminfos.lookup k)
    (hwork : info.flags.inWork = false) (hauth : storedAuth auth = .value info.authData) :
    b id = .absent ∧
      Represents { s with
        enuminfos := enuminfos
        creators := Function.update s.creators id (some auth) } (put b id .free) := by
  have hnone := h.recorded.lookup_eq_none hfresh
  have habsent : b id = .absent := slotMatches_none.mp (hnone ▸ h.slot id)
  refine ⟨habsent, h.set hlookup (slotMatches_some.mpr (.inl ⟨hwork, rfl⟩)) ?_ ?_⟩
  · intro t' k
    show s.Holds t' k ↔ _
    by_cases hk : k = id
    · rw [if_pos hk, hk, h.holder, habsent]
      simp
    · rw [if_neg hk]
  · intro k i hk
    rw [hlookup k] at hk
    by_cases hkid : k = id
    · rw [if_pos hkid, some.injEq] at hk
      refine ⟨auth, by rw [hkid]; exact update_self .., ?_⟩
      rw [← hk, hauth]
    · rw [if_neg hkid] at hk
      obtain ⟨auth', hcreator, hstored⟩ := h.recorded k i hk
      exact ⟨auth', by rw [← hcreator]; exact update_of_ne hkid .., hstored⟩

theorem Represents.worked (h : Represents s b) {info info' : WsEnumerateInfo χ ι} {p : Phase}
    (hholds : s.Holds t id) (hp : p.held = some id) (hinfo : s.enuminfos.lookup id = some info)
    (hsame : info.SameIdentity info') :
    Represents ({ s with enuminfos := s.enuminfos.replace info' }.setPhase t p) b := by
  have hlookup := lookup_replace_info hinfo hsame.1
  refine ⟨fun k ↦ ?_, fun t' k ↦ ?_, ?_⟩
  · show SlotMatches ((s.enuminfos.replace _).lookup k) (b k)
    rw [hlookup k]
    by_cases hk : k = id
    · obtain ⟨info₁, hinfo₁, hwork⟩ := h.lookup_of_holds hholds
      obtain rfl : info₁ = info := some.inj (hinfo₁.symm.trans hinfo)
      rw [if_pos hk, hk, (h.holder t id).mp hholds, slotMatches_held]
      exact ⟨_, rfl, by rw [hsame.2.1, hwork]⟩
    · rw [if_neg hk]
      exact h.slot k
  · exact (holds_setPhase_of_eq (hp.trans hholds.symm) t' k).trans (h.holder t' k)
  · refine h.recorded.set rfl hlookup fun i hi ↦ ?_
    rw [some.injEq] at hi
    exact ⟨info, hinfo, by rw [← hi, hsame.2.2.1]⟩

theorem Represents.dropped (h : Represents s b) {o : Option (WsEnumerateInfo χ ι)} {v : Slot τ}
    (hholds : s.Holds t id)
    (hlookup : ∀ k, enuminfos.lookup k = if k = id then o else s.enuminfos.lookup k)
    (hslot : SlotMatches o v) (hv : ∀ t', v ≠ .held t')
    (ho : ∀ i, o = some i → ∃ j, s.enuminfos.lookup id = some j ∧ i.authData = j.authData) :
    Represents ({ s with enuminfos := enuminfos }.setPhase t .idle) (put b id v) := by
  have honly : ∀ t', s.Holds t' id → t' = t := by
    intro t' ht'
    rw [h.holder, (h.holder t id).mp hholds, Slot.held.injEq] at ht'
    exact ht'.symm
  exact h.set hlookup hslot (holds_setPhase_drop hholds rfl honly hv)
    (h.recorded.set rfl hlookup ho)

omit [DecidableEq τ] in
open Classical in
theorem Represents.scanned (h : Represents s b) {gone : Set String}
    (hlookup : ∀ k, enuminfos.lookup k = s.enuminfos.lookup k ∨ enuminfos.lookup k = none ∧ ∃ info,
      s.enuminfos.lookup k = some info ∧ info.flags.inWork = false)
    (hgone : ∀ k, k ∈ gone ↔ s.enuminfos.lookup k ≠ none ∧ enuminfos.lookup k = none) :
    (∀ k ∈ gone, b k = .free) ∧
      Represents { s with enuminfos := enuminfos }
        (fun k ↦ if k ∈ gone then .absent else b k) := by
  have hfree : ∀ k ∈ gone, b k = .free := by
    intro k hk
    obtain ⟨hsome, hnone⟩ := (hgone k).mp hk
    rcases hlookup k with heq | ⟨-, info, hinfo, hidle⟩
    · exact absurd (heq ▸ hnone) hsome
    · have hm := h.slot k
      rw [hinfo, slotMatches_some, hidle] at hm
      simpa using hm
  have hstay : ∀ k, k ∉ gone → enuminfos.lookup k = s.enuminfos.lookup k := by
    intro k hk
    rcases hlookup k with heq | ⟨hnone, info, hinfo, -⟩
    · exact heq
    · exact absurd ((hgone k).mpr ⟨by rw [hinfo]; simp, hnone⟩) hk
  refine ⟨hfree, fun k ↦ ?_, fun t k ↦ ?_, ?_⟩
  · dsimp only
    by_cases hk : k ∈ gone
    · rw [if_pos hk, ((hgone k).mp hk).2]
      exact slotMatches_none.mpr rfl
    · rw [if_neg hk, hstay k hk]
      exact h.slot k
  · show s.Holds t k ↔ _
    rw [h.holder]
    by_cases hk : k ∈ gone
    · rw [hfree k hk, if_pos hk]
      simp
    · rw [if_neg hk]
  · intro k i hk
    rcases hlookup k with heq | ⟨hnone, -⟩
    · exact h.recorded k i (heq ▸ hk)
    · exact absurd (hnone.symm.trans hk) (by simp)

end

def Label.act : Label τ → Option (Act String τ)
  | arrive _ => none
  | enumerate _ id => some (.create id)
  | lock t granted => granted.map fun id ↦ .acquire t id
  | endpoint _ => none
  | unlock t id => some (.release t id)
  | remove t id => some (.retire t id)
  | scan ids => some (.expire ids)

variable {datetime : String → Option ℤ}

variable {l : Label τ}

theorem represents_step (h : Represents s b) (hstep : ServerStep datetime s l s') :
    ∃ b', Answers (system String τ) b l.act b' ∧ Represents s' b' := by
  cases hstep with
  | @arrive t stub doc auth hidle => exact ⟨b, rfl, h.moved (by rw [hidle]; rfl)⟩
  | @refuse t stub doc auth status hcalled => exact ⟨b, rfl, h.moved (by rw [hcalled]; rfl)⟩
  | @enumerate t δ op id now now' info info' hidle hfresh hcreate hsame =>
    obtain ⟨hid, hwork, hauth⟩ := createEnumInfo_ok datetime hcreate
    have hid' : info'.enumId = id := hsame.1.trans hid
    have hnone := h.recorded.lookup_eq_none hfresh
    have hlookup : ∀ k, (insertEnumInfo s.enuminfos info' now').lookup k =
        if k = id then some (info'.stamped now') else s.enuminfos.lookup k := by
      intro k
      rw [lookup_insertEnumInfo (by rw [hid']; exact hnone), hid']
    obtain ⟨habsent, hcreated⟩ := h.created hfresh hlookup (hsame.2.1.trans hwork)
      (by rw [WsEnumerateInfo.stamped_authData, hsame.2.2.1, hauth])
    exact ⟨put b id .free, ⟨habsent, setAt_put b id .free⟩, hcreated⟩
  | @lock t stub doc auth enuminfos info' hcalled hlock =>
    obtain ⟨id, info, -, hinfo, -, hfree, rfl, rfl⟩ := getLockedEnuminfo_ok hlock
    have hid : (info.withInWork true).enumId = id := by simpa using Table.key_of_lookup hinfo
    have hslot : b id = .free := by
      have hm := h.slot id
      rw [hinfo, slotMatches_some, hfree] at hm
      simpa using hm
    have hnobody : ∀ t', ¬s.Holds t' id := fun t' ↦ by rw [h.holder, hslot]; simp
    rw [hid]
    refine ⟨put b id (.held t), ⟨hslot, setAt_put b id _⟩,
      h.set (lookup_replace_info hinfo (by simp)) ?_
        (holds_setPhase_gain (by rw [hcalled]; rfl) rfl hnobody) ?_⟩
    · rw [slotMatches_held]
      exact ⟨_, rfl, by simp⟩
    · refine h.recorded.set rfl (lookup_replace_info hinfo (by simp)) fun i hi ↦ ?_
      rw [some.injEq] at hi
      exact ⟨info, hinfo, by rw [← hi]; simp⟩
  | @endpoint t stub doc id info r hworking hinfo hsame =>
    have hholds : s.Holds t id := by rw [Server.Holds, hworking]; rfl
    have hall := hsame.trans (sameIdentity_finish stub doc r)
    exact ⟨b, rfl, h.worked hholds rfl hinfo hall⟩
  | @unlock t id now hending =>
    have hholds : s.Holds t id := by rw [Server.Holds, hending]; rfl
    obtain ⟨info, hinfo, hwork⟩ := h.lookup_of_holds hholds
    refine ⟨put b id .free, ⟨(h.holder t id).mp hholds, setAt_put b id _⟩,
      h.dropped hholds (lookup_unlockEnuminfo hinfo hwork now) ?_ (by simp) fun i hi ↦ ?_⟩
    · rw [slotMatches_some]
      exact .inl ⟨by simp, rfl⟩
    · rw [some.injEq] at hi
      exact ⟨info, hinfo, by rw [← hi]; simp⟩
  | @remove t id hending =>
    have hholds : s.Holds t id := by rw [Server.Holds, hending]; rfl
    obtain ⟨info, hinfo, hwork⟩ := h.lookup_of_holds hholds
    refine ⟨put b id .absent, ⟨(h.holder t id).mp hholds, setAt_put b id _⟩,
      h.dropped hholds (lookup_removeLockedEnuminfo hinfo hwork) (slotMatches_none.mpr rfl)
        (by simp) fun i hi ↦ absurd hi (by simp)⟩
  | @scan aeit now =>
    obtain ⟨hfree, hscanned⟩ := h.scanned
      (lookup_wsmanGetExpiredEnuminfos s.enuminfos aeit now) fun k ↦ Iff.rfl
    exact ⟨_, ⟨hfree, fun k hk ↦ if_pos hk, fun k hk ↦ if_neg hk⟩, hscanned⟩

def ownershipSimulation (τ χ ι : Type) [DecidableEq τ] (datetime : String → Option ℤ) :
    Simulation (enumServer τ χ ι datetime) (system String τ) where
  rel := Represents
  act := Label.act
  init := by
    rintro s ⟨htable, hidle, hcreators⟩
    refine ⟨fun _ ↦ .absent, fun _ ↦ rfl, fun k ↦ ?_, fun t k ↦ ?_, fun k info hk ↦ ?_⟩
    · rw [htable]
      trivial
    · rw [Server.Holds, hidle]
      simp [Phase.held]
    · rw [htable] at hk
      exact absurd hk (by simp)
  step := fun _ _ _ _ hrel hstep ↦ represents_step hrel hstep

theorem exists_represents (h : Reachable (enumServer τ χ ι datetime) s) :
    ∃ b, Represents s b := by
  obtain ⟨b, -, hb⟩ := (ownershipSimulation τ χ ι datetime).reachable h
  exact ⟨b, hb⟩

/-! ## Exclusive use of a context -/

omit [DecidableEq τ] in
theorem actor_of_act {a : Act String τ} (h : l.act = some a) (ha : a.actor = some t) :
    l.actor = some t := by
  cases l with
  | lock t' granted =>
    obtain ⟨id, -, hid⟩ := map_eq_some_iff.mp h
    rw [← hid] at ha
    exact ha
  | arrive | endpoint => exact absurd h (by simp [Label.act])
  | enumerate | unlock | remove | scan =>
    rw [Label.act, some.injEq] at h
    rw [← h] at ha
    first | exact ha | exact absurd ha (by simp [Act.actor])

theorem actor_of_holds_ends (h : Represents s b) (hstep : ServerStep datetime s l s')
    (hk : s.Holds t k) (hends : ¬s'.Holds t k) :
    l.actor = some t := by
  obtain ⟨b', hans, hb'⟩ := represents_step h hstep
  have hheld := (h.holder t k).mp hk
  have hends' : b' k ≠ .held t := fun heq ↦ hends ((hb'.holder t k).mpr heq)
  cases hact : l.act with
  | none =>
    rw [hact, Answers] at hans
    exact absurd (hans ▸ hheld) hends'
  | some a =>
    rw [hact, Answers] at hans
    exact actor_of_act hact (actor_of_hold_ends hans hheld hends')

/-- **Exclusive use of enumeration contexts.** In every reachable state at most one request holds a
context, the flag of a context in the table is set exactly while some request holds it, a held
context is in the table, and only a step of its holder can take it out. -/
theorem enumeration_contexts_exclusive {s : Server τ χ ι}
    (h : Reachable (enumServer τ χ ι datetime) s) :
    (∀ t t' k, s.Holds t k → s.Holds t' k → t = t') ∧
      (∀ k info, s.enuminfos.lookup k = some info →
        (info.flags.inWork = true ↔ ∃ t, s.Holds t k)) ∧
      (∀ t k, s.Holds t k → s.enuminfos.lookup k ≠ none) ∧
      ∀ t k l s', s.Holds t k → ServerStep datetime s l s' → s'.enuminfos.lookup k = none →
        l.actor = some t := by
  -- Everything is read off the abstract table that the state represents.
  obtain ⟨b, hb⟩ := exists_represents h
  refine ⟨fun t t' k ht ht' ↦ ?_, fun k info hk ↦ ?_, fun t k ht ↦ ?_,
    fun t k l s' ht hs hnone ↦ ?_⟩
  · rw [hb.holder] at ht ht'
    exact Slot.held.inj (ht.symm.trans ht')
  · have hm := hb.slot k
    rw [hk, slotMatches_some] at hm
    constructor
    · intro hwork
      rcases hm with ⟨hidle, -⟩ | ⟨-, t, ht⟩
      · exact absurd (hidle.symm.trans hwork) (by simp)
      · exact ⟨t, (hb.holder t k).mpr ht⟩
    · rintro ⟨t, ht⟩
      obtain ⟨info', hinfo', hwork⟩ := hb.lookup_of_holds ht
      rw [some.inj (hk.symm.trans hinfo')]
      exact hwork
  · obtain ⟨info, hinfo, -⟩ := hb.lookup_of_holds ht
    rw [hinfo]
    simp
  · refine actor_of_holds_ends hb hs ht fun hstill ↦ ?_
    obtain ⟨b', -, hb'⟩ := represents_step hb hs
    obtain ⟨info, hinfo, -⟩ := hb'.lookup_of_holds hstill
    exact absurd (hinfo.symm.trans hnone) (by simp)

end

/-! ## A run -/

def requestDoc (body : WsXmlNode) : WsXmlNode :=
  wsXmlCreateEnvelope
    [.elem xmlNsAddressing wsaTo [.text "to"], .elem xmlNsWsMan wsmResourceUri [.text "uri"]] [body]

def pullRequestDoc (id : String) : WsXmlNode :=
  requestDoc (.elem xmlNsEnumeration wsenumPull
    [.elem xmlNsEnumeration wsenumEnumerationContext [.text id]])

def emptyServer : Server Bool Unit Unit := ⟨Table.empty, fun _ ↦ .idle, fun _ ↦ none⟩

def storedServer (auth : WsmanAuth) : Server Bool Unit Unit where
  enuminfos := insertEnumInfo Table.empty
    { enumId := "1", eprTo := "to", eprUri := "uri", encoding := "UTF-8", authData := auth } 0
  threads := fun _ ↦ .idle
  creators := Function.update (fun _ ↦ none) "1" (some auth)

theorem reachable_storedServer {auth : WsmanAuth} (h : storedAuth auth = .value auth) :
    Reachable (enumServer Bool Unit Unit fun _ ↦ none) (storedServer auth) := by
  have hcreate : createEnumInfo (χ := Unit) (ι := Unit) (fun _ ↦ none)
      (⟨requestDoc (.elem xmlNsEnumeration wsenumEnumerate []), ⟨"UTF-8", auth⟩, none, 0, 0⟩ :
        SoapOp Unit) "1" 0 =
      .value (.ok
        { enumId := "1", eprTo := "to", eprUri := "uri", encoding := "UTF-8"
          authData := auth }) := by
    show (storedAuth auth).bind _ = _
    rw [h]
    rfl
  have hinit : Reachable (enumServer Bool Unit Unit fun _ ↦ none) emptyServer :=
    .init ⟨rfl, fun _ ↦ rfl, fun _ ↦ rfl⟩
  have hstep : ServerStep (fun _ ↦ none) emptyServer (.enumerate false "1") (storedServer auth) :=
    .enumerate rfl rfl hcreate ⟨rfl, rfl, rfl, rfl, rfl⟩
  exact hinit.step hstep

def callingServer : Server Bool Unit Unit :=
  (storedServer {}).setPhase true (.called .pullDirect (pullRequestDoc "1") {})

def lockedInfo : WsEnumerateInfo Unit Unit :=
  WsEnumerateInfo.withInWork
    { enumId := "1", eprTo := "to", eprUri := "uri", encoding := "UTF-8" } true

def pullingServer : Server Bool Unit Unit :=
  { callingServer with enuminfos := callingServer.enuminfos.replace lockedInfo }.setPhase true
    (.working .pullDirect (pullRequestDoc "1") lockedInfo.enumId)

theorem reachable_pullingServer :
    Reachable (enumServer Bool Unit Unit fun _ ↦ none) pullingServer := by
  have harrive : ServerStep (fun _ ↦ none) (storedServer {}) (.arrive true) callingServer :=
    .arrive .pullDirect (pullRequestDoc "1") {} rfl
  have hlocked : getLockedEnuminfo callingServer.enuminfos (pullRequestDoc "1") {} wsenumPull =
      .value (.ok (callingServer.enuminfos.replace lockedInfo, lockedInfo)) := rfl
  have hlock : ServerStep (fun _ ↦ none) callingServer (.lock true (some lockedInfo.enumId))
      pullingServer :=
    .lock (t := true) rfl hlocked
  exact ((reachable_storedServer rfl).step harrive).step hlock

theorem pullingServer_exclusive :
    pullingServer.Holds true "1" ∧ ¬pullingServer.Holds false "1" :=
  ⟨rfl, fun h ↦ Bool.noConfusion
    ((enumeration_contexts_exclusive reachable_pullingServer).1 false true "1" h rfl)⟩

end Openwsman
