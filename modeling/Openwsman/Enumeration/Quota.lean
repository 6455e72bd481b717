import Openwsman.Enumeration.Locking
import Openwsman.Lib.Reservation

/-!
# The limit on enumeration contexts

`wsenum_enumerate_stub` counts the contexts in one section under the lock of the table and stores
its own in another, after the endpoint has run. Between the two the Enumerate is *admitted*: it is
on its way to the table and nobody counts it. Everything else that threads do to the table is a step
of `ServerStep`, and none of it adds a context.
-/

namespace Openwsman

open List Transition KeyedTable

/-- Whether the stub answers that the server is busy. The product of the options is an `int`. -/
def quotaFull (maxThreads maxConnectionsPerThread total : ℕ) : CResult Bool :=
  if maxThreads = 0 then .value false
  else if intMax < maxThreads * maxConnectionsPerThread then .undefined
  else .value (decide (maxThreads * maxConnectionsPerThread ≤ total))

structure QuotaServer (τ χ ι : Type) where
  server : Server τ χ ι
  admitted : List τ

def QuotaServer.total {τ χ ι : Type} (s : QuotaServer τ χ ι) : ℕ :=
  s.server.enuminfos.entries.length

inductive QuotaLabel (τ : Type) where
  | busy (t : τ)
  | pass (t : τ)
  | abandon (t : τ)
  | insert (t : τ) (id : String)
  | other (l : Label τ)

def Label.isEnumerate {τ : Type} : Label τ → Bool
  | enumerate _ _ => true
  | _ => false

section

variable {τ χ ι : Type} [DecidableEq τ]

/-- The steps. A check without defined behaviour may come out either way. -/
inductive QuotaStep (datetime : String → Option ℤ) (maxThreads maxConnectionsPerThread : ℕ) :
    QuotaServer τ χ ι → QuotaLabel τ → QuotaServer τ χ ι → Prop
  | busy {s t} (idle : s.server.threads t = .idle) (other : t ∉ s.admitted)
      (full : quotaFull maxThreads maxConnectionsPerThread s.total ≠ .value false) :
      QuotaStep datetime maxThreads maxConnectionsPerThread s (.busy t) s
  | pass {s t} (idle : s.server.threads t = .idle) (other : t ∉ s.admitted)
      (free : quotaFull maxThreads maxConnectionsPerThread s.total ≠ .value true) :
      QuotaStep datetime maxThreads maxConnectionsPerThread s (.pass t)
        { s with admitted := t :: s.admitted }
  | abandon {s t} (mem : t ∈ s.admitted) :
      QuotaStep datetime maxThreads maxConnectionsPerThread s (.abandon t)
        { s with admitted := s.admitted.erase t }
  | insert {s t id server} (mem : t ∈ s.admitted)
      (step : ServerStep datetime s.server (.enumerate t id) server) :
      QuotaStep datetime maxThreads maxConnectionsPerThread s (.insert t id)
        ⟨server, s.admitted.erase t⟩
  | other {s l server} (free : ∀ t ∈ s.admitted, l.actor ≠ some t)
      (noEnumerate : l.isEnumerate = false) (step : ServerStep datetime s.server l server) :
      QuotaStep datetime maxThreads maxConnectionsPerThread s (.other l) { s with server := server }

def quotaServer (τ χ ι : Type) [DecidableEq τ] (datetime : String → Option ℤ)
    (maxThreads maxConnectionsPerThread : ℕ) : System (QuotaServer τ χ ι) (QuotaLabel τ) where
  Init s := (enumServer τ χ ι datetime).Init s.server ∧ s.admitted = []
  Step := QuotaStep datetime maxThreads maxConnectionsPerThread

/-! ## What the sections do to the number of contexts -/

variable (t : EnumTable χ ι)

omit [DecidableEq τ] in
theorem length_unlockEnuminfo (id : String) (now : ℕ) :
    (unlockEnuminfo t id now).entries.length = t.entries.length := by
  rw [unlockEnuminfo]
  split
  · rfl
  · split
    · rfl
    · exact length_map _

omit [DecidableEq τ] in
theorem length_removeLockedEnuminfo_le (id : String) :
    (removeLockedEnuminfo t id).entries.length ≤ t.entries.length := by
  rw [removeLockedEnuminfo]
  split
  · exact le_rfl
  · split
    · exact le_rfl
    · exact length_filter_le _ _

omit [DecidableEq τ] in
theorem length_wsmanGetExpiredEnuminfos_le (enumIdleTimeout now : ℕ) :
    (wsmanGetExpiredEnuminfos t enumIdleTimeout now).2.entries.length ≤ t.entries.length := by
  rw [wsmanGetExpiredEnuminfos]
  split
  · exact le_rfl
  · exact length_filter_le _ _

omit [DecidableEq τ] in
theorem length_insertEnumInfo_le (info : WsEnumerateInfo χ ι) (now : ℕ) :
    (insertEnumInfo t info now).entries.length ≤ t.entries.length + 1 := by
  rw [insertEnumInfo, Table.insert]
  split
  · exact le_rfl
  · exact Nat.le_succ _

/-- A section adds at most one context, and only that of an Enumerate adds any. -/
theorem ServerStep.length_le {datetime : String → Option ℤ} {s s' : Server τ χ ι} {l : Label τ}
    (h : ServerStep datetime s l s') :
    s'.enuminfos.entries.length ≤
      s.enuminfos.entries.length + if l.isEnumerate then 1 else 0 := by
  cases h with
  | arrive => exact le_rfl
  | enumerate => exact length_insertEnumInfo_le _ _ _
  | lock hcalled hlock =>
    obtain ⟨id, info, -, -, -, -, -, rfl⟩ := getLockedEnuminfo_ok hlock
    exact (length_map _).le
  | refuse => exact le_rfl
  | endpoint => exact (length_map _).le
  | unlock => exact (length_unlockEnuminfo _ _ _).le
  | remove => exact length_removeLockedEnuminfo_le _ _
  | scan => exact length_wsmanGetExpiredEnuminfos_le _ _ _

/-! ## The runs that keep the limit -/

/-- An Enumerate passes the check only while the contexts and the admitted Enumerates together are
below the limit, which is an `int`. -/
def Reserves (maxThreads maxConnectionsPerThread : ℕ) (s : QuotaServer τ χ ι) : QuotaLabel τ → Prop
  | .pass _ => maxThreads * maxConnectionsPerThread ≤ intMax ∧
      s.total + s.admitted.length < maxThreads * maxConnectionsPerThread
  | _ => True

def reservation (datetime : String → Option ℤ) (maxThreads maxConnectionsPerThread : ℕ) :
    Simulation
      ((quotaServer τ χ ι datetime maxThreads maxConnectionsPerThread).restrict
        (Reserves maxThreads maxConnectionsPerThread))
      (Reservation.account (maxThreads * maxConnectionsPerThread)) where
  rel s a := a = ⟨s.total, s.admitted.length⟩
  act
    | .busy _ => none
    | .pass _ => some .reserve
    | .abandon _ => some .cancel
    | .insert _ _ => some .fill
    | .other _ => some .release
  init s hinit := by
    obtain ⟨⟨hempty, -, -⟩, hnone⟩ := hinit
    refine ⟨⟨0, 0⟩, rfl, ?_⟩
    rw [QuotaServer.total, hempty, hnone]
    rfl
  step s l s' a hrel hstep := by
    obtain ⟨hstep, hreserves⟩ := hstep
    subst hrel
    refine ⟨_, ?_, rfl⟩
    cases hstep with
    | busy idle other full => rfl
    | pass idle other free => exact .reserve hreserves.2
    | @abandon t mem =>
      exact .cancel (by rw [List.length_erase_add_one mem])
    | @insert t id server mem step =>
      exact .fill (by rw [List.length_erase_add_one mem]) (ServerStep.length_le step)
    | other free noEnumerate step =>
      have hle := ServerStep.length_le step
      rw [noEnumerate] at hle
      exact .release hle

/-- **The limit is kept** on every run in which an Enumerate passes the check only while there is
room for it besides the contexts and the Enumerates that were admitted before. -/
theorem total_le_of_reachable_reserves (datetime : String → Option ℤ)
    (maxThreads maxConnectionsPerThread : ℕ) (s : QuotaServer τ χ ι)
    (h : Reachable ((quotaServer τ χ ι datetime maxThreads maxConnectionsPerThread).restrict
      (Reserves maxThreads maxConnectionsPerThread)) s) :
    s.total ≤ maxThreads * maxConnectionsPerThread := by
  obtain ⟨a, ha, rfl⟩ :=
    (reservation datetime maxThreads maxConnectionsPerThread).reachable h
  exact (Nat.le_add_right _ _).trans (Reservation.used_add_reserved_le ha)

end

/-! ## Two Enumerates at once -/

def enumerated (s : Server Bool Unit Unit) (id : String) : Server Bool Unit Unit :=
  { s with
    enuminfos := insertEnumInfo s.enuminfos
      { enumId := id, eprTo := "to", eprUri := "uri", encoding := "UTF-8", authData := {} } 0
    creators := Function.update s.creators id (some {}) }

theorem serverStep_enumerated {s : Server Bool Unit Unit} {t : Bool} {id : String}
    (hidle : s.threads t = .idle) (hfresh : s.creators id = none) :
    ServerStep (fun _ ↦ none) s (.enumerate t id) (enumerated s id) := by
  have hcreate : createEnumInfo (χ := Unit) (ι := Unit) (fun _ ↦ none)
      (⟨requestDoc (.elem xmlNsEnumeration wsenumEnumerate []), ⟨"UTF-8", {}⟩, none, 0, 0⟩ :
        SoapOp Unit) id 0 =
      .value (.ok
        { enumId := id, eprTo := "to", eprUri := "uri", encoding := "UTF-8", authData := {} }) :=
      rfl
  exact .enumerate hidle hfresh hcreate ⟨rfl, rfl, rfl, rfl, rfl⟩

/-- One Enumerate is admitted and stores its context. -/
theorem total_enumerated_le :
    (⟨enumerated emptyServer "1", []⟩ : QuotaServer Bool Unit Unit).total ≤ 1 * 1 := by
  have hinit : Reachable ((quotaServer Bool Unit Unit (fun _ ↦ none) 1 1).restrict (Reserves 1 1))
      ⟨emptyServer, []⟩ := .init ⟨⟨rfl, fun _ ↦ rfl, fun _ ↦ rfl⟩, rfl⟩
  have hpass : QuotaStep (fun _ ↦ none) 1 1 ⟨emptyServer, []⟩ (.pass false)
      ⟨emptyServer, [false]⟩ := .pass rfl (by simp) (by decide)
  have hinsert : QuotaStep (fun _ ↦ none) 1 1 ⟨emptyServer, [false]⟩ (.insert false "1")
      ⟨enumerated emptyServer "1", []⟩ :=
    .insert (by simp) (serverStep_enumerated rfl rfl)
  exact total_le_of_reachable_reserves (fun _ ↦ none) 1 1 _
    ((hinit.step ⟨hpass, by decide, by decide⟩).step ⟨hinsert, trivial⟩)

/-- With a limit of one, two Enumerates pass the check before either has stored its context. -/
theorem exists_reachable_limit_lt_total :
    ∃ s : QuotaServer Bool Unit Unit,
      Reachable (quotaServer Bool Unit Unit (fun _ ↦ none) 1 1) s ∧ s.total = 2 := by
  have hinit : Reachable (quotaServer Bool Unit Unit (fun _ ↦ none) 1 1) ⟨emptyServer, []⟩ :=
    .init ⟨⟨rfl, fun _ ↦ rfl, fun _ ↦ rfl⟩, rfl⟩
  have hfirst : QuotaStep (fun _ ↦ none) 1 1 ⟨emptyServer, []⟩ (.pass false)
      ⟨emptyServer, [false]⟩ := .pass rfl (by simp) (by decide)
  have hsecond : QuotaStep (fun _ ↦ none) 1 1 ⟨emptyServer, [false]⟩ (.pass true)
      ⟨emptyServer, [true, false]⟩ := .pass rfl (by simp) (by decide)
  have hstore : QuotaStep (fun _ ↦ none) 1 1 ⟨emptyServer, [true, false]⟩ (.insert false "1")
      ⟨enumerated emptyServer "1", [true]⟩ :=
    .insert (by simp) (serverStep_enumerated rfl rfl)
  have hstore' : QuotaStep (fun _ ↦ none) 1 1 ⟨enumerated emptyServer "1", [true]⟩
      (.insert true "2") ⟨enumerated (enumerated emptyServer "1") "2", []⟩ :=
    .insert (by simp) (serverStep_enumerated rfl (by decide))
  exact ⟨_, (((hinit.step hfirst).step hsecond).step hstore).step hstore', rfl⟩

end Openwsman
