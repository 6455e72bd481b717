import Openwsman.Enumeration.Locking

/-!
# Whose contexts a request may use

A context should serve only requests with the credentials of the Enumerate that created it. The
check in `wsman_verify_enum_info` refuses a request only when user name *and* password differ, and
it is skipped for a request that lacks one of the two.
-/

namespace Openwsman

open Transition

variable {τ χ ι : Type}

def Granted (s : Server τ χ ι) (stub : Stub) (doc : WsXmlNode) (auth : WsmanAuth) : Prop :=
  ∃ enuminfos info,
    getLockedEnuminfo s.enuminfos doc auth stub.action = .value (.ok (enuminfos, info))

/-- Everything but the credentials speaks for granting the context `k`: it is in the table, its
address and resource are those of the request, and nobody works on it. -/
def Usable (s : Server τ χ ι) (doc : WsXmlNode) (k : String) : Prop :=
  ∃ info, s.enuminfos.lookup k = some info ∧ requestTo doc = some info.eprTo ∧
    requestUri doc = some info.eprUri ∧ info.flags.inWork = false

/-- The requests that the check stops, for a context created with the credentials `creator`: they
carry a user name and a password, and both differ from the stored ones. Where nothing is stored the
comparison itself has no defined behaviour. -/
def Stopped (creator auth : WsmanAuth) : Prop :=
  ∃ u p, auth = ⟨some u, some p⟩ ∧ creator.username ≠ some u ∧
    (creator.username = none ∨ creator.password ≠ some p)

theorem granted_iff {s : Server τ χ ι} {stub : Stub} {doc : WsXmlNode} {auth : WsmanAuth}
    {k : String} (hk : requestedContext doc stub.action = some k) :
    Granted s stub doc auth ↔
      ∃ info, s.enuminfos.lookup k = some info ∧ requestTo doc = some info.eprTo ∧
        requestUri doc = some info.eprUri ∧ info.flags.inWork = false ∧
        verifyAuth info.authData auth = .value true := by
  constructor
  · rintro ⟨enuminfos, info', h⟩
    obtain ⟨id, info, hid, hinfo, hverify, hfree, -, -⟩ := getLockedEnuminfo_ok h
    obtain ⟨hto, huri, hauth⟩ := (wsmanVerifyEnumInfo_eq_none_iff info doc auth).mp hverify
    rw [Option.some.inj (hk.symm.trans hid)]
    exact ⟨info, hinfo, hto, huri, hfree, hauth⟩
  · rintro ⟨info, hinfo, hto, huri, hfree, hauth⟩
    refine ⟨s.enuminfos.replace (info.withInWork true), info.withInWork true, ?_⟩
    rw [getLockedEnuminfo, hk]
    dsimp only
    rw [hinfo]
    dsimp only
    rw [(wsmanVerifyEnumInfo_eq_none_iff info doc auth).mpr ⟨hto, huri, hauth⟩, CResult.value_bind]
    dsimp only
    rw [hfree, if_neg (by simp)]

theorem verifyAuth_eq_true_iff {creator stored auth : WsmanAuth}
    (h : storedAuth creator = .value stored) :
    verifyAuth stored auth = .value true ↔ ¬Stopped creator auth := by
  obtain ⟨cu, cp⟩ := creator
  obtain ⟨u, p⟩ := auth
  -- A request without a user name or without a password is not looked at.
  cases u with
  | none => simp [verifyAuth, Stopped]
  | some u =>
    cases p with
    | none => simp [verifyAuth, Stopped]
    | some p =>
      cases cu with
      | none =>
        have hstored : stored = {} := by simpa [storedAuth] using h.symm
        simp [verifyAuth, Stopped, hstored, strcmpEq]
      | some cu =>
        cases cp with
        | none => exact absurd h (by simp [storedAuth, uStrdup])
        | some cp =>
          have hstored : stored = ⟨some cu, some cp⟩ := by
            simpa [storedAuth, uStrdup] using h.symm
          rw [hstored]
          by_cases hu : u = cu
          · simp [verifyAuth, Stopped, strcmpEq, hu]
          have hu' : cu ≠ u := Ne.symm hu
          by_cases hp : p = cp
          · simp [verifyAuth, Stopped, strcmpEq, hp]
          · simp [verifyAuth, Stopped, strcmpEq, hu, hu', hp, Ne.symm hp]

/-- **When a context serves its creator only.** In every reachable state of the server, and for
every Pull or Release of a context that an Enumerate with the credentials `creator` has created: the
request is granted the context only with these credentials, if and only if it carries them, or the
check stops it, or something else keeps it from the context. -/
theorem granted_only_to_creator_iff [DecidableEq τ] {datetime : String → Option ℤ}
    {s : Server τ χ ι} (h : Reachable (enumServer τ χ ι datetime) s) {k : String}
    {creator : WsmanAuth} (hcreator : s.creators k = some creator) (stub : Stub) {doc : WsXmlNode}
    (hk : requestedContext doc stub.action = some k) (auth : WsmanAuth) :
    (Granted s stub doc auth → auth = creator) ↔
      (Usable s doc k → auth = creator ∨ Stopped creator auth) := by
  obtain ⟨b, hb⟩ := exists_represents h
  -- Between the Enumerate and this request the credentials of the context have not changed.
  have hstored : ∀ info, s.enuminfos.lookup k = some info →
      storedAuth creator = .value info.authData := by
    intro info hinfo
    obtain ⟨auth', hauth', hst⟩ := hb.recorded k info hinfo
    rwa [← Option.some.inj (hcreator.symm.trans hauth')] at hst
  rw [granted_iff hk]
  constructor
  · rintro hgrant ⟨info, hinfo, hto, huri, hfree⟩
    by_cases hstop : Stopped creator auth
    · exact .inr hstop
    · have hpass := (verifyAuth_eq_true_iff (hstored info hinfo)).mpr hstop
      exact .inl (hgrant ⟨info, hinfo, hto, huri, hfree, hpass⟩)
  · rintro husable ⟨info, hinfo, hto, huri, hfree, hpass⟩
    rcases husable ⟨info, hinfo, hto, huri, hfree⟩ with heq | hstop
    · exact heq
    · exact absurd hstop ((verifyAuth_eq_true_iff (hstored info hinfo)).mp hpass)

/-- The check works on a request with other credentials altogether. -/
theorem granted_only_to_creator_both_differ :
    Reachable (enumServer Bool Unit Unit fun _ ↦ none)
        (storedServer ⟨some "alice", some "secret"⟩) ∧
      ¬Granted (storedServer ⟨some "alice", some "secret"⟩) .pullDirect (pullRequestDoc "1")
        ⟨some "mallory", some "guess"⟩ := by
  refine ⟨reachable_storedServer rfl, fun hgranted ↦ ?_⟩
  have hsame : (⟨some "mallory", some "guess"⟩ : WsmanAuth) = ⟨some "alice", some "secret"⟩ := by
    refine (granted_only_to_creator_iff (reachable_storedServer rfl) rfl .pullDirect rfl _).mpr
      (fun _ ↦ ?_) hgranted
    exact .inr ⟨"mallory", "guess", rfl, by decide, .inr (by decide)⟩
  exact absurd hsame (by decide)

/-- **A context granted to another user.** A context that `alice` created is granted to a Pull by
`mallory`, who happens to have the same password. -/
theorem granted_to_other_user :
    Reachable (enumServer Bool Unit Unit fun _ ↦ none)
        (storedServer ⟨some "alice", some "secret"⟩) ∧
      (storedServer ⟨some "alice", some "secret"⟩).creators "1" =
        some ⟨some "alice", some "secret"⟩ ∧
      requestedContext (pullRequestDoc "1") Stub.pullDirect.action = some "1" ∧
      ¬(Granted (storedServer ⟨some "alice", some "secret"⟩) .pullDirect (pullRequestDoc "1")
          ⟨some "mallory", some "secret"⟩ →
        (⟨some "mallory", some "secret"⟩ : WsmanAuth) = ⟨some "alice", some "secret"⟩) := by
  refine ⟨reachable_storedServer rfl, rfl, rfl, fun h ↦ ?_⟩
  exact absurd (h ((granted_iff rfl).mpr ⟨_, rfl, rfl, rfl, rfl, rfl⟩)) (by decide)

end Openwsman
