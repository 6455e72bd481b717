import Mathlib.Data.Fintype.Basic
import Mathlib.Logic.Function.Basic
import Openwsman.Lib.Transition

/-!
# Threads that share a client

An action of the client makes a request, sends it (`wsman_send_request`) and reads the reply
(`wsmc_build_envelope_from_response`). The flag `WSMAN_CLIENT_BUSY` is tested and set under the
mutex of the client, and it is cleared under the mutex when the reply has come. The reply is read
from the buffer of the connection only behind that.

`wsmc_create_request` changes another flag in the same word, without the mutex: the word is loaded
and stored in two steps, and what happened to it in between is lost. A step is one access of a
thread to what the threads share, or a section under the mutex.
-/

namespace Openwsman

open Function Bool List Transition

/-! ## The client -/

structure ClientFlags where
  busy : Bool := false
  suppress100Continue : Bool := false
  deriving DecidableEq, Repr

structure UBuf where
  allocated : Bool := false
  bytes : List UInt8 := []
  deriving DecidableEq, Repr

def UBuf.clear (b : UBuf) : UBuf := { b with bytes := [] }

def UBuf.append (b : UBuf) (bytes : List UInt8) : UBuf :=
  if bytes.isEmpty then b else ⟨true, b.bytes ++ bytes⟩

structure WsManClient where
  flags : ClientFlags := {}
  response : UBuf := {}
  lastError : ℕ := 0
  deriving DecidableEq, Repr

def wsLasterrOk : ℕ := 0

/-- What `wsmc_handler` gets for a request: the bytes of the reply, none if there was no reply, and
the error code. -/
structure ServerReply where
  body : List UInt8
  lastError : ℕ
  deriving DecidableEq, Repr

section

variable {ρ δ ι : Type}

def wsmcBuildEnvelopeFromResponse (readMemory : List UInt8 → Option δ) (cl : WsManClient) :
    Option δ :=
  if cl.response.allocated then readMemory cl.response.bytes else none

/-! ## Actions -/

inductive ActionPhase (ρ : Type) where
  | idle
  | creating (request : ρ) (suppress : Option Bool)
  | loaded (request : ρ) (suppress : Bool) (flags : ClientFlags)
  | created (request : ρ)
  | locked (request : ρ)
  | cleared (request : ρ)
  | sending (request : ρ)
  | replied (request : ρ) (reply : ServerReply)
  | handled (request : ρ) (reply : ServerReply)
  | unlocking (request : ρ) (reply : ServerReply) (ret : Bool)
  | unlocked (request : ρ) (reply : ServerReply) (ret : Bool)

inductive ClientMove (ρ : Type) where
  | start (request : ρ) (suppress : Option Bool)
  | proceed
  | receive (reply : ServerReply)

structure ActionReturn (ρ δ : Type) where
  request : ρ
  reply : Option ServerReply
  document : Option δ

structure ActionEffect (ρ δ : Type) where
  client : WsManClient
  phase : ActionPhase ρ
  returned : Option (ActionReturn ρ δ) := none

def advance (readMemory : List UInt8 → Option δ) (cl : WsManClient) :
    ActionPhase ρ → ClientMove ρ → Option (ActionEffect ρ δ)
  | .idle, .start request suppress => some ⟨cl, .creating request suppress, none⟩
  | .creating request none, .proceed => some ⟨cl, .created request, none⟩
  | .creating request (some suppress), .proceed =>
    some ⟨cl, .loaded request suppress cl.flags, none⟩
  | .loaded request suppress flags, .proceed =>
    some ⟨{ cl with flags := { flags with suppress100Continue := suppress } }, .created request,
      none⟩
  | .created request, .proceed =>
    -- `wsmc_lock`
    if cl.flags.busy then some ⟨cl, .idle, some ⟨request, none, none⟩⟩
    else some ⟨{ cl with flags := { cl.flags with busy := true } }, .locked request, none⟩
  | .locked request, .proceed =>
    some ⟨{ cl with response := cl.response.clear }, .cleared request, none⟩
  | .cleared request, .proceed =>
    some ⟨{ cl with lastError := wsLasterrOk }, .sending request, none⟩
  | .sending request, .receive reply =>
    some ⟨{ cl with response := cl.response.append reply.body }, .replied request reply, none⟩
  | .replied request reply, .proceed =>
    some ⟨{ cl with lastError := reply.lastError }, .handled request reply, none⟩
  | .handled request reply, .proceed =>
    some ⟨cl, .unlocking request reply (cl.lastError != wsLasterrOk), none⟩
  | .unlocking request reply ret, .proceed =>
    -- `wsmc_unlock`
    some ⟨{ cl with flags := { cl.flags with busy := false } }, .unlocked request reply ret, none⟩
  | .unlocked request reply ret, .proceed =>
    some ⟨cl, .idle, some ⟨request, some reply,
      if ret then none else wsmcBuildEnvelopeFromResponse readMemory cl⟩⟩
  | _, _ => none

structure SharedClient (ι ρ δ : Type) where
  client : WsManClient
  phase : ι → ActionPhase ρ
  returns : List (ActionReturn ρ δ)

def SharedClient.step [DecidableEq ι] (readMemory : List UInt8 → Option δ)
    (s : SharedClient ι ρ δ) (i : ι) (move : ClientMove ρ) : Option (SharedClient ι ρ δ) :=
  (advance readMemory s.client (s.phase i) move).map fun effect ↦
    { client := effect.client
      phase := Function.update s.phase i effect.phase
      returns := effect.returned.toList ++ s.returns }

def clientSystem [DecidableEq ι] (readMemory : List UInt8 → Option δ) :
    System (SharedClient ι ρ δ) (ι × ClientMove ρ) where
  Init s := s.client.flags.busy = false ∧ (∀ i, s.phase i = .idle) ∧ s.returns = []
  Step s l s' := s.step readMemory l.1 l.2 = some s'

/-! ## Who uses the client -/

namespace ActionPhase

def holds : ActionPhase ρ → Bool
  | locked _ | cleared _ | sending _ | replied .. | handled .. | unlocking .. => true
  | _ => false

def awaits : ActionPhase ρ → Bool
  | unlocked _ _ ret => !ret
  | _ => false

def uses (phase : ActionPhase ρ) : Bool := phase.holds || phase.awaits

def isCreated : ActionPhase ρ → Bool
  | created _ => true
  | _ => false

/-- The thread is about to store flags in which the one for being busy is out of date. -/
def isStale (flags : ClientFlags) : ActionPhase ρ → Bool
  | loaded _ _ old => old.busy != flags.busy
  | _ => false

def Fits (cl : WsManClient) : ActionPhase ρ → Prop
  | cleared _ | sending _ => cl.response.bytes = []
  | replied _ reply | handled _ reply | unlocking _ reply _ | unlocked _ reply false =>
    cl.response.bytes = reply.body
  | _ => True

theorem uses_of_holds {phase : ActionPhase ρ} (h : phase.holds = true) : phase.uses = true := by
  rw [uses, h, Bool.true_or]

theorem Fits.of_response {cl cl' : WsManClient} {phase : ActionPhase ρ} (h : phase.Fits cl)
    (hresponse : phase.uses = true → cl'.response = cl.response) : phase.Fits cl' := by
  cases phase with
  | unlocked request reply ret =>
    rcases ret with _ | _
    · rw [Fits] at h ⊢
      rw [hresponse rfl, h]
    · trivial
  | _ => first | trivial | (rw [Fits] at h ⊢; rw [hresponse rfl, h])

end ActionPhase

def ActionReturn.Own (readMemory : List UInt8 → Option δ) (r : ActionReturn ρ δ) : Prop :=
  ∀ d, r.document = some d → ∃ reply, r.reply = some reply ∧ readMemory reply.body = some d

theorem UBuf.bytes_append (b : UBuf) (bytes : List UInt8) :
    (b.append bytes).bytes = b.bytes ++ bytes := by
  rw [append]
  split
  · next h => rw [isEmpty_iff.mp h, append_nil]
  · rfl

inductive ActionStep (readMemory : List UInt8 → Option δ) (cl : WsManClient) :
    ActionPhase ρ → ActionEffect ρ δ → Prop
  | start (request : ρ) (suppress : Option Bool) :
      ActionStep readMemory cl .idle ⟨cl, .creating request suppress, none⟩
  | create (request : ρ) :
      ActionStep readMemory cl (.creating request none) ⟨cl, .created request, none⟩
  | load (request : ρ) (suppress : Bool) :
      ActionStep readMemory cl (.creating request (some suppress))
        ⟨cl, .loaded request suppress cl.flags, none⟩
  | store (request : ρ) (suppress : Bool) (flags : ClientFlags) :
      ActionStep readMemory cl (.loaded request suppress flags)
        ⟨{ cl with flags := { flags with suppress100Continue := suppress } }, .created request,
          none⟩
  | refuse (request : ρ) (busy : cl.flags.busy = true) :
      ActionStep readMemory cl (.created request) ⟨cl, .idle, some ⟨request, none, none⟩⟩
  | lock (request : ρ) (free : cl.flags.busy = false) :
      ActionStep readMemory cl (.created request)
        ⟨{ cl with flags := { cl.flags with busy := true } }, .locked request, none⟩
  | clear (request : ρ) :
      ActionStep readMemory cl (.locked request)
        ⟨{ cl with response := cl.response.clear }, .cleared request, none⟩
  | reset (request : ρ) :
      ActionStep readMemory cl (.cleared request)
        ⟨{ cl with lastError := wsLasterrOk }, .sending request, none⟩
  | receive (request : ρ) (reply : ServerReply) :
      ActionStep readMemory cl (.sending request)
        ⟨{ cl with response := cl.response.append reply.body }, .replied request reply, none⟩
  | record (request : ρ) (reply : ServerReply) :
      ActionStep readMemory cl (.replied request reply)
        ⟨{ cl with lastError := reply.lastError }, .handled request reply, none⟩
  | test (request : ρ) (reply : ServerReply) :
      ActionStep readMemory cl (.handled request reply)
        ⟨cl, .unlocking request reply (cl.lastError != wsLasterrOk), none⟩
  | unlock (request : ρ) (reply : ServerReply) (ret : Bool) :
      ActionStep readMemory cl (.unlocking request reply ret)
        ⟨{ cl with flags := { cl.flags with busy := false } }, .unlocked request reply ret, none⟩
  | finish (request : ρ) (reply : ServerReply) (ret : Bool) :
      ActionStep readMemory cl (.unlocked request reply ret)
        ⟨cl, .idle, some ⟨request, some reply,
          if ret then none else wsmcBuildEnvelopeFromResponse readMemory cl⟩⟩

section

variable {readMemory : List UInt8 → Option δ} {cl : WsManClient} {phase : ActionPhase ρ}
  {effect : ActionEffect ρ δ}

theorem actionStep_of_advance {move : ClientMove ρ}
    (h : advance readMemory cl phase move = some effect) :
    ActionStep readMemory cl phase effect := by
  rw [advance.eq_def] at h
  split at h
  case h_5 =>
    split at h
    · next hbusy =>
      cases h
      exact .refuse _ hbusy
    · next hfree =>
      cases h
      exact .lock _ (eq_false_of_ne_true hfree)
  all_goals cases h
  all_goals constructor

namespace ActionStep

variable (h : ActionStep readMemory cl phase effect)

include h

theorem response_eq (hnot : phase.holds = false) : effect.client.response = cl.response := by
  cases h with
  | clear | receive => cases hnot
  | _ => rfl

theorem fits (hfits : phase.Fits cl) : effect.phase.Fits effect.client := by
  cases h with
  | clear => rfl
  | reset => exact hfits
  | receive request reply =>
    have hempty : cl.response.bytes = [] := hfits
    change (cl.response.append reply.body).bytes = reply.body
    rw [UBuf.bytes_append, hempty, nil_append]
  | record => exact hfits
  | test => exact hfits
  | unlock request reply ret =>
    rcases ret with _ | _
    · exact hfits
    · trivial
  | _ => trivial

theorem uses_or (huses : effect.phase.uses = true) :
    phase.uses = true ∨ phase.isCreated = true ∧ cl.flags.busy = false := by
  cases h with
  | lock request free => exact .inr ⟨rfl, free⟩
  | start | create | load | store | refuse | finish => cases huses
  | _ => exact .inl rfl

theorem busy_cases :
    (effect.phase.holds = phase.holds ∧ effect.client.flags.busy = cl.flags.busy) ∨
    (effect.phase.holds = true ∧ effect.client.flags.busy = true ∧ cl.flags.busy = false) ∨
    (phase.holds = true ∧ effect.phase.holds = false ∧ effect.client.flags.busy = false) ∨
    phase.isStale cl.flags = true := by
  cases h with
  | lock request free => exact .inr (.inl ⟨rfl, rfl, free⟩)
  | unlock => exact .inr (.inr (.inl ⟨rfl, rfl, rfl⟩))
  | store request suppress flags =>
    by_cases hstale : flags.busy = cl.flags.busy
    · exact .inl ⟨rfl, hstale⟩
    · exact .inr (.inr (.inr (bne_iff_ne.mpr hstale)))
  | _ => exact .inl ⟨rfl, rfl⟩

theorem own (hfits : phase.Fits cl) : ∀ r ∈ effect.returned, r.Own readMemory := by
  cases h with
  | refuse request busy =>
    rintro r ⟨⟩ d ⟨⟩
  | finish request reply ret =>
    rintro r ⟨⟩ d hd
    refine ⟨reply, rfl, ?_⟩
    rcases ret with _ | _
    · have hbytes : cl.response.bytes = reply.body := hfits
      rw [← hbytes]
      change (if cl.response.allocated then readMemory cl.response.bytes else none) = some d at hd
      split at hd
      · exact hd
      · cases hd
    · cases hd
  | _ => rintro r ⟨⟩

end ActionStep

end

/-! ## Runs -/

/-- A thread takes the client only when no other has yet to read a reply, and when it stores the
flags the one for being busy is as it was loaded. -/
def SharedClient.Undisturbed (s : SharedClient ι ρ δ) (l : ι × ClientMove ρ) : Prop :=
  ((s.phase l.1).isCreated = true → s.client.flags.busy = false →
    ∀ j, (s.phase j).awaits = false) ∧
  (s.phase l.1).isStale s.client.flags = false

instance [Fintype ι] (s : SharedClient ι ρ δ) (l : ι × ClientMove ρ) :
    Decidable (s.Undisturbed l) :=
  inferInstanceAs (Decidable (_ ∧ _))

/-- At most one thread uses the client, and the buffer is what it takes it for. -/
structure SharedClient.Sound (readMemory : List UInt8 → Option δ) (s : SharedClient ι ρ δ) :
    Prop where
  one : ∀ i j, (s.phase i).uses = true → (s.phase j).uses = true → i = j
  busy : s.client.flags.busy = true ↔ ∃ i, (s.phase i).holds = true
  fits : ∀ i, (s.phase i).Fits s.client
  own : ∀ r ∈ s.returns, r.Own readMemory

namespace SharedClient

variable {readMemory : List UInt8 → Option δ} {s s' : SharedClient ι ρ δ}

theorem Sound.not_uses (hs : s.Sound readMemory) (hfree : s.client.flags.busy = false)
    (hawaits : ∀ j, (s.phase j).awaits = false) (j : ι) : (s.phase j).uses = false := by
  have hholds : (s.phase j).holds = false := by
    rcases hj : (s.phase j).holds with _ | _
    · rfl
    · rw [hs.busy.mpr ⟨j, hj⟩] at hfree
      cases hfree
  rw [ActionPhase.uses, hholds, hawaits j, Bool.or_false]

variable {i : ι} {effect : ActionEffect ρ δ}

theorem Sound.eq_of_uses (hs : s.Sound readMemory)
    (hstep : ActionStep readMemory s.client (s.phase i) effect)
    (hfree : (s.phase i).isCreated = true → s.client.flags.busy = false →
      ∀ j, (s.phase j).awaits = false)
    (huses : effect.phase.uses = true) {j : ι} (hj : (s.phase j).uses = true) : j = i := by
  rcases hstep.uses_or huses with hbefore | ⟨hcreated, hbusy⟩
  · exact hs.one j i hj hbefore
  · rw [hs.not_uses hbusy (hfree hcreated hbusy) j] at hj
    cases hj

variable [DecidableEq ι]

theorem exists_actionStep {move : ClientMove ρ} (h : s.step readMemory i move = some s') :
    ∃ effect, ActionStep readMemory s.client (s.phase i) effect ∧
      s' = ⟨effect.client, Function.update s.phase i effect.phase,
        effect.returned.toList ++ s.returns⟩ := by
  obtain ⟨effect, hadvance, rfl⟩ := Option.map_eq_some_iff.mp h
  exact ⟨effect, actionStep_of_advance hadvance, rfl⟩

theorem Sound.busy_step (hs : s.Sound readMemory)
    (hstep : ActionStep readMemory s.client (s.phase i) effect)
    (hfresh : (s.phase i).isStale s.client.flags = false) :
    effect.client.flags.busy = true ↔
      ∃ j, (Function.update s.phase i effect.phase j).holds = true := by
  rcases hstep.busy_cases with ⟨hholds, hbusy⟩ | ⟨hholds, hbusy, -⟩ | ⟨hbefore, hholds, hbusy⟩ |
    hstale
  · rw [hbusy, hs.busy]
    refine exists_congr fun j ↦ ?_
    rcases eq_or_ne j i with rfl | hj
    · rw [update_self, hholds]
    · rw [update_of_ne hj]
  · refine iff_of_true hbusy ⟨i, ?_⟩
    rw [update_self, hholds]
  · rw [hbusy]
    refine iff_of_false false_ne_true ?_
    rintro ⟨j, hj⟩
    rcases eq_or_ne j i with rfl | hne
    · rw [update_self, hholds] at hj
      cases hj
    · rw [update_of_ne hne] at hj
      exact hne (hs.one j i (ActionPhase.uses_of_holds hj) (ActionPhase.uses_of_holds hbefore))
  · rw [hfresh] at hstale
    cases hstale

theorem Sound.step (hs : s.Sound readMemory) {move : ClientMove ρ}
    (h : s.step readMemory i move = some s') (hcond : s.Undisturbed (i, move)) :
    s'.Sound readMemory := by
  obtain ⟨effect, hstep, rfl⟩ := exists_actionStep h
  have honly := fun huses j ↦ hs.eq_of_uses hstep hcond.1 (j := j) huses
  constructor
  · intro j k hj hk
    dsimp only at hj hk
    rcases eq_or_ne j i with rfl | hji
    · rcases eq_or_ne k j with rfl | hkj
      · rfl
      · rw [update_self] at hj
        rw [update_of_ne hkj] at hk
        exact (honly hj k hk).symm
    · rw [update_of_ne hji] at hj
      rcases eq_or_ne k i with rfl | hki
      · rw [update_self] at hk
        exact honly hk j hj
      · rw [update_of_ne hki] at hk
        exact hs.one j k hj hk
  · exact hs.busy_step hstep hcond.2
  · intro j
    dsimp only
    rcases eq_or_ne j i with rfl | hj
    · rw [update_self]
      exact hstep.fits (hs.fits j)
    rw [update_of_ne hj]
    refine (hs.fits j).of_response fun huses ↦ hstep.response_eq ?_
    rcases hholds : (s.phase i).holds with _ | _
    · rfl
    · exact absurd (hs.one j i huses (ActionPhase.uses_of_holds hholds)) hj
  · intro r hr
    rcases mem_append.mp hr with hr | hr
    · exact hstep.own (hs.fits i) r (Option.mem_toList.mp hr)
    · exact hs.own r hr

theorem sound_of_reachable
    (h : Reachable ((clientSystem readMemory).restrict Undisturbed) s) : s.Sound readMemory := by
  refine Reachable.induct (fun s hinit ↦ ?_) (fun s l s' _ hs hstep ↦ ?_) h
  · obtain ⟨hbusy, hidle, hreturns⟩ := hinit
    constructor
    · intro i j hi
      rw [hidle i] at hi
      cases hi
    · rw [hbusy]
      refine iff_of_false false_ne_true ?_
      rintro ⟨i, hi⟩
      rw [hidle i] at hi
      cases hi
    · intro i
      rw [hidle i]
      trivial
    · rw [hreturns]
      exact fun r hr ↦ absurd hr not_mem_nil
  · exact hs.step hstep.1 hstep.2

end SharedClient

def SharedClient.run [DecidableEq ι] (readMemory : List UInt8 → Option δ)
    (C : SharedClient ι ρ δ → ι × ClientMove ρ → Prop) [∀ s l, Decidable (C s l)] :
    SharedClient ι ρ δ → List (ι × ClientMove ρ) → Option (SharedClient ι ρ δ)
  | s, [] => some s
  | s, l :: ls => if C s l then (s.step readMemory l.1 l.2).bind fun s' ↦ run readMemory C s' ls
    else none

theorem SharedClient.reachable_run [DecidableEq ι] {readMemory : List UInt8 → Option δ}
    {C : SharedClient ι ρ δ → ι × ClientMove ρ → Prop} [∀ s l, Decidable (C s l)]
    {s s' : SharedClient ι ρ δ} {ls : List (ι × ClientMove ρ)}
    (hs : Reachable ((clientSystem readMemory).restrict C) s)
    (h : run readMemory C s ls = some s') :
    Reachable ((clientSystem readMemory).restrict C) s' := by
  induction ls generalizing s with
  | nil =>
    cases h
    exact hs
  | cons l ls ih =>
    rw [run] at h
    split at h
    · next hcond =>
      obtain ⟨next, hstep, hrest⟩ := Option.bind_eq_some_iff.mp h
      exact ih (hs.step ⟨hstep, hcond⟩) hrest
    · cases h

/-- In every run of any number of threads in which no thread takes the client between the end of
another's sending and its reading, and no flags are stored that are out of date, every document that
is returned is the server's reply to the request of the action, and an action that found the client
busy returned nothing. -/
theorem own_of_undisturbed [DecidableEq ι] {readMemory : List UInt8 → Option δ}
    {s : SharedClient ι ρ δ}
    (h : Reachable ((clientSystem readMemory).restrict SharedClient.Undisturbed) s) :
    ∀ r ∈ s.returns, (∀ d, r.document = some d →
        ∃ reply, r.reply = some reply ∧ readMemory reply.body = some d) ∧
      (r.reply = none → r.document = none) := by
  intro r hr
  have hown := (SharedClient.sound_of_reachable h).own r hr
  refine ⟨hown, fun hnone ↦ ?_⟩
  rcases hdocument : r.document with _ | d
  · rfl
  · obtain ⟨reply, hreply, -⟩ := hown d hdocument
    rw [hnone] at hreply
    cases hreply

def twoThreads : SharedClient Bool ℕ (List UInt8) := ⟨{}, fun _ ↦ .idle, []⟩

theorem reachable_twoThreads (C : SharedClient Bool ℕ (List UInt8) → Bool × ClientMove ℕ → Prop) :
    Reachable ((clientSystem some).restrict C) twoThreads :=
  .init ⟨rfl, fun _ ↦ rfl, rfl⟩

def sendMoves (i : Bool) (request : ℕ) (reply : ServerReply) : List (Bool × ClientMove ℕ) :=
  [(i, .start request none), (i, .proceed), (i, .proceed), (i, .proceed), (i, .proceed),
    (i, .receive reply), (i, .proceed), (i, .proceed), (i, .proceed)]

def refusedMoves : List (Bool × ClientMove ℕ) :=
  [(false, .start 1 none), (false, .proceed), (false, .proceed), (true, .start 2 none),
    (true, .proceed), (true, .proceed), (false, .proceed), (false, .proceed),
    (false, .receive ⟨[65], 0⟩), (false, .proceed), (false, .proceed), (false, .proceed),
    (false, .proceed)]

theorem own_refused : ∃ s, SharedClient.run some SharedClient.Undisturbed twoThreads refusedMoves =
      some s ∧
    s.returns = [⟨1, some ⟨[65], 0⟩, some [65]⟩, ⟨2, none, none⟩] ∧
    ∀ r ∈ s.returns, (∀ d, r.document = some d →
        ∃ reply, r.reply = some reply ∧ some reply.body = some d) ∧
      (r.reply = none → r.document = none) := by
  obtain ⟨s, hrun⟩ : ∃ s, SharedClient.run some SharedClient.Undisturbed twoThreads refusedMoves =
      some s := ⟨_, rfl⟩
  refine ⟨s, hrun, ?_,
    own_of_undisturbed (SharedClient.reachable_run (reachable_twoThreads _) hrun)⟩
  cases hrun
  rfl

def crossedMoves : List (Bool × ClientMove ℕ) :=
  sendMoves false 1 ⟨[65], 0⟩ ++ sendMoves true 2 ⟨[66], 0⟩ ++ [(false, .proceed)]

def staleMoves : List (Bool × ClientMove ℕ) :=
  [(true, .start 2 (some false)), (true, .proceed), (false, .start 1 none), (false, .proceed),
    (false, .proceed), (true, .proceed), (true, .proceed), (false, .proceed), (false, .proceed),
    (true, .proceed), (true, .proceed), (false, .receive ⟨[65], 0⟩), (true, .receive ⟨[66], 0⟩),
    (false, .proceed), (false, .proceed), (false, .proceed), (false, .proceed)]

theorem reachable_run_twoThreads {moves : List (Bool × ClientMove ℕ)}
    {s : SharedClient Bool ℕ (List UInt8)}
    (h : SharedClient.run some (fun _ _ ↦ True) twoThreads moves = some s) :
    Reachable (clientSystem some) s :=
  (SharedClient.reachable_run (reachable_twoThreads _) h).of_restrict

/-- A thread returns the reply to the request of the other, or both replies at once. -/
theorem not_own :
    (∃ s : SharedClient Bool ℕ (List UInt8), Reachable (clientSystem some) s ∧
      ⟨1, some ⟨[65], 0⟩, some [66]⟩ ∈ s.returns) ∧
    ∃ s : SharedClient Bool ℕ (List UInt8), Reachable (clientSystem some) s ∧
      ⟨1, some ⟨[65], 0⟩, some [65, 66]⟩ ∈ s.returns := by
  constructor
  · obtain ⟨s, hrun⟩ : ∃ s, SharedClient.run some (fun _ _ ↦ True) twoThreads crossedMoves =
        some s := ⟨_, rfl⟩
    refine ⟨s, reachable_run_twoThreads hrun, ?_⟩
    cases hrun
    exact mem_cons_self
  · obtain ⟨s, hrun⟩ : ∃ s, SharedClient.run some (fun _ _ ↦ True) twoThreads staleMoves =
        some s := ⟨_, rfl⟩
    refine ⟨s, reachable_run_twoThreads hrun, ?_⟩
    cases hrun
    exact mem_cons_self

end

end Openwsman
