import Openwsman.Lib.Search
import Openwsman.Xml.Node

/-!
# The enumerate-and-pull loop of the client

`wsmc_action_enumerate_and_pull` sends an Enumerate and then Pulls, as long as the last reply has an
enumeration context, and passes the replies to a callback. The status of the last reply is kept in
the client. In the loop it is read *before* the Pull is sent and tested after, so that the test is
about the reply before.

The server may send any replies, so a run is given by a list of them; when the list is used up, the
client waits for the next one.
-/

namespace Openwsman

open List Search

/-! ## The loop -/

/-- The `response_code` of the client after a request, and the document that was read from the
response. -/
structure Reply where
  responseCode : ℤ
  doc : Option WsXmlNode

def statusAccepted (rc : ℤ) : Bool := rc == 200 || rc == 400 || rc == 500

def wsmcGetEnumContext (doc : Option WsXmlNode) : Option String :=
  match wsXmlGetChild (doc.bind wsXmlGetSoapBody) 0 none none with
  | none => none
  | some enumStartNode =>
    wsXmlGetNodeText
      (wsXmlFirstChild (some enumStartNode) xmlNsEnumeration wsenumEnumerationContext)

def goesOn (enumContext : Option String) : Bool := enumContext.any fun text ↦ text != ""

/-- What has come of a call: the replies that were fetched, those that the callback was called with,
and the value that was returned, unless the client still waits. -/
structure PullRun where
  fetched : List Reply := []
  passed : List Reply := []
  returned : Option ℕ := none

def PullRun.pass (reply : Reply) (run : PullRun) : PullRun :=
  { run with fetched := reply :: run.fetched, passed := reply :: run.passed }

variable (reply : Reply) (run : PullRun)

@[simp] theorem PullRun.fetched_pass : (run.pass reply).fetched = reply :: run.fetched := rfl

@[simp] theorem PullRun.passed_pass : (run.pass reply).passed = reply :: run.passed := rfl

def pullLoop (responseCode : ℤ) (enumContext : Option String) : List Reply → PullRun
  | [] => if goesOn enumContext then {} else { returned := some 1 }
  | reply :: replies =>
    if !goesOn enumContext then { returned := some 1 }
    else
      -- the reply is fetched, but the status that is tested was read before
      let rc := responseCode
      if !statusAccepted rc then { fetched := [reply], returned := some 0 }
      else (pullLoop reply.responseCode (wsmcGetEnumContext reply.doc) replies).pass reply

def wsmcActionEnumerateAndPull : List Reply → PullRun
  | [] => {}
  | enumResponse :: replies =>
    if enumResponse.doc.isSome then
      if statusAccepted enumResponse.responseCode then
        (pullLoop enumResponse.responseCode (wsmcGetEnumContext enumResponse.doc) replies).pass
          enumResponse
      else { fetched := [enumResponse], returned := some 0 }
    else { fetched := [enumResponse], returned := some 0 }

/-! ## What a call should do -/

def Reply.Good (r : Reply) : Prop := r.doc.isSome = true ∧ statusAccepted r.responseCode = true

instance (r : Reply) : Decidable r.Good := inferInstanceAs (Decidable (_ ∧ _))

def Reply.Continues (r : Reply) : Prop := r.Good ∧ goesOn (wsmcGetEnumContext r.doc) = true

/-- The callback sees good replies only, no request follows a Pull reply that is not good, and a
success says that the callback has seen all replies. -/
structure PullRun.Correct (run : PullRun) : Prop where
  callback : ∀ r ∈ run.passed, r.Good
  stops : ∀ enumResponse pulls r rest, run.fetched = enumResponse :: (pulls ++ r :: rest) →
    ¬r.Good → rest = [] ∧ run.returned.isSome = true
  success : run.returned = some 1 → run.passed = run.fetched

theorem mem_passed_pullLoop {responseCode : ℤ} {enumContext : Option String} {pre post : List Reply}
    {r : Reply} (hrc : statusAccepted responseCode = true) (hctx : goesOn enumContext = true)
    (hpre : ∀ x ∈ pre, x.Continues) :
    r ∈ (pullLoop responseCode enumContext (pre ++ r :: post)).passed := by
  induction pre generalizing responseCode enumContext with
  | nil =>
    rw [nil_append, pullLoop]
    simp [hctx, hrc]
  | cons x pre ih =>
    obtain ⟨⟨hgood, hx⟩, hpre⟩ := forall_mem_cons.mp hpre
    rw [cons_append, pullLoop]
    simp only [hctx, hrc, Bool.not_true, Bool.false_eq_true, if_false, PullRun.passed_pass]
    exact mem_cons_of_mem x (ih hgood.2 hx hpre)

theorem pullLoop_of_good {responseCode : ℤ} {enumContext : Option String} {replies : List Reply}
    (hrc : statusAccepted responseCode = true)
    (hgood : goesOn enumContext = true →
      ∀ pre r, Reached Reply.Continues replies pre r → r.Good) :
    (pullLoop responseCode enumContext replies).passed =
        (pullLoop responseCode enumContext replies).fetched ∧
      ∀ r ∈ (pullLoop responseCode enumContext replies).fetched, r.Good := by
  induction replies generalizing responseCode enumContext with
  | nil =>
    rw [pullLoop]
    split <;> exact ⟨rfl, by simp⟩
  | cons reply replies ih =>
    rw [pullLoop]
    cases hctx : goesOn enumContext with
    | false => exact ⟨rfl, by simp⟩
    | true =>
      obtain ⟨hreply, hrest⟩ := forall_reached_cons.mp (hgood hctx)
      obtain ⟨hpassed, hall⟩ := ih hreply.2 fun hgoes ↦ hrest ⟨hreply, hgoes⟩
      simp only [hrc, Bool.not_true, Bool.false_eq_true, if_false, PullRun.passed_pass,
        PullRun.fetched_pass, hpassed, true_and]
      exact forall_mem_cons.mpr ⟨hreply, hall⟩

theorem PullRun.correct_pass {enumResponse : Reply} {run : PullRun} (henum : enumResponse.Good)
    (hpassed : run.passed = run.fetched) (hall : ∀ r ∈ run.fetched, r.Good) :
    (run.pass enumResponse).Correct where
  callback := by
    rw [passed_pass, hpassed]
    exact forall_mem_cons.mpr ⟨henum, hall⟩
  stops := by
    intro first pulls r rest hfetched hbad
    rw [fetched_pass, cons.injEq] at hfetched
    exact absurd (hall r (by rw [hfetched.2]; simp)) hbad
  success := by
    intro _
    rw [passed_pass, fetched_pass, hpassed]

theorem PullRun.correct_failed (enumResponse : Reply) :
    PullRun.Correct { fetched := [enumResponse], returned := some 0 } where
  callback := by simp
  stops := by
    intro first pulls r rest hfetched
    have hlength := congrArg length hfetched
    simp at hlength
  success := by
    intro h
    cases h

/-- **The enumerate-and-pull loop.** A call is correct if and only if every Pull reply that it comes
to, as long as the replies before are good and have a context, is good itself. -/
theorem enumerateAndPull_correct_iff (replies : List Reply) :
    (wsmcActionEnumerateAndPull replies).Correct ↔
      ∀ pre r, Reached Reply.Continues replies pre r → pre ≠ [] → r.Good := by
  constructor
  · rintro hcorrect pre r ⟨⟨post, rfl⟩, hpre⟩ hne
    cases pre with
    | nil => exact absurd rfl hne
    | cons enumResponse pre =>
      obtain ⟨⟨⟨hdoc, hrc⟩, hctx⟩, hpre⟩ := forall_mem_cons.mp hpre
      apply hcorrect.callback
      rw [cons_append, wsmcActionEnumerateAndPull, if_pos hdoc, if_pos hrc]
      exact mem_cons_of_mem _ (mem_passed_pullLoop hrc hctx hpre)
  · intro hgood
    cases replies with
    | nil => exact ⟨by simp [wsmcActionEnumerateAndPull], by simp [wsmcActionEnumerateAndPull],
        by simp [wsmcActionEnumerateAndPull]⟩
    | cons enumResponse replies =>
      rw [wsmcActionEnumerateAndPull]
      split
      · next hdoc =>
        split
        · next hrc =>
          have hpulls : goesOn (wsmcGetEnumContext enumResponse.doc) = true →
              ∀ pre r, Reached Reply.Continues replies pre r → r.Good := by
            rintro hctx pre r ⟨⟨post, rfl⟩, hpre⟩
            exact hgood (enumResponse :: pre) r
              ⟨⟨post, rfl⟩, forall_mem_cons.mpr ⟨⟨⟨hdoc, hrc⟩, hctx⟩, hpre⟩⟩ (by simp)
          obtain ⟨hpassed, hall⟩ := pullLoop_of_good hrc hpulls
          exact PullRun.correct_pass ⟨hdoc, hrc⟩ hpassed hall
        · exact PullRun.correct_failed enumResponse
      · exact PullRun.correct_failed enumResponse

def contextReply : Reply where
  responseCode := 200
  doc := some (wsXmlCreateEnvelope []
    [.elem xmlNsEnumeration wsenumEnumerateResp
      [.elem xmlNsEnumeration wsenumEnumerationContext [.text "1"]]])

/-- A Pull that the server does not answer. The callback is called with no document, and the call
reports a success. -/
theorem enumerateAndPull_not_correct_missing :
    ¬(wsmcActionEnumerateAndPull [contextReply, ⟨404, none⟩]).Correct ∧
      (wsmcActionEnumerateAndPull [contextReply, ⟨404, none⟩]).passed =
        [contextReply, ⟨404, none⟩] ∧
      (wsmcActionEnumerateAndPull [contextReply, ⟨404, none⟩]).returned = some 1 := by
  refine ⟨?_, rfl, rfl⟩
  intro h
  have hpassed : ⟨404, none⟩ ∈ (wsmcActionEnumerateAndPull [contextReply, ⟨404, none⟩]).passed :=
    mem_cons_of_mem contextReply mem_cons_self
  exact absurd (h.callback ⟨404, none⟩ hpassed) (by decide)

end Openwsman
