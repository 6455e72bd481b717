import Openwsman.Cim.Paging

/-!
# Progress of an enumeration

With every Pull an enumeration should come nearer to its end. `cim_get_enum_items` leaves its loop
at a result that the polymorphism mode excludes, and nobody moves the cursor past such a result, so
that every further Pull stops there again. The enumeration finishes exactly when the mode excludes
none of the results that remain.
-/

namespace Openwsman

open List Paging

variable {κ : Type}

section Run

variable {dump : String → CimDoc κ → ℕ} {view : CimView κ} {ctx : CimContext κ} {info : CimInfo κ}

theorem Moved.trans {info' info'' : CimInfo κ} {k l : ℕ} (h : Moved ctx info k info')
    (h' : Moved ctx info' l info'') : Moved ctx info (k + l) info'' :=
  ⟨h'.wellFormed, by rw [h'.cursor, h.cursor, Nat.add_assoc], h'.flags.trans h.flags,
    h'.enumId.trans h.enumId⟩

theorem exists_cimPull_moved (dump : String → CimDoc κ → ℕ) (view : CimView κ)
    (doc : WsXmlNode) (h : WellFormed ctx info) :
    ∃ items k, PullCollection dump view doc ctx info items k ∧
      ((cimPull dump view doc info).verdict = .remove ∧
          info.index.toNat + k = ctx.results.list.length ∨
        (cimPull dump view doc info).verdict = .unlock ∧
          Moved ctx info k (cimPull dump view doc info).info) := by
  obtain ⟨items, k, hcol, _, hverdict, hinfo⟩ := pullDirectEnd_cim dump view doc h
  refine ⟨items, k, hcol, ?_⟩
  by_cases hend : info.index.toNat + k = ctx.results.list.length
  · rw [decide_eq_true hend] at hverdict
    exact .inl ⟨hverdict, hend⟩
  rw [decide_eq_false hend] at hverdict hinfo
  refine .inr ⟨hverdict, ?_⟩
  rw [cimPull, hinfo rfl]
  exact h.moved hcol.takes.le hend

theorem pullAll_moved (docs : List WsXmlNode) (h : WellFormed ctx info) {info' : CimInfo κ}
    (hleft : (pullAll dump view docs info).2 = some info') : ∃ k, Moved ctx info k info' := by
  induction docs generalizing info with
  | nil =>
    rw [pullAll, Option.some.injEq] at hleft
    exact ⟨0, hleft ▸ h.moved_zero⟩
  | cons doc docs ih =>
    obtain ⟨_, k, _, ⟨hverdict, _⟩ | ⟨hverdict, hmoved⟩⟩ := exists_cimPull_moved dump view doc h
    · simp only [pullAll, hverdict, reduceCtorEq] at hleft
    · simp only [pullAll, hverdict] at hleft
      obtain ⟨l, hmoved'⟩ := ih hmoved.wellFormed hleft
      exact ⟨k + l, hmoved.trans hmoved'⟩

theorem Takes.mem_drop_of_excluded {client : CimClientInfo} {flags : EnumFlags}
    {fragstr : Option String} {tooLong : List (CimItem κ) → Bool} {maxelements : ℤ}
    {remaining : List (κ × ℕ)} {n : ℕ}
    (h : Takes view client flags fragstr tooLong maxelements remaining n) {e : κ × ℕ}
    (he : e ∈ remaining) (hex : isExcluded view client flags e.1 = true) :
    e ∈ remaining.drop n := by
  rw [← take_append_drop n remaining] at he
  rcases mem_append.mp he with htake | hdrop
  · exact absurd hex (by simp [h.admitted e htake])
  · exact hdrop

/-- **Nobody passes an excluded result.** No number of Pulls ends an enumeration in front of one. -/
theorem pullAll_isSome_of_excluded (dump : String → CimDoc κ → ℕ) (docs : List WsXmlNode)
    (h : WellFormed ctx info) {e : κ × ℕ}
    (he : e ∈ remainingResults ctx.results info)
    (hex : isExcluded view ctx.client info.flags e.1 = true) :
    (pullAll dump view docs info).2.isSome = true := by
  induction docs generalizing info with
  | nil => rfl
  | cons doc docs ih =>
    obtain ⟨items, k, hcol, hend⟩ := exists_cimPull_moved dump view doc h
    have hmem := hcol.takes.mem_drop_of_excluded he hex
    rcases hend with ⟨_, hall⟩ | ⟨hverdict, hmoved⟩
    · -- behind the last result nothing remains
      have hlen := h.length_remaining
      rw [drop_eq_nil_of_le (by omega)] at hmem
      exact absurd hmem not_mem_nil
    · simp only [pullAll, hverdict]
      refine ih hmoved.wellFormed ?_ ?_
      · rw [hmoved.remainingResults_eq h]
        exact hmem
      · rw [hmoved.flags]
        exact hex

end Run

/-- **What progress means** for Pulls without a limit to the size: each one ends the sequence or
moves the cursor, so that one Pull more than there are results ends it, and what has been delivered
then are the results that the mode admits. -/
structure Finishes (dump : String → CimDoc κ → ℕ) (view : CimView κ) (ctx : CimContext κ)
    (info : CimInfo κ) : Prop where
  progress : ∀ docs doc info', (∀ d ∈ docs, Unlimited d) → Unlimited doc →
    (pullAll dump view docs info).2 = some info' →
      (cimPull dump view doc info').verdict = .remove ∨
        info'.index < (cimPull dump view doc info').info.index
  complete : ∀ docs, (∀ d ∈ docs, Unlimited d) → ctx.results.list.length + 1 ≤ docs.length →
    (pullAll dump view docs info).2 = none ∧
      ∃ bodies, (pullAll dump view docs info).1.map (fun doc ↦ doc.bind SoapDoc.body) =
          bodies.map some ∧
        delivered bodies = ((remainingResults ctx.results info).filter fun e ↦
          !isExcluded view ctx.client info.flags e.1).map some

def plainPull : WsXmlNode := wsXmlCreateEnvelope [] []

theorem unlimited_plainPull : Unlimited plainPull := rfl

theorem finishes_of_noneExcluded {dump : String → CimDoc κ → ℕ} {view : CimView κ}
    {ctx : CimContext κ} {info : CimInfo κ} (h : WellFormed ctx info)
    (hnone : NoneExcluded view ctx info) : Finishes dump view ctx info := by
  refine ⟨fun docs doc info' _ hdoc hleft ↦ ?_, fun docs hdocs hlen ↦ ?_⟩
  · obtain ⟨l, hmoved⟩ := pullAll_moved docs h hleft
    have hfirst := (allAdmitFirst_of_unlimited dump view ctx info'
      (forall_mem_singleton.mpr hdoc)).1
    obtain ⟨_, k, hpage, _, hverdict, hnext⟩ :=
      cimPull_spec hmoved.wellFormed (hnone.moved h hmoved) hfirst
    by_cases hend : info'.index.toNat + k = ctx.results.list.length
    · rw [decide_eq_true hend] at hverdict
      exact .inl hverdict
    have hcursor := (hnext (decide_eq_false hend)).cursor
    have hle := hpage.le
    have hpos := hpage.pos (by omega)
    rw [UInt32.lt_iff_toNat_lt, hcursor]
    omega
  · obtain ⟨bodies, hb⟩ := exists_answered docs h hnone
      (allAdmitFirst_of_unlimited dump view ctx info hdocs)
    obtain ⟨b, hmem, hend⟩ := hb.exists_endOfSequence (by omega)
    refine ⟨hb.finished b hmem hend, bodies, hb.responses, ?_⟩
    have hall := hb.session.allItems_eq_of_last (mem_map_of_mem hmem) hend
    rw [delivered, hall, numbered, ← map_drop, ← h.remainingResults_eq, filter_eq_self.mpr]
    exact fun e he ↦ by simp [hnone e he]

theorem noneExcluded_iff {view : CimView κ} {ctx : CimContext κ} {info : CimInfo κ}
    (h : WellFormed ctx info) :
    NoneExcluded view ctx info ↔
      (info.flags.polyNone = true → ∀ inst ∈ ctx.results.list.drop info.index.toNat,
        ctx.client.requestedClass = some (view.className inst)) := by
  have hfst : (remainingResults ctx.results info).map Prod.fst =
      ctx.results.list.drop info.index.toNat := by
    rw [h.remainingResults_eq, map_drop, zipIdx_map_fst]
  rw [NoneExcluded, ← hfst, forall_mem_map]
  cases hpoly : info.flags.polyNone <;> simp [isExcluded, hpoly]

/-- **When an enumeration finishes.** The Pulls on a context finish it exactly if the mode is not
`None` or the results that remain are all of the class that was asked for. -/
theorem finishes_iff {dump : String → CimDoc κ → ℕ} {view : CimView κ} {ctx : CimContext κ}
    {info : CimInfo κ} (h : WellFormed ctx info) :
    Finishes dump view ctx info ↔
      (info.flags.polyNone = true → ∀ inst ∈ ctx.results.list.drop info.index.toNat,
        ctx.client.requestedClass = some (view.className inst)) := by
  rw [← noneExcluded_iff h]
  -- With an excluded result ahead, not even as many Pulls as progress would need end the sequence.
  refine ⟨fun hfin e he ↦ Bool.eq_false_of_not_eq_true fun hex ↦ ?_, finishes_of_noneExcluded h⟩
  have hsome := pullAll_isSome_of_excluded dump
    (replicate (ctx.results.list.length + 1) plainPull) h he hex
  rw [(hfin.complete _ (fun d hd ↦ eq_of_mem_replicate hd ▸ unlimited_plainPull)
    (by rw [length_replicate])).1] at hsome
  exact Bool.false_ne_true hsome

def diskContext (disks : CimResults String) : CimContext String :=
  ⟨cimClientOf {} optimizedEnumerate [], disks⟩

theorem finishes_two_disks :
    Finishes (diskLength 400) diskView (diskContext twoDisks)
      { diskInfo with totalItems := 2, appEnumContext := some (diskContext twoDisks) } := by
  have hwf : WellFormed (diskContext twoDisks)
      { diskInfo with totalItems := 2, appEnumContext := some (diskContext twoDisks) } :=
    ⟨rfl, rfl, rfl, .inl (by decide)⟩
  exact (finishes_iff hwf).mpr fun hpoly ↦ absurd hpoly (by decide)

def subclassDisk : CimResults String := ⟨["LSI_DiskDrive"], by decide⟩

def classView : CimView String := { diskView with className := fun name ↦ name }

def nonPolymorphicEnumerate : WsXmlNode :=
  diskRequest "/Enumerate" "uuid:1" []
    [.elem xmlNsEnumeration wsenumEnumerate
      [.elem xmlNsCimBinding wsmbPolymorphismMode [.text wsmbNone]]]

/-- A Pull on an enumeration without polymorphism delivers nothing, leaves the cursor where it was,
and promises more. -/
theorem subclass_blocks_enumeration :
    ∃ info, cimStartEnumeration (diskCimom subclassDisk) {} nonPolymorphicEnumerate diskInfo =
        .value (.ok info) ∧
      info.index < info.totalItems ∧ Unlimited (diskPull "uuid:3" [] []) ∧
      (cimPull (diskLength 400) classView (diskPull "uuid:3" [] []) info).verdict = .unlock ∧
      (cimPull (diskLength 400) classView (diskPull "uuid:3" [] []) info).info.index = info.index ∧
      ∃ header, (cimPull (diskLength 400) classView (diskPull "uuid:3" [] []) info).doc =
        some (.response header (pullBody "uuid:2" [] false)) :=
  ⟨_, rfl, by decide, rfl, rfl, rfl, _, rfl⟩

end Openwsman
