import Openwsman.Cim.Query
import Openwsman.Dispatcher.Operation

/-!
# Collecting the items of a response

`cim_get_enum_items` fills the `Items` element of a response from the results of an enumeration,
starting at the cursor of the context. It stops when the results or the elements asked for run out,
when the envelope gets longer than the client allows, or at a result that the polymorphism mode
excludes. `collectItems_spec` says how a collection ends.

How an instance or its endpoint reference is written as XML is left to a parameter (`CimView`). A
child of an `Items` element remembers the result it was made from and its position
(`CimItem.source`), which no function reads.
-/

namespace Openwsman

open Bool List

variable {κ : Type}

structure CimContext (κ : Type) where
  client : CimClientInfo
  results : CimResults κ

/-- A child of an `Items` element, with the result and the position that it was made from. -/
structure CimItem (κ : Type) where
  source : Option (κ × ℕ)
  node : WsXmlNode

abbrev CimInfo (κ : Type) := WsEnumerateInfo (CimContext κ) (CimItem κ)

abbrev CimDoc (κ : Type) := SoapDoc (EnumResponse (CimItem κ))

/-- The class of an instance, and how it is written: as an element (`instance2xml`), as the parts
that a fragment path selects, and as an endpoint reference (`cim_add_epr`). -/
structure CimView (κ : Type) where
  className : κ → String
  instance2xml : CimClientInfo → EnumFlags → κ → WsXmlNode
  fragment2xml : CimClientInfo → EnumFlags → String → κ → List WsXmlNode
  epr : CimClientInfo → EnumFlags → κ → WsXmlNode

/-! ## One result -/

section Item

variable (view : CimView κ) (client : CimClientInfo) (flags : EnumFlags) (fragstr : Option String)

def isExcluded (inst : κ) : Bool :=
  flags.polyNone && client.requestedClass != some (view.className inst)

def cimGetElementAt (e : κ × ℕ) : Bool × List (CimItem κ) :=
  match isExcluded view client flags e.1, fragstr with
  | true, none => (false, [])
  | true, some _ => (false, [⟨none, .elem xmlNsWsMan wsmXmlFragment []⟩])
  | false, none => (true, [⟨some e, view.instance2xml client flags e.1⟩])
  | false, some f =>
    (true,
      [⟨some e, .elem xmlNsWsMan wsmXmlFragment (view.fragment2xml client flags f e.1)⟩])

def cimGetEprAt (e : κ × ℕ) : Bool × List (CimItem κ) :=
  if isExcluded view client flags e.1 then (false, [])
  else (true, [⟨some e, view.epr client flags e.1⟩])

def cimGetEprObjAt (e : κ × ℕ) : Bool × List (CimItem κ) :=
  if isExcluded view client flags e.1 then (false, [])
  else
    (true, [⟨some e, .elem xmlNsWsMan wsmItem
      [view.instance2xml client flags e.1, view.epr client flags e.1]⟩])

def cimGetItemAt (e : κ × ℕ) : Bool × List (CimItem κ) :=
  if flags.epr then cimGetEprAt view client flags e
  else if flags.objEpr then cimGetEprObjAt view client flags e
  else cimGetElementAt view client flags fragstr e

def itemNode (inst : κ) : WsXmlNode :=
  if flags.epr then view.epr client flags inst
  else if flags.objEpr then
    .elem xmlNsWsMan wsmItem [view.instance2xml client flags inst, view.epr client flags inst]
  else
    match fragstr with
    | none => view.instance2xml client flags inst
    | some f => .elem xmlNsWsMan wsmXmlFragment (view.fragment2xml client flags f inst)

def itemOf (e : κ × ℕ) : CimItem κ := ⟨some e, itemNode view client flags fragstr e.1⟩

def leftover : List (CimItem κ) :=
  if !flags.epr && !flags.objEpr && fragstr.isSome then
    [⟨none, .elem xmlNsWsMan wsmXmlFragment []⟩]
  else []

theorem cimGetItemAt_eq (e : κ × ℕ) :
    cimGetItemAt view client flags fragstr e =
      if isExcluded view client flags e.1 then (false, leftover flags fragstr)
      else (true, [itemOf view client flags fragstr e]) := by
  rw [cimGetItemAt, itemOf, leftover]
  unfold itemNode
  cases flags.epr with
  | true => rfl
  | false =>
    cases flags.objEpr with
    | true => rfl
    | false =>
      change cimGetElementAt view client flags fragstr e = _
      unfold cimGetElementAt
      cases isExcluded view client flags e.1 <;> cases fragstr <;> rfl

theorem source_leftover {x : CimItem κ} (h : x ∈ leftover flags fragstr) : x.source = none := by
  rw [leftover] at h
  split at h
  · rw [mem_singleton.mp h]
  · exact absurd h not_mem_nil

theorem isExcluded_of_polyNone_eq_false {inst : κ} (h : flags.polyNone = false) :
    isExcluded view client flags inst = false := by
  rw [isExcluded, h, Bool.false_and]

end Item

/-! ## The loop -/

def collectItems (get : κ × ℕ → Bool × List (CimItem κ)) (tooLong : List (CimItem κ) → Bool) :
    List (κ × ℕ) → ℕ → ℤ → List (CimItem κ) → List (CimItem κ) × ℕ
  | [], count, _, items => (items, count)
  | e :: rest, count, maxelements, items =>
    let (c, added) := get e
    if !c then (items ++ added, count)
    else if tooLong (items ++ added) then
      -- with a partial result the last child is removed; a first item stays
      (if 0 < count then (items ++ added).dropLast else items ++ added, count)
    else if maxelements - 1 == 0 then (items ++ added, count + 1)
    else collectItems get tooLong rest (count + 1) (maxelements - 1) (items ++ added)

/-! ## What a collection takes -/

section Takes

variable (view : CimView κ) (client : CimClientInfo) (flags : EnumFlags) (fragstr : Option String)

/-- As many elements as were asked for. A number that is not positive stands for any. -/
def reachesMax (maxelements : ℤ) (n : ℕ) : Bool := decide (0 < maxelements ∧ (n : ℤ) = maxelements)

/-- **The number of results that a collection takes**: as many as were asked for, as the mode admits
in a row, and as fit into the envelope one after the other. -/
structure Takes (tooLong : List (CimItem κ) → Bool) (maxelements : ℤ) (remaining : List (κ × ℕ))
    (n : ℕ) : Prop where
  le : n ≤ remaining.length
  elements : 0 < maxelements → (n : ℤ) ≤ maxelements
  admitted : ∀ e ∈ remaining.take n, isExcluded view client flags e.1 = false
  fits : ∀ m, 0 < m → m ≤ n →
    tooLong ((remaining.take m).map (itemOf view client flags fragstr)) = false
  ends : reachesMax maxelements n = true ∨ ∀ e, remaining[n]? = some e →
    isExcluded view client flags e.1 = true ∨
      tooLong ((remaining.take (n + 1)).map (itemOf view client flags fragstr)) = true

/-- The items of a page of `n` results. If the collection looks at the result behind them and it is
excluded, then what it leaves is in the page, too. -/
def pageItems (maxelements : ℤ) (remaining : List (κ × ℕ)) (n : ℕ) : List (CimItem κ) :=
  (remaining.take n).map (itemOf view client flags fragstr) ++
    if !reachesMax maxelements n && remaining[n]?.any fun e ↦ isExcluded view client flags e.1 then
      leftover flags fragstr
    else []

variable {view client flags fragstr} {tooLong : List (CimItem κ) → Bool} {maxelements : ℤ}
  {e : κ × ℕ} {remaining rest : List (κ × ℕ)} {n : ℕ}

theorem reachesMax_zero (maxelements : ℤ) : reachesMax maxelements 0 = false := by
  rw [reachesMax, decide_eq_false_iff_not]
  omega

theorem reachesMax_succ (h : maxelements ≠ 1) (n : ℕ) :
    reachesMax maxelements (n + 1) = reachesMax (maxelements - 1) n := by
  rw [reachesMax, reachesMax, decide_eq_decide]
  omega

theorem Takes.unique {n' : ℕ} (h : Takes view client flags fragstr tooLong maxelements remaining n)
    (h' : Takes view client flags fragstr tooLong maxelements remaining n') : n = n' := by
  -- a larger number contradicts the reason to end at the smaller one
  have hle : ∀ {i j : ℕ}, Takes view client flags fragstr tooLong maxelements remaining i →
      Takes view client flags fragstr tooLong maxelements remaining j → j ≤ i := by
    intro i j hi hj
    by_contra hlt
    rcases hi.ends with hmax | hnext
    · rw [reachesMax, decide_eq_true_iff] at hmax
      have := hj.elements hmax.1
      omega
    · have hlen : i < remaining.length := by have := hj.le; omega
      rcases hnext _ (getElem?_eq_getElem hlen) with hex | hlong
      · have hmem : remaining[i] ∈ remaining.take j :=
          mem_take_iff_getElem.mpr ⟨i, by omega, rfl⟩
        exact absurd hex (by simp [hj.admitted _ hmem])
      · have hfits := hj.fits (i + 1) (by omega) (by omega)
        exact absurd (hfits.symm.trans hlong) false_ne_true
  exact Nat.le_antisymm (hle h' h) (hle h h')

theorem takes_nil (tooLong : List (CimItem κ) → Bool) (maxelements : ℤ) :
    Takes view client flags fragstr tooLong maxelements [] 0 := by
  refine ⟨Nat.le_refl 0, fun h ↦ h.le, ?_, fun m hm hle ↦ ?_, .inr ?_⟩
  · simp
  · omega
  · simp

theorem takes_zero (rest : List (κ × ℕ))
    (h : isExcluded view client flags e.1 = true ∨
      tooLong [itemOf view client flags fragstr e] = true) :
    Takes view client flags fragstr tooLong maxelements (e :: rest) 0 := by
  refine ⟨Nat.zero_le _, fun h ↦ h.le, ?_, fun m hm hle ↦ ?_, .inr ?_⟩
  · simp
  · omega
  · simpa using h

theorem takes_one (rest : List (κ × ℕ)) (hadm : isExcluded view client flags e.1 = false)
    (hfits : tooLong [itemOf view client flags fragstr e] = false) :
    Takes view client flags fragstr tooLong 1 (e :: rest) 1 := by
  refine ⟨by simp, fun _ ↦ le_refl 1, by simpa using hadm, fun m hm hle ↦ ?_, .inl rfl⟩
  obtain rfl : m = 1 := by omega
  simpa using hfits

theorem Takes.cons (hadm : isExcluded view client flags e.1 = false)
    (hfits : tooLong [itemOf view client flags fragstr e] = false) (hmax : maxelements ≠ 1)
    (h : Takes view client flags fragstr (fun l ↦ tooLong (itemOf view client flags fragstr e :: l))
      (maxelements - 1) rest n) :
    Takes view client flags fragstr tooLong maxelements (e :: rest) (n + 1) := by
  refine ⟨Nat.succ_le_succ h.le, fun hpos ↦ ?_, ?_, fun m hm hle ↦ ?_, ?_⟩
  · have := h.elements (by omega)
    omega
  · rw [take_succ_cons]
    exact forall_mem_cons.mpr ⟨hadm, h.admitted⟩
  · obtain ⟨m, rfl⟩ := Nat.exists_eq_add_one_of_ne_zero hm.ne'
    rw [take_succ_cons, map_cons]
    rcases Nat.eq_zero_or_pos m with rfl | hm
    · simpa using hfits
    · exact h.fits m hm (by omega)
  · rw [reachesMax_succ hmax]
    simpa using h.ends

theorem pageItems_nil (maxelements : ℤ) (n : ℕ) :
    pageItems view client flags fragstr maxelements [] n = [] := by
  simp [pageItems]

theorem pageItems_zero (maxelements : ℤ) (e : κ × ℕ) (rest : List (κ × ℕ)) :
    pageItems view client flags fragstr maxelements (e :: rest) 0 =
      if isExcluded view client flags e.1 then leftover flags fragstr else [] := by
  simp [pageItems, reachesMax_zero]

theorem pageItems_one (e : κ × ℕ) (rest : List (κ × ℕ)) :
    pageItems view client flags fragstr 1 (e :: rest) 1 = [itemOf view client flags fragstr e] := by
  simp [pageItems, reachesMax]

theorem pageItems_cons (hmax : maxelements ≠ 1) (e : κ × ℕ) (rest : List (κ × ℕ)) (n : ℕ) :
    pageItems view client flags fragstr maxelements (e :: rest) (n + 1) =
      itemOf view client flags fragstr e ::
        pageItems view client flags fragstr (maxelements - 1) rest n := by
  simp [pageItems, reachesMax_succ hmax]

variable (view client flags fragstr) in
theorem pageItems_cases (maxelements : ℤ) (remaining : List (κ × ℕ)) (n : ℕ) :
    ∃ extra, pageItems view client flags fragstr maxelements remaining n =
        (remaining.take n).map (itemOf view client flags fragstr) ++ extra ∧
      (extra = [] ∨ (∃ e ∈ remaining, isExcluded view client flags e.1 = true) ∧
        extra = leftover flags fragstr) := by
  rw [pageItems]
  split
  · rename_i hleft
    rw [and_eq_true, Option.any_eq_true] at hleft
    obtain ⟨_, e, he, hex⟩ := hleft
    exact ⟨_, rfl, .inr ⟨⟨e, mem_of_getElem? he, hex⟩, rfl⟩⟩
  · exact ⟨_, rfl, .inl rfl⟩

end Takes

theorem collectItems_of_pos (view : CimView κ) (client : CimClientInfo) (flags : EnumFlags)
    (fragstr : Option String) (tooLong : List (CimItem κ) → Bool) (rest : List (κ × ℕ)) {count : ℕ}
    (hcount : 0 < count) (maxelements : ℤ) (items : List (CimItem κ)) :
    ∃ n, Takes view client flags fragstr (fun l ↦ tooLong (items ++ l)) maxelements rest n ∧
      collectItems (cimGetItemAt view client flags fragstr) tooLong rest count maxelements items =
        (items ++ pageItems view client flags fragstr maxelements rest n, count + n) := by
  induction rest generalizing count maxelements items with
  | nil => exact ⟨0, takes_nil _ _, by simp [collectItems, pageItems_nil]⟩
  | cons e rest ih =>
    rw [collectItems, cimGetItemAt_eq]
    by_cases hex : isExcluded view client flags e.1 = true
    · exact ⟨0, takes_zero rest (.inl hex), by simp [hex, pageItems_zero]⟩
    have hadm : isExcluded view client flags e.1 = false := Bool.eq_false_of_not_eq_true hex
    rw [if_neg hex]
    simp only [Bool.not_true, Bool.false_eq_true, if_false, if_pos hcount, dropLast_concat]
    by_cases hlong : tooLong (items ++ [itemOf view client flags fragstr e]) = true
    · exact ⟨0, takes_zero rest (.inr hlong), by simp [hlong, hadm, pageItems_zero]⟩
    have hfits := Bool.eq_false_of_not_eq_true hlong
    rw [if_neg hlong]
    -- The count that is left goes down with every result, and the loop ends at one.
    by_cases hmax : maxelements = 1
    · subst hmax
      exact ⟨1, takes_one rest hadm hfits, by simp [pageItems_one]⟩
    rw [if_neg (by rw [beq_iff_eq]; omega)]
    obtain ⟨n, htakes, heq⟩ := ih (Nat.succ_pos count) (maxelements - 1)
      (items ++ [itemOf view client flags fragstr e])
    simp only [append_assoc, singleton_append] at htakes
    refine ⟨n + 1, htakes.cons hadm hfits hmax, ?_⟩
    rw [heq, pageItems_cons hmax]
    simp [Nat.add_assoc, Nat.add_comm 1]

inductive Collection (view : CimView κ) (client : CimClientInfo) (flags : EnumFlags)
    (fragstr : Option String) (tooLong : List (CimItem κ) → Bool) (maxelements : ℤ) :
    List (κ × ℕ) → List (CimItem κ) → ℕ → Prop where
  | stuck {e : κ × ℕ} {rest : List (κ × ℕ)} (excluded : isExcluded view client flags e.1 = true) :
      Collection view client flags fragstr tooLong maxelements (e :: rest)
        (leftover flags fragstr) 0
  | oversized {e : κ × ℕ} {rest : List (κ × ℕ)}
      (admitted : isExcluded view client flags e.1 = false)
      (long : tooLong [itemOf view client flags fragstr e] = true) :
      Collection view client flags fragstr tooLong maxelements (e :: rest)
        [itemOf view client flags fragstr e] 0
  | page {remaining : List (κ × ℕ)} {n : ℕ}
      (takes : Takes view client flags fragstr tooLong maxelements remaining n)
      (pos : remaining ≠ [] → 0 < n) :
      Collection view client flags fragstr tooLong maxelements remaining
        (pageItems view client flags fragstr maxelements remaining n) n

theorem Collection.takes {view : CimView κ} {client : CimClientInfo} {flags : EnumFlags}
    {fragstr : Option String} {tooLong : List (CimItem κ) → Bool} {maxelements : ℤ}
    {remaining : List (κ × ℕ)} {items : List (CimItem κ)} {n : ℕ}
    (h : Collection view client flags fragstr tooLong maxelements remaining items n) :
    Takes view client flags fragstr tooLong maxelements remaining n := by
  cases h with
  | stuck hex => exact takes_zero _ (.inl hex)
  | oversized _ hlong => exact takes_zero _ (.inr hlong)
  | page htakes => exact htakes

theorem collectItems_spec (view : CimView κ) (client : CimClientInfo) (flags : EnumFlags)
    (fragstr : Option String) (tooLong : List (CimItem κ) → Bool) (remaining : List (κ × ℕ))
    (maxelements : ℤ) :
    let r := collectItems (cimGetItemAt view client flags fragstr) tooLong remaining 0
      maxelements []
    Collection view client flags fragstr tooLong maxelements remaining r.1 r.2 := by
  cases remaining with
  | nil =>
    have hpage : Collection view client flags fragstr tooLong maxelements [] _ 0 :=
      .page (takes_nil tooLong maxelements) (absurd rfl)
    rwa [pageItems_nil] at hpage
  | cons e rest =>
    rw [collectItems, cimGetItemAt_eq]
    by_cases hex : isExcluded view client flags e.1 = true
    · simpa [hex] using Collection.stuck hex
    have hadm : isExcluded view client flags e.1 = false := Bool.eq_false_of_not_eq_true hex
    rw [if_neg hex]
    simp only [Bool.not_true, Bool.false_eq_true, if_false, nil_append, Nat.lt_irrefl, Nat.zero_add]
    by_cases hlong : tooLong [itemOf view client flags fragstr e] = true
    · rw [if_pos hlong]
      exact .oversized hadm hlong
    have hfits := Bool.eq_false_of_not_eq_true hlong
    rw [if_neg hlong]
    by_cases hmax : maxelements = 1
    · subst hmax
      rw [if_pos (by rfl), ← pageItems_one e rest]
      exact .page (takes_one rest hadm hfits) fun _ ↦ Nat.one_pos
    · rw [if_neg (by rw [beq_iff_eq]; omega)]
      obtain ⟨n, htakes, heq⟩ := collectItems_of_pos view client flags fragstr
        tooLong rest Nat.one_pos (maxelements - 1) [itemOf view client flags fragstr e]
      rw [heq, Nat.add_comm 1, singleton_append, ← pageItems_cons hmax]
      exact .page (htakes.cons hadm hfits hmax) fun _ ↦ Nat.succ_pos n

/-! ## The function -/

def itemsDoc (header : List WsXmlNode) (name ns : String) (items : List (CimItem κ)) : CimDoc κ :=
  .response header ⟨name, [.items ns items]⟩

structure CollectLimits where
  maxelements : ℤ
  maxsize : ℕ

/-- The number that the loop counts down from; it never reaches zero from -1. -/
def CollectLimits.countdown (limits : CollectLimits) : ℤ :=
  if limits.maxelements ≤ 0 then -1 else limits.maxelements

def remainingResults (results : CimResults κ) (info : CimInfo κ) : List (κ × ℕ) :=
  (results.list.zipIdx.take info.totalItems.toNat).drop info.index.toNat

def collectTooLong (dump : String → CimDoc κ → ℕ) (info : CimInfo κ) (header : List WsXmlNode)
    (name ns : String) (limits : CollectLimits) (items : List (CimItem κ)) : Bool :=
  checkEnvelopeSize dump (itemsDoc header name ns items) limits.maxsize info.encoding

/-- The cursor is left one below the number of results passed, on an `unsigned int`. -/
def cimGetEnumItems (dump : String → CimDoc κ → ℕ) (view : CimView κ) (ctx : CimContext κ)
    (fragstr : Option String) (info : CimInfo κ) (header : List WsXmlNode) (name ns : String)
    (limits : CollectLimits) : CimInfo κ :=
  if info.totalItems > 0 then
    let r := collectItems (cimGetItemAt view ctx.client info.flags fragstr)
      (collectTooLong dump info header name ns limits) (remainingResults ctx.results info) 0
      limits.countdown []
    { info with
      index := info.index + UInt32.ofNat r.2 - 1
      pullResultPtr := some (itemsDoc header name ns r.1) }
  else { info with pullResultPtr := some (itemsDoc header name ns []) }

theorem remainingResults_of_total_eq_zero {results : CimResults κ} {info : CimInfo κ}
    (h : info.totalItems = 0) : remainingResults results info = [] := by
  rw [remainingResults, h]
  simp

theorem cimGetEnumItems_spec (dump : String → CimDoc κ → ℕ) (view : CimView κ)
    (ctx : CimContext κ) (fragstr : Option String) (info : CimInfo κ) (header : List WsXmlNode)
    (name ns : String) (limits : CollectLimits) :
    ∃ items k, Collection view ctx.client info.flags fragstr
        (collectTooLong dump info header name ns limits) limits.countdown
        (remainingResults ctx.results info) items k ∧
      cimGetEnumItems dump view ctx fragstr info header name ns limits =
        { info with
          index := if info.totalItems = 0 then info.index else info.index + UInt32.ofNat k - 1
          pullResultPtr := some (itemsDoc header name ns items) } := by
  refine ⟨_, _, collectItems_spec view ctx.client info.flags fragstr
    (collectTooLong dump info header name ns limits) _ limits.countdown, ?_⟩
  rw [cimGetEnumItems]
  by_cases hzero : info.totalItems = 0
  · rw [if_neg (by simp [hzero]), if_pos hzero, remainingResults_of_total_eq_zero hzero,
      collectItems]
  · rw [if_pos (UInt32.pos_iff_ne_zero.mpr hzero), if_neg hzero]

end Openwsman
