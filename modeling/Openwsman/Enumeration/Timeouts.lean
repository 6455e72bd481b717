import Mathlib.Data.String.Basic
import Openwsman.Dispatcher.Release
import Openwsman.Lib.KeySort

/-!
# The timeout manager

A pass of `wsman_timeouts_manager` has two loops. The first one runs under the lock of the table: it
scans the contexts, takes those that have timed out from the table, and appends them to a list. The
second one consumes the list without the lock: it calls the release procedure of a context, if it
has one, and destroys the context.

The first loop deletes from the hash that it scans. The scan has the next node in hand before a node
is deleted, so it visits every context that was in the table at its start.

The times are `unsigned long`, and the sum of a time stamp and the idle timeout wraps around. A
configured timeout of `-1` is stored as the largest such number.
-/

namespace Openwsman

open List KeyedTable KeySort

variable {φ χ ι : Type}

abbrev ContextTable (φ χ ι : Type) := Table fun c : EnumContext φ χ ι ↦ c.info.enumId

def ContextTable.infos (t : ContextTable φ χ ι) : EnumTable χ ι where
  entries := t.entries.map EnumContext.info
  nodup := by
    rw [List.map_map]
    exact t.nodup

/-! ## The pass -/

inductive TimeoutCall (φ χ ι : Type) where
  | release (proc : φ) (enumInfo : WsEnumerateInfo χ ι)
  | destroy (enumInfo : WsEnumerateInfo χ ι)

def TimeoutCall.enumId : TimeoutCall φ χ ι → String
  | .release _ enumInfo => enumInfo.enumId
  | .destroy enumInfo => enumInfo.enumId

def scanStep (aeit mytime : ℕ) (acc : ContextTable φ χ ι × List (EnumContext φ χ ι))
    (c : EnumContext φ χ ι) : ContextTable φ χ ι × List (EnumContext φ χ ι) :=
  if c.info.flags.inWork then acc
  else if (c.info.timeStamp + aeit) % 2 ^ 64 > mytime &&
      (c.info.expires == 0 || c.info.expires > mytime) then acc
  else (acc.1.erase c.info.enumId, acc.2 ++ [c])

def scanExpired (enuminfos : ContextTable φ χ ι) (enumIdleTimeout mytime : ℕ) :
    ContextTable φ χ ι × List (EnumContext φ χ ι) :=
  if enumIdleTimeout == 0 then (enuminfos, [])
  else enuminfos.entries.foldl (scanStep enumIdleTimeout mytime) (enuminfos, [])

def releaseExpired : List (EnumContext φ χ ι) → List (TimeoutCall φ χ ι)
  | [] => []
  | c :: list =>
    (match c.releaseproc with
      | some proc => [.release proc c.info]
      | none => []) ++ .destroy c.info :: releaseExpired list

def wsmanTimeoutsManager (enuminfos : ContextTable φ χ ι) (enumIdleTimeout mytime : ℕ) :
    ContextTable φ χ ι × List (TimeoutCall φ χ ι) :=
  let (enuminfos, list) := scanExpired enuminfos enumIdleTimeout mytime
  (enuminfos, releaseExpired list)

/-! ## What the scan takes -/

variable (aeit mytime : ℕ)

theorem scanStep_eq (acc : ContextTable φ χ ι × List (EnumContext φ χ ι)) (c : EnumContext φ χ ι) :
    scanStep aeit mytime acc c =
      if isExpired aeit mytime c.info then (acc.1.erase c.info.enumId, acc.2 ++ [c]) else acc := by
  rw [scanStep, isExpired]
  cases c.info.flags.inWork with
  | true => rfl
  | false =>
    cases hkeep : decide ((c.info.timeStamp + aeit) % 2 ^ 64 > mytime) &&
        (c.info.expires == 0 || decide (c.info.expires > mytime)) with
    | true => simp
    | false => simp

theorem foldl_scanStep_snd (l : List (EnumContext φ χ ι))
    (acc : ContextTable φ χ ι × List (EnumContext φ χ ι)) :
    (l.foldl (scanStep aeit mytime) acc).2 =
      acc.2 ++ l.filter fun c ↦ isExpired aeit mytime c.info := by
  induction l generalizing acc with
  | nil => simp
  | cons c l ih =>
    rw [foldl_cons, ih, scanStep_eq]
    cases hexp : isExpired aeit mytime c.info <;> simp [hexp]

theorem lookup_foldl_scanStep (l : List (EnumContext φ χ ι))
    (acc : ContextTable φ χ ι × List (EnumContext φ χ ι)) (k : String) :
    (l.foldl (scanStep aeit mytime) acc).1.lookup k =
      if ∃ c ∈ l, isExpired aeit mytime c.info = true ∧ c.info.enumId = k then none
      else acc.1.lookup k := by
  induction l generalizing acc with
  | nil => simp
  | cons c l ih =>
    rw [foldl_cons, ih, scanStep_eq]
    simp only [exists_mem_cons_iff]
    cases hexp : isExpired aeit mytime c.info with
    | false => simp
    | true =>
      by_cases hk : c.info.enumId = k
      · simp [← hk]
      · simp [Table.lookup_erase_of_ne hk, hk]

variable (t : ContextTable φ χ ι)

theorem lookup_scanExpired {aeit : ℕ} (haeit : 0 < aeit) (mytime : ℕ) (k : String) :
    (scanExpired t aeit mytime).1.lookup k =
      (t.lookup k).filter fun c ↦ !isExpired aeit mytime c.info := by
  rw [scanExpired, if_neg (by simp [haeit.ne']), lookup_foldl_scanStep]
  cases hc : t.lookup k with
  | none => simp
  | some c =>
    obtain ⟨hmem, hk⟩ := Table.lookup_eq_some_iff.mp hc
    -- the only context with this id is the one that the lookup finds
    have honly : (∃ d ∈ t.entries, isExpired aeit mytime d.info = true ∧ d.info.enumId = k) ↔
        isExpired aeit mytime c.info = true := by
      constructor
      · rintro ⟨d, hd, hexp, hdk⟩
        rwa [Option.some.inj (hc.symm.trans (Table.lookup_eq_some_iff.mpr ⟨hd, hdk⟩))]
      · intro hexp
        exact ⟨c, hmem, hexp, hk⟩
    rw [if_congr honly rfl rfl]
    cases hexp : isExpired aeit mytime c.info <;> simp [Option.filter, hexp]

theorem scanExpired_snd {aeit : ℕ} (haeit : 0 < aeit) (mytime : ℕ) :
    (scanExpired t aeit mytime).2 = t.entries.filter fun c ↦ isExpired aeit mytime c.info := by
  rw [scanExpired, if_neg (by simp [haeit.ne']), foldl_scanStep_snd, nil_append]

theorem scanExpired_infos {aeit : ℕ} (haeit : 0 < aeit) (mytime : ℕ) :
    (scanExpired t aeit mytime).2.map EnumContext.info =
        (wsmanGetExpiredEnuminfos t.infos aeit mytime).1 ∧
      ∀ k, (wsmanGetExpiredEnuminfos t.infos aeit mytime).2.lookup k =
        ((scanExpired t aeit mytime).1.lookup k).map EnumContext.info := by
  have hlookup : ∀ k, t.infos.lookup k = (t.lookup k).map EnumContext.info := by
    intro k
    rw [Table.lookup, ContextTable.infos, find?_map]
    rfl
  rw [wsmanGetExpiredEnuminfos, if_neg (by simp [haeit.ne'])]
  constructor
  · rw [scanExpired_snd t haeit, ContextTable.infos, filter_map]
    rfl
  · intro k
    rw [lookup_scanExpired t haeit, Table.lookup_filter, hlookup, Option.filter_map]
    rfl

/-! ## What a pass is for -/

/-- Nobody works on the context, and it has been idle for at least the timeout, or it has an expiry
and that has come. -/
def TimedOut (aeit mytime : ℕ) (info : WsEnumerateInfo χ ι) : Prop :=
  info.flags.inWork = false ∧
    (info.timeStamp + aeit ≤ mytime ∨ (info.expires ≠ 0 ∧ info.expires ≤ mytime))

instance (aeit mytime : ℕ) (info : WsEnumerateInfo χ ι) : Decidable (TimedOut aeit mytime info) :=
  inferInstanceAs (Decidable (_ ∧ (_ ∨ (_ ∧ _))))

def callsFor (c : EnumContext φ χ ι) : List (TimeoutCall φ χ ι) :=
  (c.releaseproc.map fun proc ↦ .release proc c.info).toList ++ [.destroy c.info]

structure PassCorrect (t : ContextTable φ χ ι) (aeit mytime : ℕ) : Prop where
  lookup : ∀ k, (wsmanTimeoutsManager t aeit mytime).1.lookup k =
    (t.lookup k).filter fun c ↦ ¬TimedOut aeit mytime c.info
  calls : ∀ k, withKey TimeoutCall.enumId k (wsmanTimeoutsManager t aeit mytime).2 =
    ((t.lookup k).filter fun c ↦ TimedOut aeit mytime c.info).elim [] callsFor

theorem releaseExpired_eq (list : List (EnumContext φ χ ι)) :
    releaseExpired list = list.flatMap callsFor := by
  induction list with
  | nil => rfl
  | cons c list ih =>
    rw [releaseExpired, ih, flatMap_cons, callsFor]
    cases c.releaseproc <;> rfl

theorem enumId_of_mem_callsFor {c : EnumContext φ χ ι} {call : TimeoutCall φ χ ι}
    (h : call ∈ callsFor c) : call.enumId = c.info.enumId := by
  rw [callsFor, mem_append, Option.mem_toList, Option.map_eq_some_iff, mem_singleton] at h
  rcases h with ⟨proc, -, rfl⟩ | rfl <;> rfl

theorem withKey_releaseExpired (k : String) :
    withKey TimeoutCall.enumId k (releaseExpired t.entries) = (t.lookup k).elim [] callsFor := by
  rw [releaseExpired_eq]
  cases hc : t.lookup k with
  | none =>
    rw [Option.elim_none, withKey_eq_nil_iff]
    intro call hcall hk
    obtain ⟨c, hmem, hof⟩ := mem_flatMap.mp hcall
    exact Table.lookup_eq_none_iff.mp hc c hmem ((enumId_of_mem_callsFor hof).symm.trans hk)
  | some c =>
    obtain ⟨hmem, rfl⟩ := Table.lookup_eq_some_iff.mp hc
    exact withKey_flatMap (fun d _ call hcall ↦ enumId_of_mem_callsFor hcall) t.nodup hmem

theorem wsmanTimeoutsManager_spec {aeit : ℕ} (haeit : 0 < aeit) (mytime : ℕ) (k : String) :
    (wsmanTimeoutsManager t aeit mytime).1.lookup k =
        (t.lookup k).filter (fun c ↦ !isExpired aeit mytime c.info) ∧
      withKey TimeoutCall.enumId k (wsmanTimeoutsManager t aeit mytime).2 =
        ((t.lookup k).filter fun c ↦ isExpired aeit mytime c.info).elim [] callsFor := by
  refine ⟨lookup_scanExpired t haeit mytime k, ?_⟩
  have hcalls := withKey_releaseExpired (t.filter fun c ↦ isExpired aeit mytime c.info) k
  rw [Table.lookup_filter] at hcalls
  rw [← hcalls, wsmanTimeoutsManager]
  dsimp only
  rw [scanExpired_snd t haeit]
  rfl

/-- A context whose last possible idle moment lies beyond the largest time and comes out as a moment
that has passed, while nothing else speaks for removing it. -/
def WrapsAround (aeit mytime : ℕ) (info : WsEnumerateInfo χ ι) : Prop :=
  ¬TimedOut aeit mytime info ∧ info.flags.inWork = false ∧
    (info.timeStamp + aeit) % 2 ^ 64 ≤ mytime

instance (aeit mytime : ℕ) (info : WsEnumerateInfo χ ι) :
    Decidable (WrapsAround aeit mytime info) :=
  inferInstanceAs (Decidable (¬_ ∧ _ ∧ _))

theorem isExpired_iff (info : WsEnumerateInfo χ ι) :
    isExpired aeit mytime info = true ↔
      TimedOut aeit mytime info ∨ WrapsAround aeit mytime info := by
  have hmod : (info.timeStamp + aeit) % 2 ^ 64 ≤ info.timeStamp + aeit := Nat.mod_le _ _
  rw [isExpired, WrapsAround, TimedOut]
  cases info.flags.inWork with
  | true => simp
  | false =>
    simp only [Bool.not_false, Bool.true_and, gt_iff_lt, Bool.not_eq_true', Bool.and_eq_false_iff,
      decide_eq_false_iff_not, not_lt, Bool.or_eq_false_iff, beq_eq_false_iff_ne, true_and]
    omega

/-- **The timeout manager.** For a positive timeout, a pass is correct if and only if there is no
context whose time wraps around. -/
theorem passCorrect_iff (t : ContextTable φ χ ι) {aeit : ℕ} (haeit : 0 < aeit) (mytime : ℕ) :
    PassCorrect t aeit mytime ↔ ∀ c ∈ t.entries, ¬WrapsAround aeit mytime c.info := by
  constructor
  · intro h c hc hwraps
    have hlookup : t.lookup c.info.enumId = some c := Table.lookup_eq_some_iff.mpr ⟨hc, rfl⟩
    have hexp : isExpired aeit mytime c.info = true :=
      (isExpired_iff aeit mytime c.info).mpr (.inr hwraps)
    have hkept := h.lookup c.info.enumId
    rw [(wsmanTimeoutsManager_spec t haeit mytime c.info.enumId).1, hlookup] at hkept
    simp [Option.filter, hexp, hwraps.1] at hkept
  · intro h
    have hsame : ∀ k, ∀ c, t.lookup k = some c →
        isExpired aeit mytime c.info = decide (TimedOut aeit mytime c.info) := by
      intro k c hc
      have hno := h c (Table.lookup_eq_some_iff.mp hc).1
      rw [Bool.eq_iff_iff, isExpired_iff, decide_eq_true_eq]
      exact or_iff_left hno
    constructor
    · intro k
      rw [(wsmanTimeoutsManager_spec t haeit mytime k).1]
      cases hc : t.lookup k with
      | none => rfl
      | some c => simp [Option.filter, hsame k c hc]
    · intro k
      rw [(wsmanTimeoutsManager_spec t haeit mytime k).2]
      cases hc : t.lookup k with
      | none => rfl
      | some c => simp [Option.filter, hsame k c hc]

def storedContext : ContextTable Unit Unit Unit :=
  Table.empty.insert
    { info := { enumId := "1", timeStamp := 1000, eprTo := "to", eprUri := "uri",
                encoding := "UTF-8" }
      releaseproc := some () }

theorem passCorrect_idle :
    0 < 100 ∧ PassCorrect storedContext 100 1100 ∧
      (wsmanTimeoutsManager storedContext 100 1100).2.length = 2 := by
  refine ⟨by decide, (passCorrect_iff storedContext (by decide) 1100).mpr ?_, rfl⟩
  decide

/-- With the largest timeout the context is gone as soon as it is stored. -/
theorem not_passCorrect_largest_timeout :
    0 < 2 ^ 64 - 1 ∧ ¬PassCorrect storedContext (2 ^ 64 - 1) 1000 := by
  refine ⟨by decide, ?_⟩
  intro h
  have hkept := congrArg Option.isSome (h.lookup "1")
  revert hkept
  decide

end Openwsman
