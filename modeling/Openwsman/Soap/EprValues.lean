import Openwsman.Lib.Correspondence
import Openwsman.Lib.KeyedTable
import Openwsman.Lib.Machine
import Openwsman.Soap.Epr

/-!
# Comparing references and editing their selectors

`epr_cmp` counts the pairs of equal selectors. Its inner loop runs over the selectors of the first
reference instead of those of the second, so a reference whose names are all different is found
equal to every reference with its resource URI and as many selectors.

`epr_add_selector` and `epr_delete_selector` resize the array of selectors. To delete the only
selector the array is resized to nothing, which `realloc` answers with `NULL`: the deletion is taken
to have failed, and the reference keeps a count of one for an array that is gone.
-/

namespace Openwsman

open Bool List

/-! ## Comparing -/

mutual

/-- `epr_cmp`. The names that `strcmp` is given must not be `NULL`, nor may the references. -/
def eprCmp : Epr → Epr → ℕ
  | .mk _ uri ss, epr2 =>
    if uri ≠ epr2.uri then 1
    else if ss.length ≠ epr2.selectors.length then 1
    else if matchCount ss ss = ss.length then 0
    else 1

def matchCount : List KeyValue → List KeyValue → ℕ
  | [], _ => 0
  | p1 :: rest, ss => ss.countP (selectorMatch p1) + matchCount rest ss

def selectorMatch : KeyValue → KeyValue → Bool
  | .text key text, .text key2 text2 => key = key2 && text = text2
  | .epr key (some epr), .epr key2 (some epr2) => key = key2 && eprCmp epr epr2 ≠ 1
  | _, _ => false

end

mutual

/-- The same resource URI and the same selectors, in any order: `f` and `g` find each selector of
one reference in the other. -/
inductive Epr.Same : Epr → Epr → Prop
  | intro {a a' uri : String} {ss ts : List KeyValue} (f g : KeyValue → KeyValue)
      (left : ∀ s ∈ ss, f s ∈ ts) (same_left : ∀ s ∈ ss, KeyValue.Same s (f s))
      (right : ∀ t ∈ ts, g t ∈ ss) (same_right : ∀ t ∈ ts, KeyValue.Same (g t) t) :
      Epr.Same (.mk a uri ss) (.mk a' uri ts)

/-- The same name with the same text, or with references that are the same in turn. -/
inductive KeyValue.Same : KeyValue → KeyValue → Prop
  | text (key : Cell (Option String)) (value : String) : KeyValue.Same (.text key value)
      (.text key value)
  | epr (key : Cell (Option String)) {e e' : Epr} (h : Epr.Same e e') :
      KeyValue.Same (.epr key (some e)) (.epr key (some e'))

end

mutual

/-- No two selectors have the same name, neither in the reference nor in those within it. -/
def Epr.distinct : Epr → Bool
  | .mk _ _ ss => (ss.map KeyValue.key).Nodup && KeyValue.distinctAll ss

/-- Every selector has a name, and the references among them are distinct. -/
def KeyValue.distinctAll : List KeyValue → Bool
  | [] => true
  | .text (.init (some _)) _ :: ss => KeyValue.distinctAll ss
  | .epr (.init (some _)) (some e) :: ss => e.distinct && KeyValue.distinctAll ss
  | _ => false

end

theorem KeyValue.Same.key_eq {s t : KeyValue} (h : s.Same t) : s.key = t.key := by
  cases h <;> rfl

theorem selectorMatch_key {s t : KeyValue} (h : selectorMatch s t = true) : s.key = t.key := by
  rw [selectorMatch.eq_def] at h
  split at h
  · exact of_decide_eq_true (and_eq_true_iff.mp h).1
  · exact of_decide_eq_true (and_eq_true_iff.mp h).1
  · cases h

theorem matchCount_eq_length {ss : List KeyValue} (hnodup : (ss.map KeyValue.key).Nodup)
    (hself : ∀ s ∈ ss, selectorMatch s s = true) : matchCount ss ss = ss.length := by
  have hone : ∀ s ∈ ss, ss.countP (selectorMatch s) = 1 := by
    intro s hs
    have hcount : ss.countP (selectorMatch s) = (ss.map KeyValue.key).count s.key := by
      rw [count, countP_map]
      refine countP_congr fun t ht ↦ ?_
      rw [Function.comp_apply, beq_iff_eq]
      constructor
      · intro h
        exact (selectorMatch_key h).symm
      · intro h
        rw [inj_on_of_nodup_map hnodup ht hs h]
        exact hself s hs
    rw [hcount]
    exact count_eq_one_of_mem hnodup (mem_map_of_mem hs)
  have hloop : ∀ l : List KeyValue, l ⊆ ss → matchCount l ss = l.length := by
    intro l hl
    induction l with
    | nil => rfl
    | cons s l ih =>
      rw [matchCount, hone s (hl mem_cons_self),
        ih fun t ht ↦ hl (mem_cons_of_mem s ht), length_cons, Nat.add_comm]
  exact hloop ss (Subset.refl ss)

mutual

theorem eprCmp_self : ∀ e : Epr, e.distinct = true → eprCmp e e = 0
  | .mk a uri ss => by
    intro h
    rw [Epr.distinct, and_eq_true, decide_eq_true_iff] at h
    rw [eprCmp, if_neg (by simp [Epr.uri]), if_neg (by simp [Epr.selectors]),
      if_pos (matchCount_eq_length h.1 (selectorMatch_self ss h.2))]

theorem selectorMatch_self : ∀ ss : List KeyValue, KeyValue.distinctAll ss = true →
    ∀ s ∈ ss, selectorMatch s s = true
  | [] => by simp
  | .text (.init (some _)) _ :: ss => by
    intro h
    rw [KeyValue.distinctAll] at h
    refine forall_mem_cons.mpr ⟨?_, selectorMatch_self ss h⟩
    simp [selectorMatch]
  | .epr (.init (some _)) (some e) :: ss => by
    intro h
    rw [KeyValue.distinctAll, and_eq_true] at h
    refine forall_mem_cons.mpr ⟨?_, selectorMatch_self ss h.2⟩
    simp [selectorMatch, eprCmp_self e h.1]
  | .text .uninit _ :: _ | .text (.init none) _ :: _ | .epr .uninit _ :: _
  | .epr (.init none) _ :: _ | .epr (.init (some _)) none :: _ => by
    intro h
    cases h

end

variable {e₁ e₂ e₃ : Epr}

theorem eprCmp_eq_zero_iff (h : e₁.distinct = true) : eprCmp e₁ e₂ = 0 ↔
    e₁.uri = e₂.uri ∧ e₁.selectors.length = e₂.selectors.length := by
  obtain ⟨a, uri, ss⟩ := e₁
  obtain ⟨a', uri', ts⟩ := e₂
  rw [Epr.distinct, and_eq_true, decide_eq_true_iff] at h
  rw [eprCmp, if_pos (matchCount_eq_length h.1 (selectorMatch_self ss h.2))]
  simp only [Epr.uri, Epr.selectors]
  by_cases huri : uri = uri'
  · by_cases hlength : ss.length = ts.length <;> simp [huri, hlength]
  · simp [huri]

theorem Epr.Same.length_eq (h : e₁.Same e₂) (h₁ : e₁.distinct = true) (h₂ : e₂.distinct = true) :
    e₁.uri = e₂.uri ∧ e₁.selectors.length = e₂.selectors.length := by
  obtain ⟨f, g, left, same_left, right, same_right⟩ := h
  rename_i a a' uri ss ts
  rw [Epr.distinct, and_eq_true, decide_eq_true_iff] at h₁ h₂
  exact ⟨rfl, (Correspondence.OneToOne.length_eq ⟨h₁.1, h₂.1,
    fun s hs ↦ ⟨f s, left s hs, (same_left s hs).key_eq.symm, same_left s hs⟩,
    fun t ht ↦ ⟨g t, right t ht, (same_right t ht).key_eq.symm⟩⟩).symm⟩

/-- **References are compared by their URI and the number of their selectors**, so the comparison is
right exactly if these decide whether two references are the same. -/
theorem eprCmp_exact_iff (h₁ : e₁.distinct = true) (h₂ : e₂.distinct = true) :
    (eprCmp e₁ e₂ = 0 ↔ e₁.Same e₂) ↔
      (e₁.uri = e₂.uri → e₁.selectors.length = e₂.selectors.length → e₁.Same e₂) := by
  rw [eprCmp_eq_zero_iff h₁]
  constructor
  · intro h huri hlength
    exact h.mp ⟨huri, hlength⟩
  · intro h
    exact ⟨fun hcmp ↦ h hcmp.1 hcmp.2, fun hsame ↦ hsame.length_eq h₁ h₂⟩

def namedEpr (value : String) : Epr := .mk "" "urn:r" [.text (.init (some "Name")) value]

theorem eprCmp_exact_self : eprCmp (namedEpr "a") (namedEpr "a") = 0 ↔
    (namedEpr "a").Same (namedEpr "a") :=
  (eprCmp_exact_iff (by decide) (by decide)).mpr fun _ _ ↦
    ⟨id, id, fun _ h ↦ h, by simpa using .text _ _, fun _ h ↦ h, by simpa using .text _ _⟩

theorem not_eprCmp_exact : ¬(eprCmp (namedEpr "a") (namedEpr "b") = 0 ↔
    (namedEpr "a").Same (namedEpr "b")) := by
  intro h
  obtain ⟨f, g, left, same_left, right, same_right⟩ := h.mp (by decide)
  have htext : ∀ {k v w}, KeyValue.Same (.text k v) (.text k w) → v = w := by
    rintro k v w ⟨⟩
    rfl
  have hsame := same_left _ mem_cons_self
  rw [mem_singleton.mp (left _ mem_cons_self)] at hsame
  exact absurd (htext hsame) (by decide)

/-! ## Editing -/

open KeyedTable

section

variable {β : Type}

def eprAddSelector (selectors : List (String × β)) (name : String) (value : β) :
    List (String × β) × ℤ :=
  if selectors.any (·.1 == name) then (selectors, -1) else (selectors ++ [(name, value)], 0)

def shiftFrom : ℕ → List (String × β) → List (String × β)
  | 0, _ :: s :: ss => s :: shiftFrom 0 (s :: ss)
  | i + 1, s :: ss => s :: shiftFrom i ss
  | _, ss => ss

/-- `epr_delete_selector`. `realloc` to no bytes frees the array and returns `NULL`, and nothing is
known about the memory that the reference still points to. -/
def eprDeleteSelector (selectors : List (String × β)) (name : String) :
    CResult (List (String × β)) × ℤ :=
  match selectors.findIdx? (·.1 == name) with
  | none => (.value selectors, -1)
  | some i =>
    if selectors.length - 1 = 0 then (.undefined, -1)
    else (.value ((shiftFrom i selectors).take (selectors.length - 1)), 0)

inductive SelectorOp (β : Type) where
  | add (name : String) (value : β)
  | delete (name : String)

namespace SelectorOp

def step : CResult (List (String × β)) → SelectorOp β → CResult (List (String × β)) × CResult ℤ
  | .undefined, _ => (.undefined, .undefined)
  | .value ss, add name value =>
    (.value (eprAddSelector ss name value).1, .value (eprAddSelector ss name value).2)
  | .value ss, delete name => ((eprDeleteSelector ss name).1, .value (eprDeleteSelector ss name).2)

def mapStep (t : Table (Prod.fst : String × β → String)) :
    SelectorOp β → Table (Prod.fst : String × β → String) × ℤ
  | add name value => if (t.lookup name).isNone then (t.append (name, value), 0) else (t, -1)
  | delete name => if (t.lookup name).isNone then (t, -1) else (t.erase name, 0)

def Empties (t : Table (Prod.fst : String × β → String)) (op : SelectorOp β) : Prop :=
  ∃ name, op = delete name ∧ t.entries.map Prod.fst = [name]

def NeverEmptied (t : Table (Prod.fst : String × β → String)) : List (SelectorOp β) → Prop
  | [] => True
  | op :: ops => ¬Empties t op ∧ NeverEmptied (mapStep t op).1 ops

end SelectorOp

theorem take_shiftFrom (i : ℕ) (ss : List (String × β)) (h : i < ss.length) :
    (shiftFrom i ss).take (ss.length - 1) = ss.eraseIdx i := by
  fun_induction shiftFrom i ss with
  | case1 s t ss ih => simpa using ih (by simp)
  | case2 i s ss ih =>
    cases ss with
    | nil => simp at h
    | cons t ss => simpa using ih (by simpa using h)
  | case3 i ss h1 h2 =>
    match i, ss with
    | 0, [s] => rfl
    | 0, s :: t :: ss => exact absurd rfl (h1 s t ss rfl)
    | i + 1, s :: ss => exact absurd rfl (h2 i s ss rfl)

variable {name : String} {t : Table (Prod.fst : String × β → String)} {op : SelectorOp β}

theorem eraseP_eq_erase : t.entries.eraseP (·.1 == name) = (t.erase name).entries := by
  change _ = t.entries.filter (fun p ↦ p.1 ≠ name)
  have hnodup := t.nodup
  generalize t.entries = l at hnodup
  induction l with
  | nil => rfl
  | cons p l ih =>
    rw [map_cons, nodup_cons] at hnodup
    by_cases hp : p.1 = name
    · have hrest : l.filter (fun p ↦ p.1 ≠ name) = l := by
        rw [filter_eq_self]
        intro q hq
        rw [decide_eq_true_iff, ← hp]
        exact fun hkey ↦ hnodup.1 (mem_map.mpr ⟨q, hq, hkey⟩)
      rw [eraseP_cons_of_pos (by simp [hp]), filter_cons_of_neg (by simp [hp]), hrest]
    · simp [hp, ih hnodup.2]

theorem eprDeleteSelector_entries (hname : t.lookup name ≠ none) :
    eprDeleteSelector t.entries name =
      if t.entries.length = 1 then (.undefined, -1) else (.value (t.erase name).entries, 0) := by
  cases hi : t.entries.findIdx? (·.1 == name) with
  | none =>
    refine absurd (Table.lookup_eq_none_iff.mpr fun p hp ↦ ?_) hname
    simpa using findIdx?_eq_none_iff.mp hi p hp
  | some i =>
    have hlt := (findIdx?_eq_some_iff_findIdx_eq.mp hi).1
    have herase : t.entries.eraseP (·.1 == name) = _ := eraseP_eq_eraseIdx
    rw [hi, eraseP_eq_erase] at herase
    rw [eprDeleteSelector, hi]
    dsimp only
    rw [take_shiftFrom i _ hlt, herase]
    simp only [show t.entries.length - 1 = 0 ↔ t.entries.length = 1 by omega]

namespace SelectorOp

theorem step_entries (h : ¬Empties t op) : step (.value t.entries) op =
    (.value (mapStep t op).1.entries, .value (mapStep t op).2) := by
  cases op with
  | add name value =>
    by_cases hname : t.lookup name = none
    · have hany : t.entries.any (·.1 == name) = false := by
        simpa using Table.lookup_eq_none_iff.mp hname
      simp [step, mapStep, eprAddSelector, hname, hany,
        Table.entries_append (a := (name, value)) hname]
    · have hany : t.entries.any (·.1 == name) = true := by
        simpa [Table.lookup_eq_none_iff] using hname
      simp [step, mapStep, eprAddSelector, hname, hany]
  | delete name =>
    by_cases hname : t.lookup name = none
    · have hfind : t.entries.findIdx? (·.1 == name) = none := by
        simpa using Table.lookup_eq_none_iff.mp hname
      simp [step, mapStep, eprDeleteSelector, hname, hfind]
    · have hlength : t.entries.length ≠ 1 := by
        intro hone
        obtain ⟨p, hp⟩ := length_eq_one_iff.mp hone
        refine h ⟨name, rfl, ?_⟩
        simpa [Table.lookup_eq_none_iff, hp] using hname
      simp [step, mapStep, eprDeleteSelector_entries hname, hname, hlength]

theorem step_ne_of_empties (h : Empties t op) :
    (step (.value t.entries) op).2 ≠ .value (mapStep t op).2 := by
  obtain ⟨name, rfl, hkeys⟩ := h
  obtain ⟨p, hentries, rfl⟩ := map_eq_singleton_iff.mp hkeys
  have hname : t.lookup p.1 ≠ none := by simp [Table.lookup_eq_none_iff, hentries]
  have hdelete := eprDeleteSelector_entries hname
  rw [hentries, if_pos length_singleton, ← hentries] at hdelete
  simp [step, mapStep, hname, hdelete]

/-- **The selectors behave as a finite map exactly as long as the only one is not deleted.** -/
theorem run_entries_iff (t : Table (Prod.fst : String × β → String)) (ops : List (SelectorOp β)) :
    Machine.run step (.value t.entries) ops =
        (.value (Machine.run mapStep t ops).1.entries,
          (Machine.run mapStep t ops).2.map .value) ↔
      NeverEmptied t ops := by
  induction ops generalizing t with
  | nil => simp [Machine.run, NeverEmptied]
  | cons op ops ih =>
    rw [Machine.run_cons, Machine.run_cons, NeverEmptied, ← ih, Prod.mk.injEq, map_cons, cons.injEq]
    by_cases h : Empties t op
    · constructor
      · intro hrun
        exact absurd hrun.2.1 (step_ne_of_empties h)
      · intro hnever
        exact absurd h hnever.1
    rw [step_entries h]
    constructor
    · rintro ⟨hlast, -, hanswers⟩
      exact ⟨h, Prod.ext hlast hanswers⟩
    · rintro ⟨-, hrun⟩
      exact ⟨congrArg Prod.fst hrun, rfl, congrArg Prod.snd hrun⟩

def noSelectors : Table (Prod.fst : String × String → String) := .empty

theorem not_run_entries_delete : ¬(Machine.run step (.value noSelectors.entries)
    [.add "Name" "a", .delete "Name"] =
      (.value (Machine.run mapStep noSelectors [.add "Name" "a", .delete "Name"]).1.entries,
        (Machine.run mapStep noSelectors [.add "Name" "a", .delete "Name"]).2.map .value)) := by
  decide

end SelectorOp

end

end Openwsman
