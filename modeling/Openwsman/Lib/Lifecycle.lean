import Mathlib.Data.List.Basic
import Mathlib.Data.Option.Basic

/-!
# Life cycles of resources

A resource is acquired, used any number of times, and released, and then its holder is destroyed. A
holder may also be destroyed that never got the resource. Any other order is wrong: a use behind the
release, a second release, the destruction of a holder that has the resource.

A log is about many resources. What an entry does to one of them is told by a function `view`, and a
log that is wrong for a resource has no phase.
-/

namespace Lifecycle

open Nat Option List

inductive Act where
  | acquire
  | use
  | release
  | destroy
  deriving DecidableEq, Repr

inductive Phase where
  | absent
  | held
  | released
  | gone
  | never
  deriving DecidableEq, Repr

def next : Phase → Act → Option Phase
  | .absent, .acquire => some .held
  | .absent, .destroy => some .never
  | .held, .use => some .held
  | .held, .release => some .released
  | .released, .destroy => some .gone
  | _, _ => none

variable {ε : Type*} (view : ε → Option Act)

def advance (p : Phase) (e : ε) : Option Phase :=
  match view e with
  | none => some p
  | some a => next p a

def phase (p : Phase) : List ε → Option Phase
  | [] => some p
  | e :: log => (advance view p e).bind fun q ↦ phase q log

variable {view}

theorem phase_append (p : Phase) (l l' : List ε) :
    phase view p (l ++ l') = (phase view p l).bind fun q ↦ phase view q l' := by
  induction l generalizing p with
  | nil => rfl
  | cons e l ih =>
    rw [cons_append, phase, phase, bind_assoc]
    congr 1
    funext q
    exact ih q

variable {p q : Phase} {l : List ε}

theorem phase_append_of_eq (h : phase view p l = some q) (l' : List ε) :
    phase view p (l ++ l') = phase view q l' := by
  rw [phase_append, h, bind_some]

variable {e : ε} {a : Act}

theorem phase_cons_of_view (h : view e = some a) (p : Phase) (l : List ε) :
    phase view p (e :: l) = (next p a).bind fun q ↦ phase view q l := by
  rw [phase, advance, h]

theorem phase_cons_of_none (h : view e = none) (p : Phase) (l : List ε) :
    phase view p (e :: l) = phase view p l := by
  rw [phase, advance, h, bind_some]

theorem phase_map {ζ : Type*} (f : ζ → ε) (p : Phase) (l : List ζ) :
    phase view p (l.map f) = phase (view ∘ f) p l := by
  induction l generalizing p with
  | nil => rfl
  | cons e l ih =>
    rw [map_cons, phase, phase]
    exact congrArg (bind _) (funext ih)

theorem phase_of_unseen (h : ∀ e ∈ l, view e = none) (p : Phase) : phase view p l = some p := by
  induction l with
  | nil => rfl
  | cons e l ih =>
    rw [phase_cons_of_none (h e mem_cons_self), ih fun a ha ↦ h a (mem_cons_of_mem e ha)]

/-! ## What a phase says about the log -/

/-- How often an act can have happened before a phase, where every act that is in order counts it
right. -/
theorem countP_add {f : Phase → ℕ}
    (hf : ∀ p b q, next p b = some q → f q = f p + if b = a then 1 else 0)
    (h : phase view p l = some q) : f p + l.countP (fun e ↦ view e == some a) = f q := by
  induction l generalizing p with
  | nil =>
    obtain rfl : p = q := some.inj h
    rfl
  | cons e l ih =>
    rw [countP_cons]
    cases he : view e with
    | none =>
      rw [phase_cons_of_none he] at h
      rw [← ih h]
      simp
    | some b =>
      rw [phase_cons_of_view he] at h
      obtain ⟨p', hnext, h⟩ := bind_eq_some_iff.mp h
      rw [← ih h, hf p b p' hnext]
      simp only [beq_iff_eq, some.injEq]
      omega

def releases : Phase → ℕ
  | .released | .gone => 1
  | .absent | .held | .never => 0

def acquisitions : Phase → ℕ
  | .held | .released | .gone => 1
  | .absent | .never => 0

def destructions : Phase → ℕ
  | .gone | .never => 1
  | .absent | .held | .released => 0

theorem releases_next {b : Act} (h : next p b = some q) :
    releases q = releases p + if b = .release then 1 else 0 := by
  cases p <;> cases b <;> cases h <;> rfl

theorem acquisitions_next {b : Act} (h : next p b = some q) :
    acquisitions q = acquisitions p + if b = .acquire then 1 else 0 := by
  cases p <;> cases b <;> cases h <;> rfl

theorem countP_release (h : phase view p l = some q) :
    releases p + l.countP (fun e ↦ view e == some .release) = releases q :=
  countP_add (fun _ _ _ ↦ releases_next) h

theorem countP_destroy (h : phase view p l = some q) :
    destructions p + l.countP (fun e ↦ view e == some .destroy) = destructions q := by
  apply countP_add _ h
  intro p b q h
  cases p <;> cases b <;> cases h <;> rfl

theorem held_or_released (h : phase view .absent l = some q) (he : e ∈ l)
    (hacquire : view e = some .acquire) : q = .held ∨ releases q = 1 := by
  have hpos : 0 < acquisitions q := by
    rw [← countP_add (fun _ _ _ ↦ acquisitions_next) h, acquisitions, Nat.zero_add]
    exact countP_pos_iff.mpr ⟨e, he, beq_iff_eq.mpr hacquire⟩
  cases q with
  | absent | never => exact absurd hpos (Nat.lt_irrefl 0)
  | held => exact .inl rfl
  | released | gone => exact .inr rfl

variable {before after : List ε}

theorem phase_split (he : view e = some a) (h : phase view p (before ++ e :: after) = some q) :
    ∃ p' q', phase view p before = some p' ∧ next p' a = some q' ∧
      phase view q' after = some q := by
  rw [phase_append] at h
  obtain ⟨p', hp', h⟩ := bind_eq_some_iff.mp h
  rw [phase_cons_of_view he] at h
  obtain ⟨q', hq', h⟩ := bind_eq_some_iff.mp h
  exact ⟨p', q', hp', hq', h⟩

theorem eq_of_stuck (hp : ∀ a, next p a = none) (h : phase view p l = some q) : q = p := by
  induction l with
  | nil => exact (some.inj h).symm
  | cons e l ih =>
    cases he : view e with
    | none => exact ih (by rwa [phase_cons_of_none he] at h)
    | some a =>
      rw [phase_cons_of_view he, hp a, bind_none] at h
      cases h

/-- **The release comes before the destruction.** -/
theorem exists_release_of_gone (he : view e = some .destroy)
    (h : phase view .absent (before ++ e :: after) = some .gone) :
    ∃ c ∈ before, view c = some .release := by
  obtain ⟨p, q, hbefore, hnext, hafter⟩ := phase_split he h
  have hreleased : releases p = 1 := by
    cases p with
    | released => rfl
    | absent =>
      -- a holder that never got the resource would have stayed without it
      obtain rfl : .never = q := some.inj hnext
      cases eq_of_stuck (fun a ↦ by cases a <;> rfl) hafter
    | held | gone | never => cases hnext
  have hcount := countP_release hbefore
  rw [hreleased, releases, Nat.zero_add] at hcount
  obtain ⟨c, hc, hrelease⟩ := countP_pos_iff.mp (hcount ▸ Nat.one_pos)
  exact ⟨c, hc, beq_iff_eq.mp hrelease⟩

/-- **No use behind the release.** -/
theorem not_use_of_released (he : view e = some .release)
    (h : phase view p (before ++ e :: after) = some q) : ∀ b ∈ after, view b ≠ some .use := by
  intro b hb huse
  obtain ⟨p', q', _, hnext, hafter⟩ := phase_split he h
  obtain ⟨between, rest, rfl⟩ := append_of_mem hb
  obtain ⟨r, r', hbetween, huse', _⟩ := phase_split huse hafter
  have hq' := releases_next hnext
  have hr := countP_release hbetween
  -- a use needs the resource, which would have had to be acquired anew
  obtain rfl : r = .held := by
    cases r with
    | held => rfl
    | _ => cases huse'
  rw [if_pos rfl] at hq'
  rw [show releases .held = 0 from rfl] at hr
  omega

end Lifecycle
