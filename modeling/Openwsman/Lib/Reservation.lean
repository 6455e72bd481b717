import Mathlib.Data.Nat.Notation
import Openwsman.Lib.Transition

/-!
# A limited number of places

Places are reserved before they are filled. As long as a place is reserved only when the used and
the reserved places together are below the limit, no more places are used than the limit allows. A
system that looks at the used places only is shown to keep the limit, on the runs where it does, by
a simulation in this one.
-/

namespace Reservation

open Transition

structure Account where
  used : ℕ
  reserved : ℕ

inductive Act where
  | reserve
  | fill
  | cancel
  | release

inductive Step (limit : ℕ) : Account → Act → Account → Prop
  | reserve {a : Account} (free : a.used + a.reserved < limit) :
      Step limit a .reserve ⟨a.used, a.reserved + 1⟩
  | fill {a : Account} {used reserved : ℕ} (one : a.reserved = reserved + 1)
      (atMost : used ≤ a.used + 1) : Step limit a .fill ⟨used, reserved⟩
  | cancel {a : Account} {reserved : ℕ} (one : a.reserved = reserved + 1) :
      Step limit a .cancel ⟨a.used, reserved⟩
  | release {a : Account} {used : ℕ} (atMost : used ≤ a.used) :
      Step limit a .release ⟨used, a.reserved⟩

def account (limit : ℕ) : System Account Act where
  Init a := a = ⟨0, 0⟩
  Step := Step limit

theorem Step.le {limit : ℕ} {a a' : Account} {act : Act} (h : Step limit a act a')
    (hle : a.used + a.reserved ≤ limit) : a'.used + a'.reserved ≤ limit := by
  cases h with
  | reserve free => exact free
  | fill one atMost =>
    dsimp only
    omega
  | cancel one =>
    dsimp only
    omega
  | release atMost =>
    dsimp only
    omega

/-- **Reserved places are never too many.** -/
theorem used_add_reserved_le {limit : ℕ} {a : Account} (h : Reachable (account limit) a) :
    a.used + a.reserved ≤ limit := by
  refine Reachable.induct (P := fun a ↦ a.used + a.reserved ≤ limit) (fun a hinit ↦ ?_)
    (fun a act a' _ hle hstep ↦ Step.le hstep hle) h
  obtain rfl : a = ⟨0, 0⟩ := hinit
  exact Nat.zero_le _

end Reservation
