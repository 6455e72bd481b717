/-!
# Undefined behaviour

Some of the modelled functions dereference a pointer that may be `NULL`, or read memory that was
never written. Such a function returns a `CResult`, and a run in which it returns `undefined` has
ended.
-/

namespace Openwsman

/-- The result of code that may have no defined behaviour. -/
inductive CResult (α : Type) where
  | undefined
  | value (a : α)
  deriving DecidableEq, Repr

namespace CResult

variable {α β : Type}

def bind (x : CResult α) (f : α → CResult β) : CResult β :=
  match x with
  | undefined => undefined
  | value a => f a

@[simp] theorem undefined_bind (f : α → CResult β) : (undefined : CResult α).bind f = undefined :=
  rfl

@[simp] theorem value_bind (a : α) (f : α → CResult β) : (value a).bind f = f a := rfl

theorem bind_eq_value {x : CResult α} {f : α → CResult β} {b : β} :
    x.bind f = value b ↔ ∃ a, x = value a ∧ f a = value b := by
  cases x <;> simp

end CResult

/-- A place in memory that may not have been written. -/
inductive Cell (α : Type) where
  | uninit
  | init (v : α)
  deriving DecidableEq, Repr

def Cell.read {α : Type} : Cell α → CResult α
  | uninit => .undefined
  | init v => .value v

def strcmpEq (a : String) : Option String → CResult Bool
  | none => .undefined
  | some b => .value (a == b)

/-- `u_strdup`, which takes the length of its argument and so must not be given `NULL`. -/
def uStrdup : Option String → CResult String
  | none => .undefined
  | some s => .value s

end Openwsman
