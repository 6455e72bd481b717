import Mathlib.Data.List.Basic

/-!
# Programs that leave a trace

A program that works with an environment does things that are seen from outside: it adds them to a
trace. What it gets back for one of them may depend on everything that was done before, so a program
is a function of the trace so far. It may also end without a result, and then the trace says what
was done up to that point.
-/

/-- A program: from the trace so far, its result, if there is one, and what it adds to the trace. -/
def Traced (ε α : Type) : Type := List ε → Option α × List ε

namespace Traced

variable {ε α β : Type}

def result (m : Traced ε α) (past : List ε) : Option α := (m past).1

def trace (m : Traced ε α) (past : List ε) : List ε := (m past).2

def act (e : ε) (answer : List ε → α) : Traced ε α :=
  fun past ↦ (some (answer (past ++ [e])), [e])

def ofOption (x : Option α) : Traced ε α := fun _ ↦ (x, [])

instance : Monad (Traced ε) where
  pure a := fun _ ↦ (some a, [])
  bind m f := fun past ↦
    ((m.result past).bind fun a ↦ (f a).result (past ++ m.trace past),
      m.trace past ++ (m.result past).elim [] fun a ↦ (f a).trace (past ++ m.trace past))

variable {past : List ε} {m : Traced ε α} {f : α → Traced ε β}

@[simp] theorem result_pure (a : α) : (pure a : Traced ε α).result past = some a := rfl

@[simp] theorem trace_pure (a : α) : (pure a : Traced ε α).trace past = [] := rfl

variable (e : ε) (answer : List ε → α)

@[simp] theorem trace_act : (act e answer).trace past = [e] := rfl

theorem mem_trace_act : e ∈ (act e answer).trace past := by
  rw [trace_act]
  exact List.mem_singleton_self e

@[simp] theorem result_ofOption (x : Option α) : (ofOption x : Traced ε α).result past = x := rfl

@[simp] theorem trace_ofOption (x : Option α) : (ofOption x : Traced ε α).trace past = [] := rfl

@[simp] theorem result_bind :
    (m >>= f).result past =
      (m.result past).bind fun a ↦ (f a).result (past ++ m.trace past) := rfl

@[simp] theorem trace_bind :
    (m >>= f).trace past =
      m.trace past ++ (m.result past).elim [] fun a ↦ (f a).trace (past ++ m.trace past) := rfl

theorem trace_act_bind :
    (act e answer >>= f).trace past =
      e :: (f (answer (past ++ [e]))).trace (past ++ [e]) := rfl

theorem mem_trace_bind_iff {e : ε} :
    e ∈ (m >>= f).trace past ↔
      e ∈ m.trace past ∨
        ∃ a, m.result past = some a ∧ e ∈ (f a).trace (past ++ m.trace past) := by
  rw [trace_bind, List.mem_append]
  cases m.result past <;> simp

theorem mem_trace_bind {e : ε} (h : e ∈ m.trace past) : e ∈ (m >>= f).trace past :=
  List.mem_append_left _ h

end Traced
