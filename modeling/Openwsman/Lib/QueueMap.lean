import Mathlib.Data.Nat.Notation
import Mathlib.Logic.Function.Basic

/-!
# Maps of queues

A map from keys to first-in-first-out queues, as a machine. Every operation names a key and touches
the queue of that key only; the queue of a key that was never used is empty.
-/

namespace QueueMap

variable {κ ε : Type*}

inductive Op (κ ε : Type*) where
  | append (k : κ) (e : ε)
  | appendBounded (k : κ) (e : ε)
  | length (k : κ)
  | take (k : κ)
  | clear (k : κ)

inductive Answer (ε : Type*) where
  | appended
  | refused
  | length (n : ℕ)
  | oldest (e : Option ε)
  | cleared (es : List ε)

variable [DecidableEq κ]

/-- One operation. A queue with more than `max` elements refuses another one. -/
def step (max : ℕ) (q : κ → List ε) : Op κ ε → (κ → List ε) × Answer ε
  | .append k e => (Function.update q k (q k ++ [e]), .appended)
  | .appendBounded k e =>
    if max < (q k).length then (q, .refused)
    else (Function.update q k (q k ++ [e]), .appended)
  | .length k => (q, .length (q k).length)
  | .take k =>
    match q k with
    | [] => (q, .oldest none)
    | e :: es => (Function.update q k es, .oldest (some e))
  | .clear k => (Function.update q k [], .cleared (q k))

end QueueMap
