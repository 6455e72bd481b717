import Mathlib.Algebra.BigOperators.Group.List.Basic
import Mathlib.Algebra.GroupWithZero.Nat
import Mathlib.Algebra.Order.Group.Nat
import Mathlib.Order.Bounds.Defs
import Openwsman.Lib.Machine

/-!
# Sending in pieces

A text is sent in pieces, each as long as there is room for it. The end is known only by a piece
that does not fill its room: a piece that fits exactly is followed by another one, which may be
empty.

Whatever the rooms are, what has been sent is as much of the text as there was room for
(`sent_take`), and the end comes with the first room that is larger than what is left
(`ends_iff_isLeast`).
-/

namespace Pieces

open Nat List Machine

variable {β : Type*}

def step : Option (List β) → ℕ → Option (List β) × (List β × Bool)
  | none, _ => (none, [], false)
  | some rest, room =>
    if room ≤ rest.length then (some (rest.drop room), rest.take room, false)
    else (none, rest, true)

variable {rest : List β}

theorem step_of_le {room : ℕ} (h : room ≤ rest.length) :
    step (some rest) room = (some (rest.drop room), rest.take room, false) := if_pos h

theorem step_of_lt {room : ℕ} (h : rest.length < room) :
    step (some rest) room = (none, rest, true) := if_neg (not_le.mpr h)

def sent (pieces : List (List β × Bool)) : List β := pieces.flatMap Prod.fst

theorem sent_cons (piece : List β × Bool) (pieces : List (List β × Bool)) :
    sent (piece :: pieces) = piece.1 ++ sent pieces := flatMap_cons

variable (rooms : List ℕ)

theorem run_none :
    run step (none : Option (List β)) rooms = (none, rooms.map fun _ ↦ ([], false)) := by
  induction rooms with
  | nil => rfl
  | cons room rooms ih =>
    rw [run_cons, step, ih]
    rfl

variable (rest : List β)

theorem run_zeros {α : Type*} (l : List α) :
    run step (some rest) (l.map fun _ ↦ 0) = (some rest, l.map fun _ ↦ ([], false)) := by
  induction l with
  | nil => rfl
  | cons a l ih =>
    rw [map_cons, run_cons, step_of_le (zero_le _), drop_zero, ih]
    rfl

/-- **What has been sent** is as much as there was room for. -/
theorem sent_take (rooms : List ℕ) (n : ℕ) :
    sent ((run step (some rest) rooms).2.take n) = rest.take (rooms.take n).sum := by
  induction rooms generalizing rest n with
  | nil => simp [run, sent]
  | cons room rooms ih =>
    cases n with
    | zero => simp [sent]
    | succ n =>
      rw [run_cons, take_succ_cons, sent_cons, take_succ_cons, sum_cons]
      rcases lt_or_ge rest.length room with hroom | hroom
      · have hnil : sent ((rooms.map fun _ ↦ (([] : List β), false)).take n) = [] := by
          rw [sent, flatMap_eq_nil_iff]
          intro piece hpiece
          obtain ⟨_, _, rfl⟩ := mem_map.mp (mem_of_mem_take hpiece)
          rfl
        rw [step_of_lt hroom, run_none, hnil, append_nil, take_of_length_le (by omega)]
      · rw [step_of_le hroom, ih, take_add]

def EndsAt (pieces : List (List β × Bool)) (n : ℕ) : Prop := (pieces.map Prod.snd)[n]? = some true

variable (n : ℕ)

theorem not_endsAt_run_none : ¬EndsAt (run step (none : Option (List β)) rooms).2 n := by
  rw [EndsAt, run_none, map_map]
  intro h
  obtain ⟨_, -, heq⟩ := mem_map.mp (mem_of_getElem? h)
  cases heq

theorem endsAt_iff (rooms : List ℕ) (n : ℕ) :
    EndsAt (run step (some rest) rooms).2 n ↔
      (rooms.take n).sum ≤ rest.length ∧ rest.length < (rooms.take (n + 1)).sum := by
  induction rooms generalizing rest n with
  | nil => simp [EndsAt, run]
  | cons room rooms ih =>
    have hzero : ∀ pieces : List (List β × Bool), EndsAt ((step (some rest) room).2 :: pieces) 0 ↔
        (step (some rest) room).2.2 = true := by
      intro pieces
      rw [EndsAt, map_cons, getElem?_cons_zero, Option.some.injEq]
    rw [run_cons]
    rcases lt_or_ge rest.length room with hroom | hroom
    · cases n with
      | zero =>
        rw [hzero, step_of_lt hroom, take_succ_cons, sum_cons]
        simp [hroom]
      | succ n =>
        rw [step_of_lt hroom, take_succ_cons, sum_cons]
        constructor
        · exact fun h ↦ absurd h (not_endsAt_run_none rooms n)
        · intro h
          omega
    · cases n with
      | zero =>
        rw [hzero, step_of_le hroom, take_succ_cons, sum_cons]
        simp [hroom]
      | succ n =>
        have ih := ih (rest.drop room) n
        rw [length_drop] at ih
        rw [step_of_le hroom, take_succ_cons, take_succ_cons, sum_cons, sum_cons]
        exact ih.trans (by omega)

theorem sent_of_endsAt {rest : List β} {rooms : List ℕ} {n : ℕ}
    (h : EndsAt (run step (some rest) rooms).2 n) :
    sent ((run step (some rest) rooms).2.take (n + 1)) = rest := by
  rw [sent_take, take_of_length_le]
  exact ((endsAt_iff rest rooms n).mp h).2.le

/-- **The end comes with the first room that is larger than what is left.** -/
theorem endsAt_iff_isLeast (rooms : List ℕ) (n : ℕ) :
    EndsAt (run step (some rest) rooms).2 n ↔
      IsLeast {m | rest.length - (sent ((run step (some rest) rooms).2.take m)).length <
        rooms.getD m 0} n := by
  have hsucc : ∀ m, (rooms.take (m + 1)).sum = (rooms.take m).sum + rooms.getD m 0 := by
    intro m
    rw [take_add_one, List.sum_append, getD_eq_getElem?_getD]
    cases rooms[m]? with
    | none => rfl
    | some room => simp
  have hmono : ∀ m k, m ≤ k → (rooms.take m).sum ≤ (rooms.take k).sum := by
    intro m k hmk
    induction hmk with
    | refl => exact le_rfl
    | step _ ih =>
      rw [hsucc]
      exact ih.trans (le_add_right _ _)
  have hmem : ∀ m, rest.length - (sent ((run step (some rest) rooms).2.take m)).length <
      rooms.getD m 0 ↔ rest.length - (rooms.take m).sum < rooms.getD m 0 := by
    intro m
    rw [sent_take, length_take]
    omega
  rw [endsAt_iff]
  constructor
  · rintro ⟨hbefore, hafter⟩
    refine ⟨(hmem n).mpr ?_, ?_⟩
    · rw [hsucc] at hafter
      omega
    intro m hm
    by_contra hlt
    have hle := hmono (m + 1) n (by omega)
    have hm := (hmem m).mp hm
    rw [hsucc] at hle
    omega
  · rintro ⟨hn, hleast⟩
    have hbefore : ∀ m ≤ n, (rooms.take m).sum ≤ rest.length := by
      intro m
      induction m with
      | zero => simp
      | succ m ih =>
        intro hm
        have ihm := ih (by omega)
        by_contra hlarge
        rw [hsucc] at hlarge
        have hmem' := hleast ((hmem m).mpr (by omega))
        omega
    have hn := (hmem n).mp hn
    have hle := hbefore n le_rfl
    refine ⟨hle, ?_⟩
    rw [hsucc]
    omega

end Pieces
