import Openwsman.Libc.Text
import Mathlib.Tactic.Ring

/-!
# Decimal numerals

What the conversions of the C library read from a number that was printed in base ten. A conversion
stops at the first character that is not a digit, so the lemmas let any such text follow the
numeral.

`strtoul` takes a sign as `strtol` does: a number with a minus is negated in the unsigned type, and
only a number that is too large gives the largest value.
-/

namespace Openwsman

open Nat Bool List

def strtoul (s : String) : ℕ :=
  let t := readSign (s.toList.dropWhile isSpace)
  let v := digitsValue (t.2.takeWhile isDigit)
  if 2 ^ 64 ≤ v then 2 ^ 64 - 1 else if t.1 then toULong (-v) else v

def atol (s : String) : ℤ :=
  match strtol s.toList with
  | none => 0
  | some (v, _) => v

/-! ## Digits -/

variable {c : Char}

theorem isSpace_eq_false_of_isDigit (h : isDigit c = true) : isSpace c = false := by
  rw [isDigit, and_eq_true, decide_eq_true_eq, decide_eq_true_eq] at h
  simp [isSpace]
  omega

theorem readSign_of_isDigit (h : isDigit c = true) (t : List Char) :
    readSign (c :: t) = (false, c :: t) := by
  unfold readSign
  split
  · next heq =>
    obtain ⟨rfl, -⟩ := cons.inj heq
    exact absurd h (by decide)
  · next heq =>
    obtain ⟨rfl, -⟩ := cons.inj heq
    exact absurd h (by decide)
  · rfl

theorem foldl_digits (ds : List Char) (n : ℕ) :
    ds.foldl (fun n c ↦ 10 * n + (c.toNat - 48)) n = n * 10 ^ ds.length + digitsValue ds := by
  induction ds generalizing n with
  | nil => rw [foldl_nil, length_nil, pow_zero, mul_one, digitsValue]; rfl
  | cons c ds ih =>
    rw [digitsValue, foldl_cons, foldl_cons, ih, ih (10 * 0 + _), length_cons, pow_succ]
    ring

theorem digitsValue_append (ds es : List Char) :
    digitsValue (ds ++ es) = digitsValue ds * 10 ^ es.length + digitsValue es := by
  rw [digitsValue, foldl_append, foldl_digits, ← digitsValue]

def EndsNumeral (rest : List Char) : Prop := ∀ c ∈ rest.head?, isDigit c = false

theorem endsNumeral_nil : EndsNumeral [] := by
  intro c hc
  cases hc

theorem endsNumeral_cons (h : isDigit c = false) (rest : List Char) : EndsNumeral (c :: rest) := by
  intro d hd
  cases hd
  exact h

section

variable {ds rest : List Char} (hds : ∀ c ∈ ds, isDigit c = true) (hrest : EndsNumeral rest)

include hds hrest

theorem takeWhile_isDigit_append : (ds ++ rest).takeWhile isDigit = ds := by
  induction ds with
  | nil =>
    cases rest with
    | nil => rfl
    | cons c rest =>
      rw [nil_append, takeWhile_cons, hrest c rfl, if_neg Bool.false_ne_true]
  | cons c ds ih =>
    rw [cons_append, takeWhile_cons, hds c mem_cons_self, if_pos rfl,
      ih fun d hd ↦ hds d (mem_cons_of_mem c hd)]

theorem dropWhile_isDigit_append : (ds ++ rest).dropWhile isDigit = rest := by
  have hsplit := takeWhile_append_dropWhile (p := isDigit) (l := ds ++ rest)
  rw [takeWhile_isDigit_append hds hrest] at hsplit
  exact append_cancel_left hsplit

theorem strtol_of_readSign (hne : ds ≠ []) {t : List Char} (neg : Bool)
    (hsign : readSign (t.dropWhile isSpace) = (neg, ds ++ rest)) :
    strtol t =
      some (clampLong (if neg then -(digitsValue ds : ℤ) else digitsValue ds), rest) := by
  rw [strtol, hsign]
  dsimp only
  rw [takeWhile_isDigit_append hds hrest, dropWhile_isDigit_append hds hrest,
    if_neg (by rwa [List.isEmpty_iff])]

omit hrest in
theorem readSign_digits_append (hne : ds ≠ []) :
    readSign ((ds ++ rest).dropWhile isSpace) = (false, ds ++ rest) := by
  obtain ⟨c, cs, rfl⟩ := exists_cons_of_ne_nil hne
  have hc : isDigit c = true := hds c mem_cons_self
  rw [cons_append, dropWhile_cons, isSpace_eq_false_of_isDigit hc,
    if_neg Bool.false_ne_true, readSign_of_isDigit hc]

theorem strtol_digits_append (hne : ds ≠ []) :
    strtol (ds ++ rest) = some (clampLong (digitsValue ds), rest) :=
  strtol_of_readSign hds hrest hne false (readSign_digits_append hds hne)

theorem strtol_minus_append (hne : ds ≠ []) :
    strtol ('-' :: (ds ++ rest)) = some (clampLong (-digitsValue ds), rest) :=
  strtol_of_readSign hds hrest hne true rfl

end

/-! ## Printed numbers -/

theorem isDigit_of_mem_toDigits {n : ℕ} (h : c ∈ Nat.toDigits 10 n) : isDigit c = true := by
  have hdigit := Nat.isDigit_of_mem_toDigits (by decide) (by decide) h
  rw [Char.isDigit, and_eq_true, decide_eq_true_eq, decide_eq_true_eq] at hdigit
  rw [isDigit, and_eq_true, decide_eq_true_eq, decide_eq_true_eq]
  exact hdigit

theorem toDigits_eq_cons (n : ℕ) : ∃ c cs, Nat.toDigits 10 n = c :: cs ∧ isDigit c = true := by
  obtain ⟨c, cs, hdigits⟩ := exists_cons_of_ne_nil (Nat.toDigits_ne_nil (n := n) (b := 10))
  exact ⟨c, cs, hdigits, isDigit_of_mem_toDigits (hdigits ▸ mem_cons_self)⟩

theorem digitsValue_toDigits (n : ℕ) : digitsValue (Nat.toDigits 10 n) = n :=
  ofDigitChars_ten_toDigits

theorem clampLong_of_mem {v : ℤ} (hlow : -2 ^ 63 ≤ v) (hhigh : v < 2 ^ 63) : clampLong v = v := by
  rw [clampLong]
  omega

theorem strtoul_repr {n : ℕ} (h : n < 2 ^ 64) : strtoul n.repr = n := by
  have hall : ∀ c ∈ Nat.toDigits 10 n, isDigit c = true := fun _ ↦ isDigit_of_mem_toDigits
  have htake := takeWhile_isDigit_append hall endsNumeral_nil
  have hsign : readSign ((Nat.toDigits 10 n ++ []).dropWhile isSpace) = _ :=
    readSign_digits_append hall Nat.toDigits_ne_nil
  rw [append_nil] at htake hsign
  rw [strtoul, toList_repr, hsign]
  dsimp only
  rw [htake, digitsValue_toDigits, if_neg (Nat.not_le_of_lt h), if_neg Bool.false_ne_true]

theorem toList_repr_negSucc (n : ℕ) :
    (Int.negSucc n).repr.toList = '-' :: Nat.toDigits 10 (n + 1) := by
  rw [show (Int.negSucc n).repr = "-" ++ (n + 1).repr from rfl, String.toList_append, toList_repr]
  rfl

theorem atol_repr {v : ℤ} (hlow : -2 ^ 63 ≤ v) (hhigh : v < 2 ^ 63) : atol v.repr = v := by
  have hdigits (n : ℕ) : ∀ c ∈ toDigits 10 n, isDigit c = true :=
    fun c hc ↦ isDigit_of_mem_toDigits hc
  rcases v with n | n
  · have hread := strtol_digits_append (hdigits n) endsNumeral_nil toDigits_ne_nil
    rw [append_nil, digitsValue_toDigits, show (n : ℤ) = Int.ofNat n from rfl,
      clampLong_of_mem hlow hhigh] at hread
    rw [atol, show (Int.ofNat n).repr = n.repr from rfl, toList_repr, hread]
  · have hread := strtol_minus_append (hdigits (n + 1)) endsNumeral_nil toDigits_ne_nil
    rw [append_nil, digitsValue_toDigits,
      show -((n + 1 : ℕ) : ℤ) = Int.negSucc n from rfl, clampLong_of_mem hlow hhigh] at hread
    rw [atol, toList_repr_negSucc, hread]

theorem atoi_eq_toCInt_atol (s : String) : atoi s = toCInt (atol s) := by
  rw [atoi, atol]
  cases strtol s.toList <;> rfl

end Openwsman
