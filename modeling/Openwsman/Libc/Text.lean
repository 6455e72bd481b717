import Mathlib.Algebra.Ring.Int.Defs
import Mathlib.Algebra.Ring.Nat
import Mathlib.Data.List.Basic

/-!
# Text functions of the C library

The functions of the C library that the modelled code calls on text, as total functions on
characters. All of them run in the `"C"` locale, where only ASCII characters are digits, blanks
or letters with a case, so working on characters and working on UTF-8 bytes agree.

`strtol` returns the converted value together with the text left over, and `none` where the C
function leaves the end pointer at the start. Values saturate at the bounds of a 64-bit `long`;
assigning one to an `int` keeps its low 32 bits.
-/

namespace Openwsman

open List

/-- `isspace`: the blank and the five control characters from tab to carriage return. -/
def isSpace (c : Char) : Bool := c.toNat == 32 || (9 ≤ c.toNat && c.toNat ≤ 13)

def isDigit (c : Char) : Bool := 48 ≤ c.toNat && c.toNat ≤ 57

def digitsValue (ds : List Char) : ℕ := ds.foldl (fun n c ↦ 10 * n + (c.toNat - 48)) 0

def clampLong (v : ℤ) : ℤ := max (-2 ^ 63) (min (2 ^ 63 - 1) v)

/-- Conversion of a wider integer to a 32-bit `int`. -/
def toCInt (v : ℤ) : ℤ := v.bmod (2 ^ 32)

theorem le_toCInt (v : ℤ) : -2 ^ 31 ≤ toCInt v := Int.le_bmod (by decide)

theorem toCInt_lt (v : ℤ) : toCInt v < 2 ^ 31 := Int.bmod_lt (by decide)

theorem toCInt_of_mem {v : ℤ} (hlow : -2 ^ 31 ≤ v) (hhigh : v < 2 ^ 31) : toCInt v = v :=
  Int.bmod_eq_of_le (by omega) (by omega)

/-- Conversion of an integer to a 64-bit `unsigned long`. -/
def toULong (v : ℤ) : ℕ := (v % 2 ^ 64).toNat

/-- Conversion of an `unsigned long` to a 32-bit `unsigned int`. -/
def toUInt (v : ℕ) : ℕ := v % 2 ^ 32

/-- An optional sign in front of a number: whether it is a minus, and what follows it. -/
def readSign : List Char → Bool × List Char
  | '-' :: r => (true, r)
  | '+' :: r => (false, r)
  | r => (false, r)

def strtol (t : List Char) : Option (ℤ × List Char) :=
  let s := readSign (t.dropWhile isSpace)
  let ds := s.2.takeWhile isDigit
  if ds.isEmpty then none
  else
    let v : ℤ := digitsValue ds
    some (clampLong (if s.1 then -v else v), s.2.dropWhile isDigit)

def atoi (s : String) : ℤ :=
  match strtol s.toList with
  | none => 0
  | some (v, _) => toCInt v

def intMax : ℕ := 2147483647

def strcaseEq (a b : String) : Bool := a.toList.map Char.toLower == b.toList.map Char.toLower

def foldCase (s : String) : List Char := s.toList.map Char.toLower

def strrchr (s : List Char) (c : Char) : Option (List Char) :=
  match s with
  | [] => none
  | d :: r => (strrchr r c).orElse fun _ ↦ if d == c then some (d :: r) else none

def strstr (s t : String) : Bool := s.toList.tails.any t.toList.isPrefixOf

theorem strcaseEq_self (a : String) : strcaseEq a a = true := beq_self_eq_true _

theorem strcaseEq_eq_decide (a b : String) : strcaseEq a b = decide (foldCase a = foldCase b) := by
  rw [Bool.eq_iff_iff, strcaseEq, beq_iff_eq, decide_eq_true_iff, foldCase, foldCase]

theorem readSign_length_le (r : List Char) : (readSign r).2.length ≤ r.length := by
  unfold readSign
  split <;> simp

theorem strtol_rest_length {t e : List Char} {v : ℤ} (h : strtol t = some (v, e)) :
    e.length < t.length := by
  have hdrop : (t.dropWhile isSpace).length ≤ t.length := (dropWhile_sublist isSpace).length_le
  unfold strtol at h
  by_cases hds : ((readSign (t.dropWhile isSpace)).2.takeWhile isDigit).isEmpty = true
  · rw [if_pos hds] at h
    exact absurd h (by simp)
  rw [if_neg hds, Option.some.injEq, Prod.mk.injEq] at h
  have hsplit := congrArg length
    (takeWhile_append_dropWhile (p := isDigit) (l := (readSign (t.dropWhile isSpace)).2))
  rw [length_append, h.2] at hsplit
  have hpos : 0 < ((readSign (t.dropWhile isSpace)).2.takeWhile isDigit).length := by
    rw [length_pos_iff]
    simpa using hds
  have hs := readSign_length_le (t.dropWhile isSpace)
  omega

end Openwsman
