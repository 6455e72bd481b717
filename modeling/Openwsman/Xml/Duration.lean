import Openwsman.Libc.Text
import Mathlib.Data.Rat.Floor
import Mathlib.Data.Int.Log

/-!
# Durations

`ws_deserialize_duration` of `wsman-xml-serialize.c` reads a text such as `P1DT2H30.5S` into a
number of seconds, with months of thirty days and years of twelve such months.

The loop of the source advances a pointer to the unit of the component just read, so every turn
starts behind a `P`, a `T` or a unit. It is written here on the text that is left, with the number
of characters as a bound on the turns.

A fraction of a second is read with `strtod` and rounded to whole seconds in double precision;
`toDouble` is that rounding.
-/

namespace Openwsman

open List

/-! ## Fractions of a second -/

def roundHalfEven (x : ℚ) : ℤ :=
  let n := ⌊x⌋
  if x - n < 1 / 2 then n else if x - n > 1 / 2 then n + 1 else if n % 2 = 0 then n else n + 1

/-- The double nearest to a rational. Numbers too large for a double keep their value, which is
outside the range of every integer type. -/
def toDouble (x : ℚ) : ℚ :=
  if x = 0 then 0
  else
    let ulp : ℚ := (2 : ℚ) ^ max (Int.log 2 |x| - 52) (-1074)
    roundHalfEven (x / ulp) * ulp

/-- Conversion of a double to an `int`; a value out of range gives the smallest one. -/
def doubleToInt (x : ℚ) : ℤ :=
  if -2 ^ 31 ≤ ⌊x⌋ ∧ ⌊x⌋ < 2 ^ 31 then ⌊x⌋ else -2 ^ 31

def readExponent (r : List Char) : ℤ × List Char :=
  match r with
  | c :: r' =>
    let s := readSign r'
    let ds := s.2.takeWhile isDigit
    if (c == 'e' || c == 'E') && !ds.isEmpty then
      (if s.1 then -(digitsValue ds : ℤ) else digitsValue ds, s.2.dropWhile isDigit)
    else (0, r)
  | [] => (0, [])

def strtodDecimal (t : List Char) : ℚ × List Char :=
  let s := readSign (t.dropWhile isSpace)
  let whole := s.2.takeWhile isDigit
  let frac := (s.2.dropWhile isDigit).tail.takeWhile isDigit
  let exp := readExponent ((s.2.dropWhile isDigit).tail.dropWhile isDigit)
  let v : ℚ := (digitsValue (whole ++ frac) : ℚ) * (10 : ℚ) ^ (exp.1 - frac.length)
  (toDouble (if s.1 then -v else v), exp.2)

/-! ## The components -/

/-- What has been read so far. `got` falls from 64 to the weight of the last unit read, so that a
unit is accepted only behind a larger one. -/
structure DurationState where
  years : ℤ := 0
  months : ℤ := 0
  days : ℤ := 0
  hours : ℤ := 0
  mins : ℤ := 0
  secs : ℤ := 0
  got : ℕ := 64
  timeHandled : Bool := false
  deriving DecidableEq, Repr

def durationUnit (st : DurationState) (v : ℤ) (unit : Char) : Option DurationState :=
  match unit with
  | 'Y' => if st.got ≤ 32 || st.timeHandled then none else some { st with years := v, got := 32 }
  | 'M' =>
    if !st.timeHandled then
      if st.got ≤ 16 then none else some { st with months := v, got := 16 }
    else if st.got ≤ 2 then none
    else some { st with mins := v, got := 2 }
  | 'D' => if st.got ≤ 8 || st.timeHandled then none else some { st with days := v, got := 8 }
  | 'H' => if st.got ≤ 4 || !st.timeHandled then none else some { st with hours := v, got := 4 }
  | 'S' => if st.got ≤ 1 || !st.timeHandled then none else some { st with secs := v, got := 1 }
  | _ => none

/-- The number of a component and the text from its unit on. Seconds may have a fraction. -/
def durationNumber (time : Bool) (t : List Char) : Option (ℤ × List Char) :=
  match strtol t with
  | none => none
  | some (l, e) =>
    let v := toCInt l
    if time && e.head? == some '.' then
      let f := strtodDecimal t
      if f.2.head? != some 'S' then none
      else some (if doubleToInt (toDouble (f.1 + 1 / 2)) > v then v + 1 else v, f.2)
    else some (v, e)

def durationLoop : ℕ → DurationState → List Char → Option DurationState
  | _, st, [] => some st
  | 0, _, _ :: _ => none
  | fuel + 1, st, c :: r =>
    if c == 'T' then durationLoop fuel { st with timeHandled := true } r
    else
      match durationNumber st.timeHandled (c :: r) with
      | none => none
      | some (_, []) => none
      | some (v, unit :: rest) => (durationUnit st v unit).bind fun st' ↦ durationLoop fuel st' rest

/-! ## The bound on the turns -/

theorem readExponent_length_le (r : List Char) : (readExponent r).2.length ≤ r.length := by
  cases r with
  | nil => simp [readExponent]
  | cons c r =>
    rw [readExponent]
    split
    · have hdrop := (dropWhile_sublist isDigit (l := (readSign r).2)).length_le
      have hsign := readSign_length_le r
      exact (hdrop.trans hsign).trans (Nat.le_succ _)
    · exact le_rfl

theorem strtodDecimal_length_le (t : List Char) : (strtodDecimal t).2.length ≤ t.length := by
  have hspace := (dropWhile_sublist isSpace (l := t)).length_le
  have hsign := readSign_length_le (t.dropWhile isSpace)
  have hwhole :=
    (dropWhile_sublist isDigit (l := (readSign (t.dropWhile isSpace)).2)).length_le
  have hfrac := (dropWhile_sublist isDigit
    (l := ((readSign (t.dropWhile isSpace)).2.dropWhile isDigit).tail)).length_le
  have hexp := readExponent_length_le
    (((readSign (t.dropWhile isSpace)).2.dropWhile isDigit).tail.dropWhile isDigit)
  rw [length_tail] at hfrac
  rw [strtodDecimal]
  dsimp only
  omega

theorem durationNumber_length_le {time : Bool} {t e : List Char} {v : ℤ}
    (h : durationNumber time t = some (v, e)) : e.length ≤ t.length := by
  rw [durationNumber] at h
  cases hs : strtol t with
  | none => rw [hs] at h; exact absurd h (by simp)
  | some le =>
    obtain ⟨l, e'⟩ := le
    rw [hs] at h
    dsimp only at h
    split at h
    · split at h
      · exact absurd h (by simp)
      · rw [Option.some.injEq, Prod.mk.injEq] at h
        rw [← h.2]
        exact strtodDecimal_length_le t
    · rw [Option.some.injEq, Prod.mk.injEq] at h
      rw [← h.2]
      exact (strtol_rest_length hs).le

/-- Every turn consumes a character, so a bound that covers the text is never reached. -/
theorem durationLoop_of_length_le (fuel : ℕ) :
    ∀ (st : DurationState) (t : List Char), t.length ≤ fuel →
      durationLoop (fuel + 1) st t = durationLoop fuel st t := by
  induction fuel with
  | zero =>
    intro st t h
    rw [length_eq_zero_iff.mp (Nat.le_zero.mp h), durationLoop, durationLoop]
  | succ fuel ih =>
    intro st t h
    cases t with
    | nil => rw [durationLoop, durationLoop]
    | cons c r =>
      rw [durationLoop, durationLoop]
      split
      · exact ih _ r (Nat.le_of_succ_le_succ h)
      cases hn : durationNumber st.timeHandled (c :: r) with
      | none => rfl
      | some ve =>
        obtain ⟨v, e⟩ := ve
        cases e with
        | nil => rfl
        | cons unit rest =>
          have hlen := durationNumber_length_le hn
          rw [length_cons] at hlen h
          -- the number may be empty, but its unit is consumed
          refine Option.bind_congr fun st' _ ↦ ih st' rest ?_
          rw [length_cons] at hlen
          omega

/-! ## The value -/

def DurationState.seconds (st : DurationState) : ℤ :=
  st.secs + 60 * st.mins + 60 * 60 * st.hours + 60 * 60 * 24 * st.days +
    60 * 60 * 24 * 30 * st.months + 60 * 60 * 24 * 30 * 12 * st.years

/-- What follows the optional sign: a `P` and the components, among them at least one, and behind a
`T` at least one of the time. -/
def durationBody (t : List Char) : Option ℤ :=
  match t with
  | 'P' :: r =>
    match durationLoop r.length {} r with
    | none => none
    | some st => if (st.timeHandled && st.got > 4) || st.got == 64 then none else some st.seconds
  | _ => none

/-- `ws_deserialize_duration`: the number of seconds, or `none` where the source returns an
error. -/
def wsDeserializeDuration (text : String) : Option ℤ :=
  match text.toList with
  | '-' :: r => (durationBody r).map fun s ↦ 0 - s
  | t => durationBody t

example : wsDeserializeDuration "P1DT2H30S" = some 93630 := by decide

end Openwsman
