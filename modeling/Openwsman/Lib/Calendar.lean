import Mathlib.Algebra.Ring.Int.Defs
import Mathlib.Order.Lattice

/-!
# The Gregorian calendar

Points in time as seconds from the beginning of 1970, and as a date and a time of day in the
Gregorian calendar, which is extended to all years.

A cycle of the calendar has 400 years, which are 146097 days. Within a cycle the years are counted
from the first of March, so that a leap day is the last day of its year and the first `m` months
have `(153 * m + 2) / 5` days. A cycle has four centuries, a century 25 times four years, and only
the last of these may be a day shorter or longer than the others.

Converting to a date and back is the identity (`toSeconds_ofSeconds`). The other way round it is so
only for dates that exist.
-/

namespace Calendar

structure Civil where
  year : ℤ
  month : ℤ
  day : ℤ
  hour : ℤ
  minute : ℤ
  second : ℤ
  deriving DecidableEq, Repr

/-! ## Years -/

def daysOfYears (y : ℤ) : ℤ := 365 * y + y / 4 - y / 100

def century (d : ℤ) : ℤ := min (d / 36524) 3

def fourYears (d : ℤ) : ℤ := d / 1461

def yearOfBlock (d : ℤ) : ℤ := min (d / 365) 3

def splitYear (d : ℤ) : ℤ × ℤ :=
  let dc := d - 36524 * century d
  let dq := dc - 1461 * fourYears dc
  (100 * century d + 4 * fourYears dc + yearOfBlock dq, dq - 365 * yearOfBlock dq)

theorem splitYear_spec {d : ℤ} (h : 0 ≤ d) (h' : d < 146097) :
    0 ≤ (splitYear d).1 ∧ (splitYear d).1 < 400 ∧ 0 ≤ (splitYear d).2 ∧ (splitYear d).2 ≤ 365 ∧
      daysOfYears (splitYear d).1 + (splitYear d).2 = d := by
  obtain ⟨hc, hc', hdc, hdc'⟩ : 0 ≤ century d ∧ century d ≤ 3 ∧ 0 ≤ d - 36524 * century d ∧
      d - 36524 * century d ≤ 36524 := by
    simp only [century]
    omega
  have hd : d = 36524 * century d + (d - 36524 * century d) := by omega
  simp only [splitYear]
  generalize d - 36524 * century d = dc at *
  generalize century d = c at *
  obtain ⟨hq, hq', hdq, hdq'⟩ : 0 ≤ fourYears dc ∧ fourYears dc ≤ 24 ∧
      0 ≤ dc - 1461 * fourYears dc ∧ dc - 1461 * fourYears dc ≤ 1460 := by
    simp only [fourYears]
    omega
  have hdc : dc = 1461 * fourYears dc + (dc - 1461 * fourYears dc) := by omega
  generalize dc - 1461 * fourYears dc = dq at *
  generalize fourYears dc = q at *
  obtain ⟨hy, hy', hdy, hdy'⟩ : 0 ≤ yearOfBlock dq ∧ yearOfBlock dq ≤ 3 ∧
      0 ≤ dq - 365 * yearOfBlock dq ∧ dq - 365 * yearOfBlock dq ≤ 365 := by
    simp only [yearOfBlock]
    omega
  generalize yearOfBlock dq = y at *
  refine ⟨by omega, by omega, hdy, hdy', ?_⟩
  rw [daysOfYears, show (100 * c + 4 * q + y) / 4 = 25 * c + q by omega,
    show (100 * c + 4 * q + y) / 100 = c by omega]
  omega

/-! ## Months -/

def daysOfMonths (m : ℤ) : ℤ := (153 * m + 2) / 5

def monthOfYear (d : ℤ) : ℤ := (5 * d + 2) / 153

theorem monthOfYear_spec {d : ℤ} (h : 0 ≤ d) (h' : d ≤ 365) :
    0 ≤ monthOfYear d ∧ monthOfYear d < 12 ∧ 0 ≤ d - daysOfMonths (monthOfYear d) ∧
      d - daysOfMonths (monthOfYear d) ≤ 30 := by
  simp only [monthOfYear, daysOfMonths]
  omega

/-! ## Days -/

def toDays (year month day : ℤ) : ℤ :=
  -- January and February belong to the year that began in the last March
  let y := if month ≤ 2 then year - 1 else year
  146097 * (y / 400) + daysOfYears (y % 400) + daysOfMonths ((month + 9) % 12) + day - 719469

def civilMonth (m : ℤ) : ℤ := if m < 10 then m + 3 else m - 9

def ofDays (z : ℤ) : ℤ × ℤ × ℤ :=
  let d := (z + 719468) % 146097
  let y := 400 * ((z + 719468) / 146097) + (splitYear d).1
  let m := monthOfYear (splitYear d).2
  (if civilMonth m ≤ 2 then y + 1 else y, civilMonth m, (splitYear d).2 - daysOfMonths m + 1)

theorem civilMonth_spec {m : ℤ} (h : 0 ≤ m) (h' : m < 12) :
    1 ≤ civilMonth m ∧ civilMonth m ≤ 12 ∧ (civilMonth m + 9) % 12 = m := by
  rw [civilMonth]
  split <;> omega

theorem ofDays_spec (z : ℤ) :
    1 ≤ (ofDays z).2.1 ∧ (ofDays z).2.1 ≤ 12 ∧ 1 ≤ (ofDays z).2.2 ∧ (ofDays z).2.2 ≤ 31 ∧
      toDays (ofDays z).1 (ofDays z).2.1 (ofDays z).2.2 = z := by
  obtain ⟨hy, hy', hdy, hdy', hsplit⟩ := splitYear_spec
    (Int.emod_nonneg (z + 719468) (by decide : (146097 : ℤ) ≠ 0))
    (Int.emod_lt_of_pos (z + 719468) (by decide : (0 : ℤ) < 146097))
  obtain ⟨hm, hm', hdm, hdm'⟩ := monthOfYear_spec hdy hdy'
  obtain ⟨hcm, hcm', hcivil⟩ := civilMonth_spec hm hm'
  have hz := Int.mul_ediv_add_emod (z + 719468) 146097
  rw [← hsplit] at hz
  simp only [ofDays]
  generalize splitYear ((z + 719468) % 146097) = s at *
  generalize (z + 719468) / 146097 = era at *
  generalize monthOfYear s.2 = m at *
  refine ⟨hcm, hcm', by omega, by omega, ?_⟩
  have hyear : (if civilMonth m ≤ 2 then (if civilMonth m ≤ 2 then 400 * era + s.1 + 1
      else 400 * era + s.1) - 1 else if civilMonth m ≤ 2 then 400 * era + s.1 + 1
      else 400 * era + s.1) = 400 * era + s.1 := by
    split
    · omega
    · rfl
  rw [toDays, hyear, hcivil, show (400 * era + s.1) / 400 = era by omega,
    show (400 * era + s.1) % 400 = s.1 by omega]
  omega

/-! ## Seconds -/

def toSeconds (c : Civil) : ℤ :=
  86400 * toDays c.year c.month c.day + 3600 * c.hour + 60 * c.minute + c.second

def ofSeconds (t : ℤ) : Civil where
  year := (ofDays (t / 86400)).1
  month := (ofDays (t / 86400)).2.1
  day := (ofDays (t / 86400)).2.2
  hour := t % 86400 / 3600
  minute := t % 3600 / 60
  second := t % 60

structure Civil.InRange (c : Civil) : Prop where
  month : 1 ≤ c.month ∧ c.month ≤ 12
  day : 1 ≤ c.day ∧ c.day ≤ 31
  hour : 0 ≤ c.hour ∧ c.hour ≤ 23
  minute : 0 ≤ c.minute ∧ c.minute ≤ 59
  second : 0 ≤ c.second ∧ c.second ≤ 59

theorem inRange_ofSeconds (t : ℤ) : (ofSeconds t).InRange := by
  obtain ⟨hm, hm', hd, hd', -⟩ := ofDays_spec (t / 86400)
  refine ⟨⟨hm, hm'⟩, ⟨hd, hd'⟩, ?_, ?_, ?_⟩
  · simp only [ofSeconds]
    omega
  · simp only [ofSeconds]
    omega
  · simp only [ofSeconds]
    omega

theorem toSeconds_ofSeconds (t : ℤ) : toSeconds (ofSeconds t) = t := by
  rw [toSeconds, ofSeconds]
  dsimp only
  rw [(ofDays_spec (t / 86400)).2.2.2.2]
  omega

example : ofSeconds 1794700800 = ⟨2026, 11, 15, 0, 0, 0⟩ := by decide

end Calendar
