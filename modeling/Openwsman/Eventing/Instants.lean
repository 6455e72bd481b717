import Openwsman.Eventing.Expiry

/-!
# The order of expiry times

A date and a time in an Expires denotes an instant: its own UTC offset has to be subtracted from it.
`wsman_set_expiretime` adds the offset instead, and an offset of less than one hour loses its minus
before that. In a time zone without daylight saving the expiry time is then the instant, moved by
an amount that depends on the offset only, `shift`. So two texts are ordered as their instants are
when their offsets agree; otherwise the order may be reversed.

The expiry time is stored in an `unsigned long`, so a time before 1970 becomes a very late one, and
a number that is too large for an `int` is read modulo `2 ^ 32`.
-/

namespace Openwsman

open Option Calendar

/-! ## What a text says -/

structure WrittenInt where
  minus : Bool
  amount : ℕ
  deriving DecidableEq, Repr

def WrittenInt.value (n : WrittenInt) : ℤ := if n.minus then -(n.amount : ℤ) else n.amount

def scanWritten (t : List Char) : Option (WrittenInt × List Char) :=
  let s := readSign (t.dropWhile isSpace)
  let ds := s.2.takeWhile isDigit
  if ds.isEmpty then none else some (⟨s.1, digitsValue ds⟩, s.2.dropWhile isDigit)

structure WrittenDatetime where
  year : WrittenInt
  month : WrittenInt
  day : WrittenInt
  hour : WrittenInt
  minute : WrittenInt
  second : WrittenInt
  offsetHours : WrittenInt
  offsetMins : WrittenInt
  deriving DecidableEq, Repr

def scanDatetime (text : String) : Option WrittenDatetime := do
  let (year, t) ← scanWritten text.toList
  let (month, t) ← scanWritten (← scanChar '-' t)
  let (day, t) ← scanWritten (← scanChar '-' t)
  let (hour, t) ← scanWritten (← scanChar 'T' t)
  let (minute, t) ← scanWritten (← scanChar ':' t)
  let (second, t) ← scanWritten (← scanChar ':' t)
  let (offsetHours, t) ← scanWritten t
  let (offsetMins, _) ← scanWritten (← scanChar ':' t)
  return ⟨year, month, day, hour, minute, second, offsetHours, offsetMins⟩

namespace WrittenDatetime

variable (d : WrittenDatetime)

def civil : Civil :=
  ⟨d.year.value, d.month.value, d.day.value, d.hour.value, d.minute.value, d.second.value⟩

def offset : ℤ :=
  if d.offsetHours.minus then -(60 * d.offsetHours.amount + d.offsetMins.value)
  else 60 * d.offsetHours.amount + d.offsetMins.value

def instant : ℤ := toSeconds d.civil - 60 * d.offset

def Fits : Prop :=
  ∀ n ∈ [d.year, d.month, d.day, d.hour, d.minute, d.second, d.offsetHours, d.offsetMins],
    n.amount < 2 ^ 31

def shift : ℤ := if d.offsetHours.minus ∧ d.offsetHours.amount = 0 then 0 else 2 * d.offset

def expiry (zone : ℤ) : ℤ := d.instant + 60 * d.shift - zone

end WrittenDatetime

/-! ## What is read -/

def WrittenInt.read (n : WrittenInt) : ℤ := toCInt (clampLong n.value)

theorem WrittenInt.read_of_lt {n : WrittenInt} (h : n.amount < 2 ^ 31) : n.read = n.value := by
  have hbounds : -2 ^ 31 < n.value ∧ n.value < 2 ^ 31 := by
    rw [value]
    split <;> omega
  rw [read, clampLong_of_mem (by omega) (by omega), toCInt_of_mem (by omega) (by omega)]

theorem scanInt_eq (t : List Char) : scanInt t = (scanWritten t).map fun r ↦ (r.1.read, r.2) := by
  rw [scanInt, strtol, scanWritten]
  dsimp only
  split <;> rfl

def WrittenDatetime.readCivil (d : WrittenDatetime) : Civil :=
  ⟨d.year.read, d.month.read, d.day.read, d.hour.read, d.minute.read, d.second.read⟩

section

variable {α β γ : Type} {F : ℤ × List Char → Option α} {K : α → Option γ} {H : β → Option γ}

theorem scanInt_bind {G : WrittenInt × List Char → Option β} (t : List Char)
    (h : ∀ n r, (F (n.read, r)).bind K = (G (n, r)).bind H) :
    ((scanInt t).bind F).bind K = ((scanWritten t).bind G).bind H := by
  rw [scanInt_eq]
  cases scanWritten t with
  | none => rfl
  | some r => exact h r.1 r.2

theorem scanChar_bind {F : List Char → Option α} {G : List Char → Option β} (c : Char)
    (t : List Char) (h : ∀ r, (F r).bind K = (G r).bind H) :
    ((scanChar c t).bind F).bind K = ((scanChar c t).bind G).bind H := by
  cases scanChar c t with
  | none => rfl
  | some r => exact h r

end

theorem wsDeserializeDatetime_eq (text : String) :
    wsDeserializeDatetime text = (scanDatetime text).bind fun d ↦
      if datetimeInRange d.readCivil d.offsetHours.read d.offsetMins.read then
        some ⟨d.readCivil, if d.offsetHours.read < 0
          then 60 * d.offsetHours.read - d.offsetMins.read
          else 60 * d.offsetHours.read + d.offsetMins.read⟩
      else none := by
  have hend (o : Option XmlDatetime) : o = o.bind some := (bind_fun_some o).symm
  rw [hend (wsDeserializeDatetime text)]
  refine scanInt_bind _ fun year t ↦ ?_
  rw [bind_fun_some]
  refine scanChar_bind '-' t fun t ↦ scanInt_bind t fun month t ↦ ?_
  refine scanChar_bind '-' t fun t ↦ scanInt_bind t fun day t ↦ ?_
  refine scanChar_bind 'T' t fun t ↦ scanInt_bind t fun hour t ↦ ?_
  refine scanChar_bind ':' t fun t ↦ scanInt_bind t fun minute t ↦ ?_
  refine scanChar_bind ':' t fun t ↦ scanInt_bind t fun second t ↦ ?_
  refine scanInt_bind t fun offsetHours t ↦ ?_
  exact scanChar_bind ':' t fun t ↦ scanInt_bind t fun offsetMins t ↦ rfl

theorem head?_ne_of_scanDatetime {text : String} {d : WrittenDatetime}
    (h : scanDatetime text = some d) : ¬(text.toList.head? == some 'P') = true := by
  intro hP
  obtain ⟨r, hr⟩ := List.head?_eq_some_iff.mp (beq_iff_eq.mp hP)
  have hnone : scanWritten text.toList = none := by
    rw [hr]
    rfl
  rw [scanDatetime, hnone] at h
  cases h

namespace WrittenDatetime

variable {d : WrittenDatetime}

theorem Fits.readCivil_eq (h : d.Fits) : d.readCivil = d.civil := by
  have hread : ∀ n ∈ [d.year, d.month, d.day, d.hour, d.minute, d.second, d.offsetHours,
      d.offsetMins], n.read = n.value := fun n hn ↦ WrittenInt.read_of_lt (h n hn)
  simp only [List.forall_mem_cons] at hread
  obtain ⟨hyear, hmonth, hday, hhour, hminute, hsecond, -⟩ := hread
  rw [readCivil, civil, hyear, hmonth, hday, hhour, hminute, hsecond]

theorem Fits.mktime_add (h : d.Fits) (zone : ℤ) :
    (TimeZone.fixed zone).mktime d.readCivil + 60 * (if d.offsetHours.read < 0
        then 60 * d.offsetHours.read - d.offsetMins.read
        else 60 * d.offsetHours.read + d.offsetMins.read) = d.expiry zone := by
  have hhours : d.offsetHours.read = d.offsetHours.value :=
    WrittenInt.read_of_lt (h _ (by simp))
  have hmins : d.offsetMins.read = d.offsetMins.value := WrittenInt.read_of_lt (h _ (by simp))
  rw [h.readCivil_eq, hhours, hmins, expiry, instant, shift, offset, WrittenInt.value]
  change toSeconds d.civil - zone + _ = _
  rcases hminus : d.offsetHours.minus with _ | _
  · simp only [Bool.false_eq_true, if_false, false_and]
    rw [if_neg (by omega)]
    ring
  · simp only [if_true, true_and]
    by_cases hzero : d.offsetHours.amount = 0
    · rw [if_pos hzero, hzero]
      simp
      ring
    · rw [if_neg hzero, if_pos (by omega)]
      ring

theorem shift_eq_of_offset_eq {d₁ d₂ : WrittenDatetime}
    (h₁ : 0 ≤ d₁.offsetMins.value ∧ d₁.offsetMins.value ≤ 59)
    (h₂ : 0 ≤ d₂.offsetMins.value ∧ d₂.offsetMins.value ≤ 59) (h : d₁.offset = d₂.offset) :
    d₁.shift = d₂.shift := by
  -- a minus in front of zero hours leaves less than an hour, which no other offset has
  have hlost : ∀ d : WrittenDatetime, 0 ≤ d.offsetMins.value ∧ d.offsetMins.value ≤ 59 →
      d.shift = if -60 < d.offset ∧ d.offset < 0 then 0 else 2 * d.offset := by
    intro d hd
    rw [shift, offset]
    rcases d.offsetHours.minus with _ | _
    · simp only [Bool.false_eq_true, if_false, false_and]
      rw [if_neg (by omega)]
    · simp only [if_true, true_and]
      split <;> split <;> omega
  rw [hlost d₁ h₁, hlost d₂ h₂, h]

end WrittenDatetime

theorem toSeconds_bounds {tm : Civil} {hours mins : ℤ} (h : datetimeInRange tm hours mins = true) :
    -2 ^ 40 < toSeconds tm ∧ toSeconds tm < 2 ^ 40 := by
  simp only [datetimeInRange, Bool.and_eq_true, decide_eq_true_eq] at h
  simp only [toSeconds, toDays, daysOfYears, daysOfMonths]
  split <;> omega

theorem wsmanSetExpiretime_datetime {zone : ℤ} (hzone : |zone| < 86400) {now e : ℕ} {text : String}
    {d : WrittenDatetime} (hd : scanDatetime text = some d) (hfits : d.Fits)
    (h : wsmanSetExpiretime (xmlDatetime (.fixed zone)) text now = .ok e) :
    e = toULong (d.expiry zone) ∧ d.expiry zone < 2 ^ 64 ∧
      (0 ≤ d.offsetMins.value ∧ d.offsetMins.value ≤ 59) := by
  obtain ⟨t, ht, rfl⟩ := wsmanSetExpiretime_eq_ok_iff.mp h
  rw [requestedTime, if_neg (head?_ne_of_scanDatetime hd), xmlDatetime, wsDeserializeDatetime_eq,
    hd, bind_some] at ht
  split at ht
  · next hrange =>
    rw [map_some, some.injEq, hfits.mktime_add] at ht
    subst ht
    have hbounds := (toSeconds_bounds hrange).2
    have hmins : d.offsetMins.read = d.offsetMins.value :=
      WrittenInt.read_of_lt (hfits _ (by simp))
    simp only [datetimeInRange, Bool.and_eq_true, decide_eq_true_eq] at hrange
    rw [abs_lt] at hzone
    refine ⟨rfl, ?_, by omega⟩
    rw [← hfits.mktime_add]
    change toSeconds d.readCivil - zone + _ < _
    split <;> omega
  · cases ht

/-! ## The order of expiry times -/

def OrderedAsInstants (d₁ d₂ : WrittenDatetime) (e₁ e₂ : ℕ) : Prop :=
  (d₁.instant < d₂.instant → e₁ < e₂) ∧ (d₁.instant = d₂.instant → e₁ = e₂)

def middayWith (day hours : ℕ) : WrittenDatetime :=
  ⟨⟨false, 2026⟩, ⟨false, 1⟩, ⟨false, day⟩, ⟨false, 12⟩, ⟨false, 0⟩, ⟨false, 0⟩, ⟨false, hours⟩,
    ⟨false, 0⟩⟩

end Openwsman
