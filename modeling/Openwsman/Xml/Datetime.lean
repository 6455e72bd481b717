import Openwsman.Lib.Calendar
import Openwsman.Libc.Decimal
import Openwsman.Libc.Memory

/-!
# Dates and times

`ws_deserialize_datetime` of `wsman-xml-serialize.c`, the end of `wsman_set_expiretime` that makes a
point in time of what it read, and `wsman_expiretime2xmldatetime` of `wsman-soap.c`, which writes
the expiry time of a subscription.

The time zone of the C library is a parameter. The writer writes local time and calls it UTC, and
the reader takes the fields for local time and then adds the offset that the text gives. In a zone
without daylight saving the one undoes the other. But the reader takes only years from 1900 to 3000,
whereas the writer writes all of them.
-/

namespace Openwsman

open Int Nat Bool Option List Calendar

/-! ## Reading -/

def scanInt (t : List Char) : Option (ℤ × List Char) := (strtol t).map fun r ↦ (toCInt r.1, r.2)

def scanChar (c : Char) : List Char → Option (List Char)
  | [] => none
  | d :: t => if d == c then some t else none

/-- `XML_DATETIME`. The year and the month are those of the calendar. -/
structure XmlDatetime where
  tm : Civil
  tzMin : ℤ
  deriving DecidableEq, Repr

def scanBehindYear (year : ℤ) (t : List Char) : Option (Civil × ℤ × ℤ) := do
  let (month, t) ← scanInt (← scanChar '-' t)
  let (day, t) ← scanInt (← scanChar '-' t)
  let (hour, t) ← scanInt (← scanChar 'T' t)
  let (minute, t) ← scanInt (← scanChar ':' t)
  let (second, t) ← scanInt (← scanChar ':' t)
  let (hours, t) ← scanInt t
  let (mins, _) ← scanInt (← scanChar ':' t)
  return (⟨year, month, day, hour, minute, second⟩, hours, mins)

def datetimeInRange (tm : Civil) (hours mins : ℤ) : Bool :=
  1900 ≤ tm.year && tm.year ≤ 3000 && 1 ≤ tm.month && tm.month ≤ 12 && 1 ≤ tm.day && tm.day ≤ 31 &&
    0 ≤ tm.hour && tm.hour ≤ 23 && 0 ≤ tm.minute && tm.minute ≤ 59 && 0 ≤ tm.second &&
    tm.second ≤ 61 && -24 ≤ hours && hours ≤ 24 && 0 ≤ mins && mins ≤ 59

def wsDeserializeDatetime (text : String) : Option XmlDatetime := do
  let (year, t) ← scanInt text.toList
  let (tm, hours, mins) ← scanBehindYear year t
  if datetimeInRange tm hours mins then
    some ⟨tm, if hours < 0 then 60 * hours - mins else 60 * hours + mins⟩
  else none

structure TimeZone where
  localtime : ℤ → Civil
  mktime : Civil → ℤ

/-- A time zone a fixed number of seconds from Greenwich. A day behind the end of its month is one
of the next month. -/
def TimeZone.fixed (offset : ℤ) : TimeZone where
  localtime t := ofSeconds (t + offset)
  mktime tm := toSeconds tm - offset

section

variable (zone : TimeZone)

def xmlDatetime (text : String) : Option ℤ :=
  (wsDeserializeDatetime text).map fun tmx ↦ zone.mktime tmx.tm + 60 * tmx.tzMin

/-! ## Writing -/

def printUInt (v : ℤ) : List Char := Nat.toDigits 10 (v % 2 ^ 32).toNat

def printTwo (v : ℤ) : List Char := printUInt (v / 10) ++ printUInt (v % 10)

def printBehindYear (tm : Civil) : List Char :=
  '-' :: (printTwo tm.month ++ '-' :: (printTwo tm.day ++ 'T' :: (printTwo tm.hour ++
    ':' :: (printTwo tm.minute ++ ':' :: (printTwo tm.second ++
      '+' :: (printTwo 0 ++ ':' :: printTwo 0))))))

def toTimeT (expire : ℕ) : ℤ := (expire : ℤ).bmod (2 ^ 64)

def localYear (expire : ℕ) : ℤ := (zone.localtime (toTimeT expire)).year

/-- `wsman_expiretime2xmldatetime`. If the year is no `int`, or no `int` when counted from 1900,
`localtime_r` fails and the fields are not written. The text has room for 29 characters. -/
def wsmanExpiretime2xmldatetime (expire : ℕ) : CResult String :=
  let tm := zone.localtime (toTimeT expire)
  if -2 ^ 31 + 1900 ≤ tm.year ∧ tm.year < 2 ^ 31 then
    .value (String.ofList ((printUInt tm.year ++ printBehindYear tm).take 29))
  else .undefined

end

/-! ## Reading what was written -/

variable {v : ℤ}

theorem isDigit_of_mem_printUInt {c : Char} (h : c ∈ printUInt v) : isDigit c = true :=
  isDigit_of_mem_toDigits h

theorem printUInt_ne_nil (v : ℤ) : printUInt v ≠ [] := toDigits_ne_nil

theorem scanInt_printUInt (h : -2 ^ 31 ≤ v) (h' : v < 2 ^ 31) {rest : List Char}
    (hrest : EndsNumeral rest) : scanInt (printUInt v ++ rest) = some (v, rest) := by
  rw [scanInt, strtol_digits_append (fun c hc ↦ isDigit_of_mem_printUInt hc) hrest
    (printUInt_ne_nil v), printUInt, digitsValue_toDigits, map_some]
  have hclamp : clampLong ((v % 2 ^ 32).toNat : ℤ) = v % 2 ^ 32 := by
    rw [clampLong]
    omega
  have hint : toCInt (v % 2 ^ 32) = v := by
    rw [toCInt, show (2 : ℤ) ^ 32 = (2 ^ 32 : ℕ) from rfl, emod_bmod]
    exact toCInt_of_mem h h'
  rw [hclamp, hint]

theorem printUInt_of_lt_ten (h : 0 ≤ v) (h' : v < 10) : printUInt v = [v.toNat.digitChar] := by
  rw [printUInt, emod_eq_of_lt h (by omega), toDigits_of_lt_base (by omega)]

theorem scanInt_printTwo (h : 0 ≤ v) (h' : v < 100) {rest : List Char} (hrest : EndsNumeral rest) :
    scanInt (printTwo v ++ rest) = some (v, rest) := by
  have hdigits : ∀ c ∈ printTwo v, isDigit c = true := by
    intro c hc
    rcases mem_append.mp hc with hc | hc <;> exact isDigit_of_mem_printUInt hc
  have hvalue : digitsValue (printTwo v) = v.toNat := by
    rw [printTwo, printUInt_of_lt_ten (by omega) (by omega),
      printUInt_of_lt_ten (by omega) (by omega), digitsValue]
    simp only [cons_append, nil_append, foldl_cons, foldl_nil]
    rw [toNat_digitChar_of_lt_ten (by omega), toNat_digitChar_of_lt_ten (by omega)]
    omega
  rw [scanInt, strtol_digits_append hdigits hrest (append_ne_nil_of_left_ne_nil
    (printUInt_ne_nil _) _), hvalue, map_some, clampLong_of_mem (by omega) (by omega),
    toCInt_of_mem (by omega) (by omega), toNat_of_nonneg h]

@[simp] theorem scanChar_cons (c : Char) (t : List Char) : scanChar c (c :: t) = some t := by
  rw [scanChar, if_pos (beq_self_eq_true c)]

variable {tm : Civil}

theorem scanBehindYear_printBehindYear (h : tm.InRange) :
    scanBehindYear tm.year (printBehindYear tm) = some (tm, 0, 0) := by
  have hfield {v : ℤ} (hv : 0 ≤ v ∧ v < 100) (c : Char) (hc : isDigit c = false)
      (rest : List Char) : scanInt (printTwo v ++ c :: rest) = some (v, c :: rest) :=
    scanInt_printTwo hv.1 hv.2 (endsNumeral_cons hc rest)
  obtain ⟨hmonth, hday, hhour, hminute, hsecond⟩ := h
  rw [scanBehindYear, printBehindYear]
  refine bind_eq_some_iff.mpr ⟨_, scanChar_cons _ _, ?_⟩
  refine bind_eq_some_iff.mpr ⟨_, hfield (by omega) '-' rfl _, ?_⟩
  refine bind_eq_some_iff.mpr ⟨_, scanChar_cons _ _, ?_⟩
  refine bind_eq_some_iff.mpr ⟨_, hfield (by omega) 'T' rfl _, ?_⟩
  refine bind_eq_some_iff.mpr ⟨_, scanChar_cons _ _, ?_⟩
  refine bind_eq_some_iff.mpr ⟨_, hfield (by omega) ':' rfl _, ?_⟩
  refine bind_eq_some_iff.mpr ⟨_, scanChar_cons _ _, ?_⟩
  refine bind_eq_some_iff.mpr ⟨_, hfield (by omega) ':' rfl _, ?_⟩
  refine bind_eq_some_iff.mpr ⟨_, scanChar_cons _ _, ?_⟩
  refine bind_eq_some_iff.mpr ⟨_, hfield (by omega) '+' rfl _, ?_⟩
  rfl

theorem year_scanBehindYear {year : ℤ} {t : List Char} {hours mins : ℤ}
    (h : scanBehindYear year t = some (tm, hours, mins)) : tm.year = year := by
  rw [scanBehindYear] at h
  iterate 13 obtain ⟨_, -, h⟩ := bind_eq_some_iff.mp h
  cases h
  rfl

theorem length_printTwo (h : 0 ≤ v) (h' : v < 100) : (printTwo v).length = 2 := by
  rw [printTwo, printUInt_of_lt_ten (by omega) (by omega),
    printUInt_of_lt_ten (by omega) (by omega)]
  rfl

theorem length_printBehindYear (h : tm.InRange) : (printBehindYear tm).length = 21 := by
  obtain ⟨hmonth, hday, hhour, hminute, hsecond⟩ := h
  simp only [printBehindYear, length_cons, length_append,
    length_printTwo (v := tm.month) (by omega) (by omega),
    length_printTwo (v := tm.day) (by omega) (by omega),
    length_printTwo (v := tm.hour) (by omega) (by omega),
    length_printTwo (v := tm.minute) (by omega) (by omega),
    length_printTwo (v := tm.second) (by omega) (by omega),
    length_printTwo (v := 0) (by omega) (by omega)]

theorem length_printUInt_le (v : ℤ) : (printUInt v).length ≤ 10 := by
  rw [printUInt, length_toDigits_le_iff (by decide) (by decide)]
  omega

theorem length_printUInt_year (h : 0 ≤ v) (h' : v ≤ 3000) : (printUInt v).length ≤ 4 := by
  rw [printUInt, length_toDigits_le_iff (by decide) (by decide)]
  omega

section

variable (zone : TimeZone) (expire : ℕ)

def yearReadable : Bool := 1900 ≤ localYear zone expire && localYear zone expire ≤ 3000

variable {zone expire}

theorem toULong_toTimeT (h : expire < 2 ^ 64) : toULong (toTimeT expire) = expire := by
  have hmod : toTimeT expire % ((2 ^ 64 : ℕ) : ℤ) = (expire : ℤ) % ((2 ^ 64 : ℕ) : ℤ) :=
    bmod_emod
  rw [emod_eq_of_lt (a := (expire : ℤ)) (by omega) (by omega)] at hmod
  have hmod' : toTimeT expire % 2 ^ 64 = expire := by exact_mod_cast hmod
  rw [toULong, hmod', toNat_natCast]

theorem scanInt_written (tm : Civil) (h : -2 ^ 31 ≤ tm.year) (h' : tm.year < 2 ^ 31) :
    ∃ rest, scanInt ((printUInt tm.year ++ printBehindYear tm).take 29) = some (tm.year, rest) := by
  have hlen := length_printUInt_le tm.year
  obtain ⟨k, hk⟩ : ∃ k, 29 - (printUInt tm.year).length = k + 1 := ⟨28 - (printUInt tm.year).length,
    by omega⟩
  rw [take_append, take_of_length_le (by omega), hk, printBehindYear, take_succ_cons]
  exact ⟨_, scanInt_printUInt h h' (endsNumeral_cons rfl _)⟩

theorem wsDeserializeDatetime_written {tm : Civil} (hrange : tm.InRange) (h : 1900 ≤ tm.year)
    (h' : tm.year ≤ 3000) :
    wsDeserializeDatetime (String.ofList ((printUInt tm.year ++ printBehindYear tm).take 29)) =
      some ⟨tm, 0⟩ := by
  have hlen := length_printUInt_year (by omega) h'
  have hyear := scanInt_printUInt (v := tm.year) (by omega) (by omega)
    (endsNumeral_cons (c := '-') rfl (printBehindYear tm).tail)
  have htail : '-' :: (printBehindYear tm).tail = printBehindYear tm := rfl
  have hin : datetimeInRange tm 0 0 = true := by
    obtain ⟨hmonth, hday, hhour, hminute, hsecond⟩ := hrange
    simp only [datetimeInRange, and_eq_true, decide_eq_true_eq]
    omega
  rw [htail] at hyear
  rw [wsDeserializeDatetime, String.toList_ofList, take_of_length_le, hyear,
    bind_eq_bind, bind_some]
  · dsimp only
    rw [scanBehindYear_printBehindYear hrange, bind_eq_bind, bind_some, if_pos hin]
    rfl
  · rw [length_append, length_printBehindYear hrange]
    omega

variable {text : String}

theorem wsDeserializeDatetime_eq_none {year : ℤ} {rest : List Char}
    (hscan : scanInt text.toList = some (year, rest)) (h : ¬(1900 ≤ year ∧ year ≤ 3000)) :
    wsDeserializeDatetime text = none := by
  rw [wsDeserializeDatetime, hscan, bind_eq_bind, bind_some]
  dsimp only
  cases hbehind : scanBehindYear year rest with
  | none => rfl
  | some fields =>
    obtain ⟨tm, hours, mins⟩ := fields
    rw [bind_eq_bind, bind_some, if_neg]
    intro hin
    rw [← year_scanBehindYear hbehind] at h
    simp only [datetimeInRange, and_eq_true, decide_eq_true_eq] at hin
    omega

theorem xmlDatetime_wsmanExpiretime2xmldatetime {offset : ℤ}
    (h : wsmanExpiretime2xmldatetime (.fixed offset) expire = .value text) :
    xmlDatetime (.fixed offset) text =
      if yearReadable (.fixed offset) expire then some (toTimeT expire) else none := by
  rw [wsmanExpiretime2xmldatetime] at h
  split at h
  · next hyear =>
    cases h
    split
    · next hread =>
      rw [yearReadable, and_eq_true, decide_eq_true_eq, decide_eq_true_eq] at hread
      have hrange : ((TimeZone.fixed offset).localtime (toTimeT expire)).InRange :=
        inRange_ofSeconds _
      rw [xmlDatetime, wsDeserializeDatetime_written hrange hread.1 hread.2, map_some]
      dsimp only [TimeZone.fixed]
      rw [toSeconds_ofSeconds, some.injEq]
      omega
    · next hread =>
      rw [yearReadable, and_eq_true, decide_eq_true_eq, decide_eq_true_eq] at hread
      obtain ⟨rest, hscan⟩ :=
        scanInt_written ((TimeZone.fixed offset).localtime (toTimeT expire)) (by omega) hyear.2
      rw [xmlDatetime, wsDeserializeDatetime_eq_none (by rw [String.toList_ofList]; exact hscan)
        hread, map_none]
  · cases h

theorem head?_wsmanExpiretime2xmldatetime
    (h : wsmanExpiretime2xmldatetime zone expire = .value text) :
    ∃ c, text.toList.head? = some c ∧ isDigit c = true := by
  rw [wsmanExpiretime2xmldatetime] at h
  split at h
  · cases h
    generalize zone.localtime (toTimeT expire) = tm
    obtain ⟨c, cs, hcs⟩ := exists_cons_of_ne_nil (printUInt_ne_nil tm.year)
    refine ⟨c, ?_, ?_⟩
    · rw [String.toList_ofList, hcs]
      rfl
    · apply isDigit_of_mem_printUInt (v := tm.year)
      rw [hcs]
      exact mem_cons_self
  · cases h

end

end Openwsman
