import Openwsman.Xml.Seconds
import Mathlib.Algebra.BigOperators.Group.List.Basic

/-!
# The grammar of durations

A value of `xs:duration` is a list of components with descending units, those of the time behind a
`T`; only seconds may have a fraction. `XsDuration` is such a value with its digits, and `text`
writes it.
-/

namespace Openwsman

open Option List

/-! ## Components -/

inductive DurationField where
  | years | months | days | hours | minutes | seconds
  deriving DecidableEq, Repr

namespace DurationField

def letter : DurationField → Char
  | years => 'Y'
  | months | minutes => 'M'
  | days => 'D'
  | hours => 'H'
  | seconds => 'S'

def isTime : DurationField → Bool
  | years | months | days => false
  | hours | minutes | seconds => true

def bit : DurationField → ℕ
  | years => 32
  | months => 16
  | days => 8
  | hours => 4
  | minutes => 2
  | seconds => 1

def inSeconds : DurationField → ℕ
  | years => 60 * 60 * 24 * 30 * 12
  | months => 60 * 60 * 24 * 30
  | days => 60 * 60 * 24
  | hours => 60 * 60
  | minutes => 60
  | seconds => 1

theorem inSeconds_pos (f : DurationField) : 0 < f.inSeconds := by
  cases f <;> decide

theorem bit_le_of_isTime {f : DurationField} (h : f.isTime = true) : f.bit ≤ 4 := by
  revert h
  cases f <;> decide

theorem lt_bit_of_not_isTime {f : DurationField} (h : f.isTime = false) : 4 < f.bit := by
  revert h
  cases f <;> decide

theorem bit_lt (f : DurationField) : f.bit < 64 := by
  cases f <;> decide

end DurationField

def IsNumeral (ds : List Char) : Prop := ds ≠ [] ∧ ∀ c ∈ ds, isDigit c = true

structure DurationComponent where
  field : DurationField
  whole : {ds : List Char // IsNumeral ds}
  frac : Option {ds : List Char // IsNumeral ds}
  frac_seconds : frac.isSome = true → field = .seconds

namespace DurationComponent

variable (c : DurationComponent)

def fracText (frac : Option {ds : List Char // IsNumeral ds}) : List Char :=
  frac.elim [] fun ds ↦ '.' :: ds.1

def text : List Char := c.whole.1 ++ (fracText c.frac ++ [c.field.letter])

def amount : ℕ := digitsValue c.whole.1

def read : ℤ :=
  let v := toCInt (clampLong c.amount)
  match c.frac with
  | none => v
  | some ds =>
    let f := toDouble (digitsValue (c.whole.1 ++ ds.1) * (10 : ℚ) ^ ((0 : ℤ) - ds.1.length))
    if doubleToInt (toDouble (f + 1 / 2)) > v then v + 1 else v

end DurationComponent

structure XsDuration where
  negative : Bool
  date : List DurationComponent
  time : List DurationComponent
  date_isTime : ∀ c ∈ date, c.field.isTime = false
  time_isTime : ∀ c ∈ time, c.field.isTime = true
  descending : (date ++ time).Pairwise fun c d ↦ d.field.bit < c.field.bit
  ne_nil : date ++ time ≠ []

def componentsText (cs : List DurationComponent) : List Char := cs.flatMap (·.text)

namespace XsDuration

variable (d : XsDuration)

def bodyText : List Char :=
  componentsText d.date ++ if d.time.isEmpty then [] else 'T' :: componentsText d.time

def text : String :=
  String.ofList (if d.negative then '-' :: 'P' :: d.bodyText else 'P' :: d.bodyText)

def components : List DurationComponent := d.date ++ d.time

def Whole : Prop := ∀ c ∈ d.components, c.frac = none

def Fits : Prop := ∀ c ∈ d.components, c.amount < 2 ^ 31

def signed (n : ℤ) : ℤ := if d.negative then -n else n

def seconds : ℤ := d.signed (d.components.map fun c ↦ (c.field.inSeconds * c.amount : ℤ)).sum

end XsDuration

/-! ## One turn of the loop -/

def durationRun (st : DurationState) (t : List Char) : Option DurationState :=
  durationLoop t.length st t

variable {t : List Char}

theorem durationLoop_eq_durationRun {fuel : ℕ} (st : DurationState) (h : t.length ≤ fuel) :
    durationLoop fuel st t = durationRun st t := by
  induction fuel, h using Nat.le_induction with
  | base => rfl
  | succ fuel h ih => rw [durationLoop_of_length_le fuel st t h, ih]

@[simp] theorem durationRun_nil (st : DurationState) : durationRun st [] = some st := rfl

theorem durationRun_T (st : DurationState) (r : List Char) :
    durationRun st ('T' :: r) = durationRun { st with timeHandled := true } r := by
  rw [durationRun, length_cons, durationLoop, if_pos (by decide), durationRun]

theorem durationRun_number {st : DurationState} {e : List Char} {v : ℤ} {unit : Char}
    (hT : t.head? ≠ some 'T') (h : durationNumber st.timeHandled t = some (v, unit :: e)) :
    durationRun st t = (durationUnit st v unit).bind fun st' ↦ durationRun st' e := by
  cases t with
  | nil => exact absurd (durationNumber_length_le h) (by simp)
  | cons c r =>
    have hlen := durationNumber_length_le h
    have hc : ¬(c == 'T') = true := by
      intro heq
      exact hT (by rw [head?_cons, beq_iff_eq.mp heq])
    rw [durationRun, length_cons, durationLoop, if_neg hc, h]
    refine bind_congr fun st' _ ↦ durationLoop_eq_durationRun st' ?_
    rw [length_cons, length_cons] at hlen
    omega

theorem exists_of_durationRun {st st' : DurationState} (hne : t ≠ []) (hT : t.head? ≠ some 'T')
    (h : durationRun st t = some st') :
    ∃ v unit e, durationNumber st.timeHandled t = some (v, unit :: e) ∧
      (durationUnit st v unit).bind (fun st' ↦ durationRun st' e) = some st' := by
  obtain ⟨c, r, rfl⟩ := exists_cons_of_ne_nil hne
  have hc : ¬(c == 'T') = true := by
    intro heq
    exact hT (by rw [head?_cons, beq_iff_eq.mp heq])
  rcases hn : durationNumber st.timeHandled (c :: r) with _ | ⟨v, _ | ⟨unit, e⟩⟩
  · rw [durationRun, length_cons, durationLoop, if_neg hc, hn] at h
    cases h
  · rw [durationRun, length_cons, durationLoop, if_neg hc, hn] at h
    cases h
  · rw [durationRun_number hT hn] at h
    exact ⟨v, unit, e, rfl, h⟩

namespace DurationState

variable (st : DurationState)

def get : DurationField → ℤ
  | .years => st.years
  | .months => st.months
  | .days => st.days
  | .hours => st.hours
  | .minutes => st.mins
  | .seconds => st.secs

def set (f : DurationField) (v : ℤ) : DurationState :=
  match f with
  | .years => { st with years := v, got := f.bit }
  | .months => { st with months := v, got := f.bit }
  | .days => { st with days := v, got := f.bit }
  | .hours => { st with hours := v, got := f.bit }
  | .minutes => { st with mins := v, got := f.bit }
  | .seconds => { st with secs := v, got := f.bit }

variable (f : DurationField) (v : ℤ)

@[simp] theorem got_set : (st.set f v).got = f.bit := by
  cases f <;> rfl

@[simp] theorem timeHandled_set : (st.set f v).timeHandled = st.timeHandled := by
  cases f <;> rfl

theorem get_set_of_ne {f g : DurationField} (h : g ≠ f) (v : ℤ) :
    (st.set f v).get g = st.get g := by
  cases f <;> cases g <;> first | rfl | exact absurd rfl h

theorem seconds_set : (st.set f v).seconds = st.seconds + f.inSeconds * (v - st.get f) := by
  cases f <;> simp [set, get, seconds, DurationField.inSeconds] <;> ring

def Fresh : Prop := ∀ f : DurationField, f.bit < st.got → st.get f = 0

end DurationState

theorem DurationState.fresh_init : DurationState.Fresh {} := by
  intro f _
  cases f <;> rfl

variable {st st' : DurationState}

theorem DurationState.Fresh.set {f : DurationField} (h : st.Fresh) (hf : f.bit < st.got) (v : ℤ) :
    (st.set f v).Fresh := by
  intro g hg
  rw [got_set] at hg
  have hne : g ≠ f := by
    rintro rfl
    exact absurd hg (lt_irrefl _)
  rw [get_set_of_ne st hne]
  exact h g (hg.trans hf)

/-- The `switch` accepts the units of the part of the text that is read, if they descend. -/
theorem durationUnit_letter {f : DurationField} (h : f.isTime = st.timeHandled) (v : ℤ) :
    durationUnit st v f.letter = if f.bit < st.got then some (st.set f v) else none := by
  have hswap (k : ℕ) (s : DurationState) :
      (if st.got ≤ k then none else some s) = if k < st.got then some s else none := by
    by_cases hk : st.got ≤ k
    · rw [if_pos hk, if_neg (Nat.not_lt.mpr hk)]
    · rw [if_neg hk, if_pos (Nat.lt_of_not_le hk)]
  cases f <;> simp [durationUnit, DurationField.letter, ← h, DurationField.isTime,
    DurationField.bit, DurationState.set, hswap]

theorem exists_of_durationUnit {v : ℤ} {unit : Char} (h : durationUnit st v unit = some st') :
    ∃ f : DurationField, f.isTime = st.timeHandled ∧ unit = f.letter := by
  rw [durationUnit.eq_def] at h
  rcases htime : st.timeHandled with _ | _
  · simp only [htime] at h
    split at h
    · exact ⟨.years, rfl, rfl⟩
    · exact ⟨.months, rfl, rfl⟩
    · exact ⟨.days, rfl, rfl⟩
    · simp at h
    · simp at h
    · cases h
  · simp only [htime] at h
    split at h
    · simp at h
    · exact ⟨.minutes, rfl, rfl⟩
    · simp at h
    · exact ⟨.hours, rfl, rfl⟩
    · exact ⟨.seconds, rfl, rfl⟩
    · cases h

/-! ## Reading a component -/

theorem DurationField.isDigit_letter (f : DurationField) : isDigit f.letter = false := by
  cases f <;> decide

theorem readExponent_letter (f : DurationField) (e : List Char) :
    readExponent (f.letter :: e) = (0, f.letter :: e) := by
  rw [readExponent, if_neg]
  cases f <;> simp [DurationField.letter]

theorem DurationComponent.head?_text_ne (c : DurationComponent) (e : List Char) :
    (c.text ++ e).head? ≠ some 'T' := by
  obtain ⟨d, ds, hds⟩ := exists_cons_of_ne_nil c.whole.2.1
  have hd : isDigit d = true := c.whole.2.2 d (by rw [hds]; exact mem_cons_self)
  rw [text, hds, cons_append, cons_append, head?_cons]
  rintro heq
  rw [some.inj heq] at hd
  exact absurd hd (by decide)

theorem durationNumber_text (c : DurationComponent) (e : List Char) :
    durationNumber c.field.isTime (c.text ++ e) = some (c.read, c.field.letter :: e) := by
  obtain ⟨f, ⟨ds, hne, hds⟩, frac, hsec⟩ := c
  rcases frac with _ | ⟨fs, hfne, hfs⟩
  · have hrest := endsNumeral_cons f.isDigit_letter e
    have hpoint : ¬(some f.letter == some '.') = true := by
      cases f <;> decide
    simp only [DurationComponent.text, DurationComponent.fracText, elim_none,
      nil_append, append_assoc, cons_append]
    rw [durationNumber, strtol_digits_append hds hrest hne]
    dsimp only
    rw [head?_cons, if_neg (by simp [hpoint])]
    rfl
  · obtain rfl : f = .seconds := hsec rfl
    have hrest := endsNumeral_cons (c := 'S') (by decide) e
    have hpoint := endsNumeral_cons (c := '.') (by decide) (fs ++ 'S' :: e)
    simp only [DurationComponent.text, DurationComponent.fracText, elim_some,
      append_assoc, cons_append, nil_append, DurationField.letter]
    rw [durationNumber, strtol_digits_append hds hpoint hne]
    dsimp only
    rw [strtodDecimal_point hds hne hrest (readExponent_letter .seconds e) hfs]
    rfl

theorem durationRun_component {c : DurationComponent} (h : c.field.isTime = st.timeHandled)
    (e : List Char) :
    durationRun st (c.text ++ e) =
      if c.field.bit < st.got then durationRun (st.set c.field c.read) e else none := by
  have hnumber := durationNumber_text c e
  rw [h] at hnumber
  rw [durationRun_number (c.head?_text_ne e) hnumber, durationUnit_letter h]
  split <;> rfl

def DurationState.setAll (st : DurationState) (cs : List DurationComponent) : DurationState :=
  cs.foldl (fun st c ↦ st.set c.field c.read) st

structure DurationState.Accepts (st : DurationState) (cs : List DurationComponent) : Prop where
  isTime : ∀ c ∈ cs, c.field.isTime = st.timeHandled
  bit_lt : ∀ c ∈ cs, c.field.bit < st.got
  descending : cs.Pairwise fun c d ↦ d.field.bit < c.field.bit

variable {cs : List DurationComponent}

theorem DurationState.accepts_cons {c : DurationComponent} :
    st.Accepts (c :: cs) ↔ c.field.isTime = st.timeHandled ∧ c.field.bit < st.got ∧
      (st.set c.field c.read).Accepts cs := by
  constructor
  · rintro ⟨htime, hbit, hdesc⟩
    rw [pairwise_cons] at hdesc
    refine ⟨htime c mem_cons_self, hbit c mem_cons_self, fun d hd ↦ ?_, fun d hd ↦ ?_, hdesc.2⟩
    · rw [timeHandled_set]
      exact htime d (mem_cons_of_mem c hd)
    · rw [got_set]
      exact hdesc.1 d hd
  · rintro ⟨htime, hbit, hrest⟩
    have hbits : ∀ d ∈ cs, d.field.bit < c.field.bit := fun d hd ↦ by
      simpa using hrest.bit_lt d hd
    refine ⟨fun d hd ↦ ?_, fun d hd ↦ ?_, pairwise_cons.mpr ⟨hbits, hrest.descending⟩⟩
    · rcases mem_cons.mp hd with rfl | hd
      · exact htime
      · simpa using hrest.isTime d hd
    · rcases mem_cons.mp hd with rfl | hd
      · exact hbit
      · exact (hbits d hd).trans hbit

theorem durationRun_components (h : st.Accepts cs) (e : List Char) :
    durationRun st (componentsText cs ++ e) = durationRun (st.setAll cs) e := by
  induction cs generalizing st with
  | nil => rfl
  | cons c cs ih =>
    obtain ⟨htime, hbit, hrest⟩ := DurationState.accepts_cons.mp h
    rw [componentsText, flatMap_cons, append_assoc, durationRun_component htime, if_pos hbit]
    exact ih hrest

theorem DurationState.timeHandled_setAll (st : DurationState) (cs : List DurationComponent) :
    (st.setAll cs).timeHandled = st.timeHandled := by
  induction cs generalizing st with
  | nil => rfl
  | cons c cs ih => exact (ih _).trans (st.timeHandled_set _ _)

theorem DurationState.Accepts.got_le (h : st.Accepts cs) :
    (st.setAll cs).got ≤ st.got ∧ ∀ c ∈ cs, (st.setAll cs).got ≤ c.field.bit := by
  induction cs generalizing st with
  | nil => exact ⟨le_rfl, by simp⟩
  | cons c cs ih =>
    obtain ⟨-, hbit, hrest⟩ := accepts_cons.mp h
    obtain ⟨hle, hall⟩ := ih hrest
    rw [got_set] at hle
    refine ⟨hle.trans hbit.le, fun d hd ↦ ?_⟩
    rcases mem_cons.mp hd with rfl | hd
    · exact hle
    · exact hall d hd

theorem DurationState.got_setAll (st : DurationState) (cs : List DurationComponent) :
    (cs = [] ∧ (st.setAll cs).got = st.got) ∨ ∃ c ∈ cs, (st.setAll cs).got = c.field.bit := by
  induction cs generalizing st with
  | nil => exact .inl ⟨rfl, rfl⟩
  | cons c cs ih =>
    rcases ih (st.set c.field c.read) with ⟨rfl, -⟩ | ⟨d, hd, hgot⟩
    · exact .inr ⟨c, mem_cons_self, st.got_set _ _⟩
    · exact .inr ⟨d, mem_cons_of_mem c hd, hgot⟩

def readSeconds (cs : List DurationComponent) : ℤ :=
  (cs.map fun c ↦ (c.field.inSeconds * c.read : ℤ)).sum

theorem DurationState.Accepts.seconds_setAll (h : st.Accepts cs) (hfresh : st.Fresh) :
    (st.setAll cs).seconds = st.seconds + readSeconds cs ∧ (st.setAll cs).Fresh := by
  induction cs generalizing st with
  | nil => exact ⟨(add_zero _).symm, hfresh⟩
  | cons c cs ih =>
    obtain ⟨-, hbit, hrest⟩ := accepts_cons.mp h
    obtain ⟨hseconds, hfresh'⟩ := ih hrest (hfresh.set hbit _)
    refine ⟨?_, hfresh'⟩
    rw [setAll, foldl_cons, ← setAll, hseconds, seconds_set, hfresh _ hbit, sub_zero,
      readSeconds, readSeconds, map_cons, sum_cons, add_assoc]

/-! ## Texts of the grammar -/

def DurationState.startTime (st : DurationState) : DurationState := { st with timeHandled := true }

theorem DurationState.Fresh.startTime (h : st.Fresh) : st.startTime.Fresh := by
  intro f hf
  have hget : st.startTime.get f = st.get f := by
    cases f <;> rfl
  rw [hget]
  exact h f hf

namespace XsDuration

variable (d : XsDuration)

theorem accepts_date : DurationState.Accepts {} d.date :=
  ⟨d.date_isTime, fun c _ ↦ c.field.bit_lt, (pairwise_append.mp d.descending).1⟩

theorem accepts_time : (DurationState.setAll {} d.date).startTime.Accepts d.time := by
  refine ⟨d.time_isTime, fun c hc ↦ ?_, (pairwise_append.mp d.descending).2.1⟩
  change c.field.bit < (DurationState.setAll {} d.date).got
  rcases DurationState.got_setAll {} d.date with ⟨-, hgot⟩ | ⟨b, hb, hgot⟩
  · rw [hgot]
    exact c.field.bit_lt
  · rw [hgot]
    exact (pairwise_append.mp d.descending).2.2 b hb c hc

/-- The date and the time are read one after the other, and the final test is passed. -/
theorem durationBody_bodyText :
    durationBody ('P' :: d.bodyText) = some (readSeconds d.components) := by
  have hdate := d.accepts_date.seconds_setAll DurationState.fresh_init
  rcases htime : d.time with _ | ⟨c, cs⟩
  · have hrun : durationRun {} d.bodyText = some (DurationState.setAll {} d.date) := by
      rw [bodyText, htime, isEmpty_nil, if_pos rfl, durationRun_components d.accepts_date,
        durationRun_nil]
    have hne : d.date ≠ [] := by
      intro hnil
      exact d.ne_nil (by rw [hnil, htime]; rfl)
    obtain ⟨b, bs, hb⟩ := exists_cons_of_ne_nil hne
    have hgot : (DurationState.setAll {} d.date).got < 64 :=
      (d.accepts_date.got_le.2 b (by rw [hb]; exact mem_cons_self)).trans_lt b.field.bit_lt
    rw [durationBody, show durationLoop d.bodyText.length {} d.bodyText = _ from hrun]
    dsimp only
    rw [if_neg, hdate.1, components, htime, append_nil]
    · simp [DurationState.seconds]
    · rw [DurationState.timeHandled_setAll]
      simp
      omega
  · have hrun : durationRun {} d.bodyText =
        some ((DurationState.setAll {} d.date).startTime.setAll d.time) := by
      have htext := durationRun_components d.accepts_time []
      rw [append_nil] at htext
      rw [bodyText, htime, isEmpty_cons, if_neg Bool.false_ne_true, ← htime,
        durationRun_components d.accepts_date, durationRun_T]
      exact htext
    have hsum := d.accepts_time.seconds_setAll hdate.2.startTime
    have hc : c ∈ d.time := by
      rw [htime]
      exact mem_cons_self
    have hgot : ((DurationState.setAll {} d.date).startTime.setAll d.time).got ≤ 4 :=
      (d.accepts_time.got_le.2 c hc).trans (DurationField.bit_le_of_isTime (d.time_isTime c hc))
    rw [durationBody, show durationLoop d.bodyText.length {} d.bodyText = _ from hrun]
    dsimp only
    rw [if_neg, hsum.1, show (DurationState.setAll {} d.date).startTime.seconds =
      (DurationState.setAll {} d.date).seconds from rfl, hdate.1, components, readSeconds,
      readSeconds, readSeconds, map_append, sum_append]
    · simp [DurationState.seconds]
    · simp
      omega

theorem wsDeserializeDuration_eq :
    wsDeserializeDuration d.text = some (d.signed (readSeconds d.components)) := by
  rw [wsDeserializeDuration, text, String.toList_ofList, signed]
  cases d.negative with
  | false => exact d.durationBody_bodyText
  | true =>
    rw [if_pos rfl, if_pos rfl]
    change (durationBody ('P' :: d.bodyText)).map _ = _
    rw [d.durationBody_bodyText, map_some, zero_sub]

end XsDuration

/-! ## Exact values -/

namespace DurationComponent

variable {c : DurationComponent}

theorem read_of_frac_eq_none (h : c.frac = none) : c.read = toCInt (clampLong c.amount) := by
  rw [read, h]

theorem read_le (h : c.frac = none) : c.read ≤ c.amount := by
  have hlt := toCInt_lt (clampLong c.amount)
  rw [read_of_frac_eq_none h]
  rcases Nat.lt_or_ge c.amount (2 ^ 31) with hfit | hfit
  · rw [clampLong_of_mem (by omega) (by omega), toCInt_of_mem (by omega) (by omega)]
  · omega

theorem read_eq_iff (h : c.frac = none) : c.read = c.amount ↔ c.amount < 2 ^ 31 := by
  have hlt := toCInt_lt (clampLong c.amount)
  rw [read_of_frac_eq_none h]
  constructor
  · intro heq
    omega
  · intro hfit
    rw [clampLong_of_mem (by omega) (by omega), toCInt_of_mem (by omega) (by omega)]

end DurationComponent

theorem readSeconds_eq_iff (h : ∀ c ∈ cs, c.frac = none) :
    readSeconds cs ≤ (cs.map fun c ↦ (c.field.inSeconds * c.amount : ℤ)).sum ∧
      (readSeconds cs = (cs.map fun c ↦ (c.field.inSeconds * c.amount : ℤ)).sum ↔
        ∀ c ∈ cs, c.amount < 2 ^ 31) := by
  induction cs with
  | nil => simp [readSeconds]
  | cons c cs ih =>
    obtain ⟨hle, hiff⟩ := ih fun d hd ↦ h d (mem_cons_of_mem c hd)
    have hc := h c mem_cons_self
    have hpos : (0 : ℤ) < c.field.inSeconds := by exact_mod_cast c.field.inSeconds_pos
    have hread : (c.field.inSeconds * c.read : ℤ) ≤ c.field.inSeconds * c.amount :=
      mul_le_mul_of_nonneg_left (DurationComponent.read_le hc) hpos.le
    have hreadiff : (c.field.inSeconds * c.read : ℤ) = c.field.inSeconds * c.amount ↔
        c.amount < 2 ^ 31 := by
      rw [mul_right_inj' hpos.ne', DurationComponent.read_eq_iff hc]
    rw [readSeconds, map_cons, map_cons, sum_cons, sum_cons, ← readSeconds,
      forall_mem_cons, ← hreadiff, ← hiff]
    refine ⟨add_le_add hread hle, fun heq ↦ ?_, fun ⟨hfirst, hrest⟩ ↦ by rw [hfirst, hrest]⟩
    constructor <;> linarith

namespace XsDuration

variable {d : XsDuration}

theorem signed_inj {m n : ℤ} : d.signed m = d.signed n ↔ m = n := by
  rw [signed, signed]
  split
  · exact neg_inj
  · rfl

theorem Whole.signed_readSeconds (h : d.Whole) :
    d.signed (readSeconds d.components) = d.seconds ↔ d.Fits := by
  rw [seconds, signed_inj, (readSeconds_eq_iff h).2]
  rfl

end XsDuration

/-- **A duration of the grammar without a fraction is read, and the number of seconds is the signed
sum of its components.** -/
theorem wsDeserializeDuration_text (d : XsDuration) (hwhole : d.Whole) (hfits : d.Fits) :
    wsDeserializeDuration d.text = some d.seconds := by
  rw [d.wsDeserializeDuration_eq, hwhole.signed_readSeconds.mpr hfits]

def wholeComponent (field : DurationField) (ds : List Char) (h : IsNumeral ds) :
    DurationComponent :=
  ⟨field, ⟨ds, h⟩, none, fun h ↦ by cases h⟩

def minusThreeAndAHalfDays : XsDuration where
  negative := true
  date := [wholeComponent .days ['3'] ⟨by decide, List.all_eq_true.mp (by decide)⟩]
  time := [wholeComponent .hours ['1', '2'] ⟨by decide, List.all_eq_true.mp (by decide)⟩]
  date_isTime := by simp [wholeComponent, DurationField.isTime]
  time_isTime := by simp [wholeComponent, DurationField.isTime]
  descending := by simp [wholeComponent, DurationField.bit]
  ne_nil := by simp

theorem wsDeserializeDuration_minusThreeAndAHalfDays :
    minusThreeAndAHalfDays.text = "-P3DT12H" ∧ minusThreeAndAHalfDays.Whole ∧
      minusThreeAndAHalfDays.Fits ∧ minusThreeAndAHalfDays.seconds = -302400 ∧
      wsDeserializeDuration minusThreeAndAHalfDays.text = some minusThreeAndAHalfDays.seconds := by
  have hwhole : minusThreeAndAHalfDays.Whole := by
    simp [XsDuration.Whole, XsDuration.components, minusThreeAndAHalfDays, wholeComponent]
  have hfits : minusThreeAndAHalfDays.Fits := by
    simp [XsDuration.Fits, XsDuration.components, minusThreeAndAHalfDays, wholeComponent,
      DurationComponent.amount, digitsValue]
  exact ⟨by decide, hwhole, hfits, by decide, wsDeserializeDuration_text _ hwhole hfits⟩

end Openwsman
