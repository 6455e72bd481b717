import Openwsman.Client.Envelope
import Openwsman.Xml.DurationGrammar

/-!
# The timeout of a request

The client writes its timeout into the header `OperationTimeout` as seconds, a point and
milliseconds, and the server reads it as a duration. The milliseconds are written without leading
zeros, so that five of them look like half a second. The number of seconds that is read is the
rounded timeout unless this carries the fraction over one half.
-/

namespace Openwsman

open Nat Option List WsXmlNode

/-! ## The fraction -/

def shownMillis (r : ℕ) : ℕ := if r < 10 then 100 * r else if r < 100 then 10 * r else r

variable {r : ℕ}

theorem length_toDigits_of_lt (h : r < 1000) :
    (Nat.toDigits 10 r).length = if r < 10 then 1 else if r < 100 then 2 else 3 := by
  have hle (k : ℕ) (hk : 0 < k) : (toDigits 10 r).length ≤ k ↔ r < 10 ^ k :=
    length_toDigits_le_iff (by decide) hk
  have hone := hle 1 (by decide)
  have htwo := hle 2 (by decide)
  have hthree := hle 3 (by decide)
  have hpos : 0 < (toDigits 10 r).length := length_pos_iff.mpr toDigits_ne_nil
  split_ifs <;> omega

theorem shownMillis_lt (h : r < 1000) : shownMillis r < 1000 := by
  rw [shownMillis]
  split_ifs <;> omega

variable {q : ℕ}

theorem decimal_eq (h : r < 1000) :
    (digitsValue (Nat.toDigits 10 q ++ Nat.toDigits 10 r) : ℚ) *
      (10 : ℚ) ^ ((0 : ℤ) - (Nat.toDigits 10 r).length) = q + (shownMillis r : ℚ) / 1000 := by
  rw [digitsValue_append, digitsValue_toDigits, digitsValue_toDigits, length_toDigits_of_lt h,
    shownMillis, zero_sub, zpow_neg, zpow_natCast]
  split_ifs <;> push_cast <;> field_simp <;> ring

theorem doubleToInt_thousandths {s : ℕ} (hq : q < 2 ^ 30) (hs : s < 1000) :
    (doubleToInt (toDouble (toDouble (q + (s : ℚ) / 1000) + 1 / 2)) > q) ↔ 500 ≤ s := by
  have hqpos : (0 : ℚ) ≤ q := cast_nonneg q
  have hqlt : (q : ℚ) < 2 ^ 30 := by exact_mod_cast hq
  by_cases hhalf : s = 500
  · -- a half is a double
    subst hhalf
    have hfirst := toDouble_half (m := 2 * q + 1) (by omega)
    have hsecond := toDouble_half (m := 2 * q + 2) (by omega)
    have hx : (q : ℚ) + (500 : ℕ) / 1000 = ((2 * q + 1 : ℕ) : ℚ) / 2 := by
      push_cast
      ring
    have hy : ((2 * q + 1 : ℕ) : ℚ) / 2 + 1 / 2 = ((2 * q + 2 : ℕ) : ℚ) / 2 := by
      push_cast
      ring
    have hz : ((2 * q + 2 : ℕ) : ℚ) / 2 = ((q + 1 : ℤ) : ℚ) := by
      push_cast
      ring
    rw [hx, hfirst, hy, hsecond, hz, doubleToInt, Int.floor_intCast, if_pos ⟨by omega, by omega⟩]
    simp
  · have hspos : (0 : ℚ) ≤ s := cast_nonneg s
    have hslt : (s : ℚ) ≤ 999 := by exact_mod_cast le_of_lt_succ hs
    generalize hx : (q : ℚ) + (s : ℚ) / 1000 = x
    have hxpos : 0 ≤ x := by
      rw [← hx]
      positivity
    have hxlt : x < 2 ^ 30 + 1 := by linarith
    -- each rounding moves a number by less than a thousandth
    have hfirst : |toDouble x - x| ≤ 1 / 2 ^ 22 := by
      rcases eq_or_lt_of_le hxpos with hzero | hpos
      · rw [← hzero]
        norm_num [toDouble]
      · exact abs_toDouble_sub_le hpos (by linarith)
    rw [abs_le] at hfirst
    have hsecond : |toDouble (toDouble x + 1 / 2) - (toDouble x + 1 / 2)| ≤ 1 / 2 ^ 22 := by
      apply abs_toDouble_sub_le
      · linarith
      · linarith
    rw [abs_le] at hsecond
    generalize toDouble (toDouble x + 1 / 2) = y at hsecond
    rcases lt_or_ge s 500 with hsmall | hlarge
    · have hs' : (s : ℚ) ≤ 499 := by exact_mod_cast le_of_lt_succ hsmall
      have hy : y < q + 1 := by linarith
      have hfloor : ⌊y⌋ < q + 1 := by
        rw [Int.floor_lt]
        push_cast
        exact hy
      refine iff_of_false ?_ (not_le.mpr hsmall)
      rw [doubleToInt]
      split <;> omega
    · have hs' : (501 : ℚ) ≤ s := by
        have : 501 ≤ s := by omega
        exact_mod_cast this
      have hy : (q : ℚ) + 1 ≤ y := by linarith
      have hy' : y < 2 ^ 31 := by linarith
      have hfloor : (q : ℤ) + 1 ≤ ⌊y⌋ := by
        rw [Int.le_floor]
        push_cast
        exact hy
      have hfloor' : ⌊y⌋ < 2 ^ 31 := by
        rw [Int.floor_lt]
        push_cast
        exact hy'
      refine iff_of_true ?_ hlarge
      rw [doubleToInt, if_pos ⟨by omega, hfloor'⟩]
      omega

/-! ## The text -/

theorem isNumeral_toDigits (n : ℕ) : IsNumeral (Nat.toDigits 10 n) :=
  ⟨toDigits_ne_nil, fun _ hc ↦ isDigit_of_mem_toDigits hc⟩

def fractionSeconds (q r : ℕ) : DurationComponent :=
  ⟨.seconds, ⟨_, isNumeral_toDigits q⟩, some ⟨_, isNumeral_toDigits r⟩, fun _ ↦ rfl⟩

def timeoutDuration (m : ℕ) : XsDuration where
  negative := false
  date := []
  time := [fractionSeconds (m / 1000) (m % 1000)]
  date_isTime := by simp
  time_isTime := by simp [fractionSeconds, DurationField.isTime]
  descending := by simp
  ne_nil := by simp

variable (m : ℕ)

theorem text_timeoutDuration : (timeoutDuration m).text = timeoutText m := by
  rw [← String.toList_inj]
  simp only [timeoutText, XsDuration.text, XsDuration.bodyText, timeoutDuration, componentsText,
    DurationComponent.text, DurationComponent.fracText, fractionSeconds, String.toList_append,
    String.toList_ofList, toString, toList_repr]
  simp [DurationField.letter]

theorem read_fractionSeconds (hq : q < 2 ^ 30) (hr : r < 1000) :
    (fractionSeconds q r).read = q + if 500 ≤ shownMillis r then 1 else 0 := by
  have hamount : toCInt (clampLong (fractionSeconds q r).amount) = q := by
    rw [DurationComponent.amount, fractionSeconds]
    dsimp only
    rw [digitsValue_toDigits, clampLong_of_mem (by omega) (by omega),
      toCInt_of_mem (by omega) (by omega)]
  have hcarry := doubleToInt_thousandths hq (shownMillis_lt hr)
  rw [DurationComponent.read, hamount]
  dsimp only [fractionSeconds]
  rw [decimal_eq hr]
  by_cases h : 500 ≤ shownMillis r
  · rw [if_pos h, if_pos (hcarry.mpr h)]
  · rw [if_neg h, if_neg (fun hgt ↦ h (hcarry.mp hgt)), add_zero]

theorem wsDeserializeDuration_timeoutText {m : ℕ} (h : m < 2 ^ 31) :
    wsDeserializeDuration (timeoutText m) =
      some (((m / 1000 : ℕ) : ℤ) + if 500 ≤ shownMillis (m % 1000) then 1 else 0) := by
  rw [← text_timeoutDuration, XsDuration.wsDeserializeDuration_eq]
  change some (readSeconds [fractionSeconds (m / 1000) (m % 1000)]) = _
  rw [readSeconds, map_singleton, sum_singleton,
    read_fractionSeconds (by omega) (mod_lt m (by decide))]
  simp [fractionSeconds, DurationField.inSeconds]

/-! ## The header -/

def operationTimeoutText (headers : List WsXmlNode) : Option String :=
  (headers.find? (isNamed xmlNsWsMan wsmOperationTimeout)).map (·.chars)

theorem not_mem_timeoutText : '&' ∉ (timeoutText m).toList := by
  rw [← text_timeoutDuration]
  intro h
  have hdigits (n : ℕ) : '&' ∉ toDigits 10 n := by
    intro hmem
    exact absurd (isDigit_of_mem_toDigits hmem) (by decide)
  simp [XsDuration.text, XsDuration.bodyText, timeoutDuration, componentsText,
    DurationComponent.text, DurationComponent.fracText, fractionSeconds, DurationField.letter,
    hdigits] at h

theorem isNamed_wsSerializeStr_of_ne (lx : Libxml) (str : String) {ns name : String} (mu : Bool)
    (h : (xmlNsWsMan, wsmOperationTimeout) ≠ (ns, name)) :
    ¬isNamed xmlNsWsMan wsmOperationTimeout (wsSerializeStr lx str ns name mu) = true := by
  have hself : (wsSerializeStr lx str ns name mu).isNamed ns name = true := by
    simp [isNamed, wsSerializeStr, wsXmlIsNodeQname, isElement, WsXmlNode.nsUri, WsXmlNode.name]
  rw [isNamed_of_ne hself h]
  exact Bool.false_ne_true

theorem operationTimeoutText_envelopeHeaders (lx : Libxml)
    (action replyTo resourceUri toUri : Option String) (uuid : String) {options : HeaderOptions}
    (h : options.timeout ≠ 0) :
    operationTimeoutText (envelopeHeaders lx action replyTo resourceUri toUri uuid options) =
      some (timeoutText options.timeout) := by
  have hbefore (str : Option String) {ns name : String}
      (hne : (xmlNsWsMan, wsmOperationTimeout) ≠ (ns, name)) :
      (str.toList.map fun s ↦ wsSerializeStr lx s ns name true).find?
        (isNamed xmlNsWsMan wsmOperationTimeout) = none := by
    rw [find?_eq_none]
    intro n hn
    obtain ⟨s, -, rfl⟩ := mem_map.mp hn
    exact isNamed_wsSerializeStr_of_ne lx s true hne
  have hself : isNamed xmlNsWsMan wsmOperationTimeout
      (wsSerializeStr lx (timeoutText options.timeout) xmlNsWsMan wsmOperationTimeout false) =
        true := rfl
  rw [operationTimeoutText, envelopeHeaders, if_neg h]
  simp only [append_assoc, find?_append]
  rw [hbefore action (by decide), hbefore resourceUri (by decide),
    find?_cons_of_neg (isNamed_wsSerializeStr_of_ne lx _ true (by decide)),
    find?_cons_of_neg (isNamed_wsSerializeStr_of_ne lx _ true (by decide)), find?_nil,
    find?_cons_of_pos hself]
  simp only [none_or, some_or, map_some, some.injEq]
  change lx.kept (timeoutText options.timeout) ++ "" = _
  rw [String.append_empty, lx.kept_of_not_mem (not_mem_timeoutText _)]

def roundedSeconds (m : ℕ) : ℤ := ⌊(m : ℚ) / 1000 + 1 / 2⌋

theorem roundedSeconds_eq :
    roundedSeconds m = (m / 1000 : ℕ) + if 500 ≤ m % 1000 then 1 else 0 := by
  have hdiv : (m : ℚ) = 1000 * (m / 1000 : ℕ) + (m % 1000 : ℕ) := by
    exact_mod_cast (div_add_mod m 1000).symm
  have hmod : (m % 1000 : ℕ) < 1000 := mod_lt m (by decide)
  rw [roundedSeconds, Int.floor_eq_iff, hdiv]
  generalize m / 1000 = q at *
  generalize m % 1000 = r at *
  split
  · next h =>
    have hr : (500 : ℚ) ≤ r := by exact_mod_cast h
    have hr' : (r : ℚ) < 1000 := by exact_mod_cast hmod
    push_cast
    constructor <;> linarith
  · next h =>
    have hr : (r : ℚ) < 500 := by exact_mod_cast Nat.lt_of_not_le h
    have hr' : (0 : ℚ) ≤ r := cast_nonneg r
    push_cast
    constructor <;> linarith

/-- **The server reads the rounded timeout of the client, unless the milliseconds are five to nine
or fifty to ninety-nine.** -/
theorem operationTimeout_rounded_iff (lx : Libxml)
    (action replyTo resourceUri toUri : Option String) (uuid : String) (options : HeaderOptions)
    (hpos : 0 < options.timeout) (hlt : options.timeout < 2 ^ 31) :
    ((operationTimeoutText
        (envelopeHeaders lx action replyTo resourceUri toUri uuid options)).bind
          wsDeserializeDuration).isSome = true ∧
    ((operationTimeoutText
        (envelopeHeaders lx action replyTo resourceUri toUri uuid options)).bind
          wsDeserializeDuration = some (roundedSeconds options.timeout) ↔
      ¬((5 ≤ options.timeout % 1000 ∧ options.timeout % 1000 ≤ 9) ∨
        (50 ≤ options.timeout % 1000 ∧ options.timeout % 1000 ≤ 99))) := by
  rw [operationTimeoutText_envelopeHeaders lx _ _ _ _ _ hpos.ne', bind_some,
    wsDeserializeDuration_timeoutText hlt, roundedSeconds_eq, some.injEq]
  refine ⟨rfl, ?_⟩
  have hmod : options.timeout % 1000 < 1000 := mod_lt _ (by decide)
  generalize options.timeout % 1000 = r at *
  rw [shownMillis]
  split_ifs <;> omega

theorem operationTimeout_rounded_minute :
    0 < 60000 ∧ 60000 < 2 ^ 31 ∧
      (operationTimeoutText (envelopeHeaders keepsText none none none none "uuid:1"
        { timeout := 60000 })).bind wsDeserializeDuration = some (roundedSeconds 60000) :=
  ⟨by decide, by decide,
    (operationTimeout_rounded_iff keepsText none none none none "uuid:1" { timeout := 60000 }
      (by decide) (by decide)).2.mpr (by decide)⟩

/-- The text for 1005 milliseconds is that for one second and a half. -/
theorem operationTimeout_1005_not_rounded :
    timeoutText 1005 = "PT1.5S" ∧
      (operationTimeoutText (envelopeHeaders keepsText none none none none "uuid:1"
        { timeout := 1005 })).bind wsDeserializeDuration = some 2 ∧ roundedSeconds 1005 = 1 := by
  refine ⟨by decide, ?_, by rw [roundedSeconds_eq]; decide⟩
  rw [operationTimeoutText_envelopeHeaders keepsText _ _ _ _ _ (by decide), bind_some,
    wsDeserializeDuration_timeoutText (by decide)]
  decide

end Openwsman
