import Openwsman.Libc.Decimal
import Openwsman.Xml.Duration
import Mathlib.Tactic.Linarith
import Mathlib.Tactic.Positivity
import Mathlib.Tactic.NormNum

/-!
# Whole seconds

The client writes a time span with `snprintf(buf, 32, "PT%fS", ...)`, where `%f` prints six digits
behind the point, and the server reads it with `ws_deserialize_duration`. A whole number of seconds
comes back as long as it fits an `int`; beyond that the number that is read is always smaller. A
text that is cut off after 31 characters is refused.
-/

namespace Openwsman

open Int Nat List

/-! ## Rounding -/

theorem roundHalfEven_intCast (n : ℤ) : roundHalfEven n = n := by
  rw [roundHalfEven, floor_intCast]
  simp

theorem toDouble_half {m : ℕ} (h : m < 2 ^ 52) : toDouble ((m : ℚ) / 2) = (m : ℚ) / 2 := by
  rcases Nat.eq_zero_or_pos m with rfl | hpos
  · simp [toDouble]
  have hx : (0 : ℚ) < (m : ℚ) / 2 := by positivity
  have hlt : (m : ℚ) / 2 < (2 : ℚ) ^ (51 : ℤ) := by
    have hm : (m : ℚ) < (2 : ℚ) ^ 52 := by exact_mod_cast h
    rw [div_lt_iff₀ (by norm_num)]
    calc (m : ℚ) < (2 : ℚ) ^ 52 := hm
      _ = (2 : ℚ) ^ (51 : ℤ) * 2 := by norm_num
  have hlog : log 2 |(m : ℚ) / 2| < 51 := by
    rw [abs_of_pos hx]
    exact (lt_zpow_iff_log_lt (by norm_num) hx).mp (by exact_mod_cast hlt)
  rw [toDouble, if_neg hx.ne']
  dsimp only
  -- the unit in the last place is `2 ^ (-1 - j)`
  obtain ⟨j, hj⟩ : ∃ j : ℕ, max (log 2 |(m : ℚ) / 2| - 52) (-1074) = -1 - (j : ℤ) :=
    ⟨(-1 - max (log 2 |(m : ℚ) / 2| - 52) (-1074)).toNat, by omega⟩
  have hulp : (2 : ℚ) ^ (-1 - (j : ℤ)) = 1 / (2 * 2 ^ j) := by
    rw [zpow_sub₀ (by norm_num), zpow_neg_one, zpow_natCast]
    field_simp
  have hdiv : (m : ℚ) / 2 / (1 / (2 * 2 ^ j)) = ((m * 2 ^ j : ℤ) : ℚ) := by
    push_cast
    field_simp
  rw [hj, hulp, hdiv, roundHalfEven_intCast]
  push_cast
  field_simp

theorem abs_roundHalfEven_sub_le (x : ℚ) : |(roundHalfEven x : ℚ) - x| ≤ 1 := by
  have hfloor := floor_le x
  have hlt := Int.lt_floor_add_one x
  rw [roundHalfEven, abs_le]
  split_ifs <;> push_cast <;> constructor <;> linarith

theorem abs_toDouble_sub_le {x : ℚ} (hx : 0 < x) (hlt : x < 2 ^ 31) :
    |toDouble x - x| ≤ 1 / 2 ^ 22 := by
  have hlog : log 2 |x| < 31 := by
    rw [abs_of_pos hx]
    refine (lt_zpow_iff_log_lt (by norm_num) hx).mp ?_
    exact_mod_cast hlt
  rw [toDouble, if_neg hx.ne']
  dsimp only
  generalize hulp : (2 : ℚ) ^ max (log 2 |x| - 52) (-1074) = ulp
  have hpos : 0 < ulp := by
    rw [← hulp]
    exact zpow_pos (by norm_num) _
  have hle : ulp ≤ 1 / 2 ^ 22 := by
    rw [← hulp, show (1 : ℚ) / 2 ^ 22 = 2 ^ (-22 : ℤ) by norm_num]
    exact zpow_le_zpow_right₀ (by norm_num) (by omega)
  calc |roundHalfEven (x / ulp) * ulp - x|
      = |(roundHalfEven (x / ulp) : ℚ) - x / ulp| * ulp := by
        rw [← abs_of_pos hpos, ← abs_mul, abs_of_pos hpos, sub_mul, div_mul_cancel₀ x hpos.ne']
    _ ≤ 1 * ulp := mul_le_mul_of_nonneg_right (abs_roundHalfEven_sub_le _) hpos.le
    _ ≤ 1 / 2 ^ 22 := by rwa [one_mul]

theorem doubleToInt_lt (x : ℚ) : doubleToInt x < 2 ^ 31 := by
  rw [doubleToInt]
  split
  · next h => exact h.2
  · decide

/-! ## The number of seconds -/

def secondsRead (k : ℕ) : ℤ :=
  if doubleToInt (toDouble (toDouble k + 1 / 2)) > toCInt (clampLong k) then
    toCInt (clampLong k) + 1
  else toCInt (clampLong k)

variable (k : ℕ)

theorem secondsRead_lt : secondsRead k < 2 ^ 31 := by
  have hint := toCInt_lt (clampLong k)
  have hdouble := doubleToInt_lt (toDouble (toDouble k + 1 / 2))
  rw [secondsRead]
  split <;> omega

theorem le_secondsRead : -2 ^ 31 ≤ secondsRead k := by
  have hint := le_toCInt (clampLong k)
  rw [secondsRead]
  split <;> omega

/-- A number that is too large for a `long` becomes the largest one. -/
theorem neg_one_le_secondsRead {k : ℕ} (h : 2 ^ 63 ≤ k) : -1 ≤ secondsRead k := by
  have hclamp : clampLong k = 2 ^ 63 - 1 := by
    rw [clampLong]
    omega
  have hint : toCInt (2 ^ 63 - 1) = -1 := by decide
  rw [secondsRead, hclamp, hint]
  split <;> omega

theorem secondsRead_of_lt {k : ℕ} (h : k < 2 ^ 31) : secondsRead k = k := by
  have hint : toCInt (clampLong k) = k := by
    rw [clampLong, toCInt, bmod_def]
    omega
  have hwhole : toDouble (k : ℚ) = k := by
    have hhalf := toDouble_half (m := 2 * k) (by omega)
    push_cast at hhalf
    rwa [mul_div_cancel_left₀ (k : ℚ) (by norm_num : (2 : ℚ) ≠ 0)] at hhalf
  have hplus : toDouble ((k : ℚ) + 1 / 2) = (k : ℚ) + 1 / 2 := by
    have hhalf := toDouble_half (m := 2 * k + 1) (by omega)
    push_cast at hhalf
    rwa [add_div, mul_div_cancel_left₀ (k : ℚ) (by norm_num : (2 : ℚ) ≠ 0)] at hhalf
  have hfloor : ⌊(k : ℚ) + 1 / 2⌋ = k := by
    rw [Int.floor_eq_iff]
    push_cast
    constructor <;> linarith
  have hdouble : doubleToInt ((k : ℚ) + 1 / 2) = k := by
    rw [doubleToInt, hfloor, if_pos ⟨by omega, by omega⟩]
  rw [secondsRead, hint, hwhole, hplus, hdouble, if_neg (lt_irrefl _)]

/-- The number in milliseconds is that of the text only when it fits an `int`. Nothing wraps around
to the right number: `2 ^ 64` is no multiple of a thousand. -/
theorem toULong_secondsRead_mul {k : ℕ} (h : 0 < k) :
    toULong (secondsRead k * 1000) = 1000 * k ↔ k < 2 ^ 31 := by
  constructor
  · intro heq
    have hlt := secondsRead_lt k
    have hle := le_secondsRead k
    rw [toULong] at heq
    generalize secondsRead k = s at hlt hle heq
    by_cases hs : 0 ≤ s
    · rw [emod_eq_of_lt (by omega) (by omega)] at heq
      omega
    · rw [← add_emod_right, emod_eq_of_lt (by omega) (by omega)] at heq
      omega
  · intro hk
    rw [secondsRead_of_lt hk, toULong, emod_eq_of_lt (by omega) (by omega)]
    omega

theorem toULong_add_secondsRead {now k : ℕ} (hnow : 0 < now) (hlong : now < 2 ^ 63) :
    toULong (now + secondsRead k) = now + k ↔ k < 2 ^ 31 := by
  constructor
  · intro heq
    have hlt := secondsRead_lt k
    have hle := le_secondsRead k
    by_contra hk
    rw [toULong] at heq
    -- the sum was negative, so the number does not fit a `long` either
    have hread : 2 ^ 63 ≤ k → -1 ≤ secondsRead k := neg_one_le_secondsRead
    generalize secondsRead k = s at hlt hle heq hread
    omega
  · intro hk
    rw [secondsRead_of_lt hk, toULong]
    omega

/-! ## The text -/

def secondsText (k : ℕ) : String :=
  String.ofList (("PT" ++ toString k ++ ".000000S").toList.take 31)

theorem head?_secondsText : (secondsText k).toList.head? = some 'P' := by
  rw [secondsText, String.toList_ofList, String.toList_append, String.toList_append]
  rfl

theorem not_mem_secondsText : '&' ∉ (secondsText k).toList := by
  intro h
  rw [secondsText, String.toList_ofList] at h
  have hmem := mem_of_mem_take h
  rw [String.toList_append, String.toList_append, mem_append, mem_append,
    show (toString k).toList = toDigits 10 k from toList_repr] at hmem
  rcases hmem with (hmem | hmem) | hmem
  · exact absurd hmem (by decide)
  · exact absurd (isDigit_of_mem_toDigits hmem) (by decide)
  · exact absurd hmem (by decide)

theorem digitsValue_append_zeros (ds : List Char) (j : ℕ) :
    digitsValue (ds ++ List.replicate j '0') = digitsValue ds * 10 ^ j := by
  have hzeros : digitsValue (replicate j '0') = 0 := by
    induction j with
    | zero => rfl
    | succ j ih => exact ih
  rw [digitsValue_append, length_replicate, hzeros, add_zero]

section

variable {ds rest : List Char} (hds : ∀ c ∈ ds, isDigit c = true) (hne : ds ≠ [])
  (hrest : EndsNumeral rest) (hexp : readExponent rest = (0, rest))

include hds hne hrest hexp

theorem strtodDecimal_point {fs : List Char} (hfs : ∀ c ∈ fs, isDigit c = true) :
    strtodDecimal (ds ++ '.' :: (fs ++ rest)) =
      (toDouble (digitsValue (ds ++ fs) * (10 : ℚ) ^ ((0 : ℤ) - fs.length)), rest) := by
  have hpoint := endsNumeral_cons (c := '.') (by decide) (fs ++ rest)
  rw [strtodDecimal, readSign_digits_append hds hne]
  dsimp only
  rw [takeWhile_isDigit_append hds hpoint, dropWhile_isDigit_append hds hpoint, tail_cons,
    takeWhile_isDigit_append hfs hrest, dropWhile_isDigit_append hfs hrest, hexp,
    if_neg Bool.false_ne_true]

theorem strtodDecimal_zeros (j : ℕ) :
    strtodDecimal (ds ++ '.' :: (List.replicate j '0' ++ rest)) =
      (toDouble (digitsValue ds), rest) := by
  have hzeros : ∀ c ∈ replicate j '0', isDigit c = true := by
    intro c hc
    rw [eq_of_mem_replicate hc]
    decide
  have hvalue : (digitsValue (ds ++ replicate j '0') : ℚ) * (10 : ℚ) ^ ((0 : ℤ) - j) =
      digitsValue ds := by
    rw [digitsValue_append_zeros, zero_sub, zpow_neg, zpow_natCast]
    push_cast
    field_simp
  rw [strtodDecimal_point hds hne hrest hexp hzeros, length_replicate, hvalue]

theorem durationNumber_zeros (j : ℕ) :
    durationNumber true (ds ++ '.' :: (List.replicate j '0' ++ rest)) =
      if rest.head? = some 'S' then some (secondsRead (digitsValue ds), rest) else none := by
  have hpoint := endsNumeral_cons (c := '.') (by decide) (replicate j '0' ++ rest)
  rw [durationNumber, strtol_digits_append hds hpoint hne]
  dsimp only
  rw [strtodDecimal_zeros hds hne hrest hexp j]
  rw [head?_cons, beq_self_eq_true, Bool.and_self, if_pos rfl]
  by_cases hunit : rest.head? = some 'S'
  · rw [if_neg (by simp [hunit]), if_pos hunit, secondsRead]
  · rw [if_pos (by simpa using hunit), if_neg hunit]

end

theorem ne_T_of_isDigit {c : Char} (h : isDigit c = true) : ¬(c == 'T') = true := by
  intro heq
  rw [beq_iff_eq.mp heq] at h
  exact absurd h (by decide)

theorem durationBody_of_seconds {ds rest : List Char} (hds : ∀ c ∈ ds, isDigit c = true)
    (hne : ds ≠ []) {v : ℤ} (h : durationNumber true (ds ++ rest) = some (v, ['S'])) :
    durationBody ('P' :: 'T' :: (ds ++ rest)) = some v := by
  obtain ⟨c, cs, rfl⟩ := exists_cons_of_ne_nil hne
  have hc := ne_T_of_isDigit (hds c mem_cons_self)
  rw [cons_append] at h ⊢
  rw [durationBody, length_cons, length_cons, durationLoop, if_pos (by decide),
    durationLoop, if_neg hc, h]
  simp [durationUnit, durationLoop, DurationState.seconds]

theorem durationBody_of_no_unit {ds rest : List Char} (hds : ∀ c ∈ ds, isDigit c = true)
    (hne : ds ≠ []) (h : ∀ v e, durationNumber true (ds ++ rest) = some (v, e) → e = []) :
    durationBody ('P' :: 'T' :: (ds ++ rest)) = none := by
  obtain ⟨c, cs, rfl⟩ := exists_cons_of_ne_nil hne
  have hc := ne_T_of_isDigit (hds c mem_cons_self)
  rw [cons_append] at h ⊢
  rw [durationBody, length_cons, length_cons, durationLoop, if_pos (by decide),
    durationLoop, if_neg hc]
  rcases hn : durationNumber true (c :: (cs ++ rest)) with _ | ⟨v, e⟩
  · rfl
  · rw [h v e hn]

theorem wsDeserializeDuration_secondsText :
    wsDeserializeDuration (secondsText k) =
      if (Nat.toDigits 10 k).length ≤ 21 then some (secondsRead k) else none := by
  have hall : ∀ c ∈ toDigits 10 k, isDigit c = true := fun c hc ↦ isDigit_of_mem_toDigits hc
  have hne : toDigits 10 k ≠ [] := toDigits_ne_nil
  have htext : (secondsText k).toList = 'P' :: 'T' :: (toDigits 10 k ++
      '.' :: (replicate 6 '0' ++ ['S'])).take 29 := by
    rw [secondsText, String.toList_ofList, String.toList_append, String.toList_append,
      show (toString k).toList = toDigits 10 k from toList_repr]
    rfl
  rw [wsDeserializeDuration, htext]
  change durationBody _ = _
  split
  · next hlen =>
    have hread := durationNumber_zeros hall hne (endsNumeral_cons (c := 'S') (by decide) []) rfl 6
    rw [take_of_length_le (by simp; omega)]
    rw [head?_cons, if_pos rfl, digitsValue_toDigits] at hread
    exact durationBody_of_seconds hall hne hread
  · next hlen =>
    rw [take_append]
    by_cases hcut : 29 ≤ (toDigits 10 k).length
    · -- only digits are left
      have htake : ∀ c ∈ (toDigits 10 k).take 29, isDigit c = true :=
        fun c hc ↦ hall c (mem_of_mem_take hc)
      have hne' : (toDigits 10 k).take 29 ≠ [] := by
        rw [Ne, take_eq_nil_iff]
        simp
      rw [Nat.sub_eq_zero_of_le hcut, take_zero]
      refine durationBody_of_no_unit htake hne' fun v e h ↦ ?_
      rw [durationNumber, strtol_digits_append htake endsNumeral_nil hne'] at h
      exact (Prod.mk.inj (Option.some.inj h)).2.symm
    · -- the point is left and some of the zeros
      obtain ⟨j, hj⟩ : ∃ j, 29 - (toDigits 10 k).length = j + 1 :=
        ⟨28 - (toDigits 10 k).length, by omega⟩
      have hzeros : (replicate 6 '0' ++ ['S']).take j = replicate j '0' ++ [] := by
        rw [take_append_of_le_length (by rw [length_replicate]; omega),
          take_replicate, min_eq_left (by omega), append_nil]
      have hread := durationNumber_zeros hall hne endsNumeral_nil rfl j
      rw [hj, take_of_length_le (by omega), take_succ_cons, hzeros]
      refine durationBody_of_no_unit hall hne fun v e h ↦ ?_
      rw [hread] at h
      cases h

theorem eq_secondsRead {k : ℕ} {timeout : ℤ}
    (h : wsDeserializeDuration (secondsText k) = some timeout) : timeout = secondsRead k := by
  rw [wsDeserializeDuration_secondsText] at h
  split at h
  · exact (Option.some.inj h).symm
  · cases h

end Openwsman
