import Openwsman.Xml.DurationGrammar
import Mathlib.Data.List.TakeWhile

/-!
# Durations that are not of the grammar

More than the grammar is read. The functions of the C library that scan a number skip blanks before
it and take a sign, and that for a fraction takes an exponent and needs no digit behind the point.
The separator may be repeated. These are the only differences (`exists_text_iff_plainDuration`): a
text without such characters is cut into tokens, each a separator or a component, by the turns of
the loop, and with one separator at most the tokens are those of a date and a time.
-/

namespace Openwsman

open Nat List

variable {st st' : DurationState}

/-! ## Plain texts -/

def plainChar (c : Char) : Bool :=
  !(isSpace c || c == '+' || c == '-' || c == 'e' || c == 'E')

def pointsFilled : List Char → Bool
  | [] => true
  | c :: r => (c != '.' || r.head?.any isDigit) && pointsFilled r

/-- What follows the sign has plain characters only, one separator at most, and digits behind the
points. -/
def plainDuration (text : String) : Bool :=
  let body := if text.toList.head? == some '-' then text.toList.tail else text.toList
  body.all plainChar && decide (body.count 'T' ≤ 1) && pointsFilled body

variable {c : Char}

theorem plainChar_of_isDigit (h : isDigit c = true) : plainChar c = true := by
  rw [plainChar, isSpace_eq_false_of_isDigit h]
  rw [isDigit, Bool.and_eq_true, decide_eq_true_eq, decide_eq_true_eq] at h
  simp only [Bool.false_or, Bool.not_eq_true', Bool.or_eq_false_iff, beq_eq_false_iff_ne]
  refine ⟨⟨⟨?_, ?_⟩, ?_⟩, ?_⟩ <;>
  · rintro rfl
    revert h
    decide

theorem DurationField.plainChar_letter (f : DurationField) : plainChar f.letter = true := by
  cases f <;> decide

theorem pointsFilled_append {s t : List Char} (hs : pointsFilled s = true)
    (ht : pointsFilled t = true) : pointsFilled (s ++ t) = true := by
  induction s with
  | nil => exact ht
  | cons c r ih =>
    rw [pointsFilled, Bool.and_eq_true] at hs
    rw [cons_append, pointsFilled, Bool.and_eq_true]
    refine ⟨?_, ih hs.2⟩
    rcases r with _ | ⟨d, r⟩
    · rw [head?_nil, Option.any_none, Bool.or_false] at hs
      rw [hs.1, Bool.true_or]
    · exact hs.1

theorem pointsFilled_of_not_mem {s : List Char} (h : '.' ∉ s) : pointsFilled s = true := by
  induction s with
  | nil => rfl
  | cons c r ih =>
    rw [mem_cons, not_or] at h
    rw [pointsFilled, ih h.2, Bool.and_true, bne_iff_ne.mpr (Ne.symm h.1), Bool.true_or]

theorem not_mem_of_isDigit {ds : List Char} (h : ∀ c ∈ ds, isDigit c = true)
    (hc : isDigit c = false) : c ∉ ds := by
  intro hmem
  rw [h c hmem] at hc
  cases hc

/-! ## The grammar is plain -/

structure PlainPart (t : List Char) (separators : ℕ) : Prop where
  all : ∀ c ∈ t, plainChar c = true
  count : t.count 'T' = separators
  points : pointsFilled t = true

namespace PlainPart

variable {s t : List Char} {m n : ℕ}

theorem append (hs : PlainPart s m) (ht : PlainPart t n) : PlainPart (s ++ t) (m + n) := by
  refine ⟨fun c hc ↦ ?_, by rw [count_append, hs.count, ht.count],
    pointsFilled_append hs.points ht.points⟩
  rcases mem_append.mp hc with hc | hc
  · exact hs.all c hc
  · exact ht.all c hc

theorem nil : PlainPart [] 0 := ⟨by simp, rfl, rfl⟩

theorem singleton {c : Char} (h : plainChar c = true) (hT : c ≠ 'T') (hpoint : c ≠ '.') :
    PlainPart [c] 0 := by
  refine ⟨by simpa using h, by rw [count_singleton, if_neg (by simpa using hT)], ?_⟩
  exact pointsFilled_of_not_mem (by simpa using Ne.symm hpoint)

theorem digits {ds : List Char} (h : ∀ c ∈ ds, isDigit c = true) : PlainPart ds 0 :=
  ⟨fun c hc ↦ plainChar_of_isDigit (h c hc), count_eq_zero.mpr (not_mem_of_isDigit h (by decide)),
    pointsFilled_of_not_mem (not_mem_of_isDigit h (by decide))⟩

theorem fraction {ds : List Char} (h : IsNumeral ds) : PlainPart ('.' :: ds) 0 := by
  have hds := digits h.2
  refine ⟨?_, by rw [count_cons, hds.count]; rfl, ?_⟩
  · rintro c (_ | ⟨_, hc⟩)
    · decide
    · exact hds.all c hc
  · obtain ⟨c, cs, rfl⟩ := exists_cons_of_ne_nil h.1
    rw [pointsFilled, hds.points, head?_cons, Option.any_some, h.2 c mem_cons_self]
    rfl

theorem component (c : DurationComponent) : PlainPart c.text 0 := by
  have hletter : PlainPart [c.field.letter] 0 := by
    refine singleton c.field.plainChar_letter ?_ ?_ <;> cases c.field <;> decide
  have hfrac : PlainPart (DurationComponent.fracText c.frac) 0 := by
    rcases c.frac with _ | ds
    · exact nil
    · exact fraction ds.2
  exact (digits c.whole.2.2).append (hfrac.append hletter)

theorem components (cs : List DurationComponent) : PlainPart (componentsText cs) 0 := by
  induction cs with
  | nil => exact nil
  | cons c cs ih => exact (component c).append ih

end PlainPart

namespace XsDuration

variable (d : XsDuration)

theorem exists_plainPart_bodyText : ∃ n ≤ 1, PlainPart ('P' :: d.bodyText) n := by
  have hP : PlainPart ['P'] 0 := .singleton (by decide) (by decide) (by decide)
  have hdate := hP.append (PlainPart.components d.date)
  rw [bodyText]
  split
  · rw [append_nil]
    exact ⟨0, zero_le 1, hdate⟩
  · have hT : PlainPart ['T'] 1 := ⟨all_eq_true.mp rfl, rfl, rfl⟩
    exact ⟨1, le_refl 1, hdate.append (hT.append (PlainPart.components d.time))⟩

theorem plainDuration_text : plainDuration d.text = true := by
  obtain ⟨n, hn, hall, hcount, hpoints⟩ := d.exists_plainPart_bodyText
  have hbody : (if d.text.toList.head? == some '-' then d.text.toList.tail else d.text.toList) =
      'P' :: d.bodyText := by
    rw [text, String.toList_ofList]
    cases d.negative <;> rfl
  rw [plainDuration, hbody, hpoints, hcount, all_eq_true.mpr hall, decide_eq_true hn]
  rfl

end XsDuration

/-! ## Plain texts are of the grammar -/

def tokenText (token : Option DurationComponent) : List Char := token.elim ['T'] (·.text)

def DurationState.token (st : DurationState) : Option DurationComponent → Option DurationState
  | none => some st.startTime
  | some c =>
    if c.field.isTime = st.timeHandled ∧ c.field.bit < st.got then some (st.set c.field c.read)
    else none

theorem plainChar_tail {r : List Char} (h : ∀ d ∈ c :: r, plainChar d = true) :
    ∀ d ∈ r, plainChar d = true :=
  fun d hd ↦ h d (mem_cons_of_mem c hd)

theorem pointsFilled_of_append {s t : List Char} (h : pointsFilled (s ++ t) = true) :
    pointsFilled t = true := by
  induction s with
  | nil => exact h
  | cons c r ih =>
    rw [cons_append, pointsFilled, Bool.and_eq_true] at h
    exact ih h.2

variable {t : List Char}

theorem readSign_of_plain (h : ∀ c ∈ t, plainChar c = true) :
    readSign (t.dropWhile isSpace) = (false, t) := by
  cases t with
  | nil => rfl
  | cons c r =>
    have hc := h c mem_cons_self
    simp only [plainChar, Bool.not_eq_true', Bool.or_eq_false_iff, beq_eq_false_iff_ne] at hc
    rw [dropWhile_cons, if_neg (by simp [hc.1.1.1.1])]
    rw [readSign.eq_def]
    split
    · next heq => exact absurd (cons.inj heq).1 hc.1.1.2
    · next heq => exact absurd (cons.inj heq).1 hc.1.1.1.2
    · rfl

theorem readExponent_of_plain (h : ∀ c ∈ t, plainChar c = true) :
    readExponent t = (0, t) := by
  cases t with
  | nil => rfl
  | cons c r =>
    have hc := h c mem_cons_self
    simp only [plainChar, Bool.not_eq_true', Bool.or_eq_false_iff, beq_eq_false_iff_ne] at hc
    rw [readExponent, if_neg]
    simp [hc.1.2, hc.2]

theorem isNumeral_takeWhile (h : t.takeWhile isDigit ≠ []) :
    IsNumeral (t.takeWhile isDigit) :=
  ⟨h, fun _ hc ↦ mem_takeWhile_imp hc⟩

theorem exists_component_of_point {t r e : List Char} (hwhole : t.takeWhile isDigit ≠ [])
    (hpoint : t.dropWhile isDigit = '.' :: r) (hfilled : r.head?.any isDigit = true)
    (hunit : r.dropWhile isDigit = 'S' :: e) :
    ∃ c : DurationComponent, c.field = .seconds ∧ t = c.text ++ e := by
  have hfrac : r.takeWhile isDigit ≠ [] := by
    intro hnil
    rcases r with _ | ⟨c, r⟩
    · simp at hfilled
    · rw [head?_cons, Option.any_some] at hfilled
      rw [takeWhile_cons, if_pos hfilled] at hnil
      cases hnil
  have hr : r.takeWhile isDigit ++ 'S' :: e = r := by
    rw [← hunit, takeWhile_append_dropWhile]
  have ht : t.takeWhile isDigit ++ '.' :: r = t := by
    rw [← hpoint, takeWhile_append_dropWhile]
  refine ⟨⟨.seconds, ⟨_, isNumeral_takeWhile hwhole⟩, some ⟨_, isNumeral_takeWhile hfrac⟩,
    fun _ ↦ rfl⟩, rfl, ?_⟩
  rw [DurationComponent.text, DurationComponent.fracText, Option.elim_some, append_assoc,
    append_assoc, cons_append, singleton_append]
  change t = t.takeWhile isDigit ++ '.' :: (r.takeWhile isDigit ++ 'S' :: e)
  rw [hr, ht]

variable {v : ℤ}

theorem exists_component_of_durationNumber {t e : List Char} {f : DurationField}
    (hplain : ∀ c ∈ t, plainChar c = true) (hpoints : pointsFilled t = true)
    (h : durationNumber f.isTime t = some (v, f.letter :: e)) :
    ∃ c : DurationComponent, c.field = f ∧ t = c.text ++ e := by
  have hsplit := List.takeWhile_append_dropWhile (p := isDigit) (l := t)
  rw [durationNumber, strtol, readSign_of_plain hplain] at h
  dsimp only at h
  by_cases hwhole : (t.takeWhile isDigit).isEmpty = true
  · rw [if_pos hwhole] at h
    cases h
  rw [if_neg hwhole] at h
  rw [List.isEmpty_iff] at hwhole
  dsimp only at h
  by_cases hpoint : (f.isTime && (t.dropWhile isDigit).head? == some '.') = true
  · -- a fraction, whose unit is the second
    rw [if_pos hpoint, strtodDecimal, readSign_of_plain hplain] at h
    dsimp only at h
    obtain ⟨htime, hhead⟩ := Bool.and_eq_true_iff.mp hpoint
    obtain ⟨r, hr⟩ := head?_eq_some_iff.mp (beq_iff_eq.mp hhead)
    rw [hr] at hsplit
    have hfilled : r.head?.any isDigit = true := by
      rw [← hsplit] at hpoints
      have htail := pointsFilled_of_append hpoints
      rw [pointsFilled, Bool.and_eq_true] at htail
      simpa using htail.1
    have hrplain : ∀ c ∈ r.dropWhile isDigit, plainChar c = true := by
      intro c hc
      apply hplain
      rw [← hsplit]
      have hmem := (dropWhile_sublist isDigit).subset hc
      exact mem_append_right _ (mem_cons_of_mem _ hmem)
    rw [hr, tail_cons, readExponent_of_plain hrplain] at h
    dsimp only at h
    split at h
    · cases h
    next hunit =>
    obtain ⟨-, he⟩ := Prod.mk.inj (Option.some.inj h)
    obtain rfl : f = .seconds := by
      rw [he, head?_cons] at hunit
      revert hunit htime
      clear * -
      cases f <;> decide
    exact exists_component_of_point hwhole hr hfilled he
  · rw [if_neg hpoint] at h
    obtain ⟨-, he⟩ := Prod.mk.inj (Option.some.inj h)
    refine ⟨⟨f, ⟨_, isNumeral_takeWhile hwhole⟩, none, fun h ↦ by cases h⟩, rfl, ?_⟩
    rw [DurationComponent.text, DurationComponent.fracText, Option.elim_none, nil_append,
      append_assoc, singleton_append, ← he]
    exact hsplit.symm

theorem exists_tokens_of_durationRun (hplain : ∀ c ∈ t, plainChar c = true)
    (hpoints : pointsFilled t = true) (h : durationRun st t = some st') :
    ∃ tokens : List (Option DurationComponent),
      t = tokens.flatMap tokenText ∧ tokens.foldlM DurationState.token st = some st' := by
  induction hlen : t.length using Nat.strong_induction_on generalizing t st with
  | _ n ih =>
  rcases t with _ | ⟨c, r⟩
  · exact ⟨[], rfl, h⟩
  by_cases hT : c = 'T'
  · subst hT
    rw [durationRun_T] at h
    obtain ⟨tokens, hr, hrun⟩ := ih r.length (by rw [← hlen]; exact lt_succ_self _)
      (plainChar_tail hplain) (pointsFilled_of_append (s := ['T']) hpoints) h rfl
    refine ⟨none :: tokens, ?_, ?_⟩
    · rw [flatMap_cons, ← hr]
      rfl
    · rw [foldlM_cons]
      exact hrun
  · have hhead : (c :: r).head? ≠ some 'T' := by simpa using hT
    obtain ⟨v, unit, e, hnumber, hbind⟩ := exists_of_durationRun (by simp) hhead h
    obtain ⟨st₁, hunit, -⟩ := Option.bind_eq_some_iff.mp hbind
    obtain ⟨f, hf, rfl⟩ := exists_of_durationUnit hunit
    rw [← hf] at hnumber
    obtain ⟨comp, rfl, htext⟩ := exists_component_of_durationNumber hplain hpoints hnumber
    rw [htext, durationRun_component hf] at h
    split at h
    · next hbit =>
      rw [htext] at hplain hpoints hlen
      have hshort : e.length < n := by
        rw [← hlen, length_append, DurationComponent.text, length_append,
          length_append, length_singleton]
        omega
      obtain ⟨tokens, hr, hrun⟩ := ih e.length hshort
        (fun d hd ↦ hplain d (mem_append_right _ hd)) (pointsFilled_of_append hpoints) h rfl
      refine ⟨some comp :: tokens, ?_, ?_⟩
      · rw [htext, flatMap_cons, ← hr]
        rfl
      · rw [foldlM_cons, DurationState.token, if_pos ⟨hf, hbit⟩]
        exact hrun
    · cases h

theorem accepts_of_tokens {cs : List DurationComponent}
    (h : (cs.map some).foldlM DurationState.token st = some st') :
    st.Accepts cs ∧ st' = st.setAll cs := by
  induction cs generalizing st with
  | nil =>
    cases h
    exact ⟨⟨by simp, by simp, .nil⟩, rfl⟩
  | cons c cs ih =>
    rw [map_cons, foldlM_cons, DurationState.token] at h
    by_cases hc : c.field.isTime = st.timeHandled ∧ c.field.bit < st.got
    · rw [if_pos hc] at h
      obtain ⟨haccepts, rfl⟩ := ih h
      exact ⟨DurationState.accepts_cons.mpr ⟨hc.1, hc.2, haccepts⟩, rfl⟩
    · rw [if_neg hc] at h
      cases h

theorem exists_split_of_count (tokens : List (Option DurationComponent))
    (h : (tokens.flatMap tokenText).count 'T' ≤ 1) :
    (∃ date : List DurationComponent, tokens = date.map some) ∨
      ∃ date time : List DurationComponent, tokens = date.map some ++ none :: time.map some := by
  have hcomponents : ∀ tokens : List (Option DurationComponent),
      (tokens.flatMap tokenText).count 'T' = 0 →
        ∃ cs : List DurationComponent, tokens = cs.map some := by
    intro tokens hzero
    induction tokens with
    | nil => exact ⟨[], rfl⟩
    | cons token tokens ih =>
      rw [flatMap_cons, count_append, Nat.add_eq_zero_iff] at hzero
      obtain ⟨cs, rfl⟩ := ih hzero.2
      rcases token with _ | c
      · exact absurd hzero.1 (by decide)
      · exact ⟨c :: cs, rfl⟩
  induction tokens with
  | nil => exact .inl ⟨[], rfl⟩
  | cons token tokens ih =>
    rw [flatMap_cons, count_append] at h
    rcases token with _ | c
    · have hT : (tokenText none).count 'T' = 1 := rfl
      obtain ⟨cs, rfl⟩ := hcomponents tokens (by omega)
      exact .inr ⟨[], cs, rfl⟩
    · rcases ih (by omega) with ⟨date, rfl⟩ | ⟨date, time, rfl⟩
      · exact .inl ⟨c :: date, rfl⟩
      · exact .inr ⟨c :: date, time, rfl⟩

theorem tokenText_map_some (cs : List DurationComponent) :
    (cs.map some).flatMap tokenText = componentsText cs := by
  rw [componentsText, flatMap_map]
  rfl

theorem exists_bodyText (hplain : ∀ c ∈ t, plainChar c = true) (hcount : t.count 'T' ≤ 1)
    (hpoints : pointsFilled t = true) (negative : Bool) (h : durationBody ('P' :: t) = some v) :
    ∃ d : XsDuration, d.negative = negative ∧ d.bodyText = t := by
  rw [durationBody] at h
  split at h
  · cases h
  next st hrun =>
  obtain ⟨tokens, rfl, htokens⟩ := exists_tokens_of_durationRun hplain hpoints hrun
  split at h
  · cases h
  next hfinal =>
  simp only [Bool.or_eq_true, Bool.and_eq_true, decide_eq_true_eq, beq_iff_eq, not_or,
    not_and] at hfinal
  rcases exists_split_of_count tokens hcount with ⟨date, rfl⟩ | ⟨date, time, rfl⟩
  · obtain ⟨hdate, rfl⟩ := accepts_of_tokens htokens
    have hne : date ≠ [] := by
      rintro rfl
      exact hfinal.2 rfl
    refine ⟨⟨negative, date, [], hdate.isTime, by simp, ?_, by simpa using hne⟩, rfl, ?_⟩
    · rw [append_nil]
      exact hdate.descending
    · rw [XsDuration.bodyText, isEmpty_nil, if_pos rfl, append_nil, tokenText_map_some]
  · rw [foldlM_append] at htokens
    obtain ⟨st₁, hst₁, hrest⟩ := Option.bind_eq_some_iff.mp htokens
    obtain ⟨hdate, rfl⟩ := accepts_of_tokens hst₁
    rw [foldlM_cons] at hrest
    obtain ⟨htime, rfl⟩ := accepts_of_tokens hrest
    have hgot : ((DurationState.setAll {} date).startTime.setAll time).got ≤ 4 := by
      refine Nat.le_of_not_lt (hfinal.1 ?_)
      rw [DurationState.timeHandled_setAll]
      rfl
    have hne : time ≠ [] := by
      rintro rfl
      rcases DurationState.got_setAll {} date with ⟨-, hinit⟩ | ⟨c, hc, hlast⟩
      · change (DurationState.setAll {} date).got ≤ 4 at hgot
        rw [hinit] at hgot
        exact absurd hgot (by decide)
      · change (DurationState.setAll {} date).got ≤ 4 at hgot
        rw [hlast] at hgot
        exact absurd hgot (Nat.not_le.mpr (DurationField.lt_bit_of_not_isTime (hdate.isTime c hc)))
    refine ⟨⟨negative, date, time, hdate.isTime, htime.isTime, ?_, by simp [hne]⟩, rfl, ?_⟩
    · refine pairwise_append.mpr ⟨hdate.descending, htime.descending, fun c hc b hb ↦ ?_⟩
      exact (DurationField.bit_le_of_isTime (htime.isTime b hb)).trans_lt
        (DurationField.lt_bit_of_not_isTime (hdate.isTime c hc))
    · rw [XsDuration.bodyText, if_neg (by simpa using hne), flatMap_append,
        flatMap_cons, tokenText_map_some, tokenText_map_some]
      rfl

theorem exists_cons_of_durationBody (h : durationBody t = some v) :
    ∃ r, t = 'P' :: r := by
  rw [durationBody.eq_def] at h
  split at h
  · exact ⟨_, rfl⟩
  · cases h

theorem exists_text_iff_plainDuration {text : String} (h : wsDeserializeDuration text = some v) :
    (∃ d : XsDuration, d.text = text) ↔ plainDuration text = true := by
  constructor
  · rintro ⟨d, rfl⟩
    exact d.plainDuration_text
  intro hplain
  rw [plainDuration, Bool.and_eq_true, Bool.and_eq_true, all_eq_true, decide_eq_true_eq] at hplain
  obtain ⟨⟨hall, hcount⟩, hpoints⟩ := hplain
  have hbody : ∃ (negative : Bool) (v : ℤ) (t : List Char), durationBody ('P' :: t) = some v ∧
      text.toList = (if negative then '-' :: 'P' :: t else 'P' :: t) := by
    rw [wsDeserializeDuration] at h
    split at h
    · next r htext =>
      obtain ⟨w, hw, -⟩ := Option.map_eq_some_iff.mp h
      obtain ⟨t, rfl⟩ := exists_cons_of_durationBody hw
      exact ⟨true, w, t, hw, htext⟩
    · obtain ⟨t, ht⟩ := exists_cons_of_durationBody h
      rw [ht] at h
      exact ⟨false, v, t, h, ht⟩
  obtain ⟨negative, w, t, hw, htext⟩ := hbody
  have hstrip : (if text.toList.head? == some '-' then text.toList.tail else text.toList) =
      'P' :: t := by
    rw [htext]
    cases negative <;> rfl
  rw [hstrip] at hall hcount hpoints
  rw [count_cons_of_ne (by decide)] at hcount
  obtain ⟨d, hneg, hd⟩ := exists_bodyText (plainChar_tail hall) hcount
    (pointsFilled_of_append (s := ['P']) hpoints) negative hw
  refine ⟨d, ?_⟩
  rw [XsDuration.text, hneg, hd, ← htext, String.ofList_toList]

/-- A text is one of the grammar, and if it has no fraction a number is the sum of its
components. -/
def DurationMeans (text : String) (v : ℤ) : Prop :=
  (∃ d : XsDuration, d.text = text) ∧ ∀ d : XsDuration, d.text = text → d.Whole → v = d.seconds

/-- **A text that is read is one of the grammar and means what was read exactly when it is plain and
its components fit an `int`.** -/
theorem durationMeans_iff {text : String} {v : ℤ} (h : wsDeserializeDuration text = some v) :
    DurationMeans text v ↔
      plainDuration text = true ∧ ∀ d : XsDuration, d.text = text → d.Whole → d.Fits := by
  rw [DurationMeans, exists_text_iff_plainDuration h]
  refine and_congr_right fun _ ↦ forall_congr' fun d ↦ forall₂_congr fun htext hwhole ↦ ?_
  have hread := d.wsDeserializeDuration_eq
  rw [htext, h, Option.some.injEq] at hread
  rw [hread, hwhole.signed_readSeconds]

theorem durationMeans_one_day :
    wsDeserializeDuration "P1D" = some 86400 ∧ (DurationMeans "P1D" 86400 ↔
      plainDuration "P1D" = true ∧ ∀ d : XsDuration, d.text = "P1D" → d.Whole → d.Fits) :=
  ⟨by decide, durationMeans_iff (by decide)⟩

def manyDays : XsDuration where
  negative := false
  date := [wholeComponent .days "4294967297".toList ⟨by decide, List.all_eq_true.mp (by decide)⟩]
  time := []
  date_isTime := by simp [wholeComponent, DurationField.isTime]
  time_isTime := by simp
  descending := by simp
  ne_nil := by simp

/-- A blank is skipped, and a number of days that is too large is read as one day. -/
theorem not_durationMeans :
    (wsDeserializeDuration "P 1D" = some 86400 ∧ ¬DurationMeans "P 1D" 86400) ∧
      wsDeserializeDuration "P4294967297D" = some 86400 ∧
      ¬DurationMeans "P4294967297D" 86400 := by
  refine ⟨⟨by decide, ?_⟩, by decide, ?_⟩
  · rintro ⟨⟨d, hd⟩, -⟩
    have hplain := d.plainDuration_text
    rw [hd] at hplain
    exact absurd hplain (by decide)
  · rintro ⟨-, hsum⟩
    have hwhole : manyDays.Whole := by
      simp [XsDuration.Whole, XsDuration.components, manyDays, wholeComponent]
    have hseconds := hsum manyDays (by decide) hwhole
    exact absurd hseconds (by decide)

end Openwsman
