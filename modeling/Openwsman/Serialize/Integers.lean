import Openwsman.Serialize.Elements

/-!
# Integers

`do_serialize_int` and `do_serialize_uint` read the texts of an array of integers. What a text
denotes is `denotedInt`: a number with an optional sign, between blanks.

For 8, 16 and 64 bits a number outside the range of the type is refused. For 32 bits it is not: the
number is cut off. And an element that is marked as nil may have no number at all, or for an
unsigned type one with a minus; then nothing is stored, and the memory is zero.
-/

namespace Openwsman

open Nat Layout

/-! ## Texts -/

def denotedInt (text : String) : Option ℤ :=
  let s := readSign (text.toList.dropWhile isSpace)
  let ds := s.2.takeWhile isDigit
  if ds.isEmpty || !((s.2.dropWhile isDigit).dropWhile isSpace).isEmpty then none
  else some (if s.1 then -(digitsValue ds : ℤ) else digitsValue ds)

def BasicType.InRange (t : BasicType) (v : ℤ) : Prop := t.range.1 ≤ v ∧ v ≤ t.range.2

def BasicType.isWord (t : BasicType) : Bool := t == .int32 || t == .uint32

def absentInt (t : BasicType) (text : String) : Bool :=
  let str := text.toList.dropWhile isSpace
  str.isEmpty || (!t.isSigned && str.head? == some '-')

theorem readNumber_eq (lo hi : ℤ) (text : String) :
    readNumber lo hi (text.toList.dropWhile isSpace) =
      (denotedInt text).bind fun v ↦ if v < lo ∨ hi < v then none else some v := by
  rw [readNumber, denotedInt]
  generalize readSign (text.toList.dropWhile isSpace) = s
  rcases hempty : (s.2.takeWhile isDigit).isEmpty with _ | _
  · rcases hrest : ((s.2.dropWhile isDigit).dropWhile isSpace).isEmpty with _ | _ <;> simp
  · simp

def BasicType.longRange (t : BasicType) : ℤ × ℤ :=
  if t.isSigned then (-2 ^ 63, 2 ^ 63 - 1) else (0, 2 ^ 64 - 1)

theorem readInteger_eq (t : BasicType) (child : WsXmlNode) :
    readInteger t child =
      if absentInt t child.chars then
        if wsXmlFindAttrBool (some child) (some xmlNsSchemaInstance) xmlSchemaNil then some 0
        else none
      else (denotedInt child.chars).bind fun v ↦
        if v < t.longRange.1 ∨ t.longRange.2 < v then none else storedNumber t v := by
  rw [readInteger, absentInt]
  refine if_congr Iff.rfl rfl ?_
  have hread : (if t.isSigned then readNumber (-2 ^ 63) (2 ^ 63 - 1)
        (child.chars.toList.dropWhile isSpace)
      else readNumber 0 (2 ^ 64 - 1) (child.chars.toList.dropWhile isSpace)) =
      (denotedInt child.chars).bind fun v ↦
        if v < t.longRange.1 ∨ t.longRange.2 < v then none else some v := by
    rw [BasicType.longRange]
    split <;> exact readNumber_eq _ _ _
  rw [hread, Option.bind_assoc]
  refine Option.bind_congr fun v _ ↦ ?_
  split <;> rfl

variable {t : BasicType}

theorem storedNumber_of_inRange {v : ℤ} (h : t.InRange v) : storedNumber t v = some v := by
  obtain ⟨hlo, hhi⟩ := h
  have hnarrow : ¬(v < t.range.1 ∨ t.range.2 < v) := by omega
  rcases t with _ | _ | _ | _ | _ | _ | _ | _ | _ | _
  case int32 => exact congrArg some (toCInt_of_mem hlo (Int.lt_of_le_sub_one hhi))
  case uint32 => exact congrArg some (Int.emod_eq_of_lt hlo (Int.lt_of_le_sub_one hhi))
  case int64 | uint64 => rfl
  all_goals exact if_neg hnarrow

theorem inRange_of_storedNumber (ht : t.isInteger = true) (hword : t.isWord = false) {v w : ℤ}
    (hlo : t.longRange.1 ≤ v) (hhi : v ≤ t.longRange.2) (h : storedNumber t v = some w) :
    t.InRange v := by
  have hnarrow (hif : (if v < t.range.1 ∨ t.range.2 < v then none else some v) = some w) :
      t.InRange v := by
    split at hif
    · cases hif
    · next hrange => exact ⟨by omega, by omega⟩
  rcases t with _ | _ | _ | _ | _ | _ | _ | _ | _ | _
  case int32 | uint32 => cases hword
  case bool | string => cases ht
  case int64 | uint64 => exact ⟨hlo, hhi⟩
  all_goals exact hnarrow h

theorem readInteger_iff (ht : t.isInteger = true) {child : WsXmlNode} {w : ℤ}
    (h : readInteger t child = some w) :
    (denotedInt child.chars = some w ∧ t.InRange w) ↔
      (absentInt t child.chars = true → denotedInt child.chars = some 0) ∧
      (t.isWord = true → ∀ v, denotedInt child.chars = some v → t.InRange v) := by
  rw [readInteger_eq] at h
  split at h
  · next habsent =>
    split at h
    · cases h
      have hzero : t.InRange 0 := by
        rcases t <;> exact ⟨by decide, by decide⟩
      constructor
      · rintro ⟨hdenoted, -⟩
        refine ⟨fun _ ↦ hdenoted, fun _ v hv ↦ ?_⟩
        rw [hdenoted] at hv
        cases hv
        exact hzero
      · rintro ⟨hdenoted, -⟩
        exact ⟨hdenoted habsent, hzero⟩
    · cases h
  · next habsent =>
    obtain ⟨v, hv, hstored⟩ := Option.bind_eq_some_iff.mp h
    split at hstored
    · cases hstored
    next hlong =>
    constructor
    · rintro ⟨hdenoted, hrange⟩
      refine ⟨fun hyes ↦ absurd hyes habsent, fun _ u hu ↦ ?_⟩
      rw [hdenoted] at hu
      cases hu
      exact hrange
    · rintro ⟨-, hwords⟩
      have hrange : t.InRange v := by
        rcases hword : t.isWord with _ | _
        · exact inRange_of_storedNumber ht hword (by omega) (by omega) hstored
        · exact hwords hword v hv
      rw [storedNumber_of_inRange hrange] at hstored
      cases hstored
      exact ⟨hv, hrange⟩

/-! ## Arrays -/

theorem getElem?_of_eachElement {α : Type} {element : ℕ → ℕ → SerResult (List α)}
    (hone : ∀ i a out, element i a = .ok out → ∃ x, out = [x]) {size n index a : ℕ} {out : List α}
    (h : eachElement element size n index a = .ok out) :
    out.length = n ∧ ∀ i < n, ∃ x, out[i]? = some x ∧
      element (index + i) (a + i * size) = .ok [x] := by
  induction n generalizing index a out with
  | zero =>
    cases h
    exact ⟨rfl, fun i hi ↦ absurd hi (not_lt_zero i)⟩
  | succ n ih =>
    obtain ⟨first, hfirst, hrest⟩ := SerResult.bind_eq_ok.mp h
    obtain ⟨others, hothers, rfl⟩ := SerResult.map_eq_ok.mp hrest
    obtain ⟨x, rfl⟩ := hone index a first hfirst
    obtain ⟨hlength, hget⟩ := ih hothers
    refine ⟨congrArg (· + 1) hlength, ?_⟩
    rintro (_ | i) hi
    · exact ⟨x, rfl, by rwa [zero_mul, add_zero, add_zero]⟩
    obtain ⟨y, hy, helement⟩ := hget i (lt_of_succ_lt_succ hi)
    refine ⟨y, hy, ?_⟩
    rwa [add_succ_mul, ← succ_add_eq_add_succ]

/-- Each of the elements denotes a number of the type, and these are the numbers that are stored
from an address on. -/
def IntegersRead (t : BasicType) (ns : Option String) (name : String) (parent : WsXmlNode)
    (count start : ℕ) (out : Memory) : Prop :=
  out.length = count ∧ ∀ i < count, ∃ child v,
    wsXmlGetChild (some parent) i ns (some name) = some child ∧
    denotedInt child.chars = some v ∧ t.InRange v ∧
    out[i]? = some (start + i * t.size, .int t v)

theorem childAt_storeLeaf_eq_ok (ht : t.isInteger = true) {parent : WsXmlNode} {ns : Option String}
    {name : String} {i a : ℕ} {out : Memory}
    (h : childAt parent ns name (storeLeaf t) i a = .ok out) :
    ∃ child v, wsXmlGetChild (some parent) i ns (some name) = some child ∧
      readInteger t child = some v ∧ out = [(a, .int t v)] := by
  rw [childAt] at h
  split at h
  · cases h
  next child hchild =>
  rw [storeLeaf, readLeaf_of_isInteger ht] at h
  rcases hread : readInteger t child with _ | v
  · rw [hread] at h
    cases h
  · rw [hread] at h
    cases h
    exact ⟨child, v, hchild, hread, rfl⟩

theorem eachElement_of_deserialize_basic {ns : Option String} {name : String} {head : Bool}
    {index count buf stopper : ℕ} {parent : WsXmlNode} {w : Walked (ℕ × Word)}
    (h : (SerType.basic t).deserialize ns name head index count parent buf stopper = .ok w) :
    eachElement (childAt parent ns name (storeLeaf t)) t.size count 0 (alignUp buf t.size) =
      .ok w.out := by
  rw [SerType.deserialize] at h
  obtain ⟨walked, hwalked, hw⟩ := SerResult.bind_eq_ok.mp h
  split at hw
  · cases hw
  · cases hw
    exact (doSerializeBasic_eq_ok hwalked).1

/-- When an array of integers is deserialized, its texts denote numbers of the type and these are
stored, exactly when no text stands for an absent number, unless for a zero, and with 32 bits none
denotes a number that is not one of the type. -/
theorem integersRead_iff {t : BasicType} (ht : t.isInteger = true) {ns : Option String}
    {name : String} {head : Bool} {index count buf stopper : ℕ} {parent : WsXmlNode}
    {w : Walked (ℕ × Word)}
    (h : (SerType.basic t).deserialize ns name head index count parent buf stopper = .ok w) :
    IntegersRead t ns name parent count (alignUp buf t.size) w.out ↔
      ∀ i < count, ∀ child, wsXmlGetChild (some parent) i ns (some name) = some child →
        (absentInt t child.chars = true → denotedInt child.chars = some 0) ∧
        (t.isWord = true → ∀ v, denotedInt child.chars = some v → t.InRange v) := by
  have hone : ∀ i a out, childAt parent ns name (storeLeaf t) i a = .ok out → ∃ x, out = [x] := by
    intro i a out hout
    obtain ⟨_, _, -, -, rfl⟩ := childAt_storeLeaf_eq_ok ht hout
    exact ⟨_, rfl⟩
  obtain ⟨hlength, hget⟩ := getElem?_of_eachElement hone (eachElement_of_deserialize_basic h)
  rw [IntegersRead, and_iff_right hlength]
  refine forall₂_congr fun i hi ↦ ?_
  obtain ⟨x, hx, helement⟩ := hget i hi
  rw [zero_add] at helement
  obtain ⟨child, v, hchild, hread, hout⟩ := childAt_storeLeaf_eq_ok ht helement
  obtain rfl := (List.cons.inj hout).1
  rw [hchild, hx]
  constructor
  · rintro ⟨c, u, hc, hdenoted, hrange, hstored⟩ d hd
    cases hc
    cases hd
    cases hstored
    exact (readInteger_iff ht hread).mp ⟨hdenoted, hrange⟩
  · intro hall
    obtain ⟨hdenoted, hrange⟩ := (readInteger_iff ht hread).mpr (hall child rfl)
    exact ⟨child, v, rfl, hdenoted, hrange, rfl⟩

def numbersNode (attrs : List WsXmlAttr) (texts : List String) : WsXmlNode :=
  .element none "Numbers" [] (texts.map fun text ↦ .element none "Number" attrs [.text text])

theorem integersRead_int16 :
    IntegersRead .int16 none "Number" (numbersNode [] ["-5", " +32767 "]) 2 0
      [(0, .int .int16 (-5)), (2, .int .int16 32767)] := by
  have hread : (SerType.basic .int16).deserialize none "Number" false 0 2
      (numbersNode [] ["-5", " +32767 "]) 0 4 =
        .ok ⟨4, 4, [(0, .int .int16 (-5)), (2, .int .int16 32767)]⟩ := rfl
  refine (integersRead_iff rfl hread).mpr fun i hi child hchild ↦ ?_
  have habsent : absentInt .int16 child.chars = false := by
    rcases i with _ | _ | i
    · cases hchild
      decide
    · cases hchild
      decide
    · omega
  refine ⟨fun hyes ↦ ?_, fun hword ↦ absurd hword (by decide)⟩
  rw [habsent] at hyes
  cases hyes

/-- With 32 bits a number is cut off, and an element that is marked as nil need not have one. -/
theorem not_integersRead :
    (∃ w, (SerType.basic .uint32).deserialize none "Number" false 0 1
        (numbersNode [] ["4294967296"]) 0 4 = .ok w ∧
      ¬IntegersRead .uint32 none "Number" (numbersNode [] ["4294967296"]) 1 0 w.out) ∧
    ∃ w, (SerType.basic .int8).deserialize none "Number" false 0 1
        (numbersNode [⟨some xmlNsSchemaInstance, xmlSchemaNil, "true"⟩] [""]) 0 1 = .ok w ∧
      ¬IntegersRead .int8 none "Number"
        (numbersNode [⟨some xmlNsSchemaInstance, xmlSchemaNil, "true"⟩] [""]) 1 0 w.out := by
  refine ⟨⟨⟨4, 4, [(0, .int .uint32 0)]⟩, rfl, ?_⟩, ⟨⟨1, 1, [(0, .int .int8 0)]⟩, rfl, ?_⟩⟩
  · rintro ⟨-, hall⟩
    obtain ⟨child, v, hchild, hdenoted, hrange, -⟩ := hall 0 one_pos
    cases hchild
    cases hdenoted
    exact absurd hrange.2 (by decide)
  · rintro ⟨-, hall⟩
    obtain ⟨child, v, hchild, hdenoted, -, -⟩ := hall 0 one_pos
    cases hchild
    cases hdenoted

end Openwsman
