import Mathlib.Data.List.DropRight

/-!
# Queries

`u_parse_query` of `u/uri.c` reads a list of `name=value` pairs. A query is cut into tokens, a token
at its first `=`, blanks and quotes are trimmed off the parts, and bytes written as `%xx` are
decoded. A name that was seen before is not entered again, and a pair with a bad `%xx` is left out;
a token without `=` makes the whole query unreadable. The message about a `,` in a value has no
effect and is not modelled.

Strings are lists of bytes without their terminator. The table is listed in the order of insertion;
the order in which the hash table is scanned is another one.
-/

namespace Openwsman

open Bool Option List

/-- A C string without its terminator. -/
abbrev Bytes := List UInt8

/-! ## Trimming -/

def uIsblank (c : UInt8) : Bool := c == ' '.toUInt8 || c == '\t'.toUInt8

def uIsquote (c : UInt8) : Bool := c == '"'.toUInt8

/-- The two loops of `u_trim` and `u_trim_quotes`. The first one leaves the first byte alone. -/
def trimBy (p : UInt8 → Bool) : Bytes → Bytes
  | [] => []
  | c :: s => (c :: s.rdropWhile p).dropWhile p

def uTrim : Bytes → Bytes := trimBy uIsblank

def uTrimQuotes : Bytes → Bytes := trimBy uIsquote

/-! ## Decoding -/

/-- The value of a hexadecimal digit. `isxdigit` holds of the bytes that have one. -/
def xdigit (c : UInt8) : Option ℕ :=
  if '0'.toUInt8 ≤ c ∧ c ≤ '9'.toUInt8 then some (c.toNat - 48)
  else if 'A'.toUInt8 ≤ c ∧ c ≤ 'F'.toUInt8 then some (c.toNat - 55)
  else if 'a'.toUInt8 ≤ c ∧ c ≤ 'f'.toUInt8 then some (c.toNat - 87)
  else none

/-- The loop of `u_string_unify`: the string is what was rewritten, up to the index, followed by
what was not read yet. A decoded byte is not read again. -/
def unifyLoop (rewritten : Bytes) : Bytes → Option Bytes
  | [] => some rewritten
  | c :: s =>
    if c ≠ '%'.toUInt8 then unifyLoop (rewritten ++ [c]) s
    else
      match s with
      | a :: b :: s =>
        match xdigit a, xdigit b with
        | some x, some y => unifyLoop (rewritten ++ [UInt8.ofNat (16 * x + y)]) s
        | _, _ => none
      | _ => none

def uStringUnify (s : Bytes) : Option Bytes := (unifyLoop [] s).map (·.takeWhile (· ≠ 0))

/-! ## Tokens and pairs -/

def strtokAll (separator : Bytes) (s : Bytes) : List Bytes :=
  (s.splitOnP (· ∈ separator)).filter (!·.isEmpty)

def splitPair (tok : Bytes) : Option (Bytes × Bytes) :=
  match tok.dropWhile (· ≠ '='.toUInt8) with
  | [] => none
  | _ :: val => some (tok.takeWhile (· ≠ '='.toUInt8), val)

def readPair (pair : Bytes × Bytes) : Option (Bytes × Bytes) :=
  (uStringUnify (uTrim pair.1)).bind fun key ↦
    (uStringUnify (uTrimQuotes (uTrim pair.2))).map fun val ↦ (key, val)

def uParseLoop (h : List (Bytes × Bytes)) : List Bytes → Option (List (Bytes × Bytes))
  | [] => some h
  | tok :: toks =>
    (splitPair tok).bind fun pair ↦
      match readPair pair with
      | none => uParseLoop h toks
      | some pair =>
        if pair.1 ∈ h.map Prod.fst then uParseLoop h toks else uParseLoop (h ++ [pair]) toks

def uParse (query separator : Bytes) : Option (List (Bytes × Bytes)) :=
  uParseLoop [] (strtokAll separator query)

def uParseQuery (query : Bytes) : Option (List (Bytes × Bytes)) :=
  uParse query ['&'.toUInt8, ';'.toUInt8]

/-! ## Pairs that are read as they are -/

variable {s : Bytes}

theorem trimBy_of_forall {p : UInt8 → Bool} (h : ∀ c ∈ s, p c = false) : trimBy p s = s := by
  cases s with
  | nil => rfl
  | cons c s =>
    have hs : s.rdropWhile p = s := by
      rw [rdropWhile_eq_self_iff]
      intro hne
      rw [h _ (mem_cons_of_mem c (getLast_mem hne))]
      exact false_ne_true
    rw [trimBy, hs, dropWhile_cons_of_neg]
    rw [h c mem_cons_self]
    exact false_ne_true

theorem forall_ne_of_not_mem {a : UInt8} (h : a ∉ s) : ∀ c ∈ s, decide (c ≠ a) = true := by
  intro c hc
  rw [decide_eq_true_iff]
  rintro rfl
  exact h hc

theorem uStringUnify_of_unifyLoop {t : Bytes} (h : unifyLoop [] s = some t) (hnul : 0 ∉ t) :
    uStringUnify s = some t := by
  rw [uStringUnify, h, map_some, takeWhile_eq_self_iff.mpr (forall_ne_of_not_mem hnul)]

theorem splitPair_append {key : Bytes} (val : Bytes) (h : '='.toUInt8 ∉ key) :
    splitPair (key ++ '='.toUInt8 :: val) = some (key, val) := by
  have hkey := forall_ne_of_not_mem h
  rw [splitPair, dropWhile_append_of_pos hkey, takeWhile_append_of_pos hkey]
  simp

theorem strtokAll_intercalate {separator : Bytes} {c : UInt8} (hc : c ∈ separator)
    {toks : List Bytes} (hne : ∀ t ∈ toks, t ≠ []) (hsep : ∀ t ∈ toks, ∀ b ∈ t, b ∉ separator) :
    strtokAll separator (List.intercalate [c] toks) = toks := by
  rcases eq_or_ne toks [] with rfl | hnil
  · rfl
  rw [strtokAll]
  suffices hsplit : (intercalate [c] toks).splitOnP (· ∈ separator) = toks by
    rw [hsplit, filter_eq_self]
    intro t ht
    simpa using hne t ht
  induction toks with
  | nil => exact absurd rfl hnil
  | cons t toks ih =>
    have ht : ∀ b ∈ t, decide (b ∈ separator) = false := by
      intro b hb
      exact decide_eq_false (hsep t mem_cons_self b hb)
    rcases eq_or_ne toks [] with rfl | hnil
    · rw [intercalate_singleton, splitOnP_eq_singleton ht]
    rw [intercalate_cons_of_ne_nil hnil, append_assoc, singleton_append,
      splitOnP_append_cons_of_forall_mem ht c (decide_eq_true hc),
      ih (fun t ht ↦ hne t (mem_cons_of_mem _ ht)) (fun t ht ↦ hsep t (mem_cons_of_mem _ ht)) hnil]

theorem uParseLoop_map {f : Bytes × Bytes → Bytes} :
    ∀ {pairs h : List (Bytes × Bytes)},
      (∀ p ∈ pairs, (splitPair (f p)).map readPair = some (some p)) →
      ((h ++ pairs).map Prod.fst).Nodup → uParseLoop h (pairs.map f) = some (h ++ pairs) := by
  intro pairs
  induction pairs with
  | nil => intro h _ _; rw [append_nil]; rfl
  | cons p pairs ih =>
    intro h hread hnodup
    obtain ⟨q, hq, hp⟩ := map_eq_some_iff.mp (hread p mem_cons_self)
    have hnew : p.1 ∉ h.map Prod.fst := by
      rw [map_append, map_cons, nodup_append] at hnodup
      intro hmem
      exact hnodup.2.2 _ hmem _ mem_cons_self rfl
    rw [append_cons] at hnodup ⊢
    rw [map_cons, uParseLoop, hq, bind_some, hp]
    dsimp only
    rw [if_neg hnew]
    exact ih (fun p hp ↦ hread p (mem_cons_of_mem _ hp)) hnodup

/-! ## Encoded queries -/

def hexDigit (upper : Bool) (n : ℕ) : UInt8 :=
  if n < 10 then UInt8.ofNat (48 + n) else UInt8.ofNat ((if upper then 55 else 87) + n)

def percentEncode (upper : Bool) (s : Bytes) : Bytes :=
  s.flatMap fun b ↦
    ['%'.toUInt8, hexDigit upper (b.toNat / 16), hexDigit upper (b.toNat % 16)]

def encodePair (upper : Bool) (p : Bytes × Bytes) : Bytes :=
  percentEncode upper p.1 ++ '='.toUInt8 :: percentEncode upper p.2

def encodeQuery (upper : Bool) (pairs : List (Bytes × Bytes)) : Bytes :=
  List.intercalate ['&'.toUInt8] (pairs.map (encodePair upper))

variable (upper : Bool)

theorem xdigit_hexDigit : ∀ n < 16, xdigit (hexDigit upper n) = some n := by
  revert upper
  decide

def isPlainByte (c : UInt8) : Bool :=
  !(uIsblank c || uIsquote c || ['='.toUInt8, '&'.toUInt8, ';'.toUInt8].contains c)

theorem isPlainByte_hexDigit : ∀ n < 16, isPlainByte (hexDigit upper n) = true := by
  revert upper
  decide

theorem isPlainByte_of_mem {c : UInt8} (h : c ∈ percentEncode upper s) : isPlainByte c = true := by
  obtain ⟨b, _, hc⟩ := mem_flatMap.mp h
  have hb := b.toNat_lt
  rcases mem_cons.mp hc with rfl | hc
  · rfl
  rcases mem_cons.mp hc with rfl | hc
  · exact isPlainByte_hexDigit upper _ (by omega)
  · rw [mem_singleton.mp hc]
    exact isPlainByte_hexDigit upper _ (by omega)

theorem unifyLoop_percentEncode (s rewritten : Bytes) :
    unifyLoop rewritten (percentEncode upper s) = some (rewritten ++ s) := by
  induction s generalizing rewritten with
  | nil => rw [append_nil]; rfl
  | cons b s ih =>
    have hb := b.toNat_lt
    have hbyte : UInt8.ofNat (16 * (b.toNat / 16) + b.toNat % 16) = b := by
      rw [Nat.div_add_mod, UInt8.ofNat_toNat]
    rw [percentEncode, flatMap_cons, ← percentEncode]
    simp only [cons_append, nil_append, unifyLoop, ne_eq, not_true_eq_false, if_false,
      xdigit_hexDigit upper (b.toNat / 16) (by omega),
      xdigit_hexDigit upper (b.toNat % 16) (by omega), hbyte]
    rw [ih, append_assoc, singleton_append]

theorem uStringUnify_percentEncode (h : 0 ∉ s) : uStringUnify (percentEncode upper s) = some s :=
  uStringUnify_of_unifyLoop (unifyLoop_percentEncode upper s []) h

theorem splitPair_encodePair {p : Bytes × Bytes} (hkey : 0 ∉ p.1) (hval : 0 ∉ p.2) :
    (splitPair (encodePair upper p)).map readPair = some (some p) := by
  have hplain : ∀ (f : UInt8 → Bool), (∀ c, isPlainByte c = true → f c = false) → ∀ s : Bytes,
      ∀ c ∈ percentEncode upper s, f c = false :=
    fun f hf s c hc ↦ hf c (isPlainByte_of_mem upper hc)
  have hblank := hplain uIsblank (by simp +contextual [isPlainByte])
  have hquote := hplain uIsquote (by simp +contextual [isPlainByte])
  have heq : '='.toUInt8 ∉ percentEncode upper p.1 := by
    intro hmem
    exact absurd (isPlainByte_of_mem upper hmem) (by decide)
  rw [encodePair, splitPair_append _ heq, map_some, readPair]
  dsimp only
  rw [uTrim, trimBy_of_forall (hblank p.1), trimBy_of_forall (hblank p.2), uTrimQuotes,
    trimBy_of_forall (hquote p.2), uStringUnify_percentEncode upper hkey,
    uStringUnify_percentEncode upper hval]
  rfl

/-- **An encoded query is read as the pairs that were encoded.** -/
theorem uParseQuery_encodeQuery {pairs : List (Bytes × Bytes)}
    (hnul : ∀ p ∈ pairs, 0 ∉ p.1 ∧ 0 ∉ p.2) (hnodup : (pairs.map Prod.fst).Nodup) :
    uParseQuery (encodeQuery upper pairs) = some pairs := by
  have hplain : ∀ s, ∀ b ∈ percentEncode upper s, b ∉ ['&'.toUInt8, ';'.toUInt8] := by
    intro s b hb hmem
    have hb := isPlainByte_of_mem upper hb
    simp only [isPlainByte, contains_cons, Bool.not_or, Bool.and_eq_true] at hb
    simp_all
  rw [uParseQuery, uParse, encodeQuery, strtokAll_intercalate mem_cons_self]
  · exact uParseLoop_map (fun p hp ↦ splitPair_encodePair upper (hnul p hp).1 (hnul p hp).2) hnodup
  · intro t ht
    obtain ⟨p, _, rfl⟩ := mem_map.mp ht
    simp [encodePair]
  · intro t ht b hb
    obtain ⟨p, _, rfl⟩ := mem_map.mp ht
    rcases mem_append.mp hb with hb | hb
    · exact hplain _ b hb
    rcases mem_cons.mp hb with rfl | hb
    · decide
    · exact hplain _ b hb

theorem uParseQuery_encodeQuery_separator :
    uParseQuery (encodeQuery true [(['%'.toUInt8], ['a'.toUInt8, '&'.toUInt8])]) =
      some [(['%'.toUInt8], ['a'.toUInt8, '&'.toUInt8])] :=
  uParseQuery_encodeQuery true (by decide) (by decide)

end Openwsman
