import Mathlib.Algebra.GroupWithZero.Nat
import Mathlib.Algebra.Order.BigOperators.Group.List
import Mathlib.Algebra.Order.Group.Nat
import Openwsman.Libu.Query

/-!
# Endpoint references as strings

`epr_to_string` writes the selectors of a reference as a query behind the resource URI, byte for
byte. `epr_from_string` reads the string with `u_parse_query`, to which some bytes mean more than
themselves. A reference survives exactly if none of its names and values has such a byte: a pair
that is read as another one, or not at all, leaves too few bytes for the other pairs to make up for.

The reference that is read has the anonymous address.
-/

namespace Openwsman

open Option List

inductive SelectorValue where
  | text (chars : Bytes)
  | epr (uri : Bytes) (selectors : List (Bytes × SelectorValue))

mutual

def SelectorValue.toBytes : SelectorValue → Bytes
  | .text chars => chars
  | .epr uri selectors => uri ++ selectorsToBytes '?'.toUInt8 selectors

def selectorsToBytes (separator : UInt8) : List (Bytes × SelectorValue) → Bytes
  | [] => []
  | (key, value) :: selectors =>
    separator :: key ++ '='.toUInt8 :: value.toBytes ++ selectorsToBytes '&'.toUInt8 selectors

end

def eprToString (uri : Bytes) (selectors : List (Bytes × Bytes)) : Bytes :=
  (SelectorValue.epr uri (selectors.map fun p ↦ (p.1, .text p.2))).toBytes

/-- `epr_from_string`: the resource URI and the selectors. A query that cannot be read leaves a
reference without selectors. -/
def eprFromString (str : Bytes) : Bytes × List (Bytes × Bytes) :=
  match str.dropWhile (· ≠ '?'.toUInt8) with
  | [] => (str, [])
  | _ :: query => (str.takeWhile (· ≠ '?'.toUInt8), (uParseQuery query).getD [])

def EprStringKept (uri : Bytes) (selectors : List (Bytes × Bytes)) : Prop :=
  ∃ read, eprFromString (eprToString uri selectors) = (uri, read) ∧ read.Perm selectors

/-- A pair that means itself in a query: no byte separates or encodes, and nothing is trimmed. -/
structure Literal (p : Bytes × Bytes) : Prop where
  name : '='.toUInt8 ∉ p.1 ∧ '%'.toUInt8 ∉ p.1 ∧ uTrim p.1 = p.1
  value : '%'.toUInt8 ∉ p.2 ∧ uTrimQuotes (uTrim p.2) = p.2
  separators : ∀ c ∈ p.1 ++ p.2, c ∉ ['&'.toUInt8, ';'.toUInt8]

/-! ## The string -/

def pairToken (p : Bytes × Bytes) : Bytes := p.1 ++ '='.toUInt8 :: p.2

theorem selectorsToBytes_texts (c : UInt8) (p : Bytes × Bytes) (ps : List (Bytes × Bytes)) :
    selectorsToBytes c ((p :: ps).map fun p ↦ (p.1, .text p.2)) =
      c :: List.intercalate ['&'.toUInt8] ((p :: ps).map pairToken) := by
  induction ps generalizing c p with
  | nil => simp [selectorsToBytes, SelectorValue.toBytes, pairToken]
  | cons q ps ih =>
    rw [map_cons, selectorsToBytes, ih, SelectorValue.toBytes]
    simp only [map_cons, intercalate_cons_cons]
    simp [pairToken]

theorem eprFromString_eprToString {uri : Bytes} (huri : '?'.toUInt8 ∉ uri) (p : Bytes × Bytes)
    (ps : List (Bytes × Bytes)) :
    eprFromString (eprToString uri (p :: ps)) =
      (uri, (uParseQuery (List.intercalate ['&'.toUInt8] ((p :: ps).map pairToken))).getD []) := by
  have hpos := forall_ne_of_not_mem huri
  rw [eprToString, SelectorValue.toBytes, selectorsToBytes_texts, eprFromString,
    dropWhile_append_of_pos hpos, takeWhile_append_of_pos hpos]
  simp

/-! ## Nothing is gained by reading -/

variable {s t : Bytes}

theorem unifyLoop_of_not_mem (rewritten : Bytes) (h : '%'.toUInt8 ∉ s) :
    unifyLoop rewritten s = some (rewritten ++ s) := by
  induction s generalizing rewritten with
  | nil => rw [append_nil]; rfl
  | cons c s ih =>
    obtain ⟨hc, hs⟩ := not_or.mp (mt mem_cons.mpr h)
    rw [unifyLoop.eq_def]
    dsimp only
    rw [if_pos (Ne.symm hc), ih _ hs, append_assoc, singleton_append]

theorem unifyLoop_length {rewritten : Bytes} (h : unifyLoop rewritten s = some t) :
    t.length ≤ rewritten.length + s.length ∧
      ('%'.toUInt8 ∈ s → t.length < rewritten.length + s.length) := by
  fun_induction unifyLoop rewritten s with
  | case1 => cases h; simp
  | case2 rewritten c s hc ih =>
    have := ih h
    simp only [length_append, length_cons, length_nil] at this ⊢
    refine ⟨by omega, fun hmem ↦ ?_⟩
    have := this.2 ((mem_cons.mp hmem).resolve_left (Ne.symm hc))
    omega
  | case3 rewritten c hc a b s x y hx hy ih =>
    have := (ih h).1
    simp only [length_append, length_cons, length_nil] at this ⊢
    omega
  | case4 | case5 => cases h

/-- A string that was trimmed and decoded is no longer than before; if it is as long, nothing has
happened to it. -/
theorem uStringUnify_length {f : Bytes → Bytes} (hf : (f s).Sublist s)
    (h : uStringUnify (f s) = some t) :
    t.length ≤ s.length ∧ (s.length ≤ t.length → t = s ∧ '%'.toUInt8 ∉ s ∧ f s = s) := by
  obtain ⟨u, hu, rfl⟩ := map_eq_some_iff.mp h
  obtain ⟨hle, hlt⟩ := unifyLoop_length hu
  have hcut := (takeWhile_sublist (l := u) (· ≠ 0)).length_le
  have hlen := hf.length_le
  rw [length_nil, Nat.zero_add] at hle hlt
  refine ⟨by omega, fun hge ↦ ?_⟩
  have hfs : f s = s := hf.eq_of_length (by omega)
  have hnot : '%'.toUInt8 ∉ s := by
    intro hmem
    have := hlt (by rwa [hfs])
    omega
  rw [hfs, unifyLoop_of_not_mem [] hnot, some.injEq, nil_append] at hu
  subst hu
  exact ⟨(takeWhile_sublist _).eq_of_length (by omega), hnot, hfs⟩

theorem trimBy_sublist (p : UInt8 → Bool) (s : Bytes) : (trimBy p s).Sublist s := by
  cases s with
  | nil => exact Sublist.slnil
  | cons c s =>
    exact (dropWhile_sublist p).trans ((List.rdropWhile_prefix p s).sublist.cons_cons c)

theorem splitPair_eq_some {tok : Bytes} {p : Bytes × Bytes} (h : splitPair tok = some p) :
    tok = pairToken p ∧ '='.toUInt8 ∉ p.1 := by
  rw [splitPair] at h
  split at h
  · cases h
  next c val hdrop =>
  have hc : c = '='.toUInt8 := by
    have hne : tok.dropWhile (· ≠ '='.toUInt8) ≠ [] := by rw [hdrop]; exact cons_ne_nil _ _
    have hhead := head_dropWhile_not (· ≠ '='.toUInt8) hne
    simp only [hdrop, head_cons] at hhead
    simpa using hhead
  cases h
  refine ⟨?_, fun hmem ↦ ?_⟩
  · dsimp only [pairToken]
    conv_lhs =>
      rw [← takeWhile_append_dropWhile (p := (· ≠ '='.toUInt8)) (l := tok), hdrop, hc]
  · simpa using mem_takeWhile_imp hmem

/-! ## Every byte is needed -/

def queryWeight (pairs : List (Bytes × Bytes)) : ℕ :=
  (pairs.map fun p ↦ p.1.length + p.2.length + 2).sum

def tokenWeight (toks : List Bytes) : ℕ := (toks.map fun t ↦ t.length + 1).sum

theorem strtokAll_spec (separator s : Bytes) :
    tokenWeight (strtokAll separator s) ≤ s.length + 1 ∧
      ∀ tok ∈ strtokAll separator s, ∀ c ∈ tok, c ∉ separator := by
  have hsplit : tokenWeight (s.splitOnP (· ∈ separator)) = s.length + 1 ∧
      ∀ tok ∈ s.splitOnP (· ∈ separator), ∀ c ∈ tok, c ∉ separator := by
    induction s with
    | nil => exact ⟨rfl, by simp⟩
    | cons c s ih =>
      obtain ⟨t, ts, ht⟩ := exists_cons_of_ne_nil (splitOnP_ne_nil (· ∈ separator) s)
      rw [splitOnP_cons_eq_if_modifyHead]
      rw [ht] at ih ⊢
      simp only [tokenWeight, map_cons, sum_cons, forall_mem_cons] at ih ⊢
      split
      · simp only [map_cons, sum_cons, forall_mem_cons, length_nil, length_cons]
        exact ⟨by omega, by simp, ih.2⟩
      next hc =>
      simp only [modifyHead_cons, map_cons, sum_cons, forall_mem_cons, length_cons]
      exact ⟨by omega, ⟨by simpa using hc, ih.2.1⟩, ih.2.2⟩
  refine ⟨?_, fun tok htok ↦ hsplit.2 tok (mem_of_mem_filter htok)⟩
  rw [← hsplit.1]
  exact ((filter_sublist).map _).sum_le_sum fun _ _ ↦ Nat.zero_le _

theorem uParseLoop_weight {toks : List Bytes} {h read : List (Bytes × Bytes)}
    (hsep : ∀ tok ∈ toks, ∀ c ∈ tok, c ∉ ['&'.toUInt8, ';'.toUInt8])
    (hread : uParseLoop h toks = some read) :
    queryWeight read ≤ queryWeight h + tokenWeight toks ∧
      (queryWeight h + tokenWeight toks ≤ queryWeight read → ∀ p ∈ read, p ∈ h ∨ Literal p) := by
  induction toks generalizing h with
  | nil =>
    cases hread
    exact ⟨Nat.le_refl _, fun _ p hp ↦ .inl hp⟩
  | cons tok toks ih =>
    have htoks := fun {h} ↦ @ih h fun t ht ↦ hsep t (mem_cons_of_mem _ ht)
    obtain ⟨pair, hpair, hloop⟩ := bind_eq_some_iff.mp hread
    obtain ⟨rfl, hname⟩ := splitPair_eq_some hpair
    have hweight : tokenWeight (pairToken pair :: toks) =
        pair.1.length + pair.2.length + 2 + tokenWeight toks := by
      simp [tokenWeight, pairToken]
      omega
    rw [hweight]
    split at hloop
    · have := (htoks hloop).1
      exact ⟨by omega, fun _ ↦ by omega⟩
    next q hq =>
    split at hloop
    · have := (htoks hloop).1
      exact ⟨by omega, fun _ ↦ by omega⟩
    obtain ⟨hle, hliteral⟩ := htoks hloop
    have happend : queryWeight (h ++ [q]) = queryWeight h + (q.1.length + q.2.length + 2) := by
      simp [queryWeight]
    obtain ⟨key, hkey, hq⟩ := bind_eq_some_iff.mp hq
    obtain ⟨val, hval, rfl⟩ := map_eq_some_iff.mp hq
    obtain ⟨hkle, hkeq⟩ := uStringUnify_length (trimBy_sublist _ _) hkey
    obtain ⟨hvle, hveq⟩ := uStringUnify_length (f := fun s ↦ uTrimQuotes (uTrim s))
      ((trimBy_sublist _ _).trans (trimBy_sublist _ _)) hval
    rw [happend] at hle hliteral
    dsimp only at hle hliteral
    refine ⟨by omega, fun hge p hp ↦ ?_⟩
    rcases hliteral (by omega) p hp with hp | hp
    · rcases mem_append.mp hp with hp | hp
      · exact .inl hp
      -- the pair that this token has added: nothing was lost, so it is the token itself
      obtain ⟨rfl, hkpercent, hktrim⟩ := hkeq (by omega)
      obtain ⟨rfl, hvpercent, hvtrim⟩ := hveq (by omega)
      rw [mem_singleton.mp hp]
      refine .inr ⟨⟨hname, hkpercent, hktrim⟩, ⟨hvpercent, hvtrim⟩, fun c hc ↦ ?_⟩
      refine hsep _ mem_cons_self c ?_
      simp only [pairToken, mem_append, mem_cons] at hc ⊢
      tauto
    · exact .inr hp

theorem queryWeight_intercalate (p : Bytes × Bytes) (ps : List (Bytes × Bytes)) :
    (List.intercalate ['&'.toUInt8] ((p :: ps).map pairToken)).length + 1 =
      queryWeight (p :: ps) := by
  induction ps generalizing p with
  | nil => simp [queryWeight, pairToken]; omega
  | cons q ps ih =>
    rw [map_cons, map_cons, intercalate_cons_cons, ← map_cons]
    have := ih q
    simp only [queryWeight, map_cons, sum_cons, length_append, pairToken,
      length_cons, length_nil] at this ⊢
    omega

variable {uri : Bytes} {selectors : List (Bytes × Bytes)}

theorem splitPair_of_literal {p : Bytes × Bytes} (h : Literal p) (hnul : 0 ∉ p.1 ++ p.2) :
    (splitPair (pairToken p)).map readPair = some (some p) := by
  have hunify : ∀ s, '%'.toUInt8 ∉ s → 0 ∉ s → uStringUnify s = some s :=
    fun s hs ↦ uStringUnify_of_unifyLoop (unifyLoop_of_not_mem [] hs)
  rw [mem_append, not_or] at hnul
  rw [pairToken, splitPair_append _ h.name.1, map_some, readPair]
  dsimp only
  rw [h.name.2.2, h.value.2, hunify _ h.name.2.1 hnul.1, hunify _ h.value.1 hnul.2]
  rfl

/-- **A reference survives as a string exactly if all its selectors are literal.** -/
theorem eprStringKept_iff (huri : '?'.toUInt8 ∉ uri) (hnul : ∀ p ∈ selectors, 0 ∉ p.1 ++ p.2)
    (hnames : (selectors.map Prod.fst).Nodup) :
    EprStringKept uri selectors ↔ ∀ p ∈ selectors, Literal p := by
  cases selectors with
  | nil =>
    have hread : eprFromString (eprToString uri []) = (uri, []) := by
      rw [eprToString, SelectorValue.toBytes, map_nil, selectorsToBytes, append_nil,
        eprFromString, dropWhile_eq_nil_iff.mpr (forall_ne_of_not_mem huri)]
    exact ⟨fun _ ↦ by simp, fun _ ↦ ⟨[], hread, Perm.nil⟩⟩
  | cons p ps =>
    set query := intercalate ['&'.toUInt8] ((p :: ps).map pairToken) with hquery
    obtain ⟨hweight, hsep⟩ := strtokAll_spec ['&'.toUInt8, ';'.toUInt8] query
    have hlength : query.length + 1 = queryWeight (p :: ps) := queryWeight_intercalate p ps
    rw [EprStringKept, eprFromString_eprToString huri, ← hquery]
    constructor
    · rintro ⟨read, hread, hperm⟩
      have hsum : queryWeight read = queryWeight (p :: ps) := (hperm.map _).sum_eq
      cases hloop : uParseQuery query with
      | none =>
        rw [hloop] at hread
        cases hread
        cases hperm.length_eq
      | some t =>
        rw [hloop] at hread
        cases hread
        -- the pairs take up the whole query, so nothing was lost
        have hzero : queryWeight [] = 0 := rfl
        rw [getD_some] at hsum hperm
        intro q hq
        exact ((uParseLoop_weight hsep hloop).2 (by omega) q (hperm.mem_iff.mpr hq)).resolve_left
          not_mem_nil
    · intro h
      refine ⟨p :: ps, ?_, Perm.refl _⟩
      have htoks : strtokAll ['&'.toUInt8, ';'.toUInt8] query = (p :: ps).map pairToken := by
        refine strtokAll_intercalate mem_cons_self ?_ ?_
        · intro t ht
          obtain ⟨q, _, rfl⟩ := mem_map.mp ht
          simp [pairToken]
        · intro t ht b hb
          obtain ⟨q, hq, rfl⟩ := mem_map.mp ht
          simp only [pairToken, mem_append, mem_cons] at hb
          rcases hb with hb | rfl | hb
          · exact (h q hq).separators b (mem_append_left _ hb)
          · decide
          · exact (h q hq).separators b (mem_append_right _ hb)
      rw [uParseQuery, uParse, htoks,
        uParseLoop_map (fun q hq ↦ splitPair_of_literal (h q hq) (hnul q hq)) hnames]
      rfl

theorem not_eprStringKept_separator :
    ¬EprStringKept ['u'.toUInt8] [(['a'.toUInt8], ['1'.toUInt8, ';'.toUInt8])] := by
  rintro ⟨read, hread, hperm⟩
  have : read = [(['a'.toUInt8], ['1'.toUInt8])] := (congrArg Prod.snd hread).symm.trans (by decide)
  subst this
  revert hperm
  decide

theorem eprStringKept_one :
    EprStringKept ['u'.toUInt8] [(['a'.toUInt8], ['1'.toUInt8])] :=
  (eprStringKept_iff (by decide) (by decide) (by decide)).mpr fun p hp ↦ by
    rw [mem_singleton.mp hp]
    exact ⟨by decide, by decide,
      forall_mem_cons.mpr ⟨by decide, forall_mem_singleton.mpr (by decide)⟩⟩

end Openwsman
