import Mathlib.Algebra.Ring.Nat
import Openwsman.Libc.Memory
import Openwsman.Libu.Query

/-!
# Base64

The encoder and the decoder of `u/base64.c`. The encoder keeps its block of three bytes from one
turn of its loop to the next, and a last block that is not full has what the block before it left
there. The decoder drops those bits, so decoding undoes encoding, but the text is the canonical one
only if they happen to be zero.

Lengths are natural numbers. `char` is signed: a byte above 127 is an index outside `DTable`.
-/

namespace Openwsman

open Nat List

namespace Base64

/-! ## Encoding -/

def eTable (i : UInt8) : UInt8 :=
  ("ABCDEFGHIJKLMNOPQRSTUVWXYZabcdefghijklmnopqrstuvwxyz0123456789+/".toList.map
    Char.toUInt8).getD i.toNat 0

def pad : UInt8 := '='.toUInt8

def index0 (in0 : UInt8) : UInt8 := (in0 >>> 2) &&& 0x3f

def index1 (in0 in1 : UInt8) : UInt8 := ((in0 &&& 3) <<< 4) ||| ((in1 >>> 4) &&& 0x0f)

def index2 (in1 in2 : UInt8) : UInt8 := ((in1 &&& 0xF) <<< 2) ||| ((in2 >>> 6) &&& 0x03)

def index3 (in2 : UInt8) : UInt8 := in2 &&& 0x3F

def encodeLoop (in1 in2 : UInt8) : Bytes → Bytes
  | [] => []
  | [a] => [eTable (index0 a), eTable (index1 a in1), pad, pad]
  | [a, b] => [eTable (index0 a), eTable (index1 a b), eTable (index2 b in2), pad]
  | a :: b :: c :: s =>
    [eTable (index0 a), eTable (index1 a b), eTable (index2 b c), eTable (index3 c)] ++
      encodeLoop b c s

def wsBase64Encode (bytes : Bytes) : Bytes := encodeLoop 0 0 bytes

/-! ## Decoding -/

/-- The ranges of `init_DTable`, each with the value of its first character. -/
def dRanges : List (Char × Char × UInt8) :=
  [('A', 'I', 0), ('J', 'R', 9), ('S', 'Z', 18), ('a', 'i', 26), ('j', 'r', 35), ('s', 'z', 44),
    ('0', '9', 52)]

def dTable (c : UInt8) : UInt8 :=
  match dRanges.find? fun r ↦ r.1.toUInt8 ≤ c && c ≤ r.2.1.toUInt8 with
  | some (first, _, value) => value + (c - first.toUInt8)
  | none =>
    if c = '+'.toUInt8 then 62
    else if c = '/'.toUInt8 then 63
    else if c = pad then 0
    -- the loop that fills the table stops before its last place
    else if c = 255 then 0
    else 0x80

def stops (c : UInt8) : Bool := 128 ≤ c || dTable c &&& 0x80 ≠ 0

def octet0 (b0 b1 : UInt8) : UInt8 := (b0 <<< 2) ||| (b1 >>> 4)

def octet1 (b1 b2 : UInt8) : UInt8 := (b1 <<< 4) ||| (b2 >>> 2)

def octet2 (b2 b3 : UInt8) : UInt8 := (b2 <<< 6) ||| b3

/-- The loop, with the bytes written so far. The result is the number returned and the bytes. -/
def decodeLoop (out : Bytes) : Bytes → CResult (ℕ × Bytes)
  | a0 :: a1 :: a2 :: a3 :: s =>
    match [a0, a1, a2, a3].find? stops with
    | some c => if 128 ≤ c then .undefined else .value (0, out)
    | none =>
      let o := [octet0 (dTable a0) (dTable a1), octet1 (dTable a1) (dTable a2),
        octet2 (dTable a2) (dTable a3)]
      decodeLoop (out ++ o.take (if a2 = pad then 1 else if a3 = pad then 2 else 3)) s
  | _ => .value (out.length, out)

def wsBase64Decode (text : Bytes) (toLen : ℕ) : CResult (ℕ × Bytes) :=
  if text.length % 4 ≠ 0 then .value (0, [])
  else if toLen < text.length / 4 * 3 then .value (0, [])
  else decodeLoop [] text

/-! ## The values of the bit operations -/

section

variable {k : ℕ} {m n : UInt8}

theorem toNat_and_mask (hm : m.toNat = 2 ^ k - 1) (x : UInt8) :
    (x &&& m).toNat = x.toNat % 2 ^ k := by
  rw [UInt8.toNat_and, hm, and_two_pow_sub_one_eq_mod]

variable (hk : k < 8) (hn : n.toNat = k)

include hk hn

theorem toNat_shiftRight (x : UInt8) : (x >>> n).toNat = x.toNat / 2 ^ k := by
  rw [UInt8.toNat_shiftRight, hn, mod_eq_of_lt hk, shiftRight_eq_div_pow]

theorem toNat_top (hm : m.toNat = 2 ^ (8 - k) - 1) (x : UInt8) :
    ((x >>> n) &&& m).toNat = x.toNat / 2 ^ k := by
  rw [toNat_and_mask hm, toNat_shiftRight hk hn]
  apply Nat.mod_eq_of_lt
  rw [Nat.div_lt_iff_lt_mul (Nat.two_pow_pos _), ← Nat.pow_add, Nat.sub_add_cancel hk.le]
  exact x.toNat_lt

theorem toNat_shiftLeft_or {y : UInt8} {low : ℕ} (hy : y.toNat = low) (hlow : low < 2 ^ k)
    (x : UInt8) : (x <<< n ||| y).toNat = x.toNat % 2 ^ (8 - k) * 2 ^ k + low := by
  have hpow : (2 : ℕ) ^ 8 = 2 ^ (8 - k) * 2 ^ k := by rw [← Nat.pow_add, Nat.sub_add_cancel hk.le]
  rw [UInt8.toNat_or, UInt8.toNat_shiftLeft, hn, hy, Nat.mod_eq_of_lt hk, Nat.shiftLeft_eq, hpow,
    Nat.mul_mod_mul_right, ← Nat.shiftLeft_eq, ← Nat.shiftLeft_add_eq_or_of_lt hlow,
    Nat.shiftLeft_eq]

end

variable (a b c : UInt8)

theorem toNat_index0 : (index0 a).toNat = a.toNat / 4 := toNat_top (k := 2) (by decide) rfl rfl a

theorem toNat_index1 : (index1 a b).toNat = a.toNat % 4 * 16 + b.toNat / 16 := by
  have hb := b.toNat_lt
  have hlow := toNat_top (k := 4) (m := 0x0f) (n := 4) (by decide) rfl rfl b
  rw [index1, toNat_shiftLeft_or (k := 4) (by decide) rfl hlow (by omega),
    toNat_and_mask (k := 2) rfl]
  omega

theorem toNat_index2 : (index2 b c).toNat = b.toNat % 16 * 4 + c.toNat / 64 := by
  have hc := c.toNat_lt
  have hlow := toNat_top (k := 6) (m := 0x03) (n := 6) (by decide) rfl rfl c
  rw [index2, toNat_shiftLeft_or (k := 2) (by decide) rfl hlow (by omega),
    toNat_and_mask (k := 4) rfl]
  omega

theorem toNat_index3 : (index3 c).toNat = c.toNat % 64 := toNat_and_mask (k := 6) rfl c

theorem octet0_index : octet0 (index0 a) (index1 a b) = a := by
  have ha := a.toNat_lt
  have hb := b.toNat_lt
  have hlow := toNat_shiftRight (k := 4) (n := 4) (by decide) rfl (index1 a b)
  rw [toNat_index1] at hlow
  rw [← UInt8.toNat_inj, octet0, toNat_shiftLeft_or (k := 2) (by decide) rfl hlow (by omega),
    toNat_index0]
  omega

theorem octet1_index : octet1 (index1 a b) (index2 b c) = b := by
  have hb := b.toNat_lt
  have hc := c.toNat_lt
  have hlow := toNat_shiftRight (k := 2) (n := 2) (by decide) rfl (index2 b c)
  rw [toNat_index2] at hlow
  rw [← UInt8.toNat_inj, octet1, toNat_shiftLeft_or (k := 4) (by decide) rfl hlow (by omega),
    toNat_index1]
  omega

theorem octet2_index : octet2 (index2 b c) (index3 c) = c := by
  have hc := c.toNat_lt
  rw [← UInt8.toNat_inj, octet2,
    toNat_shiftLeft_or (k := 6) (by decide) rfl (toNat_index3 c) (by omega), toNat_index2]
  omega

/-! ## Decoding undoes encoding -/

def Codes (c value : UInt8) : Prop := stops c = false ∧ dTable c = value

theorem codes_pad : Codes pad 0 := ⟨by decide, by decide⟩

theorem codes_eTable {i : UInt8} (hi : i.toNat < 64) : Codes (eTable i) i ∧ eTable i ≠ pad := by
  have htable : ∀ i : Fin 64, Codes (eTable (UInt8.ofNat i)) (UInt8.ofNat i) ∧
      eTable (UInt8.ofNat i) ≠ pad := by
    unfold Codes
    decide +kernel
  simpa only [UInt8.ofNat_toNat] using htable ⟨i.toNat, hi⟩

theorem index_lt : (index0 a).toNat < 64 ∧ (index1 a b).toNat < 64 ∧
    (index2 a b).toNat < 64 ∧ (index3 a).toNat < 64 := by
  have ha := a.toNat_lt
  have hb := b.toNat_lt
  rw [toNat_index0, toNat_index1, toNat_index2, toNat_index3]
  omega

theorem decodeLoop_cons {a0 a1 a2 a3 b0 b1 b2 b3 : UInt8} (h0 : Codes a0 b0) (h1 : Codes a1 b1)
    (h2 : Codes a2 b2) (h3 : Codes a3 b3) (out s : Bytes) :
    decodeLoop out (a0 :: a1 :: a2 :: a3 :: s) =
      decodeLoop (out ++ [octet0 b0 b1, octet1 b1 b2, octet2 b2 b3].take
        (if a2 = pad then 1 else if a3 = pad then 2 else 3)) s := by
  have hfind : [a0, a1, a2, a3].find? stops = none := by simp [h0.1, h1.1, h2.1, h3.1]
  rw [decodeLoop, hfind, h0.2, h1.2, h2.2, h3.2]

theorem decodeLoop_encodeLoop (in1 in2 : UInt8) (bytes out : Bytes) :
    decodeLoop out (encodeLoop in1 in2 bytes) =
      .value (out.length + bytes.length, out ++ bytes) := by
  induction in1, in2, bytes using encodeLoop.induct generalizing out with
  | case1 => simp [encodeLoop, decodeLoop]
  | case2 in1 in2 a =>
    obtain ⟨h0, h1, -, -⟩ := index_lt a in1
    rw [encodeLoop, decodeLoop_cons (codes_eTable h0).1 (codes_eTable h1).1 codes_pad codes_pad,
      octet0_index]
    simp [decodeLoop]
  | case3 in1 in2 a b =>
    obtain ⟨h0, h1, -, -⟩ := index_lt a b
    have h2 := codes_eTable (index_lt b in2).2.2.1
    rw [encodeLoop, decodeLoop_cons (codes_eTable h0).1 (codes_eTable h1).1 h2.1 codes_pad,
      if_neg h2.2, octet0_index, octet1_index]
    simp [decodeLoop]
  | case4 in1 in2 a b c s ih =>
    obtain ⟨h0, h1, -, -⟩ := index_lt a b
    have h2 := codes_eTable (index_lt b c).2.2.1
    have h3 := codes_eTable (index_lt c c).2.2.2
    rw [encodeLoop, cons_append, cons_append, cons_append, cons_append,
      nil_append, decodeLoop_cons (codes_eTable h0).1 (codes_eTable h1).1 h2.1 h3.1,
      if_neg h2.2, if_neg h3.2, octet0_index, octet1_index, octet2_index, ih]
    simp
    omega

theorem length_encodeLoop_mod (in1 in2 : UInt8) (bytes : Bytes) :
    (encodeLoop in1 in2 bytes).length % 4 = 0 := by
  induction in1, in2, bytes using encodeLoop.induct with
  | case4 in1 in2 a b c s ih =>
    rw [encodeLoop, length_append, add_mod, ih]
    simp
  | _ => simp [encodeLoop]

/-- **Decoding undoes encoding**, if there is room for as many bytes as the text can have. -/
theorem wsBase64Decode_wsBase64Encode (bytes : Bytes) {toLen : ℕ}
    (h : (wsBase64Encode bytes).length / 4 * 3 ≤ toLen) :
    wsBase64Decode (wsBase64Encode bytes) toLen = .value (bytes.length, bytes) := by
  have hmod : (wsBase64Encode bytes).length % 4 = 0 := length_encodeLoop_mod 0 0 bytes
  rw [wsBase64Decode, if_neg (not_not.mpr hmod), if_neg (not_lt.mpr h), wsBase64Encode,
    decodeLoop_encodeLoop]
  simp

theorem wsBase64Decode_leftover : wsBase64Decode (wsBase64Encode [0, 0xF0, 0, 0]) 6 =
    .value (4, [0, 0xF0, 0, 0]) :=
  wsBase64Decode_wsBase64Encode [0, 0xF0, 0, 0] (by decide)

/-! ## The canonical encoding -/

def symbol (i : ℕ) : UInt8 :=
  if i < 26 then 'A'.toUInt8 + UInt8.ofNat i
  else if i < 52 then 'a'.toUInt8 + UInt8.ofNat (i - 26)
  else if i < 62 then '0'.toUInt8 + UInt8.ofNat (i - 52)
  else if i = 62 then '+'.toUInt8
  else '/'.toUInt8

def symbols (a b c : UInt8) : Bytes :=
  let group := a.toNat * 2 ^ 16 + b.toNat * 2 ^ 8 + c.toNat
  [symbol (group / 2 ^ 18), symbol (group / 2 ^ 12 % 64), symbol (group / 2 ^ 6 % 64),
    symbol (group % 64)]

/-- The encoding of RFC 4648: a last group that is not full is filled up with zero bits. -/
def canonical : Bytes → Bytes
  | [] => []
  | [a] => (symbols a 0 0).take 2 ++ [pad, pad]
  | [a, b] => (symbols a b 0).take 3 ++ [pad]
  | a :: b :: c :: s => symbols a b c ++ canonical s

theorem eTable_eq_symbol {i : UInt8} (hi : i.toNat < 64) : eTable i = symbol i.toNat := by
  have htable : ∀ i : Fin 64, eTable (UInt8.ofNat i) = symbol i := by decide +kernel
  simpa only [UInt8.ofNat_toNat] using htable ⟨i.toNat, hi⟩

theorem eTable_inj {i j : UInt8} (hi : i.toNat < 64) (hj : j.toNat < 64) :
    eTable i = eTable j ↔ i = j := by
  refine ⟨fun h ↦ ?_, congrArg eTable⟩
  rw [← (codes_eTable hi).1.2, h, (codes_eTable hj).1.2]

theorem symbols_eq : symbols a b c =
    [eTable (index0 a), eTable (index1 a b), eTable (index2 b c), eTable (index3 c)] := by
  have ha := a.toNat_lt
  have hb := b.toNat_lt
  have hc := c.toNat_lt
  obtain ⟨h0, h1, -, -⟩ := index_lt a b
  obtain ⟨-, -, h2, -⟩ := index_lt b c
  rw [eTable_eq_symbol h0, eTable_eq_symbol h1, eTable_eq_symbol h2,
    eTable_eq_symbol (index_lt c c).2.2.2, toNat_index0, toNat_index1, toNat_index2, toNat_index3,
    symbols]
  simp only [cons.injEq, and_true]
  refine ⟨congrArg symbol ?_, congrArg symbol ?_, congrArg symbol ?_, congrArg symbol ?_⟩ <;> omega

/-- The byte three places before the end, which is still in the block when the last bytes are put
there; `z`, `in1` and `in2` are there at the beginning. -/
def leftover (z in1 in2 : UInt8) (bytes : Bytes) : UInt8 :=
  (z :: in1 :: in2 :: bytes).getD bytes.length 0

theorem encodeLoop_eq_canonical_iff (z in1 in2 : UInt8) (bytes : Bytes) :
    encodeLoop in1 in2 bytes = canonical bytes ↔
      (bytes.length % 3 = 1 → leftover z in1 in2 bytes < 16) ∧
        (bytes.length % 3 = 2 → leftover z in1 in2 bytes < 64) := by
  induction in1, in2, bytes using encodeLoop.induct generalizing z with
  | case1 => simp [encodeLoop, canonical]
  | case2 in1 in2 a =>
    have h1 (b : UInt8) := (index_lt a b).2.1
    rw [encodeLoop, canonical, symbols_eq]
    simp only [take, cons_append, nil_append, cons.injEq, true_and, and_true,
      eTable_inj (h1 in1) (h1 0), ← UInt8.toNat_inj, toNat_index1, leftover, UInt8.lt_iff_toNat_lt]
    simp
  | case3 in1 in2 a b =>
    have h2 (c : UInt8) := (index_lt b c).2.2.1
    rw [encodeLoop, canonical, symbols_eq]
    simp only [take, cons_append, nil_append, cons.injEq, true_and, and_true,
      eTable_inj (h2 in2) (h2 0), ← UInt8.toNat_inj, toNat_index2, leftover, UInt8.lt_iff_toNat_lt]
    simp
  | case4 in1 in2 a b c s ih =>
    have hlen : (a :: b :: c :: s).length % 3 = s.length % 3 := add_mod_right s.length 3
    rw [encodeLoop, canonical, symbols_eq, append_cancel_left_eq, ih a, hlen]
    rfl

/-- **The text is the canonical encoding exactly if nothing is left in the block** that the last
symbol before the padding takes up. -/
theorem wsBase64Encode_eq_canonical_iff (bytes : Bytes) :
    wsBase64Encode bytes = canonical bytes ↔
      (bytes.length % 3 = 1 → leftover 0 0 0 bytes < 16) ∧
        (bytes.length % 3 = 2 → leftover 0 0 0 bytes < 64) :=
  encodeLoop_eq_canonical_iff 0 0 0 bytes

theorem wsBase64Encode_ne_canonical :
    wsBase64Encode [0, 0xF0, 0, 0] ≠ canonical [0, 0xF0, 0, 0] := by
  decide +kernel

/-! ## Decoding the canonical encoding -/

theorem decodeLoop_symbols (out s : Bytes) :
    decodeLoop out (symbols a b c ++ s) = decodeLoop (out ++ [a, b, c]) s := by
  obtain ⟨h0, h1, -, -⟩ := index_lt a b
  have h2 := codes_eTable (index_lt b c).2.2.1
  have h3 := codes_eTable (index_lt c c).2.2.2
  rw [symbols_eq, cons_append, cons_append, cons_append, cons_append, nil_append,
    decodeLoop_cons (codes_eTable h0).1 (codes_eTable h1).1 h2.1 h3.1, if_neg h2.2, if_neg h3.2,
    octet0_index, octet1_index, octet2_index]
  rfl

theorem decodeLoop_canonical (bytes out : Bytes) :
    decodeLoop out (canonical bytes) = .value (out.length + bytes.length, out ++ bytes) := by
  induction bytes using canonical.induct generalizing out with
  | case1 => simp [canonical, decodeLoop]
  | case2 a =>
    have h := decodeLoop_encodeLoop 0 0 [a] out
    rwa [(encodeLoop_eq_canonical_iff 0 0 0 [a]).mpr (by simp [leftover])] at h
  | case3 a b =>
    have h := decodeLoop_encodeLoop 0 0 [a, b] out
    rwa [(encodeLoop_eq_canonical_iff 0 0 0 [a, b]).mpr (by simp [leftover])] at h
  | case4 a b c s ih =>
    rw [canonical, decodeLoop_symbols, ih]
    simp
    omega

theorem length_canonical (bytes : Bytes) :
    (canonical bytes).length = (bytes.length + 2) / 3 * 4 := by
  induction bytes using canonical.induct with
  | case1 => rfl
  | case2 a => simp [canonical, symbols]
  | case3 a b => simp [canonical, symbols]
  | case4 a b c s ih =>
    rw [canonical, length_append, ih]
    simp [symbols]
    omega

theorem stops_symbols : ∀ x ∈ symbols a b c, stops x = false := by
  obtain ⟨h0, h1, -, -⟩ := index_lt a b
  have h2 := (index_lt b c).2.2.1
  have h3 := (index_lt c c).2.2.2
  rw [symbols_eq]
  simp [(codes_eTable h0).1.1, (codes_eTable h1).1.1, (codes_eTable h2).1.1, (codes_eTable h3).1.1]

theorem stops_canonical (bytes : Bytes) : ∀ x ∈ canonical bytes, stops x = false := by
  induction bytes using canonical.induct with
  | case1 => simp [canonical]
  | case2 a =>
    have h := stops_symbols a 0 0
    simp_all [canonical, symbols, codes_pad.1]
  | case3 a b =>
    have h := stops_symbols a b 0
    simp_all [canonical, symbols, codes_pad.1]
  | case4 a b c s ih =>
    intro x hx
    rw [canonical, mem_append] at hx
    exact hx.elim (stops_symbols a b c x) (ih x)

theorem wsBase64Decode_canonical (bytes : Bytes) (k : ℕ) :
    wsBase64Decode (canonical bytes) (k * 3) =
      .value (if bytes.length ≤ k * 3 then (bytes.length, bytes) else (0, [])) := by
  have hlength := length_canonical bytes
  rw [wsBase64Decode, if_neg (by omega), decodeLoop_canonical]
  split_ifs <;> first | omega | simp

end Base64

end Openwsman
