import Openwsman.Cim.Instances
import Openwsman.Lib.Correspondence
import Openwsman.Lib.Search

/-!
# Selectors and the keys of an instance

A Get or a Delete that names a base class enumerates the instances and takes the first whose keys
are verified against the selectors by `cim_verify_keys`. What this should mean is `KeysMatch`: the
selectors and the keys correspond one to one by their names, ignoring case, and have the same
values, and so it is for the keys of references in turn.

The code compares the numbers of selectors and keys and then looks for every selector in the path
(`AgreesAt`). It does not look for keys that no selector names, and `Exhaustive` collects what is
missing: two selectors whose names differ in case only are found at one key, and of two references
only the keys of the selector are compared, without those that hold references themselves.

A selector with a reference is read safely only under some conditions (`ReadableAt`). In particular
no text may have been compared before, since its memory would be freed a second time.
-/

namespace Openwsman

open Option List Correspondence Search

variable {κ μ : Type}

/-! ## Names -/

theorem CimPath.getKey_eq (path : CimPath) (name : String) :
    path.getKey name = (path.keys.find? fun k ↦ foldCase k.1 = foldCase name).map Prod.snd := by
  simp only [CimPath.getKey, strcaseEq_eq_decide]

theorem CimPath.mem_of_getKey_eq_some {path : CimPath} {name : String} {key : CimKey}
    (h : path.getKey name = some key) :
    ∃ k ∈ path.keys, foldCase k.1 = foldCase name ∧ k.2 = key := by
  rw [path.getKey_eq, map_eq_some_iff] at h
  obtain ⟨k, hk, rfl⟩ := h
  exact ⟨k, mem_of_find?_eq_some hk, by simpa using find?_some hk, rfl⟩

def KeyValue.name? (kv : KeyValue) : Option String :=
  match kv.key with
  | .init name => name
  | .uninit => none

def KeyValue.isKey : KeyValue → Bool
  | .text (.init (some k)) _ => k != cimNamespaceSelector
  | _ => true

def Epr.keySelectors (epr : Epr) : List KeyValue := epr.selectors.filter KeyValue.isKey

/-! ## Equal keys -/

inductive SameValue (peer : CimPeer κ μ) : KeyValue → CimKey → Prop where
  | text {name : Cell (Option String)} {text : String} {key : CimKey} :
      peer.value2Chars key = some text → SameValue peer (.text name text) key
  | reference {name : Cell (Option String)} {epr : Epr} {other : CimPath}
      (pair : KeyValue → String × CimKey) :
      OneToOne (fun s ↦ s.name?.map foldCase) (fun k ↦ some (foldCase k.1)) (fun s k ↦ k = pair s)
        epr.keySelectors other.keys →
      (∀ s ∈ epr.keySelectors, SameValue peer s (pair s).2) →
      SameValue peer (.epr name (some epr)) (.ref other)

def SameKeys (peer : CimPeer κ μ) (epr : Epr) (other : CimPath) : Prop :=
  OneToOne (fun s ↦ s.name?.map foldCase) (fun k ↦ some (foldCase k.1))
    (fun s k ↦ SameValue peer s k.2) epr.keySelectors other.keys

def KeysMatch (peer : CimPeer κ μ) (path : CimPath) (table : List (String × KeyValue)) : Prop :=
  OneToOne (fun e ↦ foldCase e.1) (fun k ↦ foldCase k.1) (fun e k ↦ SameValue peer e.2 k.2)
    table path.keys

section

variable {peer : CimPeer κ μ}

theorem sameValue_text_iff {name : Cell (Option String)} {text : String} {key : CimKey} :
    SameValue peer (.text name text) key ↔ peer.value2Chars key = some text := by
  constructor
  · rintro ⟨h⟩
    exact h
  · exact .text

theorem sameValue_reference_iff {name : Cell (Option String)} {epr : Epr} {other : CimPath} :
    SameValue peer (.epr name (some epr)) (.ref other) ↔ SameKeys peer epr other := by
  constructor
  · intro h
    cases h with
    | reference pair hpair hvalues =>
      refine ⟨hpair.nodup_left, hpair.nodup_right, ?_, hpair.onto⟩
      intro s hs
      obtain ⟨k, hk, hname, rfl⟩ := hpair.total s hs
      exact ⟨pair s, hk, hname, hvalues s hs⟩
  · intro h
    have : Nonempty (String × CimKey) := ⟨("", .value none)⟩
    choose! pair hpair using h.total
    refine .reference pair ⟨h.nodup_left, h.nodup_right, ?_, h.onto⟩ fun s hs ↦ (hpair s hs).2.2
    intro s hs
    exact ⟨pair s, (hpair s hs).1, (hpair s hs).2.1, rfl⟩

theorem KeysMatch.getKey {path : CimPath} {table : List (String × KeyValue)}
    (h : KeysMatch peer path table) {e : String × KeyValue} (he : e ∈ table) :
    ∃ key, path.getKey e.1 = some key ∧ SameValue peer e.2 key := by
  obtain ⟨k, hk, hvalue⟩ := h.find?_eq_some he
  refine ⟨k.2, ?_, hvalue⟩
  rw [path.getKey_eq, hk, map_some]

end

/-! ## What is compared -/

def KeyValue.textKey? : KeyValue → Option (String × String)
  | .text (.init (some k)) value => if k == cimNamespaceSelector then none else some (k, value)
  | _ => none

def HasText (peer : CimPeer κ μ) (path : CimPath) (k : String × String) : Prop :=
  ∃ key, path.getKey k.1 = some key ∧ peer.value2Chars key = some k.2

def Compares (peer : CimPeer κ μ) : KeyValue → CimKey → Prop
  | .text _ text, key => peer.value2Chars key = some text
  | .epr _ (some epr), .ref other =>
    ∀ k ∈ epr.selectors.filterMap KeyValue.textKey?, HasText peer other k
  | .epr .., _ => False

def AgreesAt (peer : CimPeer κ μ) (path : CimPath) (e : String × KeyValue) : Prop :=
  ∃ key, path.getKey e.1 = some key ∧ Compares peer e.2 key

/-- What is not compared of two references: that no name comes twice, that there are not more keys
in the path, and the keys that hold references. -/
def Covered (peer : CimPeer κ μ) : KeyValue → CimKey → Prop
  | .epr _ (some epr), .ref other =>
    (epr.keySelectors.map fun s ↦ s.name?.map foldCase).Nodup ∧
      other.keys.length = epr.keySelectors.length ∧
      ∀ s ∈ epr.keySelectors, s.isEpr = true →
        ∃ k ∈ other.keys, some (foldCase k.1) = s.name?.map foldCase ∧ SameValue peer s k.2
  | _, _ => True

def Exhaustive (peer : CimPeer κ μ) (path : CimPath) (table : List (String × KeyValue)) : Prop :=
  (table.map fun e ↦ foldCase e.1).Nodup ∧
    ∀ e ∈ table, ∀ key, path.getKey e.1 = some key → Covered peer e.2 key

/-! ## What is read -/

def TextsReadable (peer : CimPeer κ μ) (other : CimPath) (keys : List (String × String)) : Prop :=
  ∀ pre k, Reached (HasText peer other) keys pre k →
    ∀ key, other.getKey k.1 = some key → peer.value2Chars key ≠ none

/-- A selector can be compared with the key that is found for it. A reference needs a path, a key
that is a reference, and no text that was freed before. -/
def Readable (peer : CimPeer κ μ) (cv : Bool) : KeyValue → CimKey → Prop
  | .text .., _ => True
  | .epr _ epr, key =>
    cv = false ∧ ∃ ref other, cimEprToObjectpath cimNamespace epr = .value (some ref) ∧
      key = .ref other ∧ TextsReadable peer other ref.keys

def ReadableAt (peer : CimPeer κ μ) (path : CimPath) (cv : Bool) (pre : List (String × KeyValue))
    (e : String × KeyValue) : Prop :=
  ∀ key, path.getKey e.1 = some key → Readable peer (cv || pre.any fun e ↦ !e.2.isEpr) e.2 key

def ReadableFrom (peer : CimPeer κ μ) (path : CimPath) (cv : Bool)
    (table : List (String × KeyValue)) : Prop :=
  ∀ pre e, Reached (AgreesAt peer path) table pre e → ReadableAt peer path cv pre e

/-! ## The comparison of two references -/

section

variable {peer : CimPeer κ μ}

theorem cimAddKeys_keys {kvs : List KeyValue} {path path' : ObjectPath}
    (h : cimAddKeys path kvs = .value path') :
    path'.keys = path.keys ++ kvs.filterMap KeyValue.textKey? ∧
      ∀ name text, KeyValue.text name text ∈ kvs → ∃ k, name = .init (some k) := by
  induction kvs generalizing path with
  | nil =>
    cases h
    simp
  | cons kv kvs ih =>
    rw [cimAddKeys, CResult.bind_eq_value] at h
    obtain ⟨path₁, hkey, hrest⟩ := h
    obtain ⟨hkeys, hnames⟩ := ih hrest
    cases kv with
    | epr name epr =>
      cases hkey
      refine ⟨by rwa [filterMap_cons_none rfl], fun name text hmem ↦ hnames name text ?_⟩
      simpa using hmem
    | text name text =>
      rw [cimAddKey, CResult.bind_eq_value] at hkey
      obtain ⟨k, hread, hkey⟩ := hkey
      cases name with
      | uninit => cases hread
      | init name =>
        cases hread
        cases k with
        | none => cases hkey
        | some k =>
          dsimp only at hkey
          refine ⟨?_, ?_⟩
          · rw [hkeys, filterMap_cons, KeyValue.textKey?]
            split at hkey
            · next hns =>
              cases hkey
              rw [if_pos hns]
            · next hns =>
              cases hkey
              rw [if_neg hns, append_assoc, singleton_append]
          · intro name' text' hmem
            rcases mem_cons.mp hmem with heq | hmem
            · cases heq
              exact ⟨k, rfl⟩
            · exact hnames name' text' hmem

theorem cimEprToObjectpath_keys {epr : Option Epr} {ref : ObjectPath}
    (h : cimEprToObjectpath cimNamespace epr = .value (some ref)) :
    ∃ e, epr = some e ∧ ref.keys = e.selectors.filterMap KeyValue.textKey? ∧
      ∀ name text, KeyValue.text name text ∈ e.selectors → ∃ k, name = .init (some k) := by
  rw [cimEprToObjectpath.eq_def] at h
  cases epr with
  | none => cases h
  | some e =>
    dsimp only at h
    cases hslash : afterLastSlash e.uri with
    | none =>
      rw [hslash] at h
      cases h
    | some cls =>
      rw [hslash] at h
      obtain ⟨path, hpath, heq⟩ := CResult.bind_eq_value.mp h
      cases heq
      obtain ⟨hkeys, hnames⟩ := cimAddKeys_keys hpath
      exact ⟨e, rfl, hkeys, hnames⟩

def textKeys (keys : List (String × String)) : List (String × CimKey) :=
  keys.map fun k ↦ (k.1, .value (some k.2))

section

variable {other : CimPath} {k : String × String} {keys : List (String × String)} {key : CimKey}

theorem cimOpcmp_of_missing (h : other.getKey k.1 = none) :
    cimOpcmp peer other (textKeys (k :: keys)) = .value false := by
  rw [textKeys, map_cons, cimOpcmp, h]

theorem cimOpcmp_of_no_text (h : other.getKey k.1 = some key) (hkey : peer.value2Chars key = none) :
    cimOpcmp peer other (textKeys (k :: keys)) = .undefined := by
  rw [textKeys, map_cons, cimOpcmp, h]
  dsimp only
  rw [hkey, CimPeer.value2Chars]

theorem cimOpcmp_of_text {text : String} (h : other.getKey k.1 = some key)
    (hkey : peer.value2Chars key = some text) :
    cimOpcmp peer other (textKeys (k :: keys)) =
      if k.2 = text then cimOpcmp peer other (textKeys keys) else .value false := by
  rw [textKeys, map_cons, cimOpcmp, h]
  dsimp only
  rw [hkey, CimPeer.value2Chars]
  simp only [beq_iff_eq]
  rfl

theorem cimOpcmp_spec (peer : CimPeer κ μ) (other : CimPath) (keys : List (String × String)) :
    (TextsReadable peer other keys ∧ ∃ b, cimOpcmp peer other (textKeys keys) = .value b ∧
        (b = true ↔ ∀ k ∈ keys, HasText peer other k)) ∨
      (¬TextsReadable peer other keys ∧ cimOpcmp peer other (textKeys keys) = .undefined) := by
  induction keys with
  | nil =>
    refine .inl ⟨fun _ _ h ↦ absurd h not_reached_nil, true, rfl, ?_⟩
    simp
  | cons k keys ih =>
    rw [TextsReadable, forall_reached_cons, forall_mem_cons]
    cases hkey : other.getKey k.1 with
    | none =>
      rw [cimOpcmp_of_missing hkey]
      have hno : ¬HasText peer other k := by simp [HasText, hkey]
      refine .inl ⟨⟨by simp, fun h ↦ absurd h hno⟩, false, rfl, ?_⟩
      simp [hno]
    | some key =>
      cases htext : peer.value2Chars key with
      | none =>
        rw [cimOpcmp_of_no_text hkey htext]
        exact .inr ⟨fun h ↦ h.1 key rfl htext, rfl⟩
      | some text =>
        rw [cimOpcmp_of_text hkey htext]
        have hhas : HasText peer other k ↔ text = k.2 := by simp [HasText, hkey, htext]
        have hhead : ∀ key', some key = some key' → peer.value2Chars key' ≠ none := by
          rintro key' hsome
          cases hsome
          rw [htext]
          exact some_ne_none _
        rw [hhas]
        by_cases heq : k.2 = text
        · -- the loop goes on
          rw [if_pos heq]
          rcases ih with ⟨hreadable, b, hb, hiff⟩ | ⟨hreadable, hundef⟩
          · refine .inl ⟨⟨hhead, fun _ ↦ hreadable⟩, b, hb, ?_⟩
            rw [hiff]
            exact ⟨fun h ↦ ⟨heq.symm, h⟩, fun h ↦ h.2⟩
          · exact .inr ⟨fun h ↦ hreadable (h.2 heq.symm), hundef⟩
        · rw [if_neg heq]
          refine .inl ⟨⟨hhead, fun h ↦ absurd h.symm heq⟩, false, rfl, ?_⟩
          simp [Ne.symm heq]

end

end

/-! ## The loop over the selectors -/

section

variable (peer : CimPeer κ μ) (path : CimPath)

variable (cv : Bool)

theorem keyEquals_spec (key : CimKey) (kv : KeyValue) :
    (Readable peer cv kv key ∧ ∃ b, keyEquals peer cv key kv = .value b ∧
        (b = true ↔ Compares peer kv key)) ∨
      (¬Readable peer cv kv key ∧ keyEquals peer cv key kv = .undefined) := by
  cases kv with
  | text n text =>
    refine .inl ⟨trivial, _, rfl, ?_⟩
    rw [beq_iff_eq, Compares]
  | epr n epr =>
    rw [keyEquals, Readable]
    cases hconv : cimEprToObjectpath cimNamespace epr with
    | undefined => exact .inr ⟨by simp, rfl⟩
    | value conv =>
      cases conv with
      | none => exact .inr ⟨by simp, rfl⟩
      | some ref =>
        cases key with
        | value chars => exact .inr ⟨by simp, rfl⟩
        | ref other =>
          obtain ⟨e, rfl, hkeys, -⟩ := cimEprToObjectpath_keys hconv
          have hpath : (CimPath.ofObjectPath ref).keys = textKeys ref.keys := rfl
          simp only [CResult.value.injEq, some.injEq, CimKey.ref.injEq, exists_and_left,
            exists_eq_left', CResult.value_bind]
          rw [hpath, Compares, ← hkeys]
          rcases cimOpcmp_spec peer other ref.keys with ⟨htexts, b, hb, hiff⟩ | ⟨htexts, hundef⟩
          · rw [hb, CResult.value_bind, ← hiff]
            cases cv with
            | true => exact .inr ⟨by simp, rfl⟩
            | false => exact .inl ⟨⟨rfl, htexts⟩, b, rfl, Iff.rfl⟩
          · rw [hundef]
            exact .inr ⟨fun h ↦ htexts h.2, rfl⟩

theorem verifyKeyLoop_cons_spec (e : String × KeyValue) (rest : List (String × KeyValue))
    (status : WsmanStatus) :
    (ReadableAt peer path cv [] e ∧ AgreesAt peer path e ∧
        verifyKeyLoop peer path cv (e :: rest) status =
          verifyKeyLoop peer path (cv || !e.2.isEpr) rest {}) ∨
      (ReadableAt peer path cv [] e ∧ ¬AgreesAt peer path e ∧ ∃ status',
        verifyKeyLoop peer path cv (e :: rest) status = .value status' ∧ status'.ok = false) ∨
      (¬ReadableAt peer path cv [] e ∧
        verifyKeyLoop peer path cv (e :: rest) status = .undefined) := by
  rw [ReadableAt, AgreesAt, verifyKeyLoop, any_nil, Bool.or_false]
  cases path.getKey e.1 with
  | none => exact .inr (.inl ⟨by simp, by simp, _, rfl, rfl⟩)
  | some key =>
    simp only [some.injEq, forall_eq', exists_eq_left']
    rcases keyEquals_spec peer cv key e.2 with ⟨hread, b, hb, hiff⟩ | ⟨hread, hundef⟩
    · rw [hb, CResult.value_bind, ← hiff]
      cases b with
      | true => exact .inl ⟨hread, rfl, rfl⟩
      | false => exact .inr (.inl ⟨hread, Bool.false_ne_true, _, rfl, rfl⟩)
    · rw [hundef]
      exact .inr (.inr ⟨hread, rfl⟩)

theorem readableFrom_cons (e : String × KeyValue) (rest : List (String × KeyValue)) :
    ReadableFrom peer path cv (e :: rest) ↔
      ReadableAt peer path cv [] e ∧
        (AgreesAt peer path e → ReadableFrom peer path (cv || !e.2.isEpr) rest) := by
  have hnext : ∀ pre x, ReadableAt peer path cv (e :: pre) x ↔
      ReadableAt peer path (cv || !e.2.isEpr) pre x := by
    intro pre x
    rw [ReadableAt, ReadableAt, any_cons, Bool.or_assoc]
  rw [ReadableFrom, forall_reached_cons]
  simp only [hnext]
  rfl

/-- The loop is defined if it can read every selector it comes to. It then ends well if all of them
agree, except that it keeps the status if there are none. -/
theorem verifyKeyLoop_spec (table : List (String × KeyValue)) (status : WsmanStatus) :
    (ReadableFrom peer path cv table ∧ ∃ status',
        verifyKeyLoop peer path cv table status = .value status' ∧
          (status'.ok = true ↔
            (∀ e ∈ table, AgreesAt peer path e) ∧ (table = [] → status.ok = true))) ∨
      (¬ReadableFrom peer path cv table ∧
        verifyKeyLoop peer path cv table status = .undefined) := by
  induction table generalizing cv status with
  | nil =>
    refine .inl ⟨fun _ _ h ↦ absurd h not_reached_nil, status, rfl, ?_⟩
    simp
  | cons e rest ih =>
    rw [readableFrom_cons, forall_mem_cons]
    rcases verifyKeyLoop_cons_spec peer path cv e rest status with
      ⟨hread, hagrees, heq⟩ | ⟨hread, hagrees, status', heq, hfault⟩ | ⟨hread, heq⟩
    · rw [heq]
      rcases ih (cv || !e.2.isEpr) {} with ⟨hrest, status', hvalue, hiff⟩ | ⟨hrest, hundef⟩
      · refine .inl ⟨⟨hread, fun _ ↦ hrest⟩, status', hvalue, ?_⟩
        rw [hiff]
        constructor
        · rintro ⟨hall, -⟩
          exact ⟨⟨hagrees, hall⟩, by simp⟩
        · rintro ⟨⟨-, hall⟩, -⟩
          exact ⟨hall, fun _ ↦ rfl⟩
      · exact .inr ⟨fun h ↦ hrest (h.2 hagrees), hundef⟩
    · refine .inl ⟨⟨hread, fun h ↦ absurd h hagrees⟩, status', heq, ?_⟩
      rw [hfault]
      exact iff_of_false Bool.false_ne_true fun h ↦ hagrees h.1.1
    · exact .inr ⟨fun h ↦ hread h.1, heq⟩

end

/-! ## When agreement is a match -/

section

variable {peer : CimPeer κ μ} {path : CimPath} {table : List (String × KeyValue)}

theorem SameKeys.hasText {epr : Epr} {other : CimPath} (h : SameKeys peer epr other)
    {k : String × String} (hk : k ∈ epr.selectors.filterMap KeyValue.textKey?) :
    HasText peer other k := by
  obtain ⟨s, hs, hsk⟩ := mem_filterMap.mp hk
  cases s with
  | epr name epr => cases hsk
  | text name text =>
    rw [KeyValue.textKey?.eq_def] at hsk
    split at hsk
    · next name' value heq =>
      cases heq
      split at hsk
      · cases hsk
      next hns =>
      cases hsk
      have hmem : KeyValue.text (.init (some name')) text ∈ epr.keySelectors := by
        rw [Epr.keySelectors, mem_filter]
        exact ⟨hs, by simpa [KeyValue.isKey] using hns⟩
      obtain ⟨key, hfind, hvalue⟩ := h.find?_eq_some hmem
      refine ⟨key.2, ?_, sameValue_text_iff.mp hvalue⟩
      rw [other.getKey_eq]
      simpa [KeyValue.name?, KeyValue.key] using congrArg (Option.map Prod.snd) hfind
    · cases hsk

theorem SameValue.compares {kv : KeyValue} {key : CimKey} (h : SameValue peer kv key) :
    Compares peer kv key ∧ Covered peer kv key := by
  cases kv with
  | text name text => exact ⟨sameValue_text_iff.mp h, trivial⟩
  | epr name epr =>
    have hname := h
    cases h with
    | reference pair hpair hvalues =>
      have hsame := sameValue_reference_iff.mp hname
      refine ⟨fun k hk ↦ hsame.hasText hk, hsame.nodup_left, hsame.length_eq, ?_⟩
      intro s hs _
      exact hsame.total s hs

theorem sameValue_of_compares {cv : Bool} {kv : KeyValue} {key : CimKey}
    (hread : Readable peer cv kv key) (hcompares : Compares peer kv key)
    (hcovered : Covered peer kv key) : SameValue peer kv key := by
  cases kv with
  | text name text => exact .text hcompares
  | epr name epr =>
    obtain ⟨-, ref, other, hconv, rfl, -⟩ := hread
    obtain ⟨e, rfl, -, hnames⟩ := cimEprToObjectpath_keys hconv
    obtain ⟨hnodup, hlength, hrefs⟩ := hcovered
    rw [sameValue_reference_iff]
    refine OneToOne.of_length_eq hnodup hlength ?_
    intro s hs
    cases s with
    | epr n e' => exact hrefs _ hs rfl
    | text n text =>
      obtain ⟨hmem, hkey⟩ := mem_filter.mp hs
      obtain ⟨k, rfl⟩ := hnames n text hmem
      have htext : (k, text) ∈ e.selectors.filterMap KeyValue.textKey? := by
        refine mem_filterMap.mpr ⟨_, hmem, ?_⟩
        rw [KeyValue.textKey?, if_neg (by simpa [KeyValue.isKey] using hkey)]
      obtain ⟨key, hget, hvalue⟩ := hcompares _ htext
      obtain ⟨found, hfound, hname, rfl⟩ := CimPath.mem_of_getKey_eq_some hget
      exact ⟨found, hfound, congrArg some hname, .text hvalue⟩

theorem KeysMatch.agreesAt (h : KeysMatch peer path table) {e : String × KeyValue}
    (he : e ∈ table) : AgreesAt peer path e := by
  obtain ⟨key, hkey, hvalue⟩ := h.getKey he
  exact ⟨key, hkey, hvalue.compares.1⟩

theorem KeysMatch.exhaustive (h : KeysMatch peer path table) : Exhaustive peer path table := by
  refine ⟨h.nodup_left, ?_⟩
  intro e he key hkey
  obtain ⟨key', hkey', hvalue⟩ := h.getKey he
  obtain rfl : key' = key := some.inj (hkey'.symm.trans hkey)
  exact hvalue.compares.2

theorem keysMatch_of_agreesAt {cv : Bool} (hlength : path.keys.length = table.length)
    (hread : ReadableFrom peer path cv table) (hagrees : ∀ e ∈ table, AgreesAt peer path e)
    (hexhaustive : Exhaustive peer path table) : KeysMatch peer path table := by
  refine OneToOne.of_length_eq hexhaustive.1 hlength ?_
  intro e he
  obtain ⟨key, hkey, hcompares⟩ := hagrees e he
  obtain ⟨pre, post, hsplit⟩ := append_of_mem he
  have hreached : Reached (AgreesAt peer path) table pre e :=
    ⟨⟨post, hsplit⟩, fun x hx ↦ hagrees x (by simp [hsplit, hx])⟩
  obtain ⟨found, hfound, hname, rfl⟩ := CimPath.mem_of_getKey_eq_some hkey
  exact ⟨found, hfound, hname, sameValue_of_compares (hread pre e hreached _ hkey) hcompares
    (hexhaustive.2 e he _ hkey)⟩

end

/-! ## Verification -/

def VerifiesKeys (peer : CimPeer κ μ) (path : CimPath) (keys : Option (List (String × KeyValue)))
    (status : WsmanStatus) : Prop :=
  ∃ status', cimVerifyKeys peer path keys status = .value status' ∧
    (status'.ok = true ↔ KeysMatch peer path (keys.getD []))

/-- What has to be asked of selectors that are as many as the keys: that there is a table, that the
status is still good if the table is empty, that everything is read safely, and that selectors which
agree with the keys are exhaustive. -/
def ComparedInFull (peer : CimPeer κ μ) (path : CimPath) (keys : Option (List (String × KeyValue)))
    (status : WsmanStatus) : Prop :=
  path.keys.length = (keys.getD []).length →
    keys.isSome = true ∧ (keys.getD [] = [] → status.ok = true) ∧
      ReadableFrom peer path false (keys.getD []) ∧
      ((∀ e ∈ keys.getD [], AgreesAt peer path e) → Exhaustive peer path (keys.getD []))

def ActsOn (peer : CimPeer κ μ) (session : CimSession) (fragstr : Option String)
    (status : WsmanStatus) (past : List CimCall) (path : CimPath) : Prop :=
  .getInstance path ∈ (cimGetInstanceFromEnum peer session fragstr status).trace past ∨
    .deleteInstance path ∈ (cimDeleteInstanceFromEnum peer session status).trace past

section

variable {peer : CimPeer κ μ} {path : CimPath} {keys : Option (List (String × KeyValue))}
  {status : WsmanStatus}

theorem cimVerifyKeys_of_length_ne (peer : CimPeer κ μ) (status : WsmanStatus)
    (h : path.keys.length ≠ (keys.getD []).length) :
    ∃ status', cimVerifyKeys peer path keys status = .value status' ∧ status'.ok = false := by
  cases keys with
  | none =>
    rw [getD_none, length_nil] at h
    rw [cimVerifyKeys, getD_none, length_nil, if_pos (Nat.pos_of_ne_zero h)]
    exact ⟨_, rfl, rfl⟩
  | some table =>
    rw [getD_some] at h
    rw [cimVerifyKeys, getD_some]
    split
    · exact ⟨_, rfl, rfl⟩
    · rw [if_pos (by omega)]
      exact ⟨_, rfl, rfl⟩

theorem cimVerifyKeys_of_length_eq {table : List (String × KeyValue)}
    (h : path.keys.length = table.length) :
    cimVerifyKeys peer path (some table) status = verifyKeyLoop peer path false table status := by
  rw [cimVerifyKeys, getD_some, h]
  simp

theorem verifiesKeys_iff :
    VerifiesKeys peer path keys status ↔ ComparedInFull peer path keys status := by
  rw [VerifiesKeys, ComparedInFull]
  by_cases hlength : path.keys.length = (keys.getD []).length
  · rw [forall_prop_of_true hlength]
    cases keys with
    | none =>
      refine iff_of_false ?_ (by simp)
      rintro ⟨status', hvalue, -⟩
      rw [cimVerifyKeys, getD_none, length_nil] at hvalue
      split at hvalue
      · next hgt =>
        rw [getD_none, length_nil] at hlength
        omega
      · cases hvalue
    | some table =>
      rw [getD_some] at hlength ⊢
      rw [cimVerifyKeys_of_length_eq hlength]
      rcases verifyKeyLoop_spec peer path false table status with
        ⟨hread, status', hvalue, hiff⟩ | ⟨hread, hundef⟩
      · rw [hvalue]
        simp only [CResult.value.injEq, exists_eq_left', isSome_some, true_and, hread, hiff]
        constructor
        · intro h
          refine ⟨fun hnil ↦ ?_, fun hagrees ↦ ?_⟩
          · -- an empty table matches the path without keys
            have hmatch : KeysMatch peer path table := by
              subst hnil
              exact OneToOne.of_length_eq nodup_nil hlength (by simp)
            exact (h.mpr hmatch).2 hnil
          · cases htable : table with
            | nil => exact ⟨nodup_nil, by simp⟩
            | cons e rest =>
              rw [← htable]
              exact (h.mp ⟨hagrees, by simp [htable]⟩).exhaustive
        · rintro ⟨hnil, hexhaustive⟩
          constructor
          · rintro ⟨hagrees, -⟩
            exact keysMatch_of_agreesAt hlength hread hagrees (hexhaustive hagrees)
          · intro hmatch
            exact ⟨fun e he ↦ hmatch.agreesAt he, hnil⟩
      · refine iff_of_false ?_ fun h ↦ hread h.2.2.1
        rintro ⟨status', hvalue, -⟩
        rw [hundef] at hvalue
        cases hvalue
  · refine iff_of_true ?_ fun h ↦ absurd h hlength
    obtain ⟨status', hvalue, hfault⟩ := cimVerifyKeys_of_length_ne peer status hlength
    refine ⟨status', hvalue, ?_⟩
    rw [hfault]
    exact iff_of_false Bool.false_ne_true fun h ↦ hlength h.length_eq

theorem keysMatch_iff_exhaustive {status' : WsmanStatus}
    (h : cimVerifyKeys peer path keys status = .value status') (hok : status'.ok = true) :
    KeysMatch peer path (keys.getD []) ↔ Exhaustive peer path (keys.getD []) := by
  refine ⟨KeysMatch.exhaustive, fun hexhaustive ↦ ?_⟩
  by_cases hlength : path.keys.length = (keys.getD []).length
  · cases keys with
    | none => exact OneToOne.of_length_eq nodup_nil hlength (by simp)
    | some table =>
      rw [getD_some] at hlength hexhaustive ⊢
      rw [cimVerifyKeys_of_length_eq hlength] at h
      rcases verifyKeyLoop_spec peer path false table status with
        ⟨hread, status₁, hvalue, hiff⟩ | ⟨-, hundef⟩
      · obtain rfl : status₁ = status' := CResult.value.inj (hvalue.symm.trans h)
        exact keysMatch_of_agreesAt hlength hread (hiff.mp hok).1 hexhaustive
      · rw [hundef] at h
        cases h
  · obtain ⟨status₁, hvalue, hfault⟩ := cimVerifyKeys_of_length_ne peer status hlength
    obtain rfl : status₁ = status' := CResult.value.inj (hvalue.symm.trans h)
    exact absurd (hfault.symm.trans hok) Bool.false_ne_true

end

/-! ## The instance that is acted on -/

section

variable {peer : CimPeer κ μ} {session : CimSession} {status status' : WsmanStatus} {p : CimPath}

theorem matchingPath_eq_some {paths : List CimPath}
    (h : matchingPath peer session paths status = .value (some p, status')) :
    ∃ path ∈ paths, p = path.setNameSpace session.client.cimNamespace ∧
      ∃ before after, cimVerifyKeys peer path session.selectors before = .value after ∧
        after.ok = true := by
  induction paths generalizing status with
  | nil => cases h
  | cons path paths ih =>
    rw [matchingPath, CResult.bind_eq_value] at h
    obtain ⟨after, hverify, hrest⟩ := h
    split at hrest
    · next hok =>
      cases hrest
      exact ⟨path, mem_cons_self, rfl, status, _, hverify, hok⟩
    · obtain ⟨path', hmem, hpath⟩ := ih hrest
      exact ⟨path', mem_cons_of_mem _ hmem, hpath⟩

variable {past : List CimCall}

theorem cimGetOpFromEnum_eq_some
    (h : (cimGetOpFromEnum peer session status).result past = some (some p, status')) :
    ∃ path ∈ (peer.enumInstanceNames (past ++ [.enumInstanceNames session.classPath])).2,
      p = path.setNameSpace session.client.cimNamespace ∧
        ∃ before after, cimVerifyKeys peer path session.selectors before = .value after ∧
          after.ok = true := by
  rw [cimGetOpFromEnum, Traced.result_bind, bind_eq_some_iff] at h
  obtain ⟨⟨rc, paths⟩, hact, hrest⟩ := h
  have hpaths : (peer.enumInstanceNames (past ++ [.enumInstanceNames session.classPath])).2 =
      paths := congrArg Prod.snd (some.inj hact)
  rw [hpaths]
  dsimp only at hrest
  split at hrest
  · cases hrest
  split at hrest
  · cases hrest
  cases hmatch : matchingPath peer session paths status with
  | undefined =>
    rw [hmatch] at hrest
    cases hrest
  | value found =>
    rw [hmatch] at hrest
    cases hrest
    exact matchingPath_eq_some hmatch

theorem trace_traced {α : Type} (x : CResult α) : x.traced.trace past = [] := by
  cases x <;> rfl

theorem trace_cimGetOpFromEnum :
    (cimGetOpFromEnum peer session status).trace past = [.enumInstanceNames session.classPath] := by
  rw [cimGetOpFromEnum, Traced.trace_act_bind]
  generalize peer.enumInstanceNames (past ++ [.enumInstanceNames session.classPath]) = answer
  obtain ⟨rc, paths⟩ := answer
  dsimp only
  split
  · rfl
  split
  · rfl
  · rw [trace_traced]

theorem actsOn_verified {fragstr : Option String} (h : ActsOn peer session fragstr status past p) :
    ∃ status', (cimGetOpFromEnum peer session status).result past = some (some p, status') := by
  rcases h with h | h
  · rw [cimGetInstanceFromEnum, Traced.mem_trace_bind_iff, trace_cimGetOpFromEnum] at h
    rcases h with h | ⟨⟨_ | path, status'⟩, hop, h⟩
    · cases mem_singleton.mp h
    · cases h
    rw [Traced.trace_act_bind, mem_cons] at h
    rcases h with h | h
    · cases h
      exact ⟨status', hop⟩
    · generalize peer.getInstance _ = answer at h
      obtain ⟨_ | e, _ | inst⟩ := answer <;> cases h
  · rw [cimDeleteInstanceFromEnum, Traced.mem_trace_bind_iff, trace_cimGetOpFromEnum] at h
    rcases h with h | ⟨⟨_ | path, status'⟩, hop, h⟩
    · cases mem_singleton.mp h
    · cases h
    rw [Traced.trace_act_bind, mem_cons] at h
    rcases h with h | h
    · cases h
      exact ⟨status', hop⟩
    · cases h

end

/-- **Selectors and keys.** For every CIMOM, every path, every table of selectors and every status:
the verification has the result that the match of the selectors asks for, if and only if they are
compared in full. A Get or a Delete through a base class acts only on an instance that was
enumerated, and the selectors match its keys if and only if they are exhaustive. -/
theorem verifiesKeys_iff_comparedInFull (peer : CimPeer κ μ) (session : CimSession)
    (fragstr : Option String) (status : WsmanStatus) (past : List CimCall) :
    (∀ path keys before,
        VerifiesKeys peer path keys before ↔ ComparedInFull peer path keys before) ∧
      ∀ p, ActsOn peer session fragstr status past p →
        ∃ path ∈ (peer.enumInstanceNames (past ++ [.enumInstanceNames session.classPath])).2,
          p = path.setNameSpace session.client.cimNamespace ∧
            (KeysMatch peer path (session.selectors.getD []) ↔
              Exhaustive peer path (session.selectors.getD [])) := by
  refine ⟨fun path keys before ↦ verifiesKeys_iff, ?_⟩
  intro p hacts
  obtain ⟨status', hop⟩ := actsOn_verified hacts
  obtain ⟨path, hmem, hpath, before, after, hverify, hok⟩ := cimGetOpFromEnum_eq_some hop
  exact ⟨path, hmem, hpath, keysMatch_iff_exhaustive hverify hok⟩

def portReference : CimPath :=
  .mk "root/cimv2" (some "CIM_NetworkPort")
    [("DeviceID", .value (some "eth0")), ("SystemName", .value (some "db1"))]

def portSettingPath : CimPath :=
  .mk "root/cimv2" (some "CIM_PortSetting") [("Port", .ref portReference)]

def portEpr : Epr :=
  .mk "" "http://schemas.dmtf.org/wbem/wscim/1/cim-schema/2/CIM_NetworkPort"
    [.text (.init (some "DeviceID")) "eth0"]

def portSelectors : List (String × KeyValue) := [("Port", .epr (.init none) (some portEpr))]

def portPeer : CimPeer Unit Unit where
  connects _ := true
  getClass _ := (none, none)
  enumInstanceNames _ := (none, [portSettingPath])
  enumClassNames _ := (none, none)
  getInstance _ := (none, some ())
  createInstance _ := (none, none)
  setInstance _ := none
  deleteInstance _ := none
  invokeMethod _ := (none, ())
  pathChars _ := none

def portSession : CimSession where
  client :=
    { cimNamespace := "root/cimv2"
      requestedClass := some "CIM_SettingData"
      resourceUri := none
      method := none
      namespaces := [] }
  selectors := some portSelectors
  methodArgs := none

/-- The port in the instance has a key that the reference in the request does not have. They are
taken for the same, and a Delete deletes the instance. -/
theorem deleteInstance_of_partial_reference :
    cimVerifyKeys portPeer portSettingPath (some portSelectors) {} = .value {} ∧
      ¬KeysMatch portPeer portSettingPath portSelectors ∧
      .deleteInstance portSettingPath ∈
        (cimDeleteInstanceFromEnum portPeer portSession {}).trace [] := by
  refine ⟨rfl, ?_, ?_⟩
  · intro hmatch
    obtain ⟨key, hkey, hsame⟩ := hmatch.getKey mem_cons_self
    cases hkey
    rw [sameValue_reference_iff] at hsame
    exact absurd hsame.length_eq (by decide)
  · -- the paths are enumerated, and the one that is found is deleted
    have htrace : (cimDeleteInstanceFromEnum portPeer portSession {}).trace [] =
        [.enumInstanceNames portSession.classPath, .deleteInstance portSettingPath] := rfl
    rw [htrace]
    exact mem_cons_of_mem _ mem_cons_self

end Openwsman
