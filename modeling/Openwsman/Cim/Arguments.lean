import Mathlib.Data.List.Forall2
import Openwsman.Cim.Query
import Openwsman.Libu.List

/-!
# The arguments of a method

A request that invokes a method has its arguments as the children of an element in the body.
`wsman_get_method_args` reads them into a list. `cim_add_args` sorts that list by name, counts how
often a name comes, and walks over the list once more: a name that comes once becomes a scalar, and
a name that comes more often becomes an array with the values of its run.

The sort is that of `u/list.c`. It keeps the arguments of one name together, but it reverses them,
so an array has its values in the reverse of their order in the request.
-/

namespace Openwsman

open Nat CResult List KeySort

/-! ## Reading the arguments -/

structure MethodArg where
  key : String
  data : KeyValue

/-- One pass of the loop in `wsman_get_method_args`. A reference is copied and destroyed, which
reads all its keys. -/
def methodArg (arg : WsXmlNode) : CResult MethodArg :=
  match wsXmlFirstChild (some arg) xmlNsAddressing wsaReferenceParameters with
  | none => .value ⟨arg.name, .text (.init none) arg.chars⟩
  | some _ =>
    let e := eprDeserialize (some arg) none none true
    if Epr.keysWrittenOpt e then .value ⟨arg.name, .epr (.init none) e⟩ else .undefined

def methodArgs : List WsXmlNode → CResult (List MethodArg)
  | [] => .value []
  | arg :: rest => (methodArg arg).bind fun a ↦ (methodArgs rest).bind fun as ↦ .value (a :: as)

def methodInput (doc : WsXmlNode) (resourceUri : String) : Option WsXmlNode :=
  let input := (wsmanGetMethodName doc).getD "(null)" ++ "_INPUT"
  (wsXmlFirstChild (wsXmlGetSoapBody doc) resourceUri input).orElse fun _ ↦
    wsXmlFirstChild (wsXmlGetSoapBody doc) (resourceUri ++ ".xsd") input

def wsmanGetMethodArgs (doc : WsXmlNode) (resourceUri : String) :
    CResult (Option (List MethodArg)) :=
  match methodInput doc resourceUri with
  | none => .value none
  | some inNode =>
    (methodArgs (inNode.childrenNamed none none)).bind fun args ↦ .value (some args)

/-! ## Values for the CIMOM -/

def KeyValue.isEpr : KeyValue → Bool
  | .text .. => false
  | .epr .. => true

def cimEprToObjectpath (nameSpace : String) (epr : Option Epr) : CResult (Option ObjectPath) :=
  match epr with
  | none => .value none
  | some epr =>
    match afterLastSlash epr.uri with
    | none => .value none
    | some cls =>
      (cimAddKeys { nameSpace := nameSpace, className := some cls } epr.selectors).bind
        fun path ↦ .value (some path)

inductive CmpiElement where
  | string (text : String)
  | ref (path : ObjectPath)
  deriving DecidableEq, Repr

inductive CmpiArg where
  | chars (text : String)
  | ref (path : Option ObjectPath)
  | array (isRef : Bool) (elements : List CmpiElement)
  deriving DecidableEq, Repr

def scalarArg (client : CimClientInfo) : KeyValue → CResult (Option CmpiArg)
  | .text _ text => .value (some (.chars text))
  | .epr _ none => .value none
  | .epr _ (some epr) =>
    (cimEprToObjectpath client.cimNamespace (some epr)).bind fun path ↦ .value (some (.ref path))

def arrayElement (client : CimClientInfo) : KeyValue → CResult (Option CmpiElement)
  | .text _ text => .value (some (.string text))
  | .epr _ epr =>
    (cimEprToObjectpath client.cimNamespace epr).bind fun path ↦ .value (path.map .ref)

def arrayElements (client : CimClientInfo) : List KeyValue → CResult (Option (List CmpiElement))
  | [] => .value (some [])
  | kv :: kvs =>
    (arrayElement client kv).bind fun
      | none => .value none
      | some e => (arrayElements client kvs).bind fun es ↦ .value (es.map (e :: ·))

def arrayArg (client : CimClientInfo) (kv : KeyValue) (kvs : List KeyValue) :
    CResult (Option CmpiArg) :=
  if kvs.any fun other ↦ kv.isEpr != other.isEpr then .value none
  else (arrayElements client (kv :: kvs)).bind fun es ↦ .value (es.map (.array kv.isEpr))

/-! ## Adding the arguments -/

def comparef (d1 d2 : MethodArg) : ℤ := strcmp d1.key d2.key

/-- The pass that counts, behind an `arraynode` that has been found, with the others of its name. -/
def tagRun (arraynode : MethodArg) (arraycount : ℕ) (others : List MethodArg) :
    List MethodArg → List (MethodArg × ℕ)
  | [] => (arraynode, arraycount) :: others.map (·, 0)
  | node :: rest =>
    if strcmp arraynode.key node.key = 0 then
      tagRun arraynode (arraycount + 1) (others ++ [node]) rest
    else (arraynode, arraycount) :: (others.map (·, 0) ++ tagRun node 0 [] rest)

def tagArrays : List MethodArg → List (MethodArg × ℕ)
  | [] => []
  | first :: rest => tagRun first 0 [] rest

def addArg (name : String) (arg : CResult (Option CmpiArg))
    (rest : CResult (Option (List (String × CmpiArg)))) :
    CResult (Option (List (String × CmpiArg))) :=
  arg.bind fun
    | none => .value none
    | some v => rest.bind fun out ↦ .value (out.map ((name, v) :: ·))

def addArgs (client : CimClientInfo) :
    ℕ → List (MethodArg × ℕ) → CResult (Option (List (String × CmpiArg)))
  | _, [] => .value (some [])
  | skip + 1, _ :: rest => addArgs client skip rest
  | 0, (node, 0) :: rest =>
    addArg node.key (scalarArg client node.data) (addArgs client 0 rest)
  | 0, (node, n + 1) :: rest =>
    addArg node.key (arrayArg client node.data ((rest.take (n + 1)).map fun e ↦ e.1.data))
      (addArgs client (n + 1) rest)

def cimAddArgs (client : CimClientInfo) (arglist : List MethodArg) :
    CResult (Option (List (String × CmpiArg))) :=
  addArgs client 0 (tagArrays (owListSort comparef arglist))

/-! ## Run by run -/

def valuesOf (name : String) (args : List MethodArg) : List KeyValue :=
  (withKey MethodArg.key name args).map MethodArg.data

def runArg (client : CimClientInfo) : List KeyValue → CResult (Option CmpiArg)
  | [] => .value none
  | [kv] => scalarArg client kv
  | kv :: kvs => arrayArg client kv kvs

theorem tagRun_append (a : MethodArg) (n : ℕ) (others run rest : List MethodArg)
    (h : ∀ b ∈ run, b.key = a.key) :
    tagRun a n others (run ++ rest) = tagRun a (n + run.length) (others ++ run) rest := by
  induction run generalizing n others with
  | nil => rw [nil_append, length_nil, add_zero, append_nil]
  | cons b run ih =>
    have hkey : strcmp a.key b.key = 0 :=
      (strcmp_eq_zero_iff _ _).mpr (h b mem_cons_self).symm
    rw [cons_append, tagRun, if_pos hkey, ih _ _ fun c hc ↦ h c (mem_cons_of_mem b hc),
      append_assoc, singleton_append, length_cons, add_assoc, add_comm 1]

theorem tagArrays_run {a : MethodArg} {run rest : List MethodArg} (hrun : ∀ b ∈ run, b.key = a.key)
    (hrest : ∀ b ∈ rest, b.key ≠ a.key) :
    tagArrays (a :: (run ++ rest)) =
      (a, run.length) :: (run.map (·, 0) ++ tagArrays rest) := by
  rw [tagArrays, tagRun_append a 0 [] run rest hrun, zero_add, nil_append]
  cases rest with
  | nil => rw [tagRun, tagArrays, append_nil]
  | cons b rest =>
    have hkey : ¬strcmp a.key b.key = 0 := fun h ↦
      hrest b mem_cons_self ((strcmp_eq_zero_iff _ _).mp h).symm
    rw [tagRun, if_neg hkey, tagArrays]

variable (client : CimClientInfo)

theorem addArgs_skip (run : List (MethodArg × ℕ)) (rest : List (MethodArg × ℕ)) :
    addArgs client run.length (run ++ rest) = addArgs client 0 rest := by
  induction run with
  | nil => rfl
  | cons e run ih => rw [cons_append, length_cons, addArgs, ih]

theorem addArgs_run (a : MethodArg) (run : List MethodArg) (rest : List (MethodArg × ℕ)) :
    addArgs client 0 ((a, run.length) :: (run.map (·, 0) ++ rest)) =
      addArg a.key (runArg client (a.data :: run.map MethodArg.data)) (addArgs client 0 rest) := by
  cases run with
  | nil => rw [length_nil, addArgs, map_nil, map_nil, nil_append, runArg]
  | cons b run =>
    have hlength : ((b :: run).map fun c ↦ (c, 0)).length = run.length + 1 := by
      rw [length_map, length_cons]
    have htake : ((((b :: run).map fun c ↦ (c, 0)) ++ rest).take (run.length + 1)).map
        (fun e : MethodArg × ℕ ↦ e.1.data) = (b :: run).map MethodArg.data := by
      rw [← hlength, take_left, map_map]
      rfl
    have hskip := addArgs_skip client ((b :: run).map fun c ↦ (c, 0)) rest
    rw [hlength] at hskip
    rw [length_cons, addArgs, htake, hskip]
    rfl

theorem addArg_eq_some_iff {name : String} {arg : CResult (Option CmpiArg)}
    {rest : CResult (Option (List (String × CmpiArg)))} {out : List (String × CmpiArg)} :
    addArg name arg rest = .value (some out) ↔
      ∃ v out', arg = .value (some v) ∧ rest = .value (some out') ∧ out = (name, v) :: out' := by
  rw [addArg, bind_eq_value]
  constructor
  · rintro ⟨v, harg, h⟩
    cases v with
    | none => cases h
    | some v =>
      obtain ⟨out', hrest, h⟩ := bind_eq_value.mp h
      cases out' with
      | none => cases h
      | some out' =>
        cases h
        exact ⟨v, out', harg, hrest, rfl⟩
  · rintro ⟨v, out', harg, hrest, rfl⟩
    refine ⟨some v, harg, ?_⟩
    dsimp only
    rw [hrest]
    rfl

/-! ## The arguments of a grouped list -/

structure Delivers (client : CimClientInfo) (args : List MethodArg)
    (out : List (String × CmpiArg)) : Prop where
  nodup : (out.map Prod.fst).Nodup
  names : ∀ name, name ∈ out.map Prod.fst ↔ ∃ a ∈ args, a.key = name
  values : ∀ e ∈ out, runArg client (valuesOf e.1 args) = .value (some e.2)

section

variable {client : CimClientInfo} {a : MethodArg} {run rest : List MethodArg}

theorem valuesOf_run (hrun : ∀ b ∈ run, b.key = a.key) (hrest : ∀ b ∈ rest, b.key ≠ a.key) :
    valuesOf a.key (a :: (run ++ rest)) = a.data :: run.map MethodArg.data := by
  rw [valuesOf, withKey_run hrun hrest, map_cons]

theorem valuesOf_rest (hrun : ∀ b ∈ run, b.key = a.key) {name : String} (h : name ≠ a.key) :
    valuesOf name (a :: (run ++ rest)) = valuesOf name rest := by
  rw [valuesOf, withKey_rest hrun h, valuesOf]

variable {out : List (String × CmpiArg)}

theorem Delivers.cons (hrun : ∀ b ∈ run, b.key = a.key) (hrest : ∀ b ∈ rest, b.key ≠ a.key)
    {v : CmpiArg} (hv : runArg client (a.data :: run.map MethodArg.data) = .value (some v))
    (hd : Delivers client rest out) : Delivers client (a :: (run ++ rest)) ((a.key, v) :: out) := by
  have hnew : a.key ∉ out.map Prod.fst := by
    intro hmem
    obtain ⟨b, hb, hkey⟩ := (hd.names a.key).mp hmem
    exact hrest b hb hkey
  refine ⟨nodup_cons.mpr ⟨hnew, hd.nodup⟩, ?_, ?_⟩
  · intro name
    rw [map_cons, mem_cons, hd.names]
    constructor
    · rintro (rfl | ⟨b, hb, hkey⟩)
      · exact ⟨a, mem_cons_self, rfl⟩
      · exact ⟨b, mem_cons_of_mem a (mem_append_right run hb), hkey⟩
    · rintro ⟨b, hb, rfl⟩
      rcases mem_cons.mp hb with rfl | hb
      · exact .inl rfl
      · rcases mem_append.mp hb with hb | hb
        · exact .inl (hrun b hb)
        · exact .inr ⟨b, hb, rfl⟩
  · intro e he
    rcases mem_cons.mp he with rfl | he
    · rw [valuesOf_run hrun hrest]
      exact hv
    · have hne : e.1 ≠ a.key := fun hkey ↦ hnew (hkey ▸ mem_map_of_mem he)
      rw [valuesOf_rest hrun hne]
      exact hd.values e he

theorem delivers_of_addArgs {args : List MethodArg} (hg : Grouped MethodArg.key args)
    (h : addArgs client 0 (tagArrays args) = .value (some out)) : Delivers client args out := by
  induction hg generalizing out with
  | nil =>
    cases h
    exact ⟨nodup_nil, by simp, fun e he ↦ absurd he not_mem_nil⟩
  | run hrun hrest _ ih =>
    rw [tagArrays_run hrun hrest, addArgs_run] at h
    obtain ⟨v, out', hv, hout', rfl⟩ := addArg_eq_some_iff.mp h
    exact (ih hout').cons hrun hrest hv

theorem exists_addArgs {args : List MethodArg} (hg : Grouped MethodArg.key args)
    (h : ∀ a ∈ args, ∃ v, runArg client (valuesOf a.key args) = .value (some v)) :
    ∃ out, addArgs client 0 (tagArrays args) = .value (some out) := by
  induction hg with
  | nil => exact ⟨[], rfl⟩
  | run hrun hrest _ ih =>
    rename_i a run rest _
    have hrestValues : ∀ b ∈ rest, ∃ v, runArg client (valuesOf b.key rest) = .value (some v) := by
      intro b hb
      have hb' := h b (mem_cons_of_mem a (mem_append_right run hb))
      rwa [valuesOf_rest hrun (hrest b hb)] at hb'
    obtain ⟨out, hout⟩ := ih hrestValues
    obtain ⟨v, hv⟩ := h a mem_cons_self
    rw [valuesOf_run hrun hrest] at hv
    refine ⟨(a.key, v) :: out, ?_⟩
    rw [tagArrays_run hrun hrest, addArgs_run]
    exact addArg_eq_some_iff.mpr ⟨v, out, hv, hout, rfl⟩

end

/-! ## Arrays -/

section

variable {client : CimClientInfo}

variable {kvs : List KeyValue}

theorem arrayElements_eq_some_iff {es : List CmpiElement} :
    arrayElements client kvs = .value (some es) ↔
      kvs.map (arrayElement client) = es.map fun e ↦ .value (some e) := by
  induction kvs generalizing es with
  | nil =>
    rw [arrayElements, map_nil]
    cases es with
    | nil => exact iff_of_true rfl rfl
    | cons e es => exact iff_of_false (by simp) (by simp)
  | cons kv kvs ih =>
    rw [arrayElements, bind_eq_value, map_cons]
    constructor
    · rintro ⟨e, he, h⟩
      cases e with
      | none => cases h
      | some e =>
        obtain ⟨es', hes', h⟩ := bind_eq_value.mp h
        cases es' with
        | none => cases h
        | some es' =>
          cases h
          rw [he, ih.mp hes', map_cons]
    · intro h
      cases es with
      | nil => cases h
      | cons e es =>
        obtain ⟨he, hes⟩ := cons.inj h
        refine ⟨some e, he, ?_⟩
        dsimp only
        rw [ih.mpr hes]
        rfl

theorem exists_arrayElements (h : ∀ kv ∈ kvs, ∃ e, arrayElement client kv = .value (some e)) :
    ∃ es, arrayElements client kvs = .value (some es) := by
  induction kvs with
  | nil => exact ⟨[], rfl⟩
  | cons kv kvs ih =>
    obtain ⟨e, he⟩ := h kv mem_cons_self
    obtain ⟨es, hes⟩ := ih fun x hx ↦ h x (mem_cons_of_mem kv hx)
    refine ⟨e :: es, ?_⟩
    rw [arrayElements, he, value_bind]
    dsimp only
    rw [hes]
    rfl

def SameType (kvs : List KeyValue) : Prop := ∀ kv ∈ kvs, ∀ kv' ∈ kvs, kv.isEpr = kv'.isEpr

theorem any_isEpr_eq_false_iff (kv : KeyValue) (kvs : List KeyValue) :
    (kvs.any fun other ↦ kv.isEpr != other.isEpr) = false ↔ SameType (kv :: kvs) := by
  rw [any_eq_false]
  simp only [bne_iff_ne, ne_eq, not_not]
  constructor
  · intro h
    have hall : ∀ x ∈ kv :: kvs, kv.isEpr = x.isEpr := by
      intro x hx
      rcases mem_cons.mp hx with rfl | hx
      · rfl
      · exact h x hx
    exact fun x hx y hy ↦ (hall x hx).symm.trans (hall y hy)
  · exact fun h x hx ↦ h kv mem_cons_self x (mem_cons_of_mem kv hx)

theorem runArg_eq_some_iff (h : 1 < kvs.length) {v : CmpiArg} :
    runArg client kvs = .value (some v) ↔
      SameType kvs ∧ ∃ isRef es, v = .array isRef es ∧ (∀ kv ∈ kvs, kv.isEpr = isRef) ∧
        kvs.map (arrayElement client) = es.map fun e ↦ .value (some e) := by
  rcases kvs with _ | ⟨kv, _ | ⟨kv', kvs⟩⟩
  · cases h
  · exact absurd h (lt_irrefl 1)
  rw [runArg, arrayArg]
  · split
    · next hany =>
      refine iff_of_false (by simp) ?_
      rintro ⟨hsame, -⟩
      rw [(any_isEpr_eq_false_iff kv (kv' :: kvs)).mpr hsame] at hany
      cases hany
    · next hany =>
      have hsame := (any_isEpr_eq_false_iff kv (kv' :: kvs)).mp (Bool.eq_false_of_not_eq_true hany)
      rw [bind_eq_value]
      constructor
      · rintro ⟨es, hes, h⟩
        cases es with
        | none => cases h
        | some es =>
          cases h
          exact ⟨hsame, _, es, rfl, fun x hx ↦ hsame x hx kv mem_cons_self,
            arrayElements_eq_some_iff.mp hes⟩
      · rintro ⟨-, isRef, es, rfl, href, hes⟩
        refine ⟨some es, arrayElements_eq_some_iff.mpr hes, ?_⟩
        rw [href kv mem_cons_self]
        rfl
  · simp

end

def Convertible (client : CimClientInfo) (kvs : List KeyValue) : Prop :=
  (∃ kv v, kvs = [kv] ∧ scalarArg client kv = .value (some v)) ∨
    1 < kvs.length ∧ SameType kvs ∧ ∀ kv ∈ kvs, ∃ e, arrayElement client kv = .value (some e)

theorem exists_runArg_iff (kvs : List KeyValue) :
    (∃ v, runArg client kvs = .value (some v)) ↔ Convertible client kvs := by
  rcases kvs with _ | ⟨kv, _ | ⟨kv', kvs⟩⟩
  · refine iff_of_false ?_ ?_
    · rintro ⟨v, h⟩
      cases h
    · rintro (⟨kv, v, h, -⟩ | ⟨h, -⟩)
      · cases h
      · cases h
  · rw [runArg]
    constructor
    · rintro ⟨v, h⟩
      exact .inl ⟨kv, v, rfl, h⟩
    rintro (⟨_, v, h, hv⟩ | ⟨h, -⟩)
    · cases h
      exact ⟨v, hv⟩
    · exact absurd h (lt_irrefl 1)
  · have hlength : 1 < (kv :: kv' :: kvs).length := by
      rw [length_cons, length_cons]
      omega
    simp only [runArg_eq_some_iff hlength]
    constructor
    · rintro ⟨v, hsame, isRef, es, -, -, hes⟩
      refine .inr ⟨hlength, hsame, ?_⟩
      intro x hx
      have hmem := mem_map_of_mem (f := arrayElement client) hx
      rw [hes] at hmem
      obtain ⟨e, -, he⟩ := mem_map.mp hmem
      exact ⟨e, he.symm⟩
    · rintro (⟨_, _, h, -⟩ | ⟨-, hsame, hall⟩)
      · cases h
      · obtain ⟨es, hes⟩ := exists_arrayElements hall
        exact ⟨_, hsame, kv.isEpr, es, rfl, fun x hx ↦ hsame x hx kv mem_cons_self,
          arrayElements_eq_some_iff.mp hes⟩

/-! ## What the CIMOM receives -/

theorem comparef_neg_iff (a b : MethodArg) : comparef a b < 0 ↔ a.key < b.key :=
  strcmp_neg_iff a.key b.key

theorem valuesOf_owListSort (name : String) (args : List MethodArg) :
    valuesOf name (owListSort comparef args) = (valuesOf name args).reverse := by
  rw [valuesOf, withKey_owListSort comparef_neg_iff, map_reverse, valuesOf]

theorem convertible_reverse_iff (kvs : List KeyValue) :
    Convertible client kvs.reverse ↔ Convertible client kvs := by
  rw [Convertible, Convertible, SameType, SameType, length_reverse]
  simp only [mem_reverse, reverse_eq_iff, reverse_singleton]

structure ArgsInOrder (client : CimClientInfo) (args : List MethodArg)
    (out : List (String × CmpiArg)) : Prop where
  nodup : (out.map Prod.fst).Nodup
  names : ∀ name, name ∈ out.map Prod.fst ↔ ∃ a ∈ args, a.key = name
  once : ∀ e ∈ out, ∀ kv, valuesOf e.1 args = [kv] → scalarArg client kv = .value (some e.2)
  more : ∀ e ∈ out, 1 < (valuesOf e.1 args).length → ∃ isRef es, e.2 = .array isRef es ∧
    List.Forall₂ (fun kv el ↦ arrayElement client kv = .value (some el)) (valuesOf e.1 args) es

def SameBackwards (client : CimClientInfo) (kvs : List KeyValue) : Prop :=
  (kvs.map (arrayElement client)).reverse = kvs.map (arrayElement client)

theorem forall₂_arrayElement_iff {client : CimClientInfo} {kvs : List KeyValue}
    {es : List CmpiElement} :
    List.Forall₂ (fun kv el ↦ arrayElement client kv = .value (some el)) kvs es ↔
      kvs.map (arrayElement client) = es.map fun e ↦ .value (some e) := by
  rw [← forall₂_eq_eq_eq, forall₂_map_left_iff, forall₂_map_right_iff]

section

variable {client : CimClientInfo} {args : List MethodArg}

theorem grouped_owListSort (args : List MethodArg) :
    Grouped MethodArg.key (owListSort comparef args) :=
  (owListSort_sorted comparef_neg_iff args).grouped

variable {out : List (String × CmpiArg)}

theorem delivers_of_cimAddArgs (h : cimAddArgs client args = .value (some out)) :
    Delivers client (owListSort comparef args) out :=
  delivers_of_addArgs (grouped_owListSort args) h

theorem exists_cimAddArgs (h : ∀ a ∈ args, Convertible client (valuesOf a.key args)) :
    ∃ out, cimAddArgs client args = .value (some out) := by
  refine exists_addArgs (grouped_owListSort args) ?_
  intro a ha
  rw [valuesOf_owListSort, exists_runArg_iff, convertible_reverse_iff]
  exact h a ((owListSort_perm args).mem_iff.mp ha)

theorem Delivers.reversed (h : Delivers client (owListSort comparef args) out)
    {e : String × CmpiArg} (he : e ∈ out) (hmore : 1 < (valuesOf e.1 args).length) :
    ∃ isRef es, e.2 = .array isRef es ∧
      ((valuesOf e.1 args).map (arrayElement client)).reverse =
        es.map fun e ↦ .value (some e) := by
  have hrun := h.values e he
  rw [valuesOf_owListSort, runArg_eq_some_iff (by rwa [length_reverse])] at hrun
  obtain ⟨-, isRef, es, heq, -, hes⟩ := hrun
  exact ⟨isRef, es, heq, by rw [← map_reverse, hes]⟩

end

/-- Whenever the conversion succeeds, the arguments arrive as they are in the request, if and only
if for arguments that can be converted every list of values of one name reads the same from both
ends. -/
theorem argsInOrder_iff_sameBackwards (client : CimClientInfo) (args : List MethodArg) :
    (∀ out, cimAddArgs client args = .value (some out) → ArgsInOrder client args out) ↔
      ((∀ a ∈ args, Convertible client (valuesOf a.key args)) →
        ∀ a ∈ args, SameBackwards client (valuesOf a.key args)) := by
  constructor
  · intro hall hconv a ha
    obtain ⟨out, hout⟩ := exists_cimAddArgs hconv
    have horder := hall out hout
    obtain ⟨e, he, hkey⟩ := mem_map.mp ((horder.names a.key).mpr ⟨a, ha, rfl⟩)
    rw [← hkey]
    by_cases hmore : 1 < (valuesOf e.1 args).length
    · obtain ⟨isRef, es, harray, hes⟩ := horder.more e he hmore
      obtain ⟨isRef', es', harray', hes'⟩ := (delivers_of_cimAddArgs hout).reversed he hmore
      obtain ⟨-, rfl⟩ : isRef = isRef' ∧ es = es' := by
        rw [harray] at harray'
        cases harray'
        exact ⟨rfl, rfl⟩
      rw [SameBackwards, hes', forall₂_arrayElement_iff.mp hes]
    · rcases eq_nil_or_singleton hmore with hnil | ⟨kv, hone⟩
      · rw [hnil]
        rfl
      · rw [hone]
        rfl
  · intro hsame out hout
    have hd := delivers_of_cimAddArgs hout
    have hperm : (owListSort comparef args).Perm args := owListSort_perm args
    have hnames : ∀ name, name ∈ out.map Prod.fst ↔ ∃ a ∈ args, a.key = name := by
      intro name
      rw [hd.names]
      simp only [hperm.mem_iff]
    have hconv : ∀ a ∈ args, Convertible client (valuesOf a.key args) := by
      intro a ha
      obtain ⟨e, he, hkey⟩ := mem_map.mp ((hnames a.key).mpr ⟨a, ha, rfl⟩)
      have hrun := hd.values e he
      rw [valuesOf_owListSort, hkey] at hrun
      exact (convertible_reverse_iff client _).mp ((exists_runArg_iff client _).mp ⟨_, hrun⟩)
    refine ⟨hd.nodup, hnames, ?_, ?_⟩
    · intro e he kv hone
      have hrun := hd.values e he
      rwa [valuesOf_owListSort, hone, reverse_singleton, runArg] at hrun
    · intro e he hmore
      obtain ⟨isRef, es, harray, hes⟩ := hd.reversed he hmore
      obtain ⟨a, ha, hkey⟩ := (hnames e.1).mp (mem_map_of_mem he)
      have hback := hsame hconv a ha
      rw [hkey, SameBackwards] at hback
      exact ⟨isRef, es, harray, forall₂_arrayElement_iff.mpr (hback.symm.trans hes)⟩

def twoValuesDoc : WsXmlNode :=
  wsXmlCreateEnvelope
    [.elem xmlNsAddressing wsaAction [.text "urn:Linux_Disk/Format"]]
    [.elem "urn:Linux_Disk" "Format_INPUT"
      [.elem "urn:Linux_Disk" "Label" [.text "first"],
        .elem "urn:Linux_Disk" "Label" [.text "second"]]]

def diskClient : CimClientInfo where
  cimNamespace := "root/cimv2"
  requestedClass := some "Linux_Disk"
  resourceUri := some "urn:Linux_Disk"
  method := some "Format"
  namespaces := []

/-- The CIMOM gets them the other way round. -/
theorem not_argsInOrder_twoValuesDoc :
    ∃ args, wsmanGetMethodArgs twoValuesDoc "urn:Linux_Disk" = .value (some args) ∧
      cimAddArgs diskClient args =
        .value (some [("Label", .array false [.string "second", .string "first"])]) ∧
      ¬ArgsInOrder diskClient args
        [("Label", .array false [.string "second", .string "first"])] := by
  refine ⟨[⟨"Label", .text (.init none) "first"⟩, ⟨"Label", .text (.init none) "second"⟩], rfl, ?_,
    ?_⟩
  · have hequal : strcmp "Label" "Label" = 0 := (strcmp_eq_zero_iff _ _).mpr rfl
    have hsort : owListSort comparef [⟨"Label", .text (.init none) "first"⟩,
        ⟨"Label", .text (.init none) "second"⟩] =
          [⟨"Label", .text (.init none) "second"⟩, ⟨"Label", .text (.init none) "first"⟩] := by
      simp [owListSort, owListMerge, comparef, hequal]
    rw [cimAddArgs, hsort]
    rfl
  · intro h
    obtain ⟨isRef, es, harray, hes⟩ := h.more _ mem_cons_self (by decide)
    cases harray
    cases hes with
    | cons hfirst _ => exact absurd hfirst (by decide)

end Openwsman
