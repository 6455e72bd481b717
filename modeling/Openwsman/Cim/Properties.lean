import Openwsman.Cim.Instances
import Openwsman.Libc.Decimal

/-!
# Instances as XML and back

How `instance2xml` writes the properties of an instance into the response to a Get, and how
`create_instance_from_xml` reads them from the request of a Put. Here a property has a value of its
type (`CmpiData`), where `Cim.Instances` has only the text.

The elements of a representation are sorted by their names, and those of one name keep the order in
which they were added (`KeySort`), so an array is read back element by element. A number is printed
in base ten and read back by the conversions of the C library (`Libc.Decimal`). A datetime is not
read back at all: `xml2data` leaves `NULL`.
-/

namespace Openwsman

open WsXmlNode Option KeySort

/-! ## Typed data -/

inductive IntWidth where
  | w8 | w16 | w32 | w64
  deriving DecidableEq, Repr

abbrev IntWidth.bits : IntWidth → ℕ
  | w8 => 8
  | w16 => 16
  | w32 => 32
  | w64 => 64

inductive CmpiType where
  | boolean
  | uint (w : IntWidth)
  | sint (w : IntWidth)
  | string
  | dateTime
  deriving DecidableEq, Repr

abbrev CmpiType.Value : CmpiType → Type
  | boolean => Bool
  | uint w => BitVec w.bits
  | sint w => BitVec w.bits
  | string => String
  | dateTime => String

inductive CmpiData where
  | scalar (type : CmpiType) (value : Option type.Value)
  | array (type : CmpiType) (elements : Option (List (Option type.Value)))

namespace CmpiData

def type : CmpiData → CmpiType
  | scalar t _ => t
  | array t _ => t

def isArray : CmpiData → Bool
  | scalar .. => false
  | array .. => true

def NonNull : CmpiData → Prop
  | scalar _ value => value ≠ none
  | array _ none => False
  | array _ (some elements) => elements ≠ [] ∧ none ∉ elements

end CmpiData

/-! ## Values and their texts -/

def value2Chars : (t : CmpiType) → t.Value → String
  | .boolean, v => if v = true then "true" else "false"
  | .uint w, v => (BitVec.toNat (w := w.bits) v).repr
  | .sint w, v => (BitVec.toInt (n := w.bits) v).repr
  | .string, v => v
  | .dateTime, v => v

def xml2scalar : (t : CmpiType) → String → Option t.Value
  | .boolean, value => some (decide (value = "true"))
  | .uint w, value => some (BitVec.ofNat w.bits (strtoul value))
  | .sint .w8, value => some (BitVec.ofInt 8 (atoi value))
  | .sint .w16, value => some (BitVec.ofInt 16 (atoi value))
  | .sint .w32, value => some (BitVec.ofInt 32 (atol value))
  | .sint .w64, value => some (BitVec.ofInt 64 (atol value))
  | .string, value => some value
  | .dateTime, _ => none

def CmpiData.Plain : CmpiData → Prop
  | .scalar t value => ∀ v ∈ value, '&' ∉ (value2Chars t v).toList
  | .array t elements => ∀ vs ∈ elements, ∀ v, some v ∈ vs → '&' ∉ (value2Chars t v).toList

theorem IntWidth.bits_le (w : IntWidth) : w.bits ≤ 64 := by
  cases w <;> decide

variable {n : ℕ}

theorem two_pow_le_of_le {m : ℕ} (h : n ≤ m) : (2 : ℤ) ^ n ≤ 2 ^ m := by
  exact_mod_cast Nat.pow_le_pow_right (by decide) h

theorem atol_toInt_repr (hn : n ≤ 64) (x : BitVec n) : atol x.toInt.repr = x.toInt := by
  have hpow := two_pow_le_of_le (by omega : n - 1 ≤ 63)
  have hlow := x.le_toInt
  have hhigh := x.toInt_lt
  exact atol_repr (by omega) (by omega)

theorem atoi_toInt_repr (hn : n ≤ 32) (x : BitVec n) : atoi x.toInt.repr = x.toInt := by
  have hpow := two_pow_le_of_le (by omega : n - 1 ≤ 31)
  have hlow := x.le_toInt
  have hhigh := x.toInt_lt
  rw [atoi_eq_toCInt_atol, atol_toInt_repr (by omega)]
  exact toCInt_of_mem (by omega) (by omega)

theorem xml2scalar_value2Chars {t : CmpiType} (h : t ≠ .dateTime) (v : t.Value) :
    xml2scalar t (value2Chars t v) = some v := by
  cases t with
  | boolean => cases v <;> rfl
  | uint w =>
    have hlt : BitVec.toNat (w := w.bits) v < 2 ^ 64 :=
      (BitVec.isLt _).trans_le (Nat.pow_le_pow_right (by decide) w.bits_le)
    rw [value2Chars, xml2scalar, strtoul_repr hlt, BitVec.ofNat_toNat, BitVec.setWidth_eq]
  | sint w =>
    cases w with
    | w8 => rw [value2Chars, xml2scalar, atoi_toInt_repr (by decide), BitVec.ofInt_toInt]
    | w16 => rw [value2Chars, xml2scalar, atoi_toInt_repr (by decide), BitVec.ofInt_toInt]
    | w32 => rw [value2Chars, xml2scalar, atol_toInt_repr (by decide), BitVec.ofInt_toInt]
    | w64 => rw [value2Chars, xml2scalar, atol_toInt_repr (by decide), BitVec.ofInt_toInt]
  | string => rfl
  | dateTime => exact absurd rfl h

/-! ## From an instance to XML -/

structure XmlFormat where
  schemaOpt : Bool
  ext : Bool
  /-- The front end is `SfcbLocal`, and a text is escaped. -/
  xmlescape : Bool
  /-- What `xmlNodeSetContent` makes of a text with references to entities. -/
  expand : String → String
  nullChars : CmpiType → Option String

/-- The content of a new element: a text with an ampersand is taken for one with references to
entities unless it is escaped. -/
def XmlFormat.content (fmt : XmlFormat) : Option String → List WsXmlNode
  | none => []
  | some value =>
    [.text (if fmt.xmlescape || !value.toList.contains '&' then value else fmt.expand value)]

def property2xml (fmt : XmlFormat) (uri name : String) (isKey : Bool) : CmpiData → List WsXmlNode
  | .array _ none => []
  | .array t (some elements) =>
    elements.map fun v ↦ .element (some uri) name []
      (fmt.content (v.elim (fmt.nullChars t) fun v ↦ some (value2Chars t v)))
  | .scalar _ none =>
    if fmt.schemaOpt then []
    else [.element (some uri) name [⟨some xmlNsSchemaInstance, "nil", "true"⟩] []]
  | .scalar t (some v) =>
    [.element (some uri) name
      (if isKey && fmt.ext then [⟨some xmlNsCimSchema, "Key", "true"⟩] else [])
      (fmt.content (some (value2Chars t v)))]

def wsXmlAddChildSort : List WsXmlNode → WsXmlNode → List WsXmlNode
  | [], new => [new]
  | child :: children, new =>
    if strcmp new.name child.name < 0 then new :: child :: children
    else child :: wsXmlAddChildSort children new

def instance2xml (fmt : XmlFormat) (uri className : String) (path : CimPath)
    (properties : List (String × CmpiData)) : WsXmlNode :=
  .element (some uri) className [] (properties.foldl (fun children p ↦
    (property2xml fmt uri p.1 (path.getKey p.1).isSome p.2).foldl wsXmlAddChildSort children) [])

theorem wsXmlAddChildSort_eq_merge (children : List WsXmlNode) (new : WsXmlNode) :
    wsXmlAddChildSort children new = [new].merge children fun a b ↦ decide (a.name < b.name) := by
  induction children with
  | nil => rw [wsXmlAddChildSort, List.merge_right]
  | cons child children ih =>
    rw [wsXmlAddChildSort, List.cons_merge_cons, List.nil_merge, ih]
    simp only [strcmp_neg_iff, decide_eq_true_eq]

theorem foldl_wsXmlAddChildSort (new : List WsXmlNode) {children : List WsXmlNode}
    (h : Sorted WsXmlNode.name children) :
    Sorted WsXmlNode.name (new.foldl wsXmlAddChildSort children) ∧
      ∀ k, withKey WsXmlNode.name k (new.foldl wsXmlAddChildSort children) =
        withKey WsXmlNode.name k children ++ withKey WsXmlNode.name k new := by
  induction new generalizing children with
  | nil => exact ⟨h, fun k ↦ (List.append_nil _).symm⟩
  | cons n new ih =>
    have hlt (a b : WsXmlNode) : decide (a.name < b.name) = true ↔ a.name < b.name :=
      decide_eq_true_iff
    have hsorted : Sorted name (wsXmlAddChildSort children n) := by
      rw [wsXmlAddChildSort_eq_merge]
      exact Sorted.merge hlt (List.pairwise_singleton _ n) h
    refine ⟨(ih hsorted).1, fun k ↦ ?_⟩
    rw [List.foldl_cons, (ih hsorted).2, wsXmlAddChildSort_eq_merge, withKey_merge hlt k h,
      withKey_cons k n new, List.append_assoc]

variable (fmt : XmlFormat)

theorem instance2xml_content (uri className : String) (path : CimPath)
    (properties : List (String × CmpiData)) :
    (instance2xml fmt uri className path properties).content =
      (properties.flatMap fun p ↦ property2xml fmt uri p.1 (path.getKey p.1).isSome p.2).foldl
        wsXmlAddChildSort [] :=
  List.foldl_flatMap.symm

variable {data : CmpiData}

theorem mem_property2xml {fmt : XmlFormat} {uri name : String} {isKey : Bool} {n : WsXmlNode}
    (h : n ∈ property2xml fmt uri name isKey data) :
    n.isElement = true ∧ n.nsUri = some uri ∧ n.name = name := by
  rcases data with ⟨t, _ | v⟩ | ⟨t, _ | elements⟩
  · rw [property2xml] at h
    split at h
    · cases h
    · cases List.mem_singleton.mp h
      exact ⟨rfl, rfl, rfl⟩
  · cases List.mem_singleton.mp h
    exact ⟨rfl, rfl, rfl⟩
  · cases h
  · obtain ⟨v, -, rfl⟩ := List.mem_map.mp h
    exact ⟨rfl, rfl, rfl⟩

theorem childrenNamed_instance2xml (uri className : String) (path : CimPath)
    {properties : List (String × CmpiData)} (hnodup : (properties.map Prod.fst).Nodup)
    {p : String × CmpiData} (hp : p ∈ properties) :
    (instance2xml fmt uri className path properties).childrenNamed (some uri) (some p.1) =
      property2xml fmt uri p.1 (path.getKey p.1).isSome p.2 := by
  have hwith (k : String) := (foldl_wsXmlAddChildSort (properties.flatMap fun p ↦
    property2xml fmt uri p.1 (path.getKey p.1).isSome p.2) List.Pairwise.nil).2 k
  simp only [← instance2xml_content fmt uri className path properties] at hwith
  -- every child was added for some property
  have hchild : ∀ n ∈ (instance2xml fmt uri className path properties).content,
      n.isElement = true ∧ n.nsUri = some uri := by
    intro n hn
    have hmem : n ∈ withKey name n.name
        (instance2xml fmt uri className path properties).content :=
      List.mem_filter.mpr ⟨hn, decide_eq_true rfl⟩
    rw [hwith n.name] at hmem
    obtain ⟨q, -, hq⟩ := List.mem_flatMap.mp (List.mem_of_mem_filter hmem)
    exact ⟨(mem_property2xml hq).1, (mem_property2xml hq).2.1⟩
  calc (instance2xml fmt uri className path properties).childrenNamed (some uri) (some p.1)
      = withKey name p.1 (instance2xml fmt uri className path properties).content := by
        rw [childrenNamed, elements, List.filter_filter, withKey]
        apply List.filter_congr
        intro n hn
        rw [Bool.eq_iff_iff, Bool.and_eq_true, wsXmlIsNodeQname_iff, decide_eq_true_iff]
        simp only [hchild n hn, true_and, and_true]
    _ = withKey name p.1 (properties.flatMap fun p ↦
          property2xml fmt uri p.1 (path.getKey p.1).isSome p.2) := hwith p.1
    _ = property2xml fmt uri p.1 (path.getKey p.1).isSome p.2 :=
        withKey_flatMap (fun q _ n hn ↦ (mem_property2xml hn).2.2) hnodup hp

/-! ## From XML to an instance -/

structure CimTypedProperty extends CimProperty where
  type : CmpiType
  isArray : Bool
  deriving DecidableEq, Repr

structure CimTypedClass where
  properties : List CimTypedProperty
  nodup : (properties.map fun p ↦ foldCase p.name).Nodup

def xml2data (p : CimTypedProperty) (value : String) (resource : WsXmlNode)
    (resourceUri : Option String) : CmpiData :=
  if p.isArray then
    .array p.type (some ((List.range (resource.childrenNamed resourceUri (some p.name)).length).map
      fun ii ↦ (wsXmlGetChild (some resource) ii resourceUri (some p.name)).bind fun child ↦
        xml2scalar p.type child.chars))
  else .scalar p.type (xml2scalar p.type value)

def cmSetProperty (set : List (String × CmpiData)) (name : String) (data : CmpiData) :
    List (String × CmpiData) :=
  if set.any fun e ↦ strcaseEq e.1 name then
    set.map fun e ↦ if strcaseEq e.1 name then (e.1, data) else e
  else set ++ [(name, data)]

def cmGetProperty (set : List (String × CmpiData)) (name : String) : Option CmpiData :=
  (set.find? fun e ↦ strcaseEq e.1 name).map Prod.snd

def setTypedProperties (resource : WsXmlNode) (resourceUri : Option String) :
    List CimTypedProperty → List (String × CmpiData) → WsmanStatus →
      List (String × CmpiData) × WsmanStatus
  | [], set, status => (set, status)
  | p :: ps, set, status =>
    match wsXmlGetChild (some resource) 0 resourceUri (some p.name) with
    | some child =>
      if isNil child then setTypedProperties resource resourceUri ps set status
      else setTypedProperties resource resourceUri ps
        (cmSetProperty set p.name (xml2data p child.chars resource resourceUri)) status
    | none =>
      if p.hasValue then (set, ⟨.wxfInvalidRepresentation, .wsmanDetailMissingValues⟩)
      else setTypedProperties resource resourceUri ps set status

section

variable {resource : WsXmlNode} {resourceUri : Option String}

variable {set : List (String × CmpiData)}

theorem cmSetProperty_of_new {name : String} (h : foldCase name ∉ set.map fun e ↦ foldCase e.1)
    (data : CmpiData) : cmSetProperty set name data = set ++ [(name, data)] := by
  rw [cmSetProperty, if_neg]
  rw [List.any_eq_true]
  rintro ⟨e, he, heq⟩
  rw [strcaseEq_eq_decide, decide_eq_true_iff] at heq
  exact h (List.mem_map.mpr ⟨e, he, heq⟩)

theorem nodup_append_of_cons {p : CimTypedProperty} {ps : List CimTypedProperty} (data : CmpiData)
    (h : ((set.map fun e ↦ foldCase e.1) ++ (p :: ps).map fun p ↦ foldCase p.name).Nodup) :
    cmSetProperty set p.name data = set ++ [(p.name, data)] ∧
      (((set ++ [(p.name, data)]).map fun e ↦ foldCase e.1) ++
        ps.map fun p ↦ foldCase p.name).Nodup ∧
      ((set.map fun e ↦ foldCase e.1) ++ ps.map fun p ↦ foldCase p.name).Nodup := by
  rw [List.map_cons] at h
  refine ⟨cmSetProperty_of_new (fun hmem ↦ ?_) data, ?_, ?_⟩
  · exact (List.nodup_append.mp h).2.2 _ hmem _ List.mem_cons_self rfl
  · rw [List.map_append, List.map_singleton, List.append_assoc]
    exact h
  · exact h.sublist ((List.sublist_cons_self _ _).append_left _)

theorem setTypedProperties_of_present (resource : WsXmlNode) (resourceUri : Option String)
    (data : CimTypedProperty → CmpiData)
    (ps : List CimTypedProperty) (set : List (String × CmpiData)) (status : WsmanStatus)
    (hpresent : ∀ p ∈ ps, ∃ child, wsXmlGetChild (some resource) 0 resourceUri (some p.name) =
      some child ∧ isNil child = false ∧ xml2data p child.chars resource resourceUri = data p)
    (hnodup : ((set.map fun e ↦ foldCase e.1) ++ ps.map fun p ↦ foldCase p.name).Nodup) :
    setTypedProperties resource resourceUri ps set status =
      (set ++ ps.map fun p ↦ (p.name, data p), status) := by
  induction ps generalizing set with
  | nil => rw [setTypedProperties, List.map_nil, List.append_nil]
  | cons p ps ih =>
    obtain ⟨child, hchild, hnil, hdata⟩ := hpresent p List.mem_cons_self
    obtain ⟨hset, hnodup', -⟩ := nodup_append_of_cons (data p) hnodup
    rw [setTypedProperties, hchild]
    dsimp only
    rw [hnil, if_neg Bool.false_ne_true, hdata, hset,
      ih _ (fun q hq ↦ hpresent q (List.mem_cons_of_mem p hq)) hnodup', List.append_assoc]
    rfl

theorem cmGetProperty_of_mem (hnodup : (set.map fun e ↦ foldCase e.1).Nodup) {e : String × CmpiData}
    (he : e ∈ set) : cmGetProperty set e.1 = some e.2 := by
  have hlookup := (KeyedTable.Table.lookup_eq_some_iff (t := ⟨set, hnodup⟩)).mpr ⟨he, rfl⟩
  simp only [cmGetProperty, strcaseEq_eq_decide]
  rw [KeyedTable.Table.lookup] at hlookup
  rw [hlookup, map_some]

end

/-! ## Both ways -/

structure PlainInstance (cls : CimTypedClass) where
  properties : List (String × CmpiData)
  ofClass : (properties.map fun e ↦ (e.1, e.2.type, e.2.isArray)).Perm
    (cls.properties.map fun p ↦ (p.name, p.type, p.isArray))
  nonNull : ∀ e ∈ properties, e.2.NonNull
  plain : ∀ e ∈ properties, e.2.Plain

def CmpiData.readBack : CmpiData → CmpiData
  | .scalar t value => .scalar t (if t = .dateTime then none else value)
  | .array t elements =>
    .array t (if t = .dateTime then elements.map fun vs ↦ vs.map fun _ ↦ none else elements)

theorem CmpiData.readBack_eq_iff (h : data.NonNull) :
    data.readBack = data ↔ data.type ≠ .dateTime := by
  rcases data with ⟨t, _ | v⟩ | ⟨t, _ | _ | ⟨v, vs⟩⟩
  · exact absurd rfl h
  · by_cases ht : t = .dateTime <;> simp [readBack, type, ht]
  · cases h
  · exact absurd rfl h.1
  by_cases ht : t = .dateTime
  · subst ht
    refine iff_of_false ?_ (absurd rfl)
    intro heq
    rw [readBack, if_pos rfl] at heq
    injection heq with _ heq
    injection heq with heq
    injection heq with heq
    exact h.2 (heq ▸ List.mem_cons_self)
  · simp [readBack, type, ht]

theorem XmlFormat.chars_content {value : String} (h : '&' ∉ value.toList) (ns : Option String)
    (name : String) (attrs : List WsXmlAttr) :
    (WsXmlNode.element ns name attrs (fmt.content (some value))).chars = value := by
  rw [content, chars, charsAll, charsAll, chars]
  simp [h]

theorem xml2scalar_readBack (t : CmpiType) (v : t.Value) :
    xml2scalar t (value2Chars t v) = if t = .dateTime then none else some v := by
  split
  · next h =>
    subst h
    rfl
  · next h => exact xml2scalar_value2Chars h v

theorem isNil_of_key (ns : Option String) (name : String) (b : Bool) (content : List WsXmlNode) :
    isNil (.element ns name (if b then [⟨some xmlNsCimSchema, "Key", "true"⟩] else []) content) =
      false := by
  cases b <;> rfl

theorem map_range_getElem?_bind {α β : Type} (l : List α) (f : α → Option β) :
    ((List.range l.length).map fun i ↦ l[i]?.bind f) = l.map f := by
  apply List.ext_getElem
  · rw [List.length_map, List.length_map, List.length_range]
  intro i h₁ h₂
  rw [List.length_map] at h₂
  rw [List.getElem_map, List.getElem_range, List.getElem_map, List.getElem?_eq_getElem h₂,
    bind_some]

theorem xml2data_property2xml {fmt : XmlFormat} {uri : String} {isKey : Bool}
    (hnonNull : data.NonNull) (hplain : data.Plain) {p : CimTypedProperty}
    (htype : p.type = data.type) (harray : p.isArray = data.isArray) {resource : WsXmlNode}
    (hchildren : resource.childrenNamed (some uri) (some p.name) = property2xml fmt uri p.name isKey
      data) :
    ∃ child, wsXmlGetChild (some resource) 0 (some uri) (some p.name) = some child ∧
      isNil child = false ∧ xml2data p child.chars resource (some uri) = data.readBack := by
  obtain ⟨prop, type, isArray⟩ := p
  dsimp only at htype harray hchildren ⊢
  subst htype harray
  rcases data with ⟨t, _ | v⟩ | ⟨t, _ | vs⟩
  · exact absurd rfl hnonNull
  · rw [wsXmlGetChild_some, hchildren]
    refine ⟨_, rfl, isNil_of_key _ _ _ _, ?_⟩
    rw [fmt.chars_content (hplain v rfl)]
    change CmpiData.scalar t (xml2scalar t (value2Chars t v)) = _
    rw [xml2scalar_readBack]
    rfl
  · cases hnonNull
  obtain ⟨hne, hsome⟩ := hnonNull
  obtain ⟨v, rest, hvs⟩ := List.exists_cons_of_ne_nil hne
  refine ⟨_, by rw [wsXmlGetChild_some, hchildren, hvs]; rfl, rfl, ?_⟩
  change CmpiData.array t (some ((List.range (resource.childrenNamed (some uri)
    (some prop.name)).length).map fun ii ↦
      ((resource.childrenNamed (some uri) (some prop.name))[ii]?).bind fun child ↦
        xml2scalar t child.chars)) = _
  rw [map_range_getElem?_bind, hchildren, property2xml, List.map_map]
  have hread : ∀ w ∈ vs, xml2scalar t (element (some uri) prop.name []
      (fmt.content (w.elim (fmt.nullChars t) fun v ↦ some (value2Chars t v)))).chars =
        if t = .dateTime then none else w := by
    intro w hw
    cases w with
    | none => exact absurd hw hsome
    | some w => rw [elim_some, fmt.chars_content (hplain vs rfl w hw), xml2scalar_readBack]
  by_cases ht : t = .dateTime
  · simp only [if_pos ht] at hread
    rw [List.map_congr_left (f := _ ∘ _) hread, CmpiData.readBack, if_pos ht, map_some]
  · simp only [if_neg ht] at hread
    rw [List.map_congr_left (f := _ ∘ _) hread, List.map_id', CmpiData.readBack, if_neg ht]

def RoundTrips {cls : CimTypedClass} (fmt : XmlFormat) (uri className : String) (path : CimPath)
    (inst : PlainInstance cls) : Prop :=
  ∀ (session : CimSession) (status : WsmanStatus), session.client.resourceUri = some uri →
    session.client.requestedClass = some className →
      ∃ resource set,
        putResource session (some (.elem xmlNsSoap12 soapBody
          [instance2xml fmt uri className path inst.properties])) none = some resource ∧
        setTypedProperties resource session.client.resourceUri cls.properties [] status =
          (set, status) ∧
        ∀ e ∈ inst.properties, cmGetProperty set e.1 = some e.2

namespace PlainInstance

variable {cls : CimTypedClass} (inst : PlainInstance cls)

theorem nodup_foldCase : (inst.properties.map fun e ↦ foldCase e.1).Nodup := by
  have hperm := inst.ofClass.map fun t ↦ foldCase t.1
  rw [List.map_map, List.map_map] at hperm
  exact hperm.nodup_iff.mpr cls.nodup

theorem nodup_names : (inst.properties.map Prod.fst).Nodup := by
  apply List.Nodup.of_map foldCase
  rw [List.map_map]
  exact inst.nodup_foldCase

theorem exists_of_mem_class {p : CimTypedProperty} (hp : p ∈ cls.properties) :
    ∃ e ∈ inst.properties, e.1 = p.name ∧ p.type = e.2.type ∧ p.isArray = e.2.isArray := by
  have hmem := inst.ofClass.mem_iff.mpr (List.mem_map_of_mem (f := fun p ↦
    ((p.name, p.type, p.isArray) : String × CmpiType × Bool)) hp)
  obtain ⟨e, he, heq⟩ := List.mem_map.mp hmem
  simp only [Prod.mk.injEq] at heq
  exact ⟨e, he, heq.1, heq.2.1.symm, heq.2.2.symm⟩

theorem exists_in_class {e : String × CmpiData} (he : e ∈ inst.properties) :
    ∃ p ∈ cls.properties, p.name = e.1 := by
  have hmem := inst.ofClass.mem_iff.mp (List.mem_map_of_mem (f := fun e ↦
    ((e.1, e.2.type, e.2.isArray) : String × CmpiType × Bool)) he)
  obtain ⟨p, hp, heq⟩ := List.mem_map.mp hmem
  simp only [Prod.mk.injEq] at heq
  exact ⟨p, hp, heq.1⟩

theorem setTypedProperties_instance2xml (fmt : XmlFormat) (uri className : String) (path : CimPath)
    (status : WsmanStatus) :
    ∃ set, setTypedProperties (instance2xml fmt uri className path inst.properties) (some uri)
        cls.properties [] status = (set, status) ∧
      ∀ e ∈ inst.properties, cmGetProperty set e.1 = some e.2.readBack := by
  let data (p : CimTypedProperty) : CmpiData :=
    ((cmGetProperty inst.properties p.name).getD (.scalar p.type none)).readBack
  have hdata {e : String × CmpiData} (he : e ∈ inst.properties) {p : CimTypedProperty}
      (hname : e.1 = p.name) : data p = e.2.readBack := by
    change (getD (cmGetProperty _ p.name) _).readBack = _
    rw [← hname, cmGetProperty_of_mem inst.nodup_foldCase he, getD_some]
  have hset := setTypedProperties_of_present
    (instance2xml fmt uri className path inst.properties) (some uri) data cls.properties [] status
    ?_ cls.nodup
  · refine ⟨_, hset, fun e he ↦ ?_⟩
    obtain ⟨p, hp, hname⟩ := inst.exists_in_class he
    rw [← hdata he hname.symm, ← hname]
    apply cmGetProperty_of_mem (e := (p.name, data p))
    · rw [List.nil_append, List.map_map]
      exact cls.nodup
    · exact List.mem_map_of_mem (f := fun p ↦ (p.name, data p)) hp
  · intro p hp
    obtain ⟨e, he, hname, htype, harray⟩ := inst.exists_of_mem_class hp
    have hchildren := childrenNamed_instance2xml fmt uri className path inst.nodup_names he
    rw [hname] at hchildren
    rw [hdata he hname]
    exact xml2data_property2xml (inst.nonNull e he) (inst.plain e he) htype harray hchildren

end PlainInstance

/-- **Get and Put.** For every class and every instance of it in which all properties have values:
the representation sets every property to its original value if and only if no property is a
datetime or an array of datetimes. -/
theorem roundTrips_iff_no_dateTime {cls : CimTypedClass} (fmt : XmlFormat) (uri className : String)
    (path : CimPath) (inst : PlainInstance cls) :
    RoundTrips fmt uri className path inst ↔ ∀ e ∈ inst.properties, e.2.type ≠ .dateTime := by
  have hresource (session : CimSession) (huri : session.client.resourceUri = some uri)
      (hclass : session.client.requestedClass = some className) :
      putResource session (some (.elem xmlNsSoap12 soapBody
        [instance2xml fmt uri className path inst.properties])) none =
          some (instance2xml fmt uri className path inst.properties) := by
    rw [putResource, huri, hclass, wsXmlGetChild_some]
    have hqname : wsXmlIsNodeQname (instance2xml fmt uri className path inst.properties)
        (some uri) (some className) = true := (wsXmlIsNodeQname_iff _ _ _).mpr ⟨rfl, rfl⟩
    change (List.filter _ [instance2xml fmt uri className path inst.properties])[0]? = _
    rw [List.filter_cons, if_pos hqname]
    rfl
  constructor
  · intro h e he
    obtain ⟨resource, set, hput, hset, hget⟩ := h
      { client :=
          { cimNamespace := ""
            requestedClass := some className
            resourceUri := some uri
            method := none
            namespaces := [] }
        selectors := none
        methodArgs := none } {} rfl rfl
    obtain rfl := some.inj ((hresource _ rfl rfl).symm.trans hput)
    obtain ⟨set', hset', hback⟩ := inst.setTypedProperties_instance2xml fmt uri className path {}
    obtain rfl : set' = set := (Prod.mk.inj (hset'.symm.trans hset)).1
    apply (CmpiData.readBack_eq_iff (inst.nonNull e he)).mp
    exact some.inj ((hback e he).symm.trans (hget e he))
  · intro h session status huri hclass
    obtain ⟨set, hset, hback⟩ := inst.setTypedProperties_instance2xml fmt uri className path status
    refine ⟨_, set, hresource session huri hclass, ?_, fun e he ↦ ?_⟩
    · rw [huri]
      exact hset
    · rw [hback e he, (CmpiData.readBack_eq_iff (inst.nonNull e he)).mpr (h e he)]

def softwareClass : CimTypedClass where
  properties := [⟨⟨"InstallDate", false, none⟩, .dateTime, false⟩]
  nodup := by decide

def softwareInstance : PlainInstance softwareClass where
  properties := [("InstallDate", .scalar .dateTime (some "20261115080000.000000+000"))]
  ofClass := .refl _
  nonNull := by
    intro e he
    cases List.mem_singleton.mp he
    exact Option.some_ne_none _
  plain := by
    intro e he
    cases List.mem_singleton.mp he
    intro v hv
    cases hv
    decide

def plainFormat : XmlFormat where
  schemaOpt := false
  ext := false
  xmlescape := false
  expand := id
  nullChars _ := none

def softwareUri : String := "http://schemas.dmtf.org/wbem/wscim/1/cim-schema/2/CIM_Software"

def softwareSession : CimSession where
  client :=
    { cimNamespace := "root/cimv2"
      requestedClass := some "CIM_Software"
      resourceUri := some softwareUri
      method := none
      namespaces := [] }
  selectors := none
  methodArgs := none

/-- The date of the installation is lost: the property is set to `NULL`. -/
theorem installDate_lost :
    setTypedProperties
        (instance2xml plainFormat softwareUri "CIM_Software" (.mk "root/cimv2" none [])
          softwareInstance.properties)
        (some softwareUri) softwareClass.properties [] {} =
      ([("InstallDate", .scalar .dateTime none)], {}) ∧
    ¬RoundTrips plainFormat softwareUri "CIM_Software" (.mk "root/cimv2" none [])
      softwareInstance := by
  refine ⟨rfl, fun h ↦ ?_⟩
  obtain ⟨resource, set, hput, hset, hget⟩ := h softwareSession {} rfl rfl
  cases hput
  obtain ⟨rfl, -⟩ := Prod.mk.inj hset
  cases hget _ List.mem_cons_self

end Openwsman
