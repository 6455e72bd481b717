import Openwsman.Libc.Memory
import Openwsman.Serialize.Types
import Openwsman.Xml.Write

/-!
# Serializing and deserializing

`ws_serialize` and `ws_deserialize` of `wsman-xml-serialize.c`, with the functions for the basic
types, for structures and for dynamic arrays. Both directions share the walk through the memory: the
pointer to the current element is moved up to an alignment, the size of the field is compared with
the end of the memory, and the elements follow each other. `doSerializeBasic` and
`doSerializeStruct` are these walks, with what is done at an element as a parameter.

A structure is moved to a multiple of eight, and the comparison with the end of the memory forgets
that when it does so. The function for dynamic arrays compares with the end of the array, and
allocates it, as if the elements were as large as an `XmlSerialiseDynamicSizeData`.

Sizes are computed as `unsigned int` and stored in an `int`. A number that is negative then is taken
for an error. Reading an address where no field of the right type starts is undefined. Memory that
is allocated starts at an address that is good for every type; its addresses are counted from there.
A deserialized field that is not written is zero.
-/

namespace Openwsman

open Nat SerType Layout

/-! ## Results -/

/-- What a function returns: something, an error code, or nothing that the language defines. -/
inductive SerResult (α : Type) where
  | ok (a : α)
  | error (code : ℤ)
  | undefined

namespace SerResult

variable {α β : Type}

def bind : SerResult α → (α → SerResult β) → SerResult β
  | ok a, f => f a
  | error code, _ => error code
  | undefined, _ => undefined

def map (f : α → β) (r : SerResult α) : SerResult β := r.bind fun a ↦ ok (f a)

@[simp] theorem ok_bind (a : α) (f : α → SerResult β) : (ok a).bind f = f a := rfl

@[simp] theorem bind_ok (r : SerResult α) : (r.bind fun a ↦ ok a) = r := by
  cases r <;> rfl

variable {r : SerResult α}

theorem bind_eq_ok {f : α → SerResult β} {b : β} :
    r.bind f = ok b ↔ ∃ a, r = ok a ∧ f a = ok b := by
  rcases r with a | code | _ <;> simp [bind]

theorem bind_congr_of_ok {f g : α → SerResult β} (h : ∀ a, r = .ok a → f a = g a) :
    r.bind f = r.bind g := by
  rcases r with a | code | _
  · exact h a rfl
  · rfl
  · rfl

theorem map_eq_ok {f : α → β} {b : β} : r.map f = ok b ↔ ∃ a, r = ok a ∧ f a = b := by
  rw [map, bind_eq_ok]
  simp

end SerResult

def wsErrInsufficientResources : ℤ := -1
def wsErrInvalidParameter : ℤ := -2
def wsErrXmlParsing : ℤ := -3

/-- What a walk over a field returns: the value of the function, the pointer behind the field, and
what was made of the elements. -/
structure Walked (α : Type) where
  ret : ℤ
  buf : ℕ
  out : List α

/-! ## Walks -/

section

variable {α : Type}

def eachElement (element : ℕ → ℕ → SerResult (List α)) (size : ℕ) :
    ℕ → ℕ → ℕ → SerResult (List α)
  | 0, _, _ => .ok []
  | n + 1, index, buf =>
    (element index buf).bind fun first ↦
      (eachElement element size n (index + 1) (buf + size)).map (first ++ ·)

def doSerializeBasic (t : BasicType) (element : ℕ → ℕ → SerResult (List α))
    (count buf stopper : ℕ) : SerResult (Walked α) :=
  let start := alignUp buf t.size
  let all := toCInt (t.size * count)
  let ret := if t.isInteger && decide (all < 0) then all else all + padding buf t.size
  if (stopper : ℤ) < start + all then .error wsErrInvalidParameter
  else
    (eachElement element t.size count 0 start).bind fun out ↦
      if ret < 0 then .error ret else .ok ⟨ret, start + count * t.size, out⟩

/-- With the flag `SER_HEAD` only the element with the index is handled. -/
def doSerializeStruct (size : ℕ) (element : ℤ → ℕ → ℕ → SerResult (List α)) (head : Bool)
    (index count buf stopper : ℕ) : SerResult (Walked α) :=
  let start := alignUp buf structAlign
  let ret := toCInt (if padding buf structAlign ≠ 0 ∨ head then size else size * count)
  let number := if head then 1 else count
  if (stopper : ℤ) < buf + ret then .error wsErrInvalidParameter
  else
    (eachElement (element ret) size number (if head then index else 0) start).bind fun out ↦
      if ret < 0 then .error ret else .ok ⟨ret, start + number * size, out⟩

variable {n : ℕ}

theorem toCInt_natCast (h : n < 2 ^ 31) : toCInt n = n :=
  toCInt_of_mem (by omega) (by omega)

variable {size count buf stopper : ℕ}

theorem doSerializeBasic_eq (t : BasicType) (element : ℕ → ℕ → SerResult (List α))
    (hsmall : count * t.size < 2 ^ 31) :
    doSerializeBasic t element count buf stopper =
      if buf + (padding buf t.size + count * t.size) ≤ stopper then
        (eachElement element t.size count 0 (alignUp buf t.size)).bind fun out ↦
          .ok ⟨(padding buf t.size + count * t.size : ℕ), alignUp buf t.size + count * t.size, out⟩
      else .error wsErrInvalidParameter := by
  have hall : toCInt (t.size * count) = (count * t.size : ℕ) := by
    rw [← cast_mul, mul_comm]
    exact toCInt_natCast hsmall
  have hnonneg : (t.isInteger && decide (((count * t.size : ℕ) : ℤ) < 0)) = false := by
    rw [Bool.and_eq_false_iff]
    exact .inr (decide_eq_false (by omega))
  have hret : ((count * t.size : ℕ) : ℤ) + padding buf t.size =
      (padding buf t.size + count * t.size : ℕ) := by
    rw [add_comm, cast_add]
  rw [doSerializeBasic, hall, hnonneg, if_neg Bool.false_ne_true, hret, alignUp]
  by_cases hroom : buf + (padding buf t.size + count * t.size) ≤ stopper
  · rw [if_pos hroom, if_neg (by omega)]
    exact congrArg _ (funext fun out ↦ if_neg (by omega))
  · rw [if_neg hroom, if_pos (by omega)]

variable {element : ℤ → ℕ → ℕ → SerResult (List α)}

/-- With a field that has elements the value of the function is positive. -/
theorem doSerializeStruct_eq {each : ℕ → ℕ → SerResult (List α)}
    (heach : ∀ ret > 0, element ret = each) (hpos : 0 < size) (hcount : 0 < count)
    (hsmall : count * size < 2 ^ 31) (index : ℕ) :
    doSerializeStruct size element false index count buf stopper =
      if buf + (if padding buf structAlign = 0 then count * size else size) ≤ stopper then
        (eachElement each size count 0 (alignUp buf structAlign)).bind fun out ↦
          .ok ⟨((if padding buf structAlign = 0 then count * size else size) : ℕ),
            alignUp buf structAlign + count * size, out⟩
      else .error wsErrInvalidParameter := by
  have hsize : size ≤ count * size := Nat.le_mul_of_pos_left size hcount
  set ret : ℕ := if padding buf structAlign = 0 then count * size else size with hret
  have hbounds : 0 < ret ∧ ret ≤ count * size := by
    rw [hret]
    split <;> omega
  have hcint : toCInt (if padding buf structAlign ≠ 0 ∨ (false : Bool) = true then (size : ℤ)
      else size * count) = ret := by
    rw [← toCInt_natCast (hbounds.2.trans_lt hsmall), hret]
    by_cases hpad : padding buf structAlign = 0
    · simp [hpad, mul_comm]
    · simp [hpad]
  rw [doSerializeStruct, hcint, heach _ (by omega)]
  by_cases hroom : buf + ret ≤ stopper
  · rw [if_pos hroom, if_neg (by omega)]
    exact congrArg _ (funext fun out ↦ if_neg (by omega))
  · rw [if_neg hroom, if_pos (by omega)]

theorem doSerializeStruct_head (size : ℕ) (element : ℤ → ℕ → ℕ → SerResult (List α))
    (buf stopper : ℕ) :
    doSerializeStruct size element true 0 1 buf stopper =
      doSerializeStruct size element false 0 1 buf stopper := by
  simp [doSerializeStruct]

variable {index : ℕ}

theorem eachElement_congr {f g : ℕ → ℕ → SerResult (List α)} {a : ℕ}
    (h : ∀ i < n, f (index + i) (a + i * size) = g (index + i) (a + i * size)) :
    eachElement f size n index a = eachElement g size n index a := by
  induction n generalizing index a with
  | zero => rfl
  | succ n ih =>
    simp only [forall_lt_succ_left, zero_mul, add_zero, add_succ_mul, ← succ_add_eq_add_succ] at h
    rw [eachElement, eachElement, h.1, ih h.2]

theorem forall_of_eachElement {element : ℕ → ℕ → SerResult (List α)} {p : ℕ → Prop}
    (h : ∀ i a out, element i a = .ok out → p a) {a : ℕ} {out : List α}
    (hok : eachElement element size n index a = .ok out) : ∀ i < n, p (a + i * size) := by
  induction n generalizing index a out with
  | zero =>
    intro i hi
    exact absurd hi (not_lt_zero i)
  | succ n ih =>
    obtain ⟨first, hfirst, hrest⟩ := SerResult.bind_eq_ok.mp hok
    obtain ⟨others, hothers, -⟩ := SerResult.map_eq_ok.mp hrest
    simp only [forall_lt_succ_left, zero_mul, add_zero, add_succ_mul]
    exact ⟨h index a first hfirst, ih hothers⟩

theorem doSerializeBasic_eq_ok {t : BasicType} {element : ℕ → ℕ → SerResult (List α)}
    {w : Walked α} (h : doSerializeBasic t element count buf stopper = .ok w) :
    eachElement element t.size count 0 (alignUp buf t.size) = .ok w.out ∧
      w.buf = alignUp buf t.size + count * t.size := by
  rw [doSerializeBasic] at h
  -- the value of the function plays no part, and `cases` would evaluate the conversion to `int`
  generalize toCInt (t.size * count) = all at h
  split at h
  · cases h
  obtain ⟨out, hout, hret⟩ := SerResult.bind_eq_ok.mp h
  generalize (if t.isInteger && decide (all < 0) then all else all + padding buf t.size) = ret
    at hret
  split at hret
  · cases hret
  · cases hret
    exact ⟨hout, rfl⟩

theorem doSerializeStruct_eq_ok {head : Bool} {w : Walked α}
    (h : doSerializeStruct size element head index count buf stopper = .ok w) :
    w.buf = alignUp buf structAlign + (if head then 1 else count) * size := by
  rw [doSerializeStruct] at h
  generalize toCInt (if padding buf structAlign ≠ 0 ∨ head then (size : ℤ) else size * count) = ret
    at h
  split at h
  · cases h
  obtain ⟨out, -, hret⟩ := SerResult.bind_eq_ok.mp h
  split at hret
  · cases hret
  · cases hret
    rfl

def FieldInfo.inBounds (info : FieldInfo) (n : ℕ) : Bool :=
  decide (info.mincount ≤ n) && (info.count == 0 || decide (n ≤ info.count))

end

/-! ## Serializing -/

def leafText : Word → Option String
  | .int .bool v => some (if v = 0 then "false" else "true")
  | .int _ v => some (toString v)
  | .str s => s
  | .dyn .. => none

/-- `ws_xml_set_node_long` and `ws_xml_set_node_ulong` print into twelve bytes. -/
def fitsText : Word → Bool
  | .int .bool _ => true
  | .int _ v => decide ((toString v).length < 12)
  | _ => true

def leafNode (lx : Libxml) (ns : Option String) (name : String) (w : Word) : WsXmlNode :=
  .element ns name [] (lx.content (leafText w))

def readWord (t : BasicType) (mem : Memory) (a : ℕ) : SerResult Word :=
  match mem.lookup a with
  | none => .undefined
  | some w => if t.holds w then .ok w else .undefined

def writeLeaf (lx : Libxml) (ns : Option String) (name : String) (t : BasicType) (mem : Memory)
    (a : ℕ) : SerResult (List WsXmlNode) :=
  (readWord t mem a).bind fun w ↦
    if fitsText w then .ok [leafNode lx ns name w] else .error wsErrInsufficientResources

def serializeDyn (info : FieldInfo)
    (proc : ℕ → Memory → ℕ → ℕ → SerResult (Walked WsXmlNode)) (mem : Memory) (buf stopper : ℕ) :
    SerResult (Walked WsXmlNode) :=
  let start := alignUp buf structAlign
  let ret : ℤ := dynSize + padding buf structAlign
  if stopper < start + dynSize then .error wsErrInvalidParameter
  else
    match mem.lookup start with
    | some (.dyn count base _ cells) =>
      if !info.inBounds count then .error wsErrXmlParsing
      else if count = 0 then .ok ⟨ret, start + dynSize, []⟩
      else
        (proc count cells base (base + toUInt (dynSize * count))).bind fun walked ↦
          .ok ⟨ret, start + dynSize, walked.out⟩
    | _ => .undefined

def dynAt (mem : Memory) (start : ℕ) : SerResult (ℕ × ℕ × Memory) :=
  match mem.lookup start with
  | some (.dyn count base _ cells) => .ok (count, base, cells)
  | _ => .undefined

mutual

def SerType.serialize (lx : Libxml) (ns : Option String) (name : String) (head : Bool) :
    SerType → ℕ → Memory → ℕ → ℕ → SerResult (Walked WsXmlNode)
  | .basic t, count, mem, buf, stopper =>
    doSerializeBasic t (fun _ a ↦ writeLeaf lx ns name t mem a) count buf stopper
  | .struct items, count, mem, buf, stopper =>
    let size := alignUp (items.extent 0) items.align
    doSerializeStruct size
      (fun ret _ a ↦
        (if 0 < ret then items.serialize lx mem a (a + size) else .ok []).map fun fields ↦
          [.element ns name [] fields])
      head 0 count buf stopper

def SerItems.serialize (lx : Libxml) : SerItems → Memory → ℕ → ℕ → SerResult (List WsXmlNode)
  | .nil, _, _, _ => .ok []
  | .cons info t rest, mem, buf, stopper =>
    (if info.dynamic then
        serializeDyn info (t.serialize lx info.ns info.name false) mem buf stopper
      else t.serialize lx info.ns info.name false info.count mem buf stopper).bind fun field ↦
      (rest.serialize lx mem field.buf stopper).map (field.out ++ ·)

end

def SerType.writeElement (lx : Libxml) (ns : Option String) (name : String) (t : SerType)
    (mem : Memory) (a : ℕ) : SerResult (List WsXmlNode) :=
  match t with
  | .basic t => writeLeaf lx ns name t mem a
  | .struct items =>
    (items.serialize lx mem a (a + (SerType.struct items).size)).map fun fields ↦
      [.element ns name [] fields]

def SerType.advance (t : SerType) (n buf : ℕ) : ℕ :=
  match t with
  | .basic t => padding buf t.size + n * t.size
  | .struct items =>
    if padding buf structAlign = 0 then n * (SerType.struct items).size
    else (SerType.struct items).size

theorem SerType.serialize_eq (lx : Libxml) (ns : Option String) (name : String) (t : SerType)
    {n : ℕ} (hpos : 0 < t.size) (hn : 0 < n) (hsmall : n * t.size < 2 ^ 31) (mem : Memory)
    (buf stopper : ℕ) :
    t.serialize lx ns name false n mem buf stopper =
      if buf + t.advance n buf ≤ stopper then
        (eachElement (fun _ ↦ t.writeElement lx ns name mem) t.size n 0
          (alignUp buf (t.alignBy walkAlign))).bind fun out ↦
            .ok ⟨t.advance n buf, alignUp buf (t.alignBy walkAlign) + n * t.size, out⟩
      else .error wsErrInvalidParameter := by
  rcases t with t | items
  · rw [serialize]
    exact doSerializeBasic_eq t _ hsmall
  rw [serialize]
  refine doSerializeStruct_eq (fun ret hret ↦ ?_) hpos hn hsmall 0
  funext _ a
  rw [if_pos hret]
  rfl

def wsSerialize (lx : Libxml) (info : FieldInfo) (t : SerType) (mem : Memory) (dataPtr : ℕ) :
    SerResult (Walked WsXmlNode) :=
  if info.dynamic then
    serializeDyn info (t.serialize lx info.ns info.name false) mem dataPtr (dataPtr + dynSize)
  else t.serialize lx info.ns info.name true info.count mem dataPtr (dataPtr + t.size)

/-! ## Deserializing -/

/-- `strtoll` or `strtoull` where `errno` is looked at and only blanks may follow the number. -/
def readNumber (lo hi : ℤ) (t : List Char) : Option ℤ :=
  let s := readSign t
  let ds := s.2.takeWhile isDigit
  let v : ℤ := if s.1 then -(digitsValue ds : ℤ) else digitsValue ds
  if ds.isEmpty || decide (v < lo) || decide (hi < v) ||
      !((s.2.dropWhile isDigit).dropWhile isSpace).isEmpty then none
  else some v

def storedNumber (t : BasicType) (v : ℤ) : Option ℤ :=
  match t with
  | .int32 => some (toCInt v)
  | .uint32 => some (v % 2 ^ 32)
  | .int64 | .uint64 => some v
  | t => if v < t.range.1 ∨ t.range.2 < v then none else some v

/-- A number that is read from an element. Without digits it is absent, which is an error unless the
element says so. -/
def readInteger (t : BasicType) (child : WsXmlNode) : Option ℤ :=
  let str := child.chars.toList.dropWhile isSpace
  if str.isEmpty || (!t.isSigned && str.head? == some '-') then
    if wsXmlFindAttrBool (some child) (some xmlNsSchemaInstance) xmlSchemaNil then some 0 else none
  else
    (if t.isSigned then readNumber (-2 ^ 63) (2 ^ 63 - 1) str
      else readNumber 0 (2 ^ 64 - 1) str).bind (storedNumber t)

def readBool (src : String) : Option ℤ :=
  let tmp :=
    if src == "" then 1
    else if src.toList.head?.any isDigit then atoi src
    else if src == "yes" || src == "true" then 1
    else if src == "no" || src == "false" then 0
    else -1
  if tmp = 0 ∨ tmp = 1 then some tmp else none

def readLeaf (t : BasicType) (child : WsXmlNode) : Option Word :=
  match t with
  | .string => some (.str (if child.chars == "" then none else some child.chars))
  | .bool => (readBool child.chars).map (.int .bool)
  | t => (readInteger t child).map (.int t)

def childAt {β : Type} (parent : WsXmlNode) (ns : Option String) (name : String)
    (element : WsXmlNode → ℕ → SerResult β) (index a : ℕ) : SerResult β :=
  match wsXmlGetChild (some parent) index ns (some name) with
  | none => .error wsErrXmlParsing
  | some child => element child a

def storeLeaf (t : BasicType) (child : WsXmlNode) (a : ℕ) : SerResult Memory :=
  match readLeaf t child with
  | none => .error wsErrXmlParsing
  | some w => .ok [(a, w)]

def deserializeDyn (info : FieldInfo) (proc : ℕ → ℕ → ℕ → SerResult (Walked (ℕ × Word)))
    (parent : WsXmlNode) (buf stopper : ℕ) : SerResult (Walked (ℕ × Word)) :=
  let start := alignUp buf structAlign
  let ret : ℤ := dynSize + padding buf structAlign
  let count := (parent.childrenNamed info.ns (some info.name)).length
  let size := toCInt (dynSize * count)
  if stopper < start + dynSize then .error wsErrInvalidParameter
  else if !info.inBounds count then .error wsErrXmlParsing
  else if count = 0 then .ok ⟨ret, start + dynSize, [(start, .dyn 0 0 0 [])]⟩
  else if size < 0 then .error wsErrInsufficientResources
  else
    (proc count 0 (toUInt (dynSize * count))).bind fun walked ↦
      .ok ⟨ret, start + dynSize, [(start, .dyn count 0 size.toNat walked.out)]⟩

mutual

/-- Elements of a basic type must not be followed by another. -/
def SerType.deserialize (ns : Option String) (name : String) (head : Bool) (index : ℕ) :
    SerType → ℕ → WsXmlNode → ℕ → ℕ → SerResult (Walked (ℕ × Word))
  | .basic t, count, parent, buf, stopper =>
    (doSerializeBasic t (childAt parent ns name (storeLeaf t)) count buf stopper).bind fun walked ↦
      if (wsXmlGetChild (some parent) count ns (some name)).isSome then .error wsErrXmlParsing
      else .ok walked
  | .struct items, count, parent, buf, stopper =>
    let size := alignUp (items.extent 0) items.align
    doSerializeStruct size
      (fun ret ↦ childAt parent ns name fun child a ↦
        if 0 < ret then items.deserialize child a (a + size) else .ok [])
      head index count buf stopper

def SerItems.deserialize : SerItems → WsXmlNode → ℕ → ℕ → SerResult Memory
  | .nil, _, _, _ => .ok []
  | .cons info t rest, parent, buf, stopper =>
    (if info.dynamic then
        deserializeDyn info (fun count ↦ t.deserialize info.ns info.name false 0 count parent)
          parent
          buf stopper
      else t.deserialize info.ns info.name false 0 info.count parent buf stopper).bind fun field ↦
      (rest.deserialize parent field.buf stopper).map (field.out ++ ·)

end

def SerType.isBasic : SerType → Bool
  | .basic _ => true
  | .struct _ => false

def SerType.readElement (t : SerType) (child : WsXmlNode) (a : ℕ) : SerResult Memory :=
  match t with
  | .basic t => storeLeaf t child a
  | .struct items => items.deserialize child a (a + (SerType.struct items).size)

theorem SerType.deserialize_eq (ns : Option String) (name : String) (t : SerType) {n : ℕ}
    (hpos : 0 < t.size) (hn : 0 < n) (hsmall : n * t.size < 2 ^ 31) (parent : WsXmlNode)
    (buf stopper : ℕ) :
    t.deserialize ns name false 0 n parent buf stopper =
      (if buf + t.advance n buf ≤ stopper then
        (eachElement (childAt parent ns name t.readElement) t.size n 0
          (alignUp buf (t.alignBy walkAlign))).bind fun out ↦
            .ok ⟨t.advance n buf, alignUp buf (t.alignBy walkAlign) + n * t.size, out⟩
      else .error wsErrInvalidParameter).bind fun walked ↦
        if t.isBasic && (wsXmlGetChild (some parent) n ns (some name)).isSome then
          .error wsErrXmlParsing
        else .ok walked := by
  rcases t with t | items
  · rw [deserialize, doSerializeBasic_eq t _ hsmall]
    rfl
  rw [deserialize]
  have heach : ∀ ret > (0 : ℤ), (childAt parent ns name fun child a ↦
      if 0 < ret then items.deserialize child a (a + alignUp (items.extent 0) items.align)
      else .ok []) = childAt parent ns name (struct items).readElement := by
    intro ret hret
    congr
    funext child a
    exact if_pos hret
  refine (doSerializeStruct_eq heach hpos hn hsmall 0).trans ?_
  exact (SerResult.bind_ok _).symm

def wsDeserialize (info : FieldInfo) (t : SerType) (xmlParent : WsXmlNode) (index : ℕ) :
    CResult (Option Memory) :=
  let size := if info.dynamic then dynSize else t.size
  if toCInt size < 0 then .value none
  else
    match
      if info.dynamic then
        deserializeDyn info (fun count ↦ t.deserialize info.ns info.name false 0 count xmlParent)
          xmlParent 0 dynSize
      else t.deserialize info.ns info.name true index info.count xmlParent 0 t.size with
    | .undefined => .undefined
    | .error _ => .value none
    | .ok walked => .value (if 0 < walked.ret then some walked.out else none)

def returnedMemory : SerResult (Walked (ℕ × Word)) → CResult (Option Memory)
  | .undefined => .undefined
  | .error _ => .value none
  | .ok walked => .value (if 0 < walked.ret then some walked.out else none)

theorem wsDeserialize_eq (info : FieldInfo) (t : SerType) (xmlParent : WsXmlNode) (index : ℕ) :
    wsDeserialize info t xmlParent index =
      if toCInt (if info.dynamic then dynSize else t.size : ℕ) < 0 then .value none
      else
        returnedMemory
          (if info.dynamic then
            deserializeDyn info
              (fun count ↦ t.deserialize info.ns info.name false 0 count xmlParent) xmlParent 0
              dynSize
          else t.deserialize info.ns info.name true index info.count xmlParent 0 t.size) :=
  rfl

end Openwsman
