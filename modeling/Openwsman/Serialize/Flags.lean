import Openwsman.Serialize.Placement
import Openwsman.Serialize.Walk

/-!
# Fields that are skipped

An entry of a type descriptor may have one of the flags `SER_SKIP`, `SER_IN` and `SER_OUT`. A field
with `SER_OUT` is skipped when a value is serialized, one with `SER_IN` when it is deserialized, and
one with `SER_SKIP` in both cases: before such a field the mode is set to `XML_SMODE_SKIP`, and it
stays so up to the end of the structure.

The walk is written once, and a `SerHandler` says what is done in one of the modes: the two handlers
`serializer` and `deserializer` give back the functions without flags.

Each function skips a field by an addition of its own to the pointer. The function for dynamic
arrays adds the size of the field twice, that for structures forgets the alignment, and the latter
does not know the mode `XML_SMODE_SKIP`.
-/

namespace Openwsman

open SerType SerResult Layout

/-! ## Flags -/

inductive SerMode where
  | serialize | deserialize | skip
  deriving DecidableEq, Repr

structure SerFlags where
  skip : Bool := false
  isIn : Bool := false
  isOut : Bool := false
  deriving DecidableEq, Repr

mutual

inductive FlagType where
  | basic (t : BasicType)
  | struct (items : FlagItems)

inductive FlagItems where
  | nil
  | cons (info : FieldInfo) (flags : SerFlags) (type : FlagType) (rest : FlagItems)

end

mutual

def FlagType.erase : FlagType → SerType
  | .basic t => .basic t
  | .struct items => .struct items.erase

def FlagItems.erase : FlagItems → SerItems
  | .nil => .nil
  | .cons info _ t rest => .cons info t.erase rest.erase

end

mutual

def SerType.unflagged : SerType → FlagType
  | .basic t => .basic t
  | .struct items => .struct items.unflagged

def SerItems.unflagged : SerItems → FlagItems
  | .nil => .nil
  | .cons info t rest => .cons info {} t.unflagged rest.unflagged

end

def mustBeSkipped (mode : SerMode) (flags : SerFlags) : Bool :=
  mode == .skip || (mode == .serialize && flags.isOut) || (mode == .deserialize && flags.isIn)

def SerFlags.modeAfter (flags : SerFlags) (mode : SerMode) : SerMode :=
  if flags.skip then .skip else mode

/-! ## Handlers -/

structure ArrayPlan (κ : Type) where
  count : ℕ
  base : ℕ
  ctx : κ

/-- What is done in a mode: at an element of a basic type, behind the last of them, at the start and
at the end of an element of a structure, and at a dynamic array. The context is the memory that is
read or the node whose children are. -/
structure SerHandler (κ α : Type) where
  mode : SerMode
  leaf : Option String → String → BasicType → κ → ℕ → ℕ → SerResult (List α)
  last : Option String → String → ℕ → κ → SerResult Unit
  enter : Option String → String → κ → ℕ → SerResult κ
  leave : Option String → String → List α → List α
  array : FieldInfo → κ → ℕ → SerResult (ArrayPlan κ)
  finish : ℕ → ℕ → List α → List α

def serializer (lx : Libxml) : SerHandler Memory WsXmlNode where
  mode := .serialize
  leaf ns name t mem _ a := writeLeaf lx ns name t mem a
  last _ _ _ _ := .ok ()
  enter _ _ mem _ := .ok mem
  leave ns name fields := [.element ns name [] fields]
  array info mem start :=
    (dynAt mem start).bind fun dyn ↦
      if !info.inBounds dyn.1 then .error wsErrXmlParsing else .ok ⟨dyn.1, dyn.2.1, dyn.2.2⟩
  finish _ _ out := out

def deserializer : SerHandler WsXmlNode (ℕ × Word) where
  mode := .deserialize
  leaf ns name t parent := childAt parent ns name (storeLeaf t)
  last ns name count parent :=
    if (wsXmlGetChild (some parent) count ns (some name)).isSome then .error wsErrXmlParsing
    else .ok ()
  enter ns name parent index := childAt parent ns name (fun child _ ↦ .ok child) index 0
  leave _ _ fields := fields
  array info parent _ :=
    let count := (parent.childrenNamed info.ns (some info.name)).length
    if !info.inBounds count then .error wsErrXmlParsing
    else if count ≠ 0 ∧ toCInt (dynSize * count) < 0 then .error wsErrInsufficientResources
    else .ok ⟨count, 0, parent⟩
  finish start count out := [(start, .dyn count 0 (toCInt (dynSize * count)).toNat out)]

/-! ## Skipping a field -/

section

variable {α : Type}

def skipBasic (t : BasicType) (count buf stopper : ℕ) : SerResult (Walked α) :=
  let start := alignUp buf t.size
  let all := toCInt (t.size * count)
  let ret := if t.isInteger && decide (all < 0) then all else all + padding buf t.size
  if (stopper : ℤ) < start + all then .error wsErrInvalidParameter
  else if ret < 0 then .error ret
  else .ok ⟨ret, (start + all).toNat, []⟩

def skipStruct (size : ℕ) (head : Bool) (count buf stopper : ℕ) : SerResult (Walked α) :=
  let ret := toCInt (if padding buf structAlign ≠ 0 ∨ head then size else size * count)
  if (stopper : ℤ) < buf + ret then .error wsErrInvalidParameter
  else if ret < 0 then .error ret
  else .ok ⟨ret, (buf + ret).toNat, []⟩

/-- A dynamic array is skipped: its size is added here, and once more at the end of the function. -/
def skipDyn (buf stopper : ℕ) : SerResult (Walked α) :=
  let start := alignUp buf structAlign
  let ret : ℤ := dynSize + padding buf structAlign
  if stopper < start + dynSize then .error wsErrInvalidParameter
  else .ok ⟨ret, start + dynSize + dynSize, []⟩

end

/-! ## The walk -/

section

variable {κ α : Type} (H : SerHandler κ α)

def walkBasic (mode : SerMode) (ns : Option String) (name : String) (flags : SerFlags)
    (t : BasicType) (count : ℕ) (ctx : κ) (buf stopper : ℕ) : SerResult (Walked α) :=
  if mustBeSkipped mode flags then skipBasic t count buf stopper
  else
    (doSerializeBasic t (H.leaf ns name t ctx) count buf stopper).bind fun walked ↦
      (H.last ns name count ctx).map fun _ ↦ walked

def walkStruct (mode : SerMode) (ns : Option String) (name : String) (flags : SerFlags)
    (head : Bool) (index size : ℕ) (fields : κ → ℕ → ℕ → SerResult (List α)) (count : ℕ) (ctx : κ)
    (buf stopper : ℕ) : SerResult (Walked α) :=
  if mode = .skip then .error wsErrInvalidParameter
  else if mustBeSkipped mode flags then skipStruct size head count buf stopper
  else
    doSerializeStruct size
      (fun ret i a ↦ (H.enter ns name ctx i).bind fun child ↦
        (if 0 < ret then fields child a (a + size) else .ok []).map (H.leave ns name))
      head index count buf stopper

def walkDyn (mode : SerMode) (info : FieldInfo) (flags : SerFlags)
    (proc : ℕ → κ → ℕ → ℕ → SerResult (Walked α)) (ctx : κ) (buf stopper : ℕ) :
    SerResult (Walked α) :=
  let start := alignUp buf structAlign
  let ret : ℤ := dynSize + padding buf structAlign
  if mustBeSkipped mode flags then skipDyn buf stopper
  else if stopper < start + dynSize then .error wsErrInvalidParameter
  else
    (H.array info ctx start).bind fun plan ↦
      if plan.count = 0 then .ok ⟨ret, start + dynSize, H.finish start 0 []⟩
      else
        (proc plan.count plan.ctx plan.base
          (plan.base + toUInt (dynSize * plan.count))).bind fun walked ↦
            .ok ⟨ret, start + dynSize, H.finish start plan.count walked.out⟩

mutual

def FlagType.walk (mode : SerMode) (ns : Option String) (name : String) (flags : SerFlags)
    (head : Bool) (index : ℕ) : FlagType → ℕ → κ → ℕ → ℕ → SerResult (Walked α)
  | .basic t, count, ctx, buf, stopper => walkBasic H mode ns name flags t count ctx buf stopper
  | .struct items, count, ctx, buf, stopper =>
    walkStruct H mode ns name flags head index (SerType.struct items.erase).size (items.walk mode)
      count ctx buf stopper

/-- The loop over the fields of a structure. The elements of a dynamic array are described by an
entry of their own, without flags. -/
def FlagItems.walk : SerMode → FlagItems → κ → ℕ → ℕ → SerResult (List α)
  | _, .nil, _, _, _ => .ok []
  | mode, .cons info flags t rest, ctx, buf, stopper =>
    (if info.dynamic then
        walkDyn H (flags.modeAfter mode) info flags
          (t.walk (flags.modeAfter mode) info.ns info.name {} false 0) ctx buf stopper
      else t.walk (flags.modeAfter mode) info.ns info.name flags false 0 info.count ctx buf
        stopper).bind fun field ↦
      (rest.walk (flags.modeAfter mode) ctx field.buf stopper).map (field.out ++ ·)

end

end

def wsSerializeFlags (lx : Libxml) (info : FieldInfo) (t : FlagType) (mem : Memory) (dataPtr : ℕ) :
    SerResult (Walked WsXmlNode) :=
  if info.dynamic then
    walkDyn (serializer lx) .serialize info {}
      (t.walk (serializer lx) .serialize info.ns info.name {} false 0) mem dataPtr
      (dataPtr + dynSize)
  else
    t.walk (serializer lx) .serialize info.ns info.name {} true 0 info.count mem dataPtr
      (dataPtr + t.erase.size)

def wsDeserializeFlags (info : FieldInfo) (t : FlagType) (xmlParent : WsXmlNode) (index : ℕ) :
    CResult (Option Memory) :=
  if toCInt (if info.dynamic then dynSize else t.erase.size : ℕ) < 0 then .value none
  else
    returnedMemory
      (if info.dynamic then
        walkDyn deserializer .deserialize info {}
          (t.walk deserializer .deserialize info.ns info.name {} false 0) xmlParent 0 dynSize
      else
        t.walk deserializer .deserialize info.ns info.name {} true index info.count xmlParent 0
          t.erase.size)

/-! ## Types without flags -/

theorem erase_unflagged :
    (∀ t : SerType, t.unflagged.erase = t) ∧ ∀ items : SerItems, items.unflagged.erase = items := by
  refine induction ?_ ?_ ?_ ?_
  · intro t
    rfl
  · intro items ih
    rw [unflagged, FlagType.erase, ih]
  · rfl
  · intro info t rest ht hrest
    rw [SerItems.unflagged, FlagItems.erase, ht, hrest]

theorem mustBeSkipped_of_no_flags {mode : SerMode} (h : mode ≠ .skip) :
    mustBeSkipped mode {} = false := by
  cases mode <;> first | rfl | exact absurd rfl h

variable (lx : Libxml) (info : FieldInfo)

theorem walkDyn_serializer (proc : ℕ → Memory → ℕ → ℕ → SerResult (Walked WsXmlNode)) (mem : Memory)
    (buf stopper : ℕ) :
    walkDyn (serializer lx) .serialize info {} proc mem buf stopper =
      serializeDyn info proc mem buf stopper := by
  rw [walkDyn, mustBeSkipped_of_no_flags (by decide), if_neg Bool.false_ne_true, serializeDyn]
  refine if_congr Iff.rfl rfl ?_
  rw [serializer]
  dsimp only [dynAt]
  rcases mem.lookup (alignUp buf structAlign) with _ | ⟨_ | _ | ⟨count, base, size, cells⟩⟩
  · rfl
  · rfl
  · rfl
  dsimp only [SerResult.bind]
  rcases info.inBounds count with _ | _ <;> rfl

/-- The handler for serializing gives back the functions without flags. -/
theorem walk_serializer :
    (∀ (t : SerType) ns name head count mem buf stopper,
      t.unflagged.walk (serializer lx) .serialize ns name {} head 0 count mem buf stopper =
        t.serialize lx ns name head count mem buf stopper) ∧
    ∀ (items : SerItems) mem buf stopper,
      items.unflagged.walk (serializer lx) .serialize mem buf stopper =
        items.serialize lx mem buf stopper := by
  refine induction ?_ ?_ ?_ ?_
  · intro t ns name head count mem buf stopper
    rw [unflagged, FlagType.walk, walkBasic, mustBeSkipped_of_no_flags (by decide),
      if_neg Bool.false_ne_true, serialize]
    exact bind_ok _
  · intro items ih ns name head count mem buf stopper
    rw [unflagged, FlagType.walk, walkStruct, mustBeSkipped_of_no_flags (by decide),
      if_neg (by decide), if_neg Bool.false_ne_true, serialize, erase_unflagged.2 items,
      size]
    congr
    funext ret i a
    have henter : (serializer lx).enter ns name mem i = .ok mem := rfl
    rw [henter, ok_bind, ih]
    rfl
  · intro mem buf stopper
    rfl
  intro info t rest ht hrest mem buf stopper
  have hproc : t.unflagged.walk (serializer lx) .serialize info.ns info.name {} false 0 =
      t.serialize lx info.ns info.name false := by
    funext count mem buf stopper
    exact ht info.ns info.name false count mem buf stopper
  rw [SerItems.unflagged, FlagItems.walk, SerItems.serialize]
  change (if info.dynamic then walkDyn (serializer lx) .serialize info {}
      (t.unflagged.walk (serializer lx) .serialize info.ns info.name {} false 0) mem buf stopper
    else t.unflagged.walk (serializer lx) .serialize info.ns info.name {} false 0 info.count mem
      buf stopper).bind (fun field ↦ (rest.unflagged.walk (serializer lx) .serialize mem field.buf
        stopper).map (field.out ++ ·)) = _
  rw [hproc, walkDyn_serializer]
  simp only [hrest]

theorem walkDyn_deserializer (proc : ℕ → WsXmlNode → ℕ → ℕ → SerResult (Walked (ℕ × Word)))
    (parent : WsXmlNode) (buf stopper : ℕ) :
    walkDyn deserializer .deserialize info {} proc parent buf stopper =
      deserializeDyn info (fun count ↦ proc count parent) parent buf stopper := by
  rw [walkDyn, mustBeSkipped_of_no_flags (by decide), if_neg Bool.false_ne_true, deserializeDyn]
  refine if_congr Iff.rfl rfl ?_
  rw [deserializer]
  dsimp only
  generalize (parent.childrenNamed info.ns (some info.name)).length = count
  rcases info.inBounds count with _ | _
  · rfl
  by_cases hcount : count = 0
  · subst hcount
    rfl
  · by_cases hneg : toCInt (dynSize * count) < 0 <;> simp [hcount, hneg, SerResult.bind]

theorem walk_deserializer :
    (∀ (t : SerType) ns name head index count parent buf stopper,
      t.unflagged.walk deserializer .deserialize ns name {} head index count parent buf stopper =
        t.deserialize ns name head index count parent buf stopper) ∧
    ∀ (items : SerItems) parent buf stopper,
      items.unflagged.walk deserializer .deserialize parent buf stopper =
        items.deserialize parent buf stopper := by
  refine induction ?_ ?_ ?_ ?_
  · intro t ns name head index count parent buf stopper
    rw [unflagged, FlagType.walk, walkBasic, mustBeSkipped_of_no_flags (by decide),
      if_neg Bool.false_ne_true, deserialize]
    refine congrArg _ (funext fun walked ↦ ?_)
    rw [deserializer]
    dsimp only
    split <;> rfl
  · intro items ih ns name head index count parent buf stopper
    rw [unflagged, FlagType.walk, walkStruct, mustBeSkipped_of_no_flags (by decide),
      if_neg (by decide), if_neg Bool.false_ne_true, deserialize, erase_unflagged.2 items,
      size]
    congr
    funext ret i a
    change (childAt parent ns name (fun child _ ↦ .ok child) i 0).bind (fun child ↦
      (if 0 < ret then items.unflagged.walk deserializer .deserialize child a
        (a + alignUp (items.extent 0) items.align) else .ok []).bind fun fields ↦ .ok fields) = _
    rw [childAt, childAt]
    split
    · rfl
    · rw [ok_bind, bind_ok, ih]
  · intro parent buf stopper
    rfl
  intro info t rest ht hrest parent buf stopper
  have hproc : t.unflagged.walk deserializer .deserialize info.ns info.name {} false 0 =
      t.deserialize info.ns info.name false 0 := by
    funext count parent buf stopper
    exact ht info.ns info.name false 0 count parent buf stopper
  rw [SerItems.unflagged, FlagItems.walk, SerItems.deserialize]
  change (if info.dynamic then walkDyn deserializer .deserialize info {}
      (t.unflagged.walk deserializer .deserialize info.ns info.name {} false 0) parent buf stopper
    else t.unflagged.walk deserializer .deserialize info.ns info.name {} false 0 info.count parent
      buf stopper).bind (fun field ↦ (rest.unflagged.walk deserializer .deserialize parent
        field.buf stopper).map (field.out ++ ·)) = _
  rw [hproc, walkDyn_deserializer]
  simp only [hrest]

theorem wsSerializeFlags_unflagged (t : SerType) (mem : Memory) (dataPtr : ℕ) :
    wsSerializeFlags lx info t.unflagged mem dataPtr = wsSerialize lx info t mem dataPtr := by
  have hproc : t.unflagged.walk (serializer lx) .serialize info.ns info.name {} false 0 =
      t.serialize lx info.ns info.name false := by
    funext count mem buf stopper
    exact (walk_serializer lx).1 t info.ns info.name false count mem buf stopper
  rw [wsSerializeFlags, wsSerialize, hproc, walkDyn_serializer, (walk_serializer lx).1 t,
    erase_unflagged.1 t]

theorem wsDeserializeFlags_unflagged (t : SerType) (xmlParent : WsXmlNode) (index : ℕ) :
    wsDeserializeFlags info t.unflagged xmlParent index = wsDeserialize info t xmlParent index := by
  have hproc : t.unflagged.walk deserializer .deserialize info.ns info.name {} false 0 =
      t.deserialize info.ns info.name false 0 := by
    funext count parent buf stopper
    exact walk_deserializer.1 t info.ns info.name false 0 count parent buf stopper
  rw [wsDeserializeFlags, wsDeserialize_eq, hproc, walkDyn_deserializer, walk_deserializer.1 t,
    erase_unflagged.1 t]

end Openwsman
