import Openwsman.Lib.Layout
import Openwsman.Libc.Text

/-!
# Type descriptors

The arrays of `XmlSerializerInfo` by which the functions of `wsman-xml-serialize.c` walk through the
memory of a C structure. An entry describes a field: its element name, how many elements it has, and
a basic type or a structure. A field with the flag `dynamic` is an `XmlSerialiseDynamicSizeData`, a
number and a pointer to that many elements. The size in an entry is computed as the compiler does.
The flags that skip fields and the fields for attributes are not described.

A structure that has no pointer in it may start at an address that is no multiple of eight, but the
walk moves every structure to such an address. So there are two ways to place fields, which differ
in the alignment of structures only: `offsets` is given this alignment.
-/

namespace Openwsman

open Layout

/-! ## Types -/

inductive BasicType where
  | int8 | uint8 | int16 | uint16 | int32 | uint32 | int64 | uint64 | bool | string
  deriving DecidableEq, Repr

namespace BasicType

def size : BasicType → ℕ
  | int8 | uint8 => 1
  | int16 | uint16 => 2
  | int32 | uint32 | bool => 4
  | int64 | uint64 | string => 8

def isSigned : BasicType → Bool
  | int8 | int16 | int32 | int64 => true
  | _ => false

def isInteger : BasicType → Bool
  | bool | string => false
  | _ => true

def range : BasicType → ℤ × ℤ
  | int8 => (-2 ^ 7, 2 ^ 7 - 1)
  | uint8 => (0, 2 ^ 8 - 1)
  | int16 => (-2 ^ 15, 2 ^ 15 - 1)
  | uint16 => (0, 2 ^ 16 - 1)
  | int32 | bool => (-2 ^ 31, 2 ^ 31 - 1)
  | uint32 => (0, 2 ^ 32 - 1)
  | int64 => (-2 ^ 63, 2 ^ 63 - 1)
  | uint64 => (0, 2 ^ 64 - 1)
  | string => (0, 0)

theorem size_dvd (t : BasicType) : t.size ∣ 8 := by
  cases t <;> decide

theorem size_pos (t : BasicType) : 0 < t.size := by
  cases t <;> decide

theorem range_of_isSigned {t : BasicType} (h : t.isSigned = true) :
    -2 ^ 63 ≤ t.range.1 ∧ t.range.2 ≤ 2 ^ 63 - 1 := by
  revert h
  cases t <;> decide

theorem range_of_not_isSigned {t : BasicType} (ht : t.isInteger = true) (h : t.isSigned = false) :
    t.range.1 = 0 ∧ t.range.2 ≤ 2 ^ 64 - 1 := by
  revert ht h
  cases t <;> decide

end BasicType

/-- The part of an entry that is not the type of its elements. The numbers are bounds when the field
is dynamic, and then zero means that there is no upper one; otherwise both are the number of
elements. -/
structure FieldInfo where
  ns : Option String := none
  name : String
  mincount : ℕ := 1
  count : ℕ := 1
  dynamic : Bool := false
  deriving DecidableEq, Repr

mutual

inductive SerType where
  | basic (t : BasicType)
  | struct (items : SerItems)

/-- The entries for the fields of a structure, up to `SER_NULL`. -/
inductive SerItems where
  | nil
  | cons (info : FieldInfo) (type : SerType) (rest : SerItems)

end

/-! ## Layout -/

def structAlign : ℕ := 8

def dynSize : ℕ := 16

namespace FieldInfo

variable (info : FieldInfo)

def align (al : ℕ) : ℕ := if info.dynamic then 8 else al

def size (size : ℕ) : ℕ := if info.dynamic then dynSize else info.count * size

def offsets (f : ℕ → List ℕ) (size start : ℕ) : List ℕ :=
  if info.dynamic then [start] else places f size info.count start

end FieldInfo

mutual

def SerType.align : SerType → ℕ
  | .basic t => t.size
  | .struct items => items.align

def SerItems.align : SerItems → ℕ
  | .nil => 1
  | .cons info t rest => max (info.align t.align) rest.align

end

mutual

def SerType.size : SerType → ℕ
  | .basic t => t.size
  | .struct items => alignUp (items.extent 0) items.align

def SerItems.extent : SerItems → ℕ → ℕ
  | .nil, a => a
  | .cons info t rest, a => rest.extent (alignUp a (info.align t.align) + info.size t.size)

end

def SerType.alignBy (al : SerItems → ℕ) : SerType → ℕ
  | .basic t => t.size
  | .struct items => al items

mutual

def SerType.offsets (al : SerItems → ℕ) : SerType → ℕ → List ℕ
  | .basic _, a => [a]
  | .struct items, a => items.offsets al a

def SerItems.offsets (al : SerItems → ℕ) : SerItems → ℕ → List ℕ
  | .nil, _ => []
  | .cons info t rest, a =>
    let start := alignUp a (info.align (t.alignBy al))
    info.offsets (t.offsets al) t.size start ++ rest.offsets al (start + info.size t.size)

end

def walkAlign : SerItems → ℕ := fun _ ↦ structAlign

/-! ## Values -/

/-- What stands at an address. A pointer stands for what it points to: the address of the first
element, the number of bytes, and the memory. -/
inductive Word where
  | int (t : BasicType) (v : ℤ)
  | str (s : Option String)
  | dyn (count base size : ℕ) (cells : List (ℕ × Word))

abbrev Memory := List (ℕ × Word)

def BasicType.holds (t : BasicType) : Word → Bool
  | .int t' v => t' == t && t != .string && decide (t.range.1 ≤ v) && decide (v ≤ t.range.2)
  | .str _ => t == .string
  | .dyn .. => false

/-- The elements of a field. Those of a dynamic array are somewhere else, at an address that is good
for them. -/
structure FieldVal (info : FieldInfo) (al : ℕ) (α : Type) where
  elems : List α
  base : ℕ := 0
  length_eq : info.dynamic = false → elems.length = info.count
  aligned : info.dynamic = true → al ∣ base

mutual

@[reducible] def SerType.Val : SerType → Type
  | .basic t => {w : Word // t.holds w = true}
  | .struct items => items.Val

@[reducible] def SerItems.Val : SerItems → Type
  | .nil => Unit
  | .cons info t rest => FieldVal info t.align t.Val × rest.Val

end

def dynWord {α : Type} (size : ℕ) (offsets : ℕ → List ℕ) (words : α → List Word) (base : ℕ)
    (elems : List α) : Word :=
  .dyn elems.length base (elems.length * size)
    ((places offsets size elems.length base).zip (elems.flatMap words))

mutual

def SerType.words : (t : SerType) → t.Val → List Word
  | .basic _, w => [w.1]
  | .struct items, v => items.words v

def SerItems.words : (items : SerItems) → items.Val → List Word
  | .nil, _ => []
  | .cons info t rest, v =>
    (if info.dynamic then
        [dynWord t.size (t.offsets SerItems.align) t.words v.1.base v.1.elems]
      else v.1.elems.flatMap t.words) ++ rest.words v.2

end

def SerType.memory (t : SerType) (a : ℕ) (v : t.Val) : Memory :=
  (t.offsets SerItems.align a).zip (t.words v)

mutual

def SerType.copy : (t : SerType) → t.Val → t.Val
  | .basic _, w => w
  | .struct items, v => items.copy v

def SerItems.copy : (items : SerItems) → items.Val → items.Val
  | .nil, v => v
  | .cons _ t rest, v =>
    (⟨v.1.elems.map t.copy, 0, fun h ↦ by rw [List.length_map, v.1.length_eq h],
      fun _ ↦ dvd_zero _⟩, rest.copy v.2)

end

end Openwsman
