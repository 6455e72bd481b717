import Openwsman.Serialize.Flags

/-!
# What skipping a field changes

A structure is split at one of its fields: the walk over it is the walk over the fields before, over
the field, and over the fields behind it (`walk_append`). A flag with which the field is skipped
takes what was made of the field out of the result and leaves the rest, if the field is skipped
cleanly: when it is the last one of its structure, because the pointer is set anew behind a
structure, and otherwise for `SER_IN` and `SER_OUT` when it is of a basic type or when it has
structures and the pointer already is a multiple of eight.
-/

namespace Openwsman

open Nat

open SerResult

open Layout

inductive SkipFlag where
  | skip | isIn | isOut
  deriving DecidableEq, Repr

namespace SkipFlag

def flags : SkipFlag → SerFlags
  | skip => { skip := true }
  | isIn => { isIn := true }
  | isOut => { isOut := true }

def skipsIn : SkipFlag → SerMode → Bool
  | skip, _ => true
  | isIn, mode => mode == .deserialize
  | isOut, mode => mode == .serialize

theorem mustBeSkipped_flags {mode : SerMode} (flag : SkipFlag) (hmode : mode ≠ .skip) :
    mustBeSkipped (flag.flags.modeAfter mode) flag.flags = flag.skipsIn mode := by
  rcases flag <;> rcases mode <;> first | rfl | exact absurd rfl hmode

theorem modeAfter_flags {flag : SkipFlag} (h : flag ≠ skip) (mode : SerMode) :
    flag.flags.modeAfter mode = mode := by
  rcases flag <;> first | rfl | exact absurd rfl h

end SkipFlag

theorem SerResult.bind_assoc {α β γ : Type} (r : SerResult α) (f : α → SerResult β)
    (g : β → SerResult γ) : (r.bind f).bind g = r.bind fun a ↦ (f a).bind g := by
  rcases r with a | code | _ <;> rfl

/-! ## A structure that is split at a field -/

section

variable {κ α : Type} (H : SerHandler κ α)

def walkField (mode : SerMode) (info : FieldInfo) (flags : SerFlags) (t : FlagType) (ctx : κ)
    (buf stopper : ℕ) : SerResult (Walked α) :=
  if info.dynamic then
    walkDyn H mode info flags (t.walk H mode info.ns info.name {} false 0) ctx buf stopper
  else t.walk H mode info.ns info.name flags false 0 info.count ctx buf stopper

structure Reached (α : Type) where
  mode : SerMode
  buf : ℕ
  out : List α

namespace FlagItems

def append : FlagItems → FlagItems → FlagItems
  | .nil, post => post
  | .cons info flags t rest, post => .cons info flags t (rest.append post)

def reach : SerMode → FlagItems → κ → ℕ → ℕ → SerResult (Reached α)
  | mode, .nil, _, buf, _ => .ok ⟨mode, buf, []⟩
  | mode, .cons info flags t rest, ctx, buf, stopper =>
    (walkField H (flags.modeAfter mode) info flags t ctx buf stopper).bind fun field ↦
      (rest.reach (flags.modeAfter mode) ctx field.buf stopper).map fun s ↦
        { s with out := field.out ++ s.out }

theorem walk_cons (mode : SerMode) (info : FieldInfo) (flags : SerFlags) (t : FlagType)
    (rest : FlagItems) (ctx : κ) (buf stopper : ℕ) :
    (FlagItems.cons info flags t rest).walk H mode ctx buf stopper =
      (walkField H (flags.modeAfter mode) info flags t ctx buf stopper).bind fun field ↦
        (rest.walk H (flags.modeAfter mode) ctx field.buf stopper).map (field.out ++ ·) := by
  rw [walk]
  rfl

theorem walk_append (post : FlagItems) (ctx : κ) (stopper : ℕ) :
    ∀ (pre : FlagItems) (mode : SerMode) (buf : ℕ),
      (pre.append post).walk H mode ctx buf stopper =
        (pre.reach H mode ctx buf stopper).bind fun s ↦
          (post.walk H s.mode ctx s.buf stopper).map (s.out ++ ·)
  | .nil, mode, buf => (bind_ok _).symm
  | .cons info flags t rest, mode, buf => by
    rw [append, walk_cons, reach, bind_assoc]
    refine congrArg _ (funext fun field ↦ ?_)
    rw [walk_append post ctx stopper rest, map, map, bind_assoc, bind_assoc]
    refine congrArg _ (funext fun s ↦ ?_)
    rw [map, bind_assoc]
    simp only [ok_bind, List.append_assoc, map]

theorem mode_of_reach {ctx : κ} {stopper : ℕ} {s : Reached α} :
    ∀ {pre : FlagItems} {mode : SerMode} {buf : ℕ},
      pre.reach H mode ctx buf stopper = .ok s → s.mode = mode ∨ s.mode = .skip
  | .nil, mode, buf, h => by
    cases h
    exact .inl rfl
  | .cons info flags t rest, mode, buf, h => by
    obtain ⟨field, -, hrest⟩ := bind_eq_ok.mp h
    obtain ⟨s', hs', rfl⟩ := map_eq_ok.mp hrest
    rcases mode_of_reach hs' with hmode | hmode
    · rw [SerFlags.modeAfter] at hmode
      split at hmode
      · exact .inr hmode
      · exact .inl hmode
    · exact .inr hmode

theorem erase_append (info : FieldInfo) (flags flags' : SerFlags) (t : FlagType)
    (rest : FlagItems) : ∀ pre : FlagItems,
      (pre.append (.cons info flags t rest)).erase = (pre.append (.cons info flags' t rest)).erase
  | .nil => rfl
  | .cons _ _ _ before => by
    rw [append, append, erase, erase, erase_append info flags flags' t rest]

end FlagItems

structure SplitWalk (mode : SerMode) (pre : FlagItems) (info : FieldInfo) (t : FlagType)
    (rest : FlagItems) (ctx : κ) (buf stopper : ℕ) (s : Reached α) (w : Walked α)
    (behind : List α) : Prop where
  before : pre.reach H mode ctx buf stopper = .ok s
  field : walkField H s.mode info {} t ctx s.buf stopper = .ok w
  rest : rest.walk H s.mode ctx w.buf stopper = .ok behind

/-! ## A field that is skipped -/

/-- A field, with the fields behind it, at which a flag makes no other difference when the pointer
is at an address. -/
def CleanlySkipped (flag : SkipFlag) (info : FieldInfo) (t : FlagType) (rest : FlagItems) (b : ℕ) :
    Prop :=
  (rest = .nil ∧ (flag = .skip → info.dynamic = true ∨ t.erase.isBasic = true)) ∨
  (flag ≠ .skip ∧ info.dynamic = false ∧ info.count * t.erase.size < 2 ^ 31 ∧
    (t.erase.isBasic = true ∨ structAlign ∣ b))

theorem checks_of_ok {c d : Prop} [Decidable c] [Decidable d] {code code' ret : ℤ} {buf : ℕ}
    {r : SerResult (List α)} {w : Walked α}
    (h : (if c then .error code else r.bind fun out ↦
      if d then .error code' else .ok ⟨ret, buf, out⟩ : SerResult (Walked α)) = .ok w)
    (w' : Walked α) :
    (if c then .error code else if d then .error code' else .ok w' : SerResult (Walked α)) =
      .ok w' := by
  split at h
  · cases h
  next hc =>
  obtain ⟨out, -, hout⟩ := bind_eq_ok.mp h
  split at hout
  · cases hout
  · next hd => rw [if_neg hc, if_neg hd]

variable {count : ℕ} {w : Walked α}

variable {buf stopper : ℕ} {info : FieldInfo} {mode : SerMode} {ctx : κ}

theorem exists_skipBasic {t : BasicType} {element : ℕ → ℕ → SerResult (List α)}
    (h : doSerializeBasic t element count buf stopper = .ok w) :
    ∃ w' : Walked α, skipBasic t count buf stopper = .ok w' ∧ w'.out = [] ∧
      (count * t.size < 2 ^ 31 → w'.buf = w.buf) := by
  have hbuf := (doSerializeBasic_eq_ok h).2
  rw [doSerializeBasic] at h
  rw [skipBasic]
  refine ⟨_, checks_of_ok h _, rfl, fun hsmall ↦ ?_⟩
  have hall : toCInt (t.size * count) = (count * t.size : ℕ) := by
    rw [← cast_mul, mul_comm]
    exact toCInt_natCast hsmall
  rw [hbuf]
  dsimp only
  rw [hall]
  omega

theorem exists_skipStruct {size : ℕ} {element : ℤ → ℕ → ℕ → SerResult (List α)}
    (h : doSerializeStruct size element false 0 count buf stopper = .ok w) :
    ∃ w' : Walked α, skipStruct size false count buf stopper = .ok w' ∧ w'.out = [] ∧
      (structAlign ∣ buf → count * size < 2 ^ 31 → w'.buf = w.buf) := by
  have hbuf := doSerializeStruct_eq_ok h
  rw [doSerializeStruct] at h
  rw [skipStruct]
  refine ⟨_, checks_of_ok h _, rfl, fun hdvd hsmall ↦ ?_⟩
  have hret : toCInt (if padding buf structAlign ≠ 0 ∨ (false : Bool) = true then (size : ℤ)
      else size * count) = (count * size : ℕ) := by
    rw [if_neg (by simp [padding_of_dvd hdvd]), ← cast_mul, mul_comm]
    exact toCInt_natCast hsmall
  rw [hbuf, alignUp_of_dvd hdvd]
  dsimp only
  rw [hret, if_neg Bool.false_ne_true]
  omega

theorem exists_skipDyn (hmode : mode ≠ .skip) {proc : ℕ → κ → ℕ → ℕ → SerResult (Walked α)}
    (h : walkDyn H mode info {} proc ctx buf stopper = .ok w) :
    ∃ w' : Walked α, skipDyn buf stopper = .ok w' ∧ w'.out = [] := by
  rw [walkDyn, mustBeSkipped_of_no_flags hmode, if_neg Bool.false_ne_true] at h
  rw [skipDyn]
  split at h
  · cases h
  · next hroom => exact ⟨_, if_neg hroom, rfl⟩

theorem exists_walkField_flag {flag : SkipFlag} (hmode : mode ≠ .skip)
    (hskips : flag.skipsIn mode = true) {t : FlagType} {rest : FlagItems} {b stopper : ℕ}
    (hclean : CleanlySkipped flag info t rest b)
    (h : walkField H mode info {} t ctx b stopper = .ok w) :
    ∃ w', walkField H (flag.flags.modeAfter mode) info flag.flags t ctx b stopper = .ok w' ∧
      w'.out = [] ∧ (rest = .nil ∨ flag ≠ .skip ∧ w'.buf = w.buf) := by
  have hskip : mustBeSkipped (flag.flags.modeAfter mode) flag.flags = true := by
    rw [flag.mustBeSkipped_flags hmode, hskips]
  have hnone : ¬mustBeSkipped mode {} = true := by
    rw [mustBeSkipped_of_no_flags hmode]
    exact Bool.false_ne_true
  rw [walkField] at h ⊢
  split at h
  · next hdyn =>
    obtain ⟨w', hw', hout⟩ := exists_skipDyn H hmode h
    rw [if_pos hdyn, walkDyn, if_pos hskip]
    refine ⟨w', hw', hout, .inl ?_⟩
    rcases hclean with ⟨hrest, -⟩ | ⟨-, hstatic, -⟩
    · exact hrest
    · rw [hstatic] at hdyn
      cases hdyn
  · next hdyn =>
    rw [if_neg hdyn]
    rcases t with t | items
    · rw [FlagType.walk, walkBasic, if_neg hnone] at h
      obtain ⟨walked, hwalked, hlast⟩ := bind_eq_ok.mp h
      obtain ⟨-, -, rfl⟩ := map_eq_ok.mp hlast
      obtain ⟨w', hw', hout, hbuf⟩ := exists_skipBasic hwalked
      rw [FlagType.walk, walkBasic, if_pos hskip]
      refine ⟨w', hw', hout, ?_⟩
      rcases hclean with ⟨hrest, -⟩ | ⟨hflag, -, hsmall, -⟩
      · exact .inl hrest
      · exact .inr ⟨hflag, hbuf hsmall⟩
    · -- `SER_SKIP` is an error here
      have hflag : flag ≠ .skip := by
        rintro rfl
        rcases hclean with ⟨-, hlast⟩ | ⟨hflag, -⟩
        · rcases hlast rfl with hyes | hyes
          · exact hdyn hyes
          · cases hyes
        · exact hflag rfl
      rw [SkipFlag.modeAfter_flags hflag] at hskip ⊢
      rw [FlagType.walk, walkStruct, if_neg hmode, if_neg hnone] at h
      obtain ⟨w', hw', hout, hbuf⟩ := exists_skipStruct h
      rw [FlagType.walk, walkStruct, if_neg hmode, if_pos hskip]
      refine ⟨w', hw', hout, ?_⟩
      rcases hclean with ⟨hrest, -⟩ | ⟨-, -, hsmall, hbasic | hdvd⟩
      · exact .inl hrest
      · cases hbasic
      · exact .inr ⟨hflag, hbuf hdvd hsmall⟩

theorem walkField_congr {flags flags' : SerFlags}
    (h : mustBeSkipped mode flags = mustBeSkipped mode flags') (info : FieldInfo) (t : FlagType)
    (ctx : κ) (buf stopper : ℕ) :
    walkField H mode info flags t ctx buf stopper =
      walkField H mode info flags' t ctx buf stopper := by
  rw [walkField, walkField]
  refine if_congr Iff.rfl ?_ ?_
  · rw [walkDyn, walkDyn, h]
  · rcases t with t | items
    · rw [FlagType.walk, FlagType.walk, walkBasic, walkBasic, h]
    · rw [FlagType.walk, FlagType.walk, walkStruct, walkStruct, h]

theorem out_of_walkField_skip {flags : SerFlags} {t : FlagType}
    (h : walkField H .skip info flags t ctx buf stopper = .ok w) :
    w.out = [] := by
  have hskip : mustBeSkipped .skip flags = true := rfl
  rw [walkField] at h
  split at h
  · rw [walkDyn, if_pos hskip, skipDyn] at h
    split at h
    · cases h
    · cases h
      rfl
  · rcases t with t | items
    · rw [FlagType.walk, walkBasic, if_pos hskip, skipBasic] at h
      generalize toCInt (t.size * info.count) = all at h
      generalize (if t.isInteger && decide (all < 0) then all else all + padding buf t.size) = ret
        at h
      split at h
      · cases h
      split at h
      · cases h
      · cases h
        rfl
    · rw [FlagType.walk, walkStruct, if_pos rfl] at h
      cases h

/-! ## The fields of a structure -/

section

variable {flag : SkipFlag} {mode : SerMode} {pre rest : FlagItems} {info : FieldInfo}
  {t : FlagType} {ctx : κ} {buf stopper : ℕ}

theorem FlagItems.walk_flag_eq (hmode : mode ≠ .skip) (hskips : flag.skipsIn mode = false) :
    (pre.append (.cons info flag.flags t rest)).walk H mode ctx buf stopper =
      (pre.append (.cons info {} t rest)).walk H mode ctx buf stopper := by
  have hflag : flag ≠ .skip := by
    rintro rfl
    cases hskips
  rw [walk_append, walk_append]
  refine bind_congr_of_ok fun s hs ↦ ?_
  have hsame : mustBeSkipped s.mode flag.flags = mustBeSkipped s.mode {} := by
    rcases mode_of_reach H hs with hs | hs
    · have hskip := flag.mustBeSkipped_flags hmode
      rw [SkipFlag.modeAfter_flags hflag] at hskip
      rw [hs, hskip, hskips, mustBeSkipped_of_no_flags hmode]
    · rw [hs]
      rfl
  rw [walk_cons, walk_cons, SkipFlag.modeAfter_flags hflag, walkField_congr H hsame]
  rfl

theorem FlagItems.exists_splitWalk {out : List α}
    (h : (pre.append (.cons info {} t rest)).walk H mode ctx buf stopper = .ok out) :
    ∃ s w behind, SplitWalk H mode pre info t rest ctx buf stopper s w behind ∧
      out = s.out ++ (w.out ++ behind) := by
  rw [walk_append] at h
  obtain ⟨s, hs, hpost⟩ := bind_eq_ok.mp h
  obtain ⟨more, hmore, rfl⟩ := map_eq_ok.mp hpost
  rw [walk_cons] at hmore
  obtain ⟨w, hw, hrest⟩ := bind_eq_ok.mp hmore
  obtain ⟨behind, hbehind, rfl⟩ := map_eq_ok.mp hrest
  exact ⟨s, w, behind, ⟨hs, hw, hbehind⟩, rfl⟩

theorem SplitWalk.walk_flag {s : Reached α} {w : Walked α} {behind : List α}
    (h : SplitWalk H mode pre info t rest ctx buf stopper s w behind) (hmode : mode ≠ .skip)
    (hskips : flag.skipsIn mode = true) (hclean : CleanlySkipped flag info t rest s.buf) :
    (pre.append (.cons info flag.flags t rest)).walk H mode ctx buf stopper =
      .ok (s.out ++ behind) := by
  rw [FlagItems.walk_append, h.before, ok_bind, FlagItems.walk_cons]
  have hfield := h.field
  have hrest := h.rest
  rcases FlagItems.mode_of_reach H h.before with hs | hs
  · rw [hs] at hfield hrest ⊢
    obtain ⟨w', hw', hout, hnext⟩ := exists_walkField_flag H hmode hskips hclean hfield
    rw [hw', ok_bind, hout]
    rcases hnext with rfl | ⟨hflag, hbuf⟩
    · cases hrest
      rfl
    · rw [SkipFlag.modeAfter_flags hflag, hbuf, hrest]
      rfl
  · rw [hs] at hfield hrest ⊢
    have hskip : flag.flags.modeAfter .skip = .skip := by
      rcases flag <;> rfl
    have hsame : mustBeSkipped .skip flag.flags = mustBeSkipped .skip {} := rfl
    rw [hskip, walkField_congr H hsame, hfield, ok_bind, hrest, out_of_walkField_skip H hfield]
    rfl

end

theorem walkStruct_head_eq_ok {ns : Option String} {name : String} {index size : ℕ}
    {fields : κ → ℕ → ℕ → SerResult (List α)} (hmode : mode ≠ .skip) {ret : ℤ}
    (hret : toCInt size = ret) (hpos : 0 < ret) :
    walkStruct H mode ns name {} true index size fields count ctx buf stopper = .ok w ↔
      buf + ret ≤ stopper ∧ ∃ child out, H.enter ns name ctx index = .ok child ∧
        fields child (alignUp buf structAlign) (alignUp buf structAlign + size) = .ok out ∧
        w = ⟨ret, alignUp buf structAlign + size, H.leave ns name out⟩ := by
  have hnone : ¬mustBeSkipped mode {} = true := by
    rw [mustBeSkipped_of_no_flags hmode]
    exact Bool.false_ne_true
  rw [walkStruct, if_neg hmode, if_neg hnone, doSerializeStruct]
  have hneg : ¬ret < 0 := by omega
  simp only [or_true, if_true, one_mul, hret, if_pos hpos, if_neg hneg, eachElement]
  by_cases hroom : (stopper : ℤ) < buf + ret
  · rw [if_pos hroom]
    refine iff_of_false (fun h ↦ by cases h) fun h ↦ ?_
    have hle := h.1
    omega
  · rw [if_neg hroom, and_iff_right (by omega)]
    constructor
    · intro h
      obtain ⟨all, hall, hw⟩ := bind_eq_ok.mp h
      obtain ⟨first, hfirst, hall⟩ := bind_eq_ok.mp hall
      obtain ⟨child, hchild, hfirst⟩ := bind_eq_ok.mp hfirst
      obtain ⟨out, hout, rfl⟩ := map_eq_ok.mp hfirst
      cases hall
      cases hw
      refine ⟨child, out, hchild, hout, ?_⟩
      exact congrArg (Walked.mk _ _) (List.append_nil _)
    · rintro ⟨child, out, hchild, hout, rfl⟩
      rw [hchild, ok_bind, hout]
      exact congrArg (fun out ↦ ok (Walked.mk _ _ out)) (List.append_nil _)

end

/-! ## Structures -/

section

variable {head : FieldInfo} (hdyn : head.dynamic = false) (D : FlagItems)

include hdyn

theorem wsSerializeFlags_struct (lx : Libxml) (mem : Memory) (dataPtr : ℕ) :
    wsSerializeFlags lx head (.struct D) mem dataPtr =
      walkStruct (serializer lx) .serialize head.ns head.name {} true 0
        (SerType.struct D.erase).size (D.walk (serializer lx) .serialize) head.count mem dataPtr
        (dataPtr + (SerType.struct D.erase).size) := by
  rw [wsSerializeFlags, if_neg (by simp [hdyn]), FlagType.walk]
  rfl

theorem wsDeserializeFlags_struct (parent : WsXmlNode) (index : ℕ) :
    wsDeserializeFlags head (.struct D) parent index =
      if toCInt (SerType.struct D.erase).size < 0 then .value none
      else
        returnedMemory (walkStruct deserializer .deserialize head.ns head.name {} true index
          (SerType.struct D.erase).size (D.walk deserializer .deserialize) head.count parent 0
          (SerType.struct D.erase).size) := by
  rw [wsDeserializeFlags, hdyn, if_neg Bool.false_ne_true, if_neg Bool.false_ne_true,
    FlagType.walk, FlagType.erase]

theorem wsDeserializeFlags_eq_some_iff {size : ℕ} (hsize : (SerType.struct D.erase).size = size)
    {ret : ℤ} (hret : toCInt size = ret) (hpos : 0 < ret) {parent : WsXmlNode} {index : ℕ}
    {m : Memory} :
    wsDeserializeFlags head (.struct D) parent index = .value (some m) ↔
      ∃ w, walkStruct deserializer .deserialize head.ns head.name {} true index size
        (D.walk deserializer .deserialize) head.count parent 0 size = .ok w ∧ w.out = m := by
  rw [wsDeserializeFlags_struct hdyn, hsize, hret, if_neg (not_lt.mpr hpos.le)]
  constructor
  · intro h
    rw [returnedMemory.eq_def] at h
    split at h
    · cases h
    · cases h
    next w hw =>
    refine ⟨w, hw, ?_⟩
    have hsome := CResult.value.inj h
    split at hsome
    · exact Option.some.inj hsome
    · cases hsome
  · rintro ⟨w, hw, rfl⟩
    rw [hw, returnedMemory]
    obtain ⟨-, child, out, -, -, hwalked⟩ :=
      (walkStruct_head_eq_ok deserializer (by decide) hret hpos).mp hw
    rw [hwalked]
    dsimp only
    rw [if_pos hpos]

end

abbrev FlagItems.withField (pre : FlagItems) (info : FieldInfo) (t : FlagType) (rest : FlagItems)
    (flags : SerFlags) : FlagItems := pre.append (.cons info flags t rest)

def notedItems (flags : SerFlags) : FlagItems :=
  FlagItems.withField (.cons { name := "First" } {} (.basic .uint8) .nil) { name := "Note" }
    (.basic .string) (.cons { name := "Second" } {} (.basic .uint8) .nil) flags

def notedMemory : Memory :=
  [(0, .int .uint8 1), (8, .str (some "one")), (16, .int .uint8 2)]

def listedItems (flags : SerFlags) : FlagItems :=
  FlagItems.withField .nil { name := "List", mincount := 0, count := 0, dynamic := true }
    (.basic .int32) (.cons { name := "Second" } {} (.basic .uint8) .nil) flags

def listedMemory : Memory := [(0, .dyn 0 0 0 []), (16, .int .uint8 2)]

end Openwsman
