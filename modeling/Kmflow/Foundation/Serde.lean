import Kmflow.Foundation.Json
import Mathlib.Data.List.Nodup

/-!
# Derived serialisation

How derived code turns data into JSON values and back, with enumerations tagged from outside: a
structure is an object of its fields, a variant without data is its name, and a variant with data
is an object whose one member has the variant's name. A `Serde` is a pair of such functions, and
`Keeps` says of one value that it comes back.

Reading accepts more than writing makes. A structure can also be an array of its fields in order,
its members can stand in any order, members that are no fields are passed over, and an optional
field can be missing; what is not accepted is a field given twice (`fields`). A variant without data
can also come with the content `null` (`noContent`).
-/

open Json

/-- How the values of a type are written and read. -/
structure Serde (α : Type*) where
  encode : α → Json
  decode : Json → Option α

namespace Serde

variable {α : Type*} {c : Serde α}

/-- The value comes back. -/
def Keeps (c : Serde α) (a : α) : Prop := c.decode (c.encode a) = some a

/-- What keeps a value decodes it from its encoding. -/
theorem Keeps.decode_encode {a : α} (h : c.Keeps a) : c.decode (c.encode a) = some a := h

/-! ### Bytes -/

/-- `to_vec`. -/
def toVec (c : Serde α) (a : α) : List UInt8 := toBytes (c.encode a)

/-- `from_slice`. -/
def fromSlice (c : Serde α) (bytes : List UInt8) : Option α := (ofBytes bytes).bind c.decode

/-- **Through the bytes nothing is lost or gained**: the value read back is that of the tree. -/
@[simp] theorem fromSlice_toVec (c : Serde α) (a : α) :
    c.fromSlice (c.toVec a) = c.decode (c.encode a) := by
  rw [fromSlice, toVec, ofBytes_toBytes, Option.bind_some]

/-! ### Numbers, strings and lists -/

/-- An unsigned machine integer. -/
def unsigned (size : ℕ) (toNat : α → ℕ) (ofNat : ℕ → α) : Serde α where
  encode a := .number (.ofNat (toNat a))
  decode
    | .number n => n.natural?.bind fun k ↦ if k < size then some (ofNat k) else none
    | _ => none

/-- A number is kept as long as it is below the size of its type. -/
theorem keeps_unsigned {size : ℕ} {toNat : α → ℕ} {ofNat : ℕ → α} {a : α} (hlt : toNat a < size)
    (hofNat : ofNat (toNat a) = a) : (unsigned size toNat ofNat).Keeps a := by
  simp only [Keeps, unsigned, Number.natural?_ofNat, Option.bind_some, if_pos hlt, hofNat]

/-- An `u8` as a number. -/
def u8 : Serde UInt8 := unsigned (2 ^ 8) UInt8.toNat UInt8.ofNat

/-- An `u32` as a number. -/
def u32 : Serde UInt32 := unsigned (2 ^ 32) UInt32.toNat UInt32.ofNat

/-- An `u64` as a number. -/
def u64 : Serde UInt64 := unsigned (2 ^ 64) UInt64.toNat UInt64.ofNat

/-- Every `u8` comes back. -/
@[simp] theorem keeps_u8 (a : UInt8) : u8.Keeps a := keeps_unsigned a.toNat_lt UInt8.ofNat_toNat

/-- Every `u32` comes back. -/
@[simp] theorem keeps_u32 (a : UInt32) : u32.Keeps a :=
  keeps_unsigned a.toNat_lt UInt32.ofNat_toNat

/-- Every `u64` comes back. -/
@[simp] theorem keeps_u64 (a : UInt64) : u64.Keeps a :=
  keeps_unsigned a.toNat_lt UInt64.ofNat_toNat

/-- A `String` as a string. -/
def string : Serde String where
  encode := .string
  decode
    | .string s => some s
    | _ => none

/-- Every string comes back. -/
@[simp] theorem keeps_string (s : String) : string.Keeps s := rfl

/-- A `Vec` as an array. -/
def list (c : Serde α) : Serde (List α) where
  encode as := .array (as.map c.encode)
  decode
    | .array elements => elements.mapM c.decode
    | _ => none

/-- A list comes back when each of its elements does. -/
@[simp] theorem keeps_list_iff {as : List α} : c.list.Keeps as ↔ ∀ a ∈ as, c.Keeps a := by
  show (as.map c.encode).mapM c.decode = some as ↔ _
  induction as with
  | nil => simp
  | cons a as ih =>
    rw [List.forall_mem_cons, ← ih, List.map_cons, List.mapM_cons]
    simp only [Option.bind_eq_bind, Option.bind_eq_some_iff, Option.pure_def, Option.some.injEq,
      List.cons.injEq, Keeps]
    constructor
    · rintro ⟨b, hb, bs, hbs, rfl, rfl⟩
      exact ⟨hb, hbs⟩
    · rintro ⟨ha, has⟩
      exact ⟨a, ha, as, has, rfl, rfl⟩

/-- What is read of a list is what was written, when that is so of its elements. -/
theorem eq_of_decode_list {as bs : List α}
    (h : ∀ a ∈ as, ∀ b, c.decode (c.encode a) = some b → b = a)
    (hbs : c.list.decode (c.list.encode as) = some bs) : bs = as := by
  replace hbs : (as.map c.encode).mapM c.decode = some bs := hbs
  induction as generalizing bs with
  | nil => exact (Option.some.inj hbs).symm
  | cons a as ih =>
    rw [List.map_cons, List.mapM_cons] at hbs
    obtain ⟨b, hb, hbs⟩ := Option.bind_eq_some_iff.1 hbs
    obtain ⟨cs, hcs, hbs⟩ := Option.bind_eq_some_iff.1 hbs
    obtain ⟨ha, has⟩ := List.forall_mem_cons.1 h
    rw [← Option.some.inj hbs, ha b hb, ih has hcs]

/-- An `Option`, with `null` for `None`. -/
def option (c : Serde α) : Serde (Option α) where
  encode
    | none => .null
    | some a => c.encode a
  decode
    | .null => some none
    | j => (c.decode j).map some

/-- An option comes back if its contents do and are not themselves written `null`. -/
theorem keeps_option {o : Option α} (h : ∀ a ∈ o, c.Keeps a ∧ c.encode a ≠ .null) :
    c.option.Keeps o := by
  match o with
  | none => rfl
  | some a =>
    obtain ⟨ha, hnull⟩ := h a rfl
    -- a content that is written `null` would be read as `None`
    show (match c.encode a with
      | .null => some none
      | j => (c.decode j).map some) = some (some a)
    split
    · exact absurd ‹_› hnull
    · exact congrArg (Option.map some) ha

/-! ### Structures -/

/-- The fields of a structure, by name, from an object or from an array in their order. -/
def fields (names : List String) : Json → Option (String → Option Json)
  | .object members =>
    if names.all fun name ↦ (members.map Prod.fst).count name ≤ 1 then some (members.lookup ·)
    else none
  -- a derived `Deserialize` takes a sequence, too
  | .array elements =>
    if elements.length = names.length then some ((names.zip elements).lookup ·) else none
  | _ => none

/-- A field that must be there. -/
def field (c : Serde α) (get : String → Option Json) (name : String) : Option α :=
  (get name).bind c.decode

/-- A field that may be missing. -/
def optionalField (c : Serde α) (get : String → Option Json) (name : String) : Option (Option α) :=
  match get name with
  | none => some none
  | some j => c.option.decode j

/-- The fields of an object are its members, if their names are different. -/
theorem fields_object {names : List String} {members : List (String × Json)}
    (h : (members.map Prod.fst).Nodup) :
    fields names (.object members) = some (members.lookup ·) := by
  rw [fields, if_pos]
  exact List.all_eq_true.2 fun name _ ↦ decide_eq_true (List.nodup_iff_count_le_one.1 h name)

section Lookup

variable {name other : String} {j : Json} {members : List (String × Json)}

/-- The field that stands first. -/
@[simp] theorem field_cons_self (c : Serde α) :
    field c (((name, j) :: members).lookup ·) name = c.decode j := by
  rw [field, List.lookup_cons_self, Option.bind_some]

/-- Any other field is looked for further on. -/
@[simp] theorem field_cons_of_ne (c : Serde α) (h : name ≠ other) :
    field c (((other, j) :: members).lookup ·) name = field c (members.lookup ·) name := by
  rw [field, List.lookup_cons, beq_false_of_ne h, field]

/-- An optional field that stands first. -/
@[simp] theorem optionalField_cons_self (c : Serde α) :
    optionalField c (((name, j) :: members).lookup ·) name = c.option.decode j := by
  rw [optionalField, List.lookup_cons_self]

/-- Any other one is looked for further on. -/
@[simp] theorem optionalField_cons_of_ne (c : Serde α) (h : name ≠ other) :
    optionalField c (((other, j) :: members).lookup ·) name =
      optionalField c (members.lookup ·) name := by
  rw [optionalField, List.lookup_cons, beq_false_of_ne h, optionalField]

end Lookup

/-! ### Enumerations -/

/-- The variant a value names, with its content if it has one. -/
def variant : Json → Option (String × Option Json)
  | .string tag => some (tag, none)
  | .object [(tag, content)] => some (tag, some content)
  | _ => none

/-- Whether a content is as good as none. -/
def noContent : Option Json → Bool
  | none | some .null => true
  | some _ => false

/-- An enumeration whose variants have no data. -/
def unitEnum (name : α → String) (all : List α) : Serde α where
  encode a := .string (name a)
  decode j :=
    match variant j with
    | some (tag, content) => if noContent content then all.find? (name · == tag) else none
    | none => none

/-- A variant comes back if its name is its own. -/
theorem keeps_unitEnum {name : α → String} {all : List α} {a : α}
    (hname : (all.map name).Nodup) (ha : a ∈ all) : (unitEnum name all).Keeps a := by
  show all.find? (name · == name a) = some a
  -- the first variant of that name is looked for, and there is one
  obtain ⟨b, hb⟩ : ∃ b, all.find? (name · == name a) = some b :=
    Option.isSome_iff_exists.1 (List.find?_isSome.2 ⟨a, ha, beq_self_eq_true _⟩)
  have hfound : (name b == name a) = true := (List.find?_eq_some_iff_append.1 hb).1
  obtain rfl : b = a :=
    List.inj_on_of_nodup_map hname (List.mem_of_find?_eq_some hb) ha (beq_iff_eq.1 hfound)
  exact hb

end Serde
