import TensorContraction.Proofs.Json.Parts

/-!
# The forms of a value

The JSON form of a structure may be rearranged without a change of what is read from it. A
*form* of a structure holds the same parts as the one that is written: as an array or as an
object, and then in any order and among fields that are not declared. Where the parts are
structures again, each of them has a form of its own, arranged in its own way. With any library
that keeps the rules, a form is read as the structure, wherever white space stands in its text
and however its strings are spelt; and what is faulty at any depth is not read at all
(`TensorContraction.Json.reads_forms`).

The declared fields of the types matter in two facts only: no type has two of the same name,
and there are as many parts as fields.
-/

namespace TensorContraction

namespace Json

/-! ### Pieces -/

namespace Library.IsLawful

variable {lib : Library} (hlib : lib.IsLawful)
include hlib

/-- **A word is read back**, whatever its value. -/
theorem word (x : UInt64) : lib.word? (.natural x.toNat) = some x := by
  rw [word?, hlib.natural x.toNat_lt_size, Option.map_some, UInt64.ofNat_toNat]

theorem halfWord (x : UInt32) : lib.halfWord? (.natural x.toNat) = some x := by
  rw [halfWord?, hlib.natural x.toNat_lt_size, Option.map_some, UInt32.ofNat_toNat]

end Library.IsLawful

/-- Items that are written one by one are forms if each of them is. -/
theorem forall₂_toJson {α : Type} {IsForm : α → Json → Prop} {toJson : α → Json}
    (h : ∀ x, IsForm x (toJson x)) (l : List α) : List.Forall₂ IsForm l (l.map toJson) := by
  rw [List.forall₂_map_right_iff, List.forall₂_same]
  exact fun x _ => h x

end Json

open Json

/-! ### Enumerations -/

theorem DataType.ofJsonWith?_string {lib : Library} (hlib : lib.IsLawful) {ty : DataType}
    {text : List Letter} (h : IsSpeltBy ty.name text) :
    ofJsonWith? lib (.string text) = some ty := by
  rw [ofJsonWith?, hlib.case h, Option.bind_some, ofName?_name]

theorem OperationType.ofJsonWith?_string {lib : Library} (hlib : lib.IsLawful)
    {kind : OperationType} {text : List Letter} (h : IsSpeltBy kind.name text) :
    ofJsonWith? lib (.string text) = some kind := by
  rw [ofJsonWith?, hlib.case h, Option.bind_some, ofName?_name]

/-! ### Dimensions -/

namespace Dimension

/-- **The forms of a dimension.** -/
def IsForm (d : Dimension) : Json → Prop :=
  HasParts fieldNames [.natural d.stride.toNat, .natural d.size.toNat]

/-- No dimension has a form with too few or too many parts. -/
def IsFaulty : Json → Prop :=
  Json.IsFaulty fieldNames

theorem isForm_toJson (d : Dimension) : d.IsForm d.toJson :=
  hasParts_ofFields rfl

section

variable {lib : Library} (hlib : lib.IsLawful)
include hlib

theorem ofJsonWith?_of_isForm {d : Dimension} {value : Json} (h : d.IsForm value) :
    ofJsonWith? lib value = some d := by
  rw [ofJsonWith?, HasParts.declared? hlib (by decide) h]
  simp [hlib.word]

theorem ofJsonWith?_of_isFaulty {value : Json} (h : IsFaulty value) :
    ofJsonWith? lib value = none := by
  rw [ofJsonWith?, Json.IsFaulty.declared? hlib h]
  rfl

end

end Dimension

/-! ### Tensors -/

namespace Tensor

/-- **The forms of a tensor.** Each of its dimensions has a form of its own. -/
def IsForm (t : Tensor) (value : Json) : Prop :=
  ∃ dataType dimensions, HasParts fieldNames [.string dataType, .array dimensions] value ∧
    IsSpeltBy t.dataType.name dataType ∧ List.Forall₂ Dimension.IsForm t.dimensions dimensions

/-- **A value with a fault** in it that no tensor can have: a fault of its own, or one of its
dimensions has one. -/
inductive IsFaulty : Json → Prop
  | own {value : Json} (h : Json.IsFaulty fieldNames value) : IsFaulty value
  | dimension {value dataType : Json} {dimensions : List Json} {dimension : Json}
    (hparts : HasParts fieldNames [dataType, .array dimensions] value)
    (hmem : dimension ∈ dimensions) (h : Dimension.IsFaulty dimension) : IsFaulty value

theorem isForm_toJson (t : Tensor) : t.IsForm t.toJson :=
  ⟨_, _, hasParts_ofFields rfl, isSpeltBy_letters t.dataType.name,
    forall₂_toJson Dimension.isForm_toJson t.dimensions⟩

section

variable {lib : Library} (hlib : lib.IsLawful)
include hlib

theorem ofJsonWith?_of_isForm {t : Tensor} {value : Json} (h : t.IsForm value) :
    ofJsonWith? lib value = some t := by
  obtain ⟨dataType, dimensions, hparts, hdataType, hdimensions⟩ := h
  rw [ofJsonWith?, hparts.declared? hlib (by decide)]
  simp [hlib.items, DataType.ofJsonWith?_string hlib hdataType,
    mapM_eq_some (hdimensions.imp fun _ _ => Dimension.ofJsonWith?_of_isForm hlib)]

theorem ofJsonWith?_of_isFaulty {value : Json} (h : IsFaulty value) :
    ofJsonWith? lib value = none := by
  cases h with
  | own h =>
    rw [ofJsonWith?, h.declared? hlib]
    rfl
  | dimension hparts hmem h =>
    rw [ofJsonWith?, hparts.declared? hlib (by decide)]
    simp [hlib.items, mapM_eq_none hmem (Dimension.ofJsonWith?_of_isFaulty hlib h)]

end

end Tensor

/-! ### Devices -/

namespace Device

/-- **The forms of a device.** -/
def IsForm (d : Device) (value : Json) : Prop :=
  ∃ name, HasParts fieldNames [.string name, .natural d.computeUnits.toNat,
    .natural d.clockMHz.toNat, .natural d.flopsPerClock.toNat] value ∧ IsSpeltBy d.name name

/-- No device has a form with too few or too many parts. -/
def IsFaulty : Json → Prop :=
  Json.IsFaulty fieldNames

theorem isForm_toJson (d : Device) : d.IsForm d.toJson :=
  ⟨_, hasParts_ofFields rfl, isSpeltBy_letters d.name⟩

section

variable {lib : Library} (hlib : lib.IsLawful)
include hlib

theorem ofJsonWith?_of_isForm {d : Device} {value : Json} (h : d.IsForm value) :
    ofJsonWith? lib value = some d := by
  obtain ⟨name, hparts, hname⟩ := h
  rw [ofJsonWith?, hparts.declared? hlib (by decide)]
  simp [hlib.string hname, hlib.halfWord]

theorem ofJsonWith?_of_isFaulty {value : Json} (h : IsFaulty value) :
    ofJsonWith? lib value = none := by
  rw [ofJsonWith?, Json.IsFaulty.declared? hlib h]
  rfl

end

end Device

/-! ### Profiles -/

namespace DeviceProfile

/-- **The forms of a profile.** Each of its devices has a form of its own. -/
def IsForm (p : DeviceProfile) (value : Json) : Prop :=
  ∃ devices, HasParts fieldNames [.array devices] value ∧
    List.Forall₂ Device.IsForm p.devices devices

/-- **A value with a fault** in it that no profile can have: a fault of its own, or one of its
devices has one. -/
inductive IsFaulty : Json → Prop
  | own {value : Json} (h : Json.IsFaulty fieldNames value) : IsFaulty value
  | device {value : Json} {devices : List Json} {device : Json}
    (hparts : HasParts fieldNames [.array devices] value) (hmem : device ∈ devices)
    (h : Device.IsFaulty device) : IsFaulty value

theorem isForm_toJson (p : DeviceProfile) : p.IsForm p.toJson :=
  ⟨_, hasParts_ofFields rfl, forall₂_toJson Device.isForm_toJson p.devices⟩

section

variable {lib : Library} (hlib : lib.IsLawful)
include hlib

theorem ofJsonWith?_of_isForm {p : DeviceProfile} {value : Json} (h : p.IsForm value) :
    ofJsonWith? lib value = some p := by
  obtain ⟨devices, hparts, hdevices⟩ := h
  rw [ofJsonWith?, hparts.declared? hlib (by decide)]
  simp [hlib.items, mapM_eq_some (hdevices.imp fun _ _ => Device.ofJsonWith?_of_isForm hlib)]

theorem ofJsonWith?_of_isFaulty {value : Json} (h : IsFaulty value) :
    ofJsonWith? lib value = none := by
  cases h with
  | own h =>
    rw [ofJsonWith?, h.declared? hlib]
    rfl
  | device hparts hmem h =>
    rw [ofJsonWith?, hparts.declared? hlib (by decide)]
    simp [hlib.items, mapM_eq_none hmem (Device.ofJsonWith?_of_isFaulty hlib h)]

end

end DeviceProfile

/-! ### Operations -/

namespace Operation

/-- **The forms of an operation.** -/
def IsForm (op : Operation) (value : Json) : Prop :=
  ∃ type alpha beta, HasParts fieldNames [.string type, .string alpha, .string beta,
      .boolean op.useOffsets] value ∧
    IsSpeltBy op.type.name type ∧ IsSpeltBy op.alpha.name alpha ∧ IsSpeltBy op.beta.name beta

/-- No operation has a form with too few or too many parts. -/
def IsFaulty : Json → Prop :=
  Json.IsFaulty fieldNames

theorem isForm_toJson (op : Operation) : op.IsForm op.toJson :=
  ⟨_, _, _, hasParts_ofFields rfl, isSpeltBy_letters op.type.name,
    isSpeltBy_letters op.alpha.name, isSpeltBy_letters op.beta.name⟩

section

variable {lib : Library} (hlib : lib.IsLawful)
include hlib

theorem ofJsonWith?_of_isForm {op : Operation} {value : Json} (h : op.IsForm value) :
    ofJsonWith? lib value = some op := by
  obtain ⟨type, alpha, beta, hparts, htype, halpha, hbeta⟩ := h
  rw [ofJsonWith?, hparts.declared? hlib (by decide)]
  simp [hlib.boolean, OperationType.ofJsonWith?_string hlib htype,
    DataType.ofJsonWith?_string hlib halpha, DataType.ofJsonWith?_string hlib hbeta]

theorem ofJsonWith?_of_isFaulty {value : Json} (h : IsFaulty value) :
    ofJsonWith? lib value = none := by
  rw [ofJsonWith?, Json.IsFaulty.declared? hlib h]
  rfl

end

end Operation

/-! ### Texts -/

namespace Json

/-- **A type is read by form**: from every text of a form of a value the value is read, which
has at least the form that is written, and from no text of a faulty value anything. -/
structure ReadsForms (lib : Library) {α : Type} (toJson : α → Json)
    (ofJsonWith? : Library → Json → Option α) (IsForm : α → Json → Prop)
    (IsFaulty : Json → Prop) : Prop where
  isForm_toJson (x : α) : IsForm x (toJson x)
  of_isForm {x : α} {value : Json} {t : List Char} (h : IsForm x value)
    (ht : SpellsItem t value) : (lib.read? (String.ofList t)).bind (ofJsonWith? lib) = some x
  of_isFaulty {value : Json} {t : List Char} (h : IsFaulty value) (ht : SpellsItem t value) :
    (lib.read? (String.ofList t)).bind (ofJsonWith? lib) = none

/-- What holds of the values that texts spell holds of the texts. -/
theorem readsForms_of_ofJsonWith? {lib : Library} (hlib : lib.IsLawful) {α : Type}
    {toJson : α → Json} {ofJsonWith? : Library → Json → Option α} {IsForm : α → Json → Prop}
    {IsFaulty : Json → Prop} (htoJson : ∀ x, IsForm x (toJson x))
    (hform : ∀ {x value}, IsForm x value → ofJsonWith? lib value = some x)
    (hfaulty : ∀ {value}, IsFaulty value → ofJsonWith? lib value = none) :
    ReadsForms lib toJson ofJsonWith? IsForm IsFaulty where
  isForm_toJson := htoJson
  of_isForm h ht := by rw [hlib.read ht, Option.bind_some, hform h]
  of_isFaulty h ht := by rw [hlib.read ht, Option.bind_some, hfaulty h]

/-- **Reading is indifferent to how a form is arranged and strict about what is declared**,
with every library that keeps the rules. From a text of any form of a dimension, a tensor, a
device, a profile or an operation the value itself is read: at every structure in it the
declared fields may come in any order and among other fields with any values, or as an array.
From a text with a declared field missing or repeated in some structure, or with an array of
the wrong length in place of one, nothing is read. -/
theorem reads_forms {lib : Library} (hlib : lib.IsLawful) :
    ReadsForms lib Dimension.toJson Dimension.ofJsonWith? Dimension.IsForm Dimension.IsFaulty ∧
    ReadsForms lib Tensor.toJson Tensor.ofJsonWith? Tensor.IsForm Tensor.IsFaulty ∧
    ReadsForms lib Device.toJson Device.ofJsonWith? Device.IsForm Device.IsFaulty ∧
    ReadsForms lib DeviceProfile.toJson DeviceProfile.ofJsonWith? DeviceProfile.IsForm
      DeviceProfile.IsFaulty ∧
    ReadsForms lib Operation.toJson Operation.ofJsonWith? Operation.IsForm Operation.IsFaulty :=
  ⟨readsForms_of_ofJsonWith? hlib Dimension.isForm_toJson
      (Dimension.ofJsonWith?_of_isForm hlib) (Dimension.ofJsonWith?_of_isFaulty hlib),
    readsForms_of_ofJsonWith? hlib Tensor.isForm_toJson
      (Tensor.ofJsonWith?_of_isForm hlib) (Tensor.ofJsonWith?_of_isFaulty hlib),
    readsForms_of_ofJsonWith? hlib Device.isForm_toJson
      (Device.ofJsonWith?_of_isForm hlib) (Device.ofJsonWith?_of_isFaulty hlib),
    readsForms_of_ofJsonWith? hlib DeviceProfile.isForm_toJson
      (DeviceProfile.ofJsonWith?_of_isForm hlib) (DeviceProfile.ofJsonWith?_of_isFaulty hlib),
    readsForms_of_ofJsonWith? hlib Operation.isForm_toJson
      (Operation.ofJsonWith?_of_isForm hlib) (Operation.ofJsonWith?_of_isFaulty hlib)⟩

/-- The fields of a dimension in the other order, with one of a given name between them. -/
def mixedFields (name : String) : List (String × Json) :=
  [("size", .natural 2), (name, .array [.null]), ("stride", .natural 1)]

/-- A tensor of two dimensions as an array: the first dimension is an object, and the second
one is an array again. -/
def mixedTensor (name : String) : Json :=
  .array [.ofString "Single", .array [.ofFields (mixedFields name),
    .array [.natural 3, .natural 4]]]

theorem spellsItem_mixedTensor (name : String) :
    SpellsItem ([' '] ++ (mixedTensor name).written ++ ['\n']) (mixedTensor name) := by
  have hnull : IsProper (.array [.null]) :=
    isProper_array (List.forall_mem_singleton.2 Spells.null)
  have hfirst : IsProper (.ofFields (mixedFields name)) :=
    isProper_ofFields (by simp [mixedFields, isProper_natural, hnull])
  have hsecond : IsProper (.array [.natural 3, .natural 4]) :=
    isProper_array (by simp [isProper_natural])
  have hdimensions : IsProper (.array [.ofFields (mixedFields name),
      .array [.natural 3, .natural 4]]) :=
    isProper_array (by simp [hfirst, hsecond])
  have htensor : IsProper (mixedTensor name) :=
    isProper_array (by simp [isProper_ofString, hdimensions])
  exact .padded (by simp [IsWhite, Reader.isSpace]) htensor (by simp [IsWhite, Reader.isSpace])

/-- The tensor is read although one of its dimensions has its fields in the other order and an
undeclared one between them. It is not read if what stands between them is a declared one. -/
theorem reads_forms_mixedTensor :
    (read? " [\"Single\",[\x7b\"size\":2,\"unit\":[null],\"stride\":1\x7d,[3,4]]]\n").bind
        Tensor.ofJson? = some ⟨.single, [⟨1, 2⟩, ⟨3, 4⟩]⟩ ∧
      (read? " [\"Single\",[\x7b\"size\":2,\"size\":[null],\"stride\":1\x7d,[3,4]]]\n").bind
        Tensor.ofJson? = none := by
  have hfirst : Dimension.IsForm ⟨1, 2⟩ (.ofFields (mixedFields "unit")) :=
    @HasParts.object _ _ [(letters "stride", .natural 1), (letters "size", .natural 2)]
      [(letters "unit", .array [.null])]
      (.cons (isSpeltBy_letters "stride") (.cons (isSpeltBy_letters "size") .nil))
      (List.forall_mem_singleton.2 ⟨"unit", by decide, isSpeltBy_letters "unit"⟩)
      (@List.perm_append_comm _ [_, _] [_])
  have hform : Tensor.IsForm ⟨.single, [⟨1, 2⟩, ⟨3, 4⟩]⟩ (mixedTensor "unit") :=
    ⟨_, _, .array rfl, isSpeltBy_letters "Single", .cons hfirst (.cons (.array rfl) .nil)⟩
  have hrepeated : Dimension.IsFaulty (.ofFields (mixedFields "size")) :=
    .repeated (List.mem_cons_of_mem _ List.mem_cons_self) (isSpeltBy_letters "size")
      (isSpeltBy_letters "size") (List.prefix_append _ _).sublist
  have hfaulty : Tensor.IsFaulty (mixedTensor "size") :=
    .dimension (.array rfl) List.mem_cons_self hrepeated
  have hreads := (reads_forms isLawful_library).2.1
  have hread := hreads.of_isForm hform (spellsItem_mixedTensor "unit")
  have hnone := hreads.of_isFaulty hfaulty (spellsItem_mixedTensor "size")
  rw [library_read?] at hread hnone
  exact ⟨hread, hnone⟩

end Json

end TensorContraction
