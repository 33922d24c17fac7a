import TensorContraction.Proofs.Json.Forms

/-!
# Reading back what has been written

Every value of the tensor model is read back from the compact text of its JSON form
(`TensorContraction.Json.read?_toJson`). The text spells the form, since forms are put
together from pieces that are proper (`TensorContraction.Json.IsProper`), so that it is read
as the form. The form is read as the value: it is one of the forms that the value has
(`TensorContraction.Json.HasParts`), the one with just the declared fields in their order.
-/

namespace TensorContraction

namespace Json

/-- Fields with proper values make a proper object. -/
theorem isProper_fields (names : List String) {values : List Json}
    (h : ∀ value ∈ values, IsProper value) : IsProper (ofFields (names.zip values)) :=
  isProper_ofFields fun _ hfield => h _ (List.of_mem_zip hfield).2

end Json

open Json

/-! ### Forms -/

section

variable {lib : Library} (hlib : lib.IsLawful)
include hlib

theorem DataType.ofJsonWith?_toJson (ty : DataType) : ofJsonWith? lib ty.toJson = some ty :=
  ofJsonWith?_string hlib (isSpeltBy_letters ty.name)

theorem OperationType.ofJsonWith?_toJson (kind : OperationType) :
    ofJsonWith? lib kind.toJson = some kind :=
  ofJsonWith?_string hlib (isSpeltBy_letters kind.name)

theorem Dimension.ofJsonWith?_toJson (d : Dimension) : ofJsonWith? lib d.toJson = some d :=
  ofJsonWith?_of_isForm hlib d.isForm_toJson

theorem Tensor.ofJsonWith?_toJson (t : Tensor) : ofJsonWith? lib t.toJson = some t :=
  ofJsonWith?_of_isForm hlib t.isForm_toJson

theorem Device.ofJsonWith?_toJson (d : Device) : ofJsonWith? lib d.toJson = some d :=
  ofJsonWith?_of_isForm hlib d.isForm_toJson

theorem DeviceProfile.ofJsonWith?_toJson (p : DeviceProfile) :
    ofJsonWith? lib p.toJson = some p :=
  ofJsonWith?_of_isForm hlib p.isForm_toJson

theorem Operation.ofJsonWith?_toJson (op : Operation) : ofJsonWith? lib op.toJson = some op :=
  ofJsonWith?_of_isForm hlib op.isForm_toJson

end

/-! ### Texts -/

theorem DataType.isProper_toJson (ty : DataType) : IsProper ty.toJson :=
  isProper_ofString ty.name

theorem OperationType.isProper_toJson (kind : OperationType) : IsProper kind.toJson :=
  isProper_ofString kind.name

theorem Dimension.isProper_toJson (d : Dimension) : IsProper d.toJson :=
  isProper_fields fieldNames (by simp [isProper_natural])

theorem Tensor.isProper_toJson (t : Tensor) : IsProper t.toJson := by
  have hdimensions : IsProper (.array (t.dimensions.map Dimension.toJson)) :=
    isProper_array (List.forall_mem_map.2 fun d _ => d.isProper_toJson)
  exact isProper_fields fieldNames (by simp [t.dataType.isProper_toJson, hdimensions])

theorem Device.isProper_toJson (d : Device) : IsProper d.toJson :=
  isProper_fields fieldNames (by simp [isProper_ofString, isProper_natural])

theorem DeviceProfile.isProper_toJson (p : DeviceProfile) : IsProper p.toJson := by
  have hdevices : IsProper (.array (p.devices.map Device.toJson)) :=
    isProper_array (List.forall_mem_map.2 fun d _ => d.isProper_toJson)
  exact isProper_fields fieldNames (by simp [hdevices])

theorem Operation.isProper_toJson (op : Operation) : IsProper op.toJson :=
  isProper_fields fieldNames (by
    simp [isProper_boolean, DataType.isProper_toJson, OperationType.isProper_toJson])

/-- A value whose form is proper and is read back is read back from the text. -/
theorem Json.isProper_and_read?_text {lib : Library} (hlib : lib.IsLawful) {α : Type}
    {value : Json} {ofJson? : Json → Option α} {x : α} (hproper : IsProper value)
    (h : ofJson? value = some x) :
    IsProper value ∧ (lib.read? value.text).bind ofJson? = some x := by
  refine ⟨hproper, ?_⟩
  rw [Json.text, hlib.read (spellsItem_of_spells hproper), Option.bind_some, h]

/-- **The round trip of the JSON form**, with every library that keeps the rules. The compact
text of the form of a value spells the form by the grammar, and every value of the tensor model
is read back from it: whatever its numbers are, whatever characters the names of devices have,
and however many dimensions or devices there are. -/
theorem Json.read?_toJson {lib : Library} (hlib : lib.IsLawful) :
    (∀ ty : DataType, IsProper ty.toJson ∧
      (lib.read? ty.toJson.text).bind (DataType.ofJsonWith? lib) = some ty) ∧
    (∀ kind : OperationType, IsProper kind.toJson ∧
      (lib.read? kind.toJson.text).bind (OperationType.ofJsonWith? lib) = some kind) ∧
    (∀ d : Dimension, IsProper d.toJson ∧
      (lib.read? d.toJson.text).bind (Dimension.ofJsonWith? lib) = some d) ∧
    (∀ t : Tensor, IsProper t.toJson ∧
      (lib.read? t.toJson.text).bind (Tensor.ofJsonWith? lib) = some t) ∧
    (∀ d : Device, IsProper d.toJson ∧
      (lib.read? d.toJson.text).bind (Device.ofJsonWith? lib) = some d) ∧
    (∀ p : DeviceProfile, IsProper p.toJson ∧
      (lib.read? p.toJson.text).bind (DeviceProfile.ofJsonWith? lib) = some p) ∧
    (∀ op : Operation, IsProper op.toJson ∧
      (lib.read? op.toJson.text).bind (Operation.ofJsonWith? lib) = some op) :=
  ⟨fun ty => isProper_and_read?_text hlib ty.isProper_toJson (ty.ofJsonWith?_toJson hlib),
    fun kind => isProper_and_read?_text hlib kind.isProper_toJson (kind.ofJsonWith?_toJson hlib),
    fun d => isProper_and_read?_text hlib d.isProper_toJson (d.ofJsonWith?_toJson hlib),
    fun t => isProper_and_read?_text hlib t.isProper_toJson (t.ofJsonWith?_toJson hlib),
    fun d => isProper_and_read?_text hlib d.isProper_toJson (d.ofJsonWith?_toJson hlib),
    fun p => isProper_and_read?_text hlib p.isProper_toJson (p.ofJsonWith?_toJson hlib),
    fun op => isProper_and_read?_text hlib op.isProper_toJson (op.ofJsonWith?_toJson hlib)⟩

/-- A device whose name has quotes, a control character and the end of a line in it. -/
def quotedDevice : Device :=
  ⟨"\"\x01é\"\n", 0, 64, 4294967295⟩

/-- Quotes and control characters are written as escapes, and other characters stay as they
are. -/
theorem text_quotedDevice : quotedDevice.toJson.text =
    "\x7b\"name\":\"\\\"\\u0001é\\\"\\n\",\"num_compute_units\":0," ++
      "\"clock_frequency_mhz\":64,\"flops_per_clock\":4294967295\x7d" := by
  decide +kernel

/-- The device is read back from this text. -/
theorem Json.read?_toJson_quotedDevice :
    (read? ("\x7b\"name\":\"\\\"\\u0001é\\\"\\n\",\"num_compute_units\":0," ++
      "\"clock_frequency_mhz\":64,\"flops_per_clock\":4294967295\x7d")).bind
        Device.ofJson? = some quotedDevice := by
  obtain ⟨-, hread⟩ := (read?_toJson isLawful_library).2.2.2.2.1 quotedDevice
  rwa [text_quotedDevice, library_read?] at hread

end TensorContraction
