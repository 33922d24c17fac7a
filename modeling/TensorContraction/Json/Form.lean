import TensorContraction.Device
import TensorContraction.Json.Reader
import TensorContraction.Operation
import TensorContraction.Tensor

/-!
# The JSON form of the tensor model

Every type of the tensor model has a JSON form. A structure is an object with one
field for each of its own, in the order of their declaration; an enumeration is the
name of the case; a list is an array.

Reading is strict about what a type declares, and indifferent to the rest: fields
may come in any order, fields that the type does not declare are passed over, and
every declared field must be there exactly once. In place of an object there may be
an array of exactly the values of the fields, in the order of their declaration, and
in place of the name of a case an object whose only field has that name and holds
`null`. Numbers must be natural, in plain digits, and in range.

How a text becomes a value, and how a value is taken apart, is the same for all types.
It is left to a library (`TensorContraction.Json.Library`), and what belongs to a type is
which pieces it is made of.
-/

namespace TensorContraction

namespace Json

/-! ### Reading the pieces -/

/-- The string that a value is. -/
def string? : Json → Option String
  | .string text => (characters? text).map String.ofList
  | _ => none

/-- The natural number below `bound` that a value is. -/
def natural? (bound : Nat) : Json → Option Nat
  | .natural value => if value < bound then some value else none
  | _ => none

/-- The truth value that a value is. -/
def boolean? : Json → Option Bool
  | .boolean value => some value
  | _ => none

/-- The items of the array that a value is. -/
def items? : Json → Option (List Json)
  | .array items => some items
  | _ => none

/-- The name of the case that a value is. -/
def case? : Json → Option String
  | .string text => (characters? text).map String.ofList
  | .object [(name, .null)] => (characters? name).map String.ofList
  | _ => none

/-- The fields of an object with their names spelt out. -/
def namedFields? (fields : List (List Letter × Json)) : Option (List (String × Json)) :=
  fields.mapM fun (name, value) =>
    (characters? name).map fun name => (String.ofList name, value)

/-- The value of the field with a given name, if there is exactly one. -/
def uniqueField? (fields : List (String × Json)) (name : String) : Option Json :=
  match fields.filter fun field => field.1 == name with
  | [(_, value)] => some value
  | _ => none

/-- The values of the declared fields of a structure, in the order of their
declaration. -/
def declared? (names : List String) : Json → Option (List Json)
  | .array items => if items.length = names.length then some items else none
  | .object fields => do
    let fields ← namedFields? fields
    names.mapM (uniqueField? fields)
  | _ => none

/-! ### Libraries -/

/-- **What reading rests on**: how a text is read as a value, and how a value is taken
apart. -/
structure Library where
  /-- The value that a text spells. -/
  read? : String → Option Json
  /-- The string that a value is. -/
  string? : Json → Option String
  /-- The natural number below a bound that a value is. -/
  natural? : (bound : Nat) → Json → Option Nat
  /-- The truth value that a value is. -/
  boolean? : Json → Option Bool
  /-- The items of the array that a value is. -/
  items? : Json → Option (List Json)
  /-- The name of the case that a value is. -/
  case? : Json → Option String
  /-- The values of the declared fields of a structure, in the order of their
  declaration. -/
  declared? : (names : List String) → Json → Option (List Json)

namespace Library

/-- The 64-bit word that a value is. -/
def word? (lib : Library) (value : Json) : Option UInt64 :=
  (lib.natural? UInt64.size value).map UInt64.ofNat

/-- The 32-bit word that a value is. -/
def halfWord? (lib : Library) (value : Json) : Option UInt32 :=
  (lib.natural? UInt32.size value).map UInt32.ofNat

end Library

/-- The library made of the functions above. -/
def library : Library where
  read? := Json.read?
  string? := Json.string?
  natural? := Json.natural?
  boolean? := Json.boolean?
  items? := Json.items?
  case? := Json.case?
  declared? := Json.declared?

/-! ### Writing the pieces -/

/-- A string as a value. -/
def ofString (s : String) : Json :=
  .string (letters s)

/-- A structure as a value, by the names and values of its fields. -/
def ofFields (fields : List (String × Json)) : Json :=
  .object (fields.map fun (name, value) => (letters name, value))

end Json

/-! ### Enumerations -/

namespace DataType

/-- The JSON form of an element type. -/
def toJson (ty : DataType) : Json :=
  .ofString ty.name

/-- Reads an element type with a given library. -/
def ofJsonWith? (lib : Json.Library) (value : Json) : Option DataType :=
  (lib.case? value).bind ofName?

/-- Reads an element type. -/
def ofJson? : Json → Option DataType :=
  ofJsonWith? Json.library

end DataType

namespace OperationType

/-- The JSON form of a kind of operation. -/
def toJson (kind : OperationType) : Json :=
  .ofString kind.name

/-- Reads a kind of operation with a given library. -/
def ofJsonWith? (lib : Json.Library) (value : Json) : Option OperationType :=
  (lib.case? value).bind ofName?

/-- Reads a kind of operation. -/
def ofJson? : Json → Option OperationType :=
  ofJsonWith? Json.library

end OperationType

/-! ### Structures -/

namespace Dimension

/-- The declared fields of a dimension. -/
def fieldNames : List String :=
  ["stride", "size"]

/-- The JSON form of a dimension. -/
def toJson (d : Dimension) : Json :=
  .ofFields (fieldNames.zip [.natural d.stride.toNat, .natural d.size.toNat])

/-- Reads a dimension with a given library. -/
def ofJsonWith? (lib : Json.Library) (value : Json) : Option Dimension := do
  match ← lib.declared? fieldNames value with
  | [stride, size] => return ⟨← lib.word? stride, ← lib.word? size⟩
  | _ => none

/-- Reads a dimension. -/
def ofJson? : Json → Option Dimension :=
  ofJsonWith? Json.library

end Dimension

namespace Tensor

/-- The declared fields of a tensor. -/
def fieldNames : List String :=
  ["data_type", "dimensions"]

/-- The JSON form of a tensor. -/
def toJson (t : Tensor) : Json :=
  .ofFields (fieldNames.zip [t.dataType.toJson, .array (t.dimensions.map Dimension.toJson)])

/-- Reads a tensor with a given library. -/
def ofJsonWith? (lib : Json.Library) (value : Json) : Option Tensor := do
  match ← lib.declared? fieldNames value with
  | [dataType, dimensions] =>
    return ⟨← DataType.ofJsonWith? lib dataType,
      ← (← lib.items? dimensions).mapM (Dimension.ofJsonWith? lib)⟩
  | _ => none

/-- Reads a tensor. -/
def ofJson? : Json → Option Tensor :=
  ofJsonWith? Json.library

end Tensor

namespace Device

/-- The declared fields of a device. -/
def fieldNames : List String :=
  ["name", "num_compute_units", "clock_frequency_mhz", "flops_per_clock"]

/-- The JSON form of a device. -/
def toJson (d : Device) : Json :=
  .ofFields (fieldNames.zip
    [.ofString d.name, .natural d.computeUnits.toNat, .natural d.clockMHz.toNat,
      .natural d.flopsPerClock.toNat])

/-- Reads a device with a given library. -/
def ofJsonWith? (lib : Json.Library) (value : Json) : Option Device := do
  match ← lib.declared? fieldNames value with
  | [name, computeUnits, clockMHz, flopsPerClock] =>
    return ⟨← lib.string? name, ← lib.halfWord? computeUnits, ← lib.halfWord? clockMHz,
      ← lib.halfWord? flopsPerClock⟩
  | _ => none

/-- Reads a device. -/
def ofJson? : Json → Option Device :=
  ofJsonWith? Json.library

end Device

namespace DeviceProfile

/-- The declared fields of a profile. -/
def fieldNames : List String :=
  ["devices"]

/-- The JSON form of a profile. -/
def toJson (p : DeviceProfile) : Json :=
  .ofFields (fieldNames.zip [.array (p.devices.map Device.toJson)])

/-- Reads a profile with a given library. -/
def ofJsonWith? (lib : Json.Library) (value : Json) : Option DeviceProfile := do
  match ← lib.declared? fieldNames value with
  | [devices] => return ⟨← (← lib.items? devices).mapM (Device.ofJsonWith? lib)⟩
  | _ => none

/-- Reads a profile. -/
def ofJson? : Json → Option DeviceProfile :=
  ofJsonWith? Json.library

end DeviceProfile

namespace Operation

/-- The declared fields of an operation. -/
def fieldNames : List String :=
  ["operation_type", "alpha_type", "beta_type", "use_offsets"]

/-- The JSON form of an operation. -/
def toJson (op : Operation) : Json :=
  .ofFields (fieldNames.zip
    [op.type.toJson, op.alpha.toJson, op.beta.toJson, .boolean op.useOffsets])

/-- Reads an operation with a given library. -/
def ofJsonWith? (lib : Json.Library) (value : Json) : Option Operation := do
  match ← lib.declared? fieldNames value with
  | [type, alpha, beta, useOffsets] =>
    return ⟨← OperationType.ofJsonWith? lib type, ← DataType.ofJsonWith? lib alpha,
      ← DataType.ofJsonWith? lib beta, ← lib.boolean? useOffsets⟩
  | _ => none

/-- Reads an operation. -/
def ofJson? : Json → Option Operation :=
  ofJsonWith? Json.library

end Operation

end TensorContraction
