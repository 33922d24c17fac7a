import TensorContraction.Encoding.Error
import TensorContraction.Encoding.Written

/-!
# Reading the attributes of a part

The counterpart of `TensorContraction.Encoding.Written`, element by element: the
values that an element's attributes hold, or the first thing that is wrong with
them. Attributes are looked up by name, so their order does not matter, and
attributes that no part has are passed over.

A list is read exactly. The number of attributes that look like entries – a stem
followed by digits – must be the declared length, for every stem of the list, and
then every entry is looked up under its canonical name. A list that skips an entry,
or that numbers one with a leading zero, thus lacks an entry; and since nothing is
looked up before the count is right, no declared length is ever walked in vain.
-/

namespace TensorContraction

open Markup

namespace Encoding

/-! ### Values -/

/-- The value of an attribute that an element must have. -/
def valueOf (e : Element) (name : String) : Except DecodeError String :=
  match e.value? name with
  | some value => .ok value
  | none => .error (.missingAttribute e.tag name)

/-- The value of an attribute, as `read?` reads it. -/
def parsed {α : Type} (read? : String → Option α) (e : Element) (name : String) :
    Except DecodeError α :=
  match valueOf e name with
  | .error error => .error error
  | .ok value =>
    match read? value with
    | some x => .ok x
    | none => .error (.invalidValue e.tag name value)

/-- The value of an attribute that holds a 64-bit number. -/
def word (e : Element) (name : String) : Except DecodeError UInt64 :=
  parsed Decimal.readWord? e name

/-- The value of an attribute that holds a 32-bit number. -/
def halfWord (e : Element) (name : String) : Except DecodeError UInt32 :=
  parsed Decimal.readHalfWord? e name

/-- Reads the tag of a type: a number below 256, which must also be in use. -/
def readTag? {α : Type} (ofTag? : Nat → Option α) (value : String) : Option α :=
  (Decimal.read? UInt8.size value).bind ofTag?

/-- The value of an attribute that holds the tag of an element type. -/
def dataType (e : Element) (name : String) : Except DecodeError DataType :=
  parsed (readTag? DataType.ofTag?) e name

/-- The value of an attribute that holds the tag of a kind of operation. -/
def operationType (e : Element) (name : String) : Except DecodeError OperationType :=
  parsed (readTag? OperationType.ofTag?) e name

/-- Reads a switch, which is written as one digit. -/
def readSwitch? (value : String) : Option Bool :=
  match value with
  | "0" => some false
  | "1" => some true
  | _ => none

/-! ### Lists -/

/-- Whether a name is `stem` followed by digits. -/
def isEntryName (stem name : String) : Bool :=
  match name.toList.drop stem.length with
  | [] => false
  | digits => stem.toList.isPrefixOf name.toList && digits.all Char.isDigit

/-- How many attributes of an element look like entries under `stem`. -/
def entryCount (e : Element) (stem : String) : Nat :=
  e.names.countP (isEntryName stem)

/-- Checks that there are as many entries under each stem as declared. -/
def checkEntryCounts (e : Element) (declared : Nat) : List String → Except DecodeError Unit
  | [] => .ok ()
  | stem :: stems =>
    if entryCount e stem = declared then checkEntryCounts e declared stems
    else .error (.lengthMismatch e.tag declared (entryCount e stem))

/-- The length of the list that an element holds, its entries being named by the
given stems. -/
def declaredLength (e : Element) (stems : List String) : Except DecodeError Nat := do
  let declared ← word e "n"
  checkEntryCounts e declared.toNat stems
  return declared.toNat

/-- The entries of a list from `k` on, `count` of them, each read by its
position. -/
def entriesFrom {α : Type} (entry : Nat → Except DecodeError α) :
    (count k : Nat) → Except DecodeError (List α)
  | 0, _ => .ok []
  | count + 1, k => do
    let x ← entry k
    let rest ← entriesFrom entry count (k + 1)
    return x :: rest

/-- The list that an element holds. -/
def readList {α : Type} (e : Element) (stems : List String)
    (entry : Nat → Except DecodeError α) : Except DecodeError (List α) := do
  let length ← declaredLength e stems
  entriesFrom entry length 0

/-! ### Parts -/

/-- The `k`-th dimension of the tensor that an element holds. -/
def dimensionAt (e : Element) (k : Nat) : Except DecodeError Dimension := do
  let stride ← word e (entryName "st" k)
  let size ← word e (entryName "sz" k)
  return ⟨stride, size⟩

/-- The tensor that an element holds. -/
def readTensor (e : Element) : Except DecodeError Tensor := do
  let ty ← dataType e "t"
  let dimensions ← readList e ["st", "sz"] (dimensionAt e)
  return ⟨ty, dimensions⟩

/-- How many indices have each role, as an encoded problem records it. -/
structure Counts where
  /-- The free indices. -/
  free : UInt64
  /-- The batch indices. -/
  batch : UInt64
  /-- The indices that are summed over. -/
  summation : UInt64
deriving DecidableEq

/-- The operation that an element holds, with the recorded counts. -/
def readOperation (e : Element) : Except DecodeError (Operation × Counts) := do
  let type ← operationType e "t"
  let useOffsets ← parsed readSwitch? e "o"
  let alpha ← dataType e "a"
  let beta ← dataType e "b"
  let free ← word e "nF"
  let batch ← word e "nB"
  let summation ← word e "nS"
  return (⟨type, alpha, beta, useOffsets⟩, ⟨free, batch, summation⟩)

/-- The assignment that an element holds. -/
def readAssignment (e : Element) : Except DecodeError (List UInt64) :=
  readList e ["i"] fun k => word e (entryName "i" k)

/-- The `k`-th device of the profile that an element holds. -/
def deviceAt (e : Element) (k : Nat) : Except DecodeError Device := do
  let name ← valueOf e (entryName "d" k)
  let computeUnits ← halfWord e (entryName "CU" k)
  let clockMHz ← halfWord e (entryName "MHz" k)
  let flopsPerClock ← halfWord e (entryName "FPC" k)
  return ⟨name, computeUnits, clockMHz, flopsPerClock⟩

/-- The profile that an element holds. -/
def readProfile (e : Element) : Except DecodeError DeviceProfile := do
  let devices ← readList e ["d", "CU", "MHz", "FPC"] (deviceAt e)
  return ⟨devices⟩

end Encoding

end TensorContraction
