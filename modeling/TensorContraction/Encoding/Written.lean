import TensorContraction.Encoding.Part
import TensorContraction.Markup.Element
import TensorContraction.Problem.Basic

/-!
# Writing a problem

The tagged text of a problem serves as a key of kernel caches, so that it is fixed
to the last blank: ten lines, indented by one blank for each level of nesting.

```text
<P>
 <TC t="0" n="2" st0="1" sz0="4" st1="4" sz1="8" />
 <TA t="0" n="2" st0="1" sz0="3" st1="3" sz1="4" />
 <TB t="0" n="2" st0="1" sz0="3" st1="3" sz1="8" />
 <O t="0" a="0" b="0" o="0" nF="2" nB="0" nS="1" >
  <IA n="2" i0="2" i1="0" />
  <IB n="2" i0="2" i1="1" />
 </O>
 <DP n="1" d0="cpu" CU0="1" MHz0="0" FPC0="0" />
</P>
```

A list is written as its length `n`, followed by its entries under numbered names.
The operation carries, besides its own fields, how many indices have each role:
that follows from the assignments, and is there to be checked against them. Names
of devices are written in their safe form.

Every part is an element (`TensorContraction.Markup.Element`), the same form that
reading a text gives.
-/

namespace TensorContraction

open Markup

namespace Encoding

/-! ### Attributes -/

/-- The name of the `k`-th entry of a list whose entries are named by `stem`. -/
def entryName (stem : String) (k : Nat) : String :=
  stem ++ Decimal.text k

/-- A number as an attribute. -/
def numeric (name : String) (value : Nat) : String × String :=
  (name, Decimal.text value)

/-- The attributes of a list: its length, and the attributes of its entries, each
by its position. -/
def listAttributes {α : Type} (entry : Nat → α → List (String × String)) (list : List α) :
    List (String × String) :=
  numeric "n" list.length :: (list.mapIdx entry).flatten

/-! ### Tensors -/

/-- The attributes of the `k`-th dimension of a tensor. -/
def dimensionAttributes (k : Nat) (dimension : Dimension) : List (String × String) :=
  [numeric (entryName "st" k) dimension.stride.toNat,
    numeric (entryName "sz" k) dimension.size.toNat]

/-- A tensor as an element, under a tag made of `T` and a name. -/
def tensorElement (name : String) (t : Tensor) : Element where
  tag := "T" ++ name
  attributes := numeric "t" t.dataType.tag :: listAttributes dimensionAttributes t.dimensions

/-! ### Operation and assignments -/

/-- The operation of a problem as an element, with the number of indices of each
role. -/
def operationElement (p : Problem) : Element where
  tag := Part.operation.tag
  attributes :=
    [numeric "t" p.operation.type.tag,
      numeric "a" p.operation.alpha.tag,
      numeric "b" p.operation.beta.tag,
      numeric "o" p.operation.useOffsets.toNat,
      numeric "nF" p.free.length,
      numeric "nB" p.batch.length,
      numeric "nS" p.summation.length]

/-- The assignment of an operand as an element. -/
def assignmentElement (part : Part) (ids : List UInt64) : Element where
  tag := part.tag
  attributes := listAttributes (fun k id => [numeric (entryName "i" k) id.toNat]) ids

/-! ### Devices -/

/-- The attributes of the `k`-th device of a profile. -/
def deviceAttributes (k : Nat) (device : Device) : List (String × String) :=
  [(entryName "d" k, safeName device.name),
    numeric (entryName "CU" k) device.computeUnits.toNat,
    numeric (entryName "MHz" k) device.clockMHz.toNat,
    numeric (entryName "FPC" k) device.flopsPerClock.toNat]

/-- A profile as an element. -/
def profileElement (profile : DeviceProfile) : Element where
  tag := Part.profile.tag
  attributes := listAttributes deviceAttributes profile.devices

/-! ### Problems -/

/-- The element of a problem, which carries nothing itself. -/
def problemElement : Element :=
  ⟨Part.problem.tag, []⟩

/-- The lines of an encoded problem. -/
def lines (p : Problem) : List Line :=
  [⟨0, problemElement.openingTag⟩,
    ⟨1, (tensorElement "C" p.c).leaf⟩,
    ⟨1, (tensorElement "A" p.a).leaf⟩,
    ⟨1, (tensorElement "B" p.b).leaf⟩,
    ⟨1, (operationElement p).openingTag⟩,
    ⟨2, (assignmentElement .assignmentA p.idsA).leaf⟩,
    ⟨2, (assignmentElement .assignmentB p.idsB).leaf⟩,
    ⟨1, (operationElement p).closingTag⟩,
    ⟨1, (profileElement p.profile).leaf⟩,
    ⟨0, problemElement.closingTag⟩]

/-- **The tagged text of a problem**, indented by `level`. -/
def encode (p : Problem) (level : Nat) : String :=
  renderLines level (lines p)

/-- A tensor alone on a line, under a tag made of `T` and a name. -/
def encodeTensor (t : Tensor) (name : String) (level : Nat) : String :=
  Line.render level ⟨0, (tensorElement name t).leaf⟩

/-- A profile alone on a line. -/
def encodeProfile (profile : DeviceProfile) (level : Nat) : String :=
  Line.render level ⟨0, (profileElement profile).leaf⟩

end Encoding

end TensorContraction
