import TensorContraction.DataType
import TensorContraction.Decimal
import TensorContraction.Saturating

/-!
# Tensors

A tensor is described by the type of its elements and by its dimensions, each
with a **size** and a **stride**: the distance, in elements, between consecutive
entries along it. Strides are free – a tensor may be a window into another one –
but most tensors are *packed* (`TensorContraction.Tensor.packed`): the first
dimension is the fastest, and each further stride is the product of the sizes
before it.

Tensors are totally ordered, by type, then by the number of dimensions, then
dimension by dimension with the stride before the size.
-/

namespace TensorContraction

/-! ### Dimensions -/

/-- One dimension of a tensor. -/
structure Dimension where
  /-- The distance in elements between consecutive entries. -/
  stride : UInt64
  /-- The number of entries. -/
  size : UInt64
deriving DecidableEq, Hashable, Inhabited

/-- Dimensions are ordered by stride, then by size. -/
instance : Ord Dimension := ⟨compareLex (compareOn Dimension.stride) (compareOn Dimension.size)⟩

instance : Std.TransOrd Dimension :=
  inferInstanceAs (Std.TransCmp
    (compareLex (compareOn Dimension.stride) (compareOn Dimension.size)))

instance : Std.LawfulEqOrd Dimension where
  eq_of_compare {x y} h := by
    obtain ⟨hstride, hsize⟩ := compareLex_eq_eq.1 h
    cases x
    cases y
    cases Std.LawfulEqOrd.eq_of_compare hstride
    cases Std.LawfulEqOrd.eq_of_compare hsize
    rfl

/-! ### Tensors -/

/-- The shape, the strides and the element type of a tensor. -/
structure Tensor where
  /-- The type of the elements. -/
  dataType : DataType
  /-- The dimensions, in order. -/
  dimensions : List Dimension
deriving DecidableEq, Hashable

namespace Tensor

/-- The dimensions of a packed tensor whose first stride is given. -/
def packedFrom (stride : UInt64) : List UInt64 → List Dimension
  | [] => []
  | size :: sizes => ⟨stride, size⟩ :: packedFrom (Saturating.mul stride size) sizes

/-- A packed tensor with the given sizes, first dimension fastest. -/
def packed (ty : DataType) (sizes : List UInt64) : Tensor :=
  ⟨ty, packedFrom 1 sizes⟩

/-- The number of dimensions. -/
def rank (t : Tensor) : Nat :=
  t.dimensions.length

/-- The sizes of the dimensions, in order. -/
def sizes (t : Tensor) : List UInt64 :=
  t.dimensions.map Dimension.size

/-- The dimension at a position, if the tensor has that many. -/
def dimension? (t : Tensor) (position : Nat) : Option Dimension :=
  t.dimensions[position]?

/-- The number of elements, `1` for a tensor without dimensions. -/
def numElements (t : Tensor) : UInt64 :=
  Saturating.product t.sizes

/-- The tensor as text: the letter of its type and its sizes, as in `S[3,4]`. -/
def text (t : Tensor) : String :=
  t.dataType.letter.toString ++ "[" ++
    ",".intercalate (t.sizes.map fun size => Decimal.text size.toNat) ++ "]"

/-- Tensors are ordered by type, then by rank, then by their dimensions. -/
instance : Ord Tensor :=
  ⟨compareLex (compareOn Tensor.dataType)
    (compareLex (compareOn Tensor.rank) (compareOn Tensor.dimensions))⟩

instance : Std.TransOrd Tensor :=
  inferInstanceAs (Std.TransCmp (compareLex (compareOn Tensor.dataType)
    (compareLex (compareOn Tensor.rank) (compareOn Tensor.dimensions))))

instance : Std.LawfulEqOrd Tensor where
  eq_of_compare {x y} h := by
    obtain ⟨htype, h⟩ := compareLex_eq_eq.1 h
    obtain ⟨-, hdimensions⟩ := compareLex_eq_eq.1 h
    cases x
    cases y
    cases Std.LawfulEqOrd.eq_of_compare htype
    cases Std.LawfulEqOrd.eq_of_compare hdimensions
    rfl

end Tensor

end TensorContraction
