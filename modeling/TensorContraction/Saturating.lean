/-!
# Saturating products

Strides, element counts and operation counts are products of sizes, and sizes are
64-bit words: four dimensions of a few thousand entries are enough to leave the
range. Every product of the library is therefore **saturating**: it is exact as
long as it fits, and stays at the greatest word once it does not.

The one thing to keep in mind is zero. A factor `0` gives `0` even after the
product has been held at the greatest word, so the order of the factors does not
matter; `TensorContraction.Saturating.toNat_mul` is the equation from which this
is read.
-/

namespace TensorContraction

namespace Saturating

/-- The product of two words, held at the greatest word if it does not fit. -/
def mul (x y : UInt64) : UInt64 :=
  UInt64.ofNat (min (x.toNat * y.toNat) (UInt64.size - 1))

/-- The product of a list of words, taken from the left and held at the greatest
word at every step. The empty product is `1`. -/
def product (factors : List UInt64) : UInt64 :=
  factors.foldl mul 1

/-- A saturating product is the exact product, cut at the greatest word. -/
theorem toNat_mul (x y : UInt64) :
    (mul x y).toNat = min (x.toNat * y.toNat) (UInt64.size - 1) := by
  have h : min (x.toNat * y.toNat) (UInt64.size - 1) < UInt64.size := by
    have : 0 < UInt64.size := by decide
    omega
  rw [mul, UInt64.toNat_ofNat_of_lt' h]

end Saturating

end TensorContraction
