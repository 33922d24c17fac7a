import TensorContraction.Index.Name
import TensorContraction.Problem.Basic

/-!
# The formula of a problem

A problem on one line, as in `C[i:4,j:8] = Sum(k:3) A[k,i] * B[k,j]`. The output
and the indices that are summed over come with sizes, the operands do not: theirs
follow from the names.

The size of a summed index is that of the dimension of `A` which carries it.
-/

namespace TensorContraction

namespace Problem

/-- An index with its size, as in `i:4`. -/
def sizedIndex (leg : Leg) : String :=
  indexName leg.id ++ ":" ++ Decimal.text leg.size.toNat

/-- The legs of the output: its dimensions carry the ids from `0` up. -/
def legsC (p : Problem) : List Leg :=
  p.c.sizes.mapIdx fun id size => ⟨id, size⟩

/-- The legs of the left operand that are summed over, by ascending id. -/
def summedLegs (p : Problem) : List Leg :=
  p.summation.filterMap fun pair => p.legsA[pair.inA]?

/-- The indices of an operand, as in `k,i`. -/
def operandIndices (ids : List UInt64) : String :=
  ",".intercalate (ids.map fun id => indexName id.toNat)

/-- **The formula** of a problem. -/
def formula (p : Problem) : String :=
  "C[" ++ ",".intercalate (p.legsC.map sizedIndex) ++
    "] = Sum(" ++ ",".intercalate (p.summedLegs.map sizedIndex) ++
    ") A[" ++ operandIndices p.idsA ++
    "] * B[" ++ operandIndices p.idsB ++ "]"

end Problem

end TensorContraction
