import TensorContraction.Device
import TensorContraction.Index.Classification
import TensorContraction.Operation
import TensorContraction.Tensor

/-!
# Contraction problems

A **description** says what a caller knows about a contraction `C = Sum A * B`:
the three tensors, the global index of every dimension of `A` and `B`, the
operation and the profile of devices. A **problem** is a description whose indices
have been classified, and `TensorContraction.Problem.ofDescription` is the only
way to get one: it asks that the operands have as many assignments as dimensions,
`A` before `B`, and that every index have a role.

Nothing about sizes is asked here. A problem may be geometric nonsense –
`TensorContraction.Problem.validate` tells – and is a problem all the same.
-/

namespace TensorContraction

/-! ### Descriptions -/

/-- What a caller states about a contraction. -/
structure Description where
  /-- The output tensor. -/
  c : Tensor
  /-- The left operand. -/
  a : Tensor
  /-- The right operand. -/
  b : Tensor
  /-- The global index of each dimension of `A`. -/
  idsA : List UInt64
  /-- The global index of each dimension of `B`. -/
  idsB : List UInt64
  /-- The operation. -/
  operation : Operation
  /-- The devices that the contraction is meant to run on. -/
  profile : DeviceProfile
deriving DecidableEq

namespace Description

/-- The classification of the indices that a description assigns. -/
def classify (d : Description) : Except ProblemError Classification :=
  Classification.ofIds d.c.rank (d.idsA.map UInt64.toNat) (d.idsB.map UInt64.toNat)

/-- The same description with offsets switched on or off. -/
def withOffsets (d : Description) (enabled : Bool) : Description :=
  { d with operation := d.operation.withOffsets enabled }

/-- The same description with every device under a safe name. -/
def withSafeNames (d : Description) : Description :=
  { d with profile := d.profile.withSafeNames }

end Description

/-! ### Problems -/

/-- A contraction whose indices are classified. -/
structure Problem extends Description where
  /-- The indices by role. -/
  classification : Classification
  /-- Every dimension of `A` has an index. -/
  length_idsA : idsA.length = a.rank
  /-- Every dimension of `B` has an index. -/
  length_idsB : idsB.length = b.rank
  /-- The classification is that of the description. -/
  classify_eq : toDescription.classify = .ok classification

namespace Problem

/-- The refusal of an operand with the wrong number of assignments. -/
def assignmentCountError (operand : String) (rank count : Nat) : ProblemError :=
  .notSupported (operand ++ " has " ++ Decimal.text rank ++ " dims but " ++
    Decimal.text count ++ " index assignments")

/-- **The problem of a description**: both operands have as many assignments as
dimensions, and every index has a role. -/
def ofDescription (d : Description) : Except ProblemError Problem :=
  if hA : d.idsA.length = d.a.rank then
    if hB : d.idsB.length = d.b.rank then
      match hk : d.classify with
      | .error e => .error e
      | .ok k => .ok ⟨d, k, hA, hB, hk⟩
    else
      .error (assignmentCountError "B" d.b.rank d.idsB.length)
  else
    .error (assignmentCountError "A" d.a.rank d.idsA.length)

/-- A problem is determined by its description. -/
theorem ext_description {p q : Problem} (h : p.toDescription = q.toDescription) : p = q := by
  obtain ⟨d, k, hA, hB, hk⟩ := p
  obtain ⟨d', k', hA', hB', hk'⟩ := q
  obtain rfl : d = d' := h
  obtain rfl : k = k' := Except.ok.inj (hk.symm.trans hk')
  rfl

/-- The description of a problem is that of no other one. -/
theorem ofDescription_toDescription (p : Problem) : ofDescription p.toDescription = .ok p := by
  obtain ⟨d, k, hA, hB, hk⟩ := p
  rw [ofDescription, dif_pos hA, dif_pos hB]
  split
  · next e he => rw [hk] at he; cases he
  · next k' hk' => cases Except.ok.inj (hk.symm.trans hk'); rfl

/-- The description of a problem that has been formed is the one it was formed
from. -/
theorem toDescription_of_ofDescription {d : Description} {p : Problem}
    (h : ofDescription d = .ok p) : p.toDescription = d := by
  unfold ofDescription at h
  split at h
  · split at h
    · split at h
      · cases h
      · cases h; rfl
    · cases h
  · cases h

/-- The same problem with offsets switched on or off: the indices do not depend on
them. -/
def withOffsets (p : Problem) (enabled : Bool) : Problem :=
  ⟨p.toDescription.withOffsets enabled, p.classification, p.length_idsA, p.length_idsB,
    p.classify_eq⟩

/-! ### Indices -/

/-- The indices in `C` and exactly one operand, ascending. -/
def free (p : Problem) : List Nat :=
  p.classification.free

/-- The indices in `C` and both operands, ascending. -/
def batch (p : Problem) : List Nat :=
  p.classification.batch

/-- The indices that are summed over, by ascending id. -/
def summation (p : Problem) : List SummationPair :=
  p.classification.summation

/-! ### Legs

A dimension of an operand, together with the index it is assigned, is a **leg** of
the contraction. Operands have no other structure that matters to a problem, and
whatever is said about their dimensions below is said about legs. -/

/-- A dimension of an operand with its global index. -/
structure Leg where
  /-- The global index. -/
  id : Nat
  /-- The number of entries along the dimension. -/
  size : UInt64
deriving DecidableEq

/-- The legs of a tensor whose dimensions are assigned the given ids. -/
def legs (ids : List UInt64) (t : Tensor) : List Leg :=
  List.zipWith (fun id size => ⟨id.toNat, size⟩) ids t.sizes

/-- The legs of the left operand. -/
def legsA (p : Problem) : List Leg :=
  legs p.idsA p.a

/-- The legs of the right operand. -/
def legsB (p : Problem) : List Leg :=
  legs p.idsB p.b

theorem length_legsA (p : Problem) : p.legsA.length = p.a.rank := by
  simp [legsA, legs, Tensor.sizes, Tensor.rank, p.length_idsA]

/-! ### Scalars -/

/-- Whether the operation has a scalar `alpha`. -/
def usesAlpha (p : Problem) : Bool :=
  p.operation.alpha != .absent

/-- Whether the operation has a scalar `beta`. -/
def usesBeta (p : Problem) : Bool :=
  p.operation.beta != .absent

/-! ### Cost -/

/-- **The operation count** of a problem: one multiply-add, in operations of the
output's type, for every element of the output and every combination of the
indices that are summed over. The product saturates. -/
def numFlops (p : Problem) : UInt64 :=
  let summed := p.legsA.filter fun leg => p.c.rank ≤ leg.id
  Saturating.mul (Saturating.mul p.c.dataType.flopsPerMadd p.c.numElements)
    (Saturating.product (summed.map Leg.size))

end Problem

end TensorContraction
