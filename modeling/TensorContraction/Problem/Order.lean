import TensorContraction.Problem.Basic

/-!
# The order of problems

Problems are keys: tuned kernels are looked up by the problem they solve. What
identifies a problem is its **key** – the tensors, the kind of operation and the
types of its scalars, the classified indices, the assignments and the devices, in
this order of precedence. Whether tensors come with offsets is not part of it, so
two problems that differ in that alone are the same key.

Comparison, equality and hashing all go through the key.
-/

namespace TensorContraction

namespace Problem

/-- What identifies a problem, in the order of comparison. -/
structure Key where
  /-- The output tensor. -/
  c : Tensor
  /-- The left operand. -/
  a : Tensor
  /-- The right operand. -/
  b : Tensor
  /-- The kind of the operation. -/
  type : OperationType
  /-- The type of `alpha`. -/
  alpha : DataType
  /-- The type of `beta`. -/
  beta : DataType
  /-- The free indices. -/
  free : List Nat
  /-- The batch indices. -/
  batch : List Nat
  /-- The indices that are summed over. -/
  summation : List SummationPair
  /-- The global index of each dimension of `A`. -/
  idsA : List UInt64
  /-- The global index of each dimension of `B`. -/
  idsB : List UInt64
  /-- The devices. -/
  profile : DeviceProfile
deriving DecidableEq, Hashable

/-- Keys are compared field by field, in the order of the fields. -/
def Key.compare : Key → Key → Ordering :=
  compareLex (compareOn Key.c)
    (compareLex (compareOn Key.a)
    (compareLex (compareOn Key.b)
    (compareLex (compareOn Key.type)
    (compareLex (compareOn Key.alpha)
    (compareLex (compareOn Key.beta)
    (compareLex (compareOn Key.free)
    (compareLex (compareOn Key.batch)
    (compareLex (compareOn Key.summation)
    (compareLex (compareOn Key.idsA)
    (compareLex (compareOn Key.idsB) (compareOn Key.profile)))))))))))

instance : Ord Key := ⟨Key.compare⟩

instance : Std.TransOrd Key := by
  unfold Std.TransOrd
  change Std.TransCmp Key.compare
  unfold Key.compare
  infer_instance

instance : Std.LawfulEqOrd Key where
  eq_of_compare {x y} h := by
    obtain ⟨hc, h⟩ := compareLex_eq_eq.1 h
    obtain ⟨ha, h⟩ := compareLex_eq_eq.1 h
    obtain ⟨hb, h⟩ := compareLex_eq_eq.1 h
    obtain ⟨htype, h⟩ := compareLex_eq_eq.1 h
    obtain ⟨halpha, h⟩ := compareLex_eq_eq.1 h
    obtain ⟨hbeta, h⟩ := compareLex_eq_eq.1 h
    obtain ⟨hfree, h⟩ := compareLex_eq_eq.1 h
    obtain ⟨hbatch, h⟩ := compareLex_eq_eq.1 h
    obtain ⟨hsummation, h⟩ := compareLex_eq_eq.1 h
    obtain ⟨hidsA, h⟩ := compareLex_eq_eq.1 h
    obtain ⟨hidsB, hprofile⟩ := compareLex_eq_eq.1 h
    cases x
    cases y
    cases Std.LawfulEqOrd.eq_of_compare hc
    cases Std.LawfulEqOrd.eq_of_compare ha
    cases Std.LawfulEqOrd.eq_of_compare hb
    cases Std.LawfulEqOrd.eq_of_compare htype
    cases Std.LawfulEqOrd.eq_of_compare halpha
    cases Std.LawfulEqOrd.eq_of_compare hbeta
    cases Std.LawfulEqOrd.eq_of_compare hfree
    cases Std.LawfulEqOrd.eq_of_compare hbatch
    cases Std.LawfulEqOrd.eq_of_compare hsummation
    cases Std.LawfulEqOrd.eq_of_compare hidsA
    cases Std.LawfulEqOrd.eq_of_compare hidsB
    cases Std.LawfulEqOrd.eq_of_compare hprofile
    rfl

/-- The key of a problem. -/
def key (p : Problem) : Key where
  c := p.c
  a := p.a
  b := p.b
  type := p.operation.type
  alpha := p.operation.alpha
  beta := p.operation.beta
  free := p.free
  batch := p.batch
  summation := p.summation
  idsA := p.idsA
  idsB := p.idsB
  profile := p.profile

/-- Problems are ordered by their keys. -/
instance : Ord Problem := ⟨compareOn key⟩

instance : Std.TransOrd Problem :=
  inferInstanceAs (Std.TransCmp (compareOn key))

/-- Problems are the same if their keys are. -/
instance : BEq Problem := ⟨fun p q => p.key == q.key⟩

instance : Hashable Problem := ⟨fun p => hash p.key⟩

/-- The order holds two problems equal if and only if they have the same key. -/
theorem compare_eq_iff_key_eq {p q : Problem} : compare p q = .eq ↔ p.key = q.key :=
  show compare p.key q.key = .eq ↔ p.key = q.key from Std.LawfulEqOrd.compare_eq_iff_eq

/-- So does the equality of problems. -/
theorem beq_iff_key_eq {p q : Problem} : (p == q) = true ↔ p.key = q.key :=
  show (p.key == q.key) = true ↔ p.key = q.key from beq_iff_eq

/-- Offsets are not part of the key. -/
theorem key_withOffsets (p : Problem) (enabled : Bool) : (p.withOffsets enabled).key = p.key :=
  rfl

end Problem

end TensorContraction
