import TensorContraction.Descriptor
import TensorContraction.Problem.Order

/-!
# The order of problems is total

Keys are compared field by field, and each field by an order of its own: tensors and
profiles by their length first, lists and names letter by letter, types and kinds by their
tags. All of these are total orders in which only equal values compare as equal, and so is
the order of keys.

What is left to say is what the order of *problems* is about. The indices by role are part
of the key, and are computed from the other fields
(`TensorContraction.Problem.classification_eq_of_ids`): they may decide which of two
problems comes first, but not whether they are the same. That is
`TensorContraction.Problem.Agrees`, which mentions neither them, nor offsets, nor a count
that a descriptor remembers.
-/

namespace TensorContraction

namespace Problem

variable {p q : Problem}

/-! ### What identifies a problem -/

/-- **The same contraction**: two problems agree in all that a caller states, offsets
apart. -/
structure Agrees (p q : Problem) : Prop where
  /-- The outputs are the same. -/
  c : p.c = q.c
  /-- The left operands are the same. -/
  a : p.a = q.a
  /-- The right operands are the same. -/
  b : p.b = q.b
  /-- The operations are of the same kind. -/
  type : p.operation.type = q.operation.type
  /-- The types of `alpha` are the same. -/
  alpha : p.operation.alpha = q.operation.alpha
  /-- The types of `beta` are the same. -/
  beta : p.operation.beta = q.operation.beta
  /-- The left operands are assigned the same ids. -/
  idsA : p.idsA = q.idsA
  /-- The right operands are assigned the same ids. -/
  idsB : p.idsB = q.idsB
  /-- The profiles are the same. -/
  profile : p.profile = q.profile

/-- **The indices by role follow** from the rank of the output and the assignments. -/
theorem classification_eq_of_ids (hc : p.c.rank = q.c.rank) (hA : p.idsA = q.idsA)
    (hB : p.idsB = q.idsB) : p.classification = q.classification := by
  have hclassify : p.classify = q.classify := by
    rw [Description.classify, Description.classify, hc, hA, hB]
  rw [p.classify_eq, q.classify_eq] at hclassify
  exact Except.ok.inj hclassify

/-- **Problems have the same key** if and only if they are the same contraction. -/
theorem key_eq_iff_agrees : p.key = q.key ↔ p.Agrees q := by
  constructor
  -- the indices by role are the three fields of the key that are left out
  · intro h
    obtain ⟨hc, ha, hb, htype, halpha, hbeta, -, -, -, hidsA, hidsB, hprofile⟩ := Key.mk.inj h
    exact ⟨hc, ha, hb, htype, halpha, hbeta, hidsA, hidsB, hprofile⟩
  · rintro ⟨hc, ha, hb, htype, halpha, hbeta, hidsA, hidsB, hprofile⟩
    have hrank : p.c.rank = q.c.rank := congrArg Tensor.rank hc
    have hclassification := classification_eq_of_ids hrank hidsA hidsB
    rw [key, key, hc, ha, hb, htype, halpha, hbeta, hidsA, hidsB, hprofile, free, free, batch,
      batch, summation, summation, hclassification]

theorem beq_iff_agrees : (p == q) = true ↔ p.Agrees q :=
  beq_iff_key_eq.trans key_eq_iff_agrees

instance : Decidable (p.Agrees q) :=
  decidable_of_iff _ beq_iff_agrees

/-- Only equal problems compare as equal. -/
instance : Std.LawfulBEqOrd Problem where
  compare_eq_iff_beq := compare_eq_iff_key_eq.trans beq_iff_key_eq.symm

/-! ### What does not matter -/

/-- Offsets decide neither the order nor equality. -/
theorem compare_withOffsets (p q : Problem) (offsets offsets' : Bool) :
    compare (p.withOffsets offsets) (q.withOffsets offsets') = compare p q ∧
      (p.withOffsets offsets == q.withOffsets offsets') = (p == q) := by
  change compare (p.withOffsets offsets).key (q.withOffsets offsets').key = _ ∧
    ((p.withOffsets offsets).key == (q.withOffsets offsets').key) = _
  rw [key_withOffsets, key_withOffsets]
  exact ⟨rfl, rfl⟩

/-- A descriptor that is asked for its count is still one of the same problem. -/
theorem problem_numFlops (d : Descriptor) : d.numFlops.2.problem = d.problem :=
  rfl

/-! ### The order -/

/-- **Problems are totally ordered**, and compare as equal if and only if they are equal,
which is to say that they are the same contraction. Neither offsets nor remembered counts
matter, and the indices by role are the same wherever everything else is. -/
theorem compare_total (p q r : Problem) :
    compare p q = (compare q p).swap ∧
      ((compare p q).isLE = true → (compare q r).isLE = true → (compare p r).isLE = true) ∧
      (compare p q = .eq ↔ (p == q) = true) ∧
      ((p == q) = true ↔ p.Agrees q) ∧
      (∀ offsets offsets', compare (p.withOffsets offsets) (q.withOffsets offsets') = compare p q ∧
        (p.withOffsets offsets == q.withOffsets offsets') = (p == q)) ∧
      (∀ d e : Descriptor,
        compare d.numFlops.2.problem e.numFlops.2.problem = compare d.problem e.problem ∧
          (d.numFlops.2.problem == e.numFlops.2.problem) = (d.problem == e.problem)) ∧
      (p.c = q.c → p.idsA = q.idsA → p.idsB = q.idsB →
        p.free = q.free ∧ p.batch = q.batch ∧ p.summation = q.summation) := by
  refine ⟨Std.OrientedCmp.eq_swap, Std.TransCmp.isLE_trans, Std.LawfulBEqCmp.compare_eq_iff_beq,
    beq_iff_agrees, compare_withOffsets p q, ?_, ?_⟩
  · intro d e
    rw [problem_numFlops, problem_numFlops]
    exact ⟨rfl, rfl⟩
  · intro hc hA hB
    have hclassification := classification_eq_of_ids (congrArg Tensor.rank hc) hA hB
    rw [free, free, batch, batch, summation, summation, hclassification]
    exact ⟨rfl, rfl, rfl⟩

/-- A product of two matrices, scaled by numbers of the given type. -/
def scaledProduct (alpha : DataType) : Problem where
  c := .packed .single [4, 8]
  a := .packed .single [4, 3]
  b := .packed .single [8, 3]
  idsA := [0, 2]
  idsB := [1, 2]
  operation := ⟨.contraction, alpha, .absent, false⟩
  profile := .reference
  classification := ⟨[0, 1], [], [⟨1, 1⟩]⟩
  length_idsA := rfl
  length_idsB := rfl
  classify_eq := rfl

/-- A product that takes offsets is the same one, and those with wider scalars come after
both. -/
theorem compare_scaledProduct :
    (compare (scaledProduct .single) ((scaledProduct .single).withOffsets true)).isLE = true ∧
      (compare ((scaledProduct .single).withOffsets true) (scaledProduct .double)).isLE = true ∧
      (compare (scaledProduct .single) (scaledProduct .double)).isLE = true ∧
      (scaledProduct .single == (scaledProduct .single).withOffsets true) = true := by
  obtain ⟨-, htrans, -, hagrees, -⟩ := compare_total (scaledProduct .single)
    ((scaledProduct .single).withOffsets true) (scaledProduct .double)
  exact ⟨rfl, rfl, htrans rfl rfl, hagrees.2 ⟨rfl, rfl, rfl, rfl, rfl, rfl, rfl, rfl, rfl⟩⟩

end Problem

end TensorContraction
