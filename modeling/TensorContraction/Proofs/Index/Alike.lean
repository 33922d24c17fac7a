import TensorContraction.Proofs.Index.Partition

/-!
# Assignments that use ids alike

What a classification makes of an id depends on little: on whether the operands use it, both
of them or one. Which of the operands it is that uses an id alone does not matter, nor do the
positions or how often an id is repeated; only the number of assignments of the left operand
enters, through the bound on the ids. This file has the relation between assignments that
agree in this (`TensorContraction.UseAlike`), and what follows for an id: it has a role in
both or in neither, and the same role. So the same id is blamed, if any is
(`TensorContraction.UseAlike.ofIds_eq_error_iff`).

There are two ways to get such assignments. One exchanges the operands, which have to be of
the same rank (`TensorContraction.UseAlike.exchange`), the other lists the dimensions of each
operand in another order (`TensorContraction.UseAlike.of_perm`).
-/

namespace TensorContraction

/-- **Assignments that use ids alike**: the same ids are used by an operand, and the same by
both. -/
structure UseAlike (a b a' b' : List Nat) : Prop where
  /-- The left operands have as many dimensions. -/
  length_eq : a'.length = a.length
  /-- The same ids are in use. -/
  either : ∀ id, id ∈ a' ∨ id ∈ b' ↔ id ∈ a ∨ id ∈ b
  /-- The same ids are shared. -/
  both : ∀ id, id ∈ a' ∧ id ∈ b' ↔ id ∈ a ∧ id ∈ b

namespace UseAlike

/-- Operands of the same rank can be exchanged. -/
theorem exchange {a b : List Nat} (h : a.length = b.length) : UseAlike a b b a where
  length_eq := h.symm
  either _ := or_comm
  both _ := and_comm

/-- The dimensions of an operand can be listed in any order. -/
theorem of_perm {a b a' b' : List Nat} (hA : a'.Perm a) (hB : b'.Perm b) : UseAlike a b a' b' where
  length_eq := hA.length_eq
  either _ := by rw [hA.mem_iff, hB.mem_iff]
  both _ := by rw [hA.mem_iff, hB.mem_iff]

variable {a b a' b' : List Nat} (h : UseAlike a b a' b')
include h

/-- An id that is used by one operand alone is so in both assignments. -/
theorem same_iff (id : Nat) : (id ∈ a' ↔ id ∈ b') ↔ (id ∈ a ↔ id ∈ b) := by
  have heither := h.either id
  have hboth := h.both id
  tauto

/-- **The same ids have roles.** -/
theorem hasRole_iff (rankC id : Nat) : HasRole rankC a' b' id ↔ HasRole rankC a b id := by
  unfold HasRole
  split
  · exact h.either id
  · exact h.same_iff id

theorem isFree_iff (rankC id : Nat) : IsFree rankC a' b' id ↔ IsFree rankC a b id :=
  and_congr_right' (not_congr (h.same_iff id))

theorem isBatch_iff (rankC id : Nat) : IsBatch rankC a' b' id ↔ IsBatch rankC a b id :=
  and_congr_right' (h.both id)

theorem isSummed_iff (rankC id : Nat) : IsSummed rankC a' b' id ↔ IsSummed rankC a b id :=
  and_congr_right' (h.both id)

/-- **The same id is blamed**, if any is. -/
theorem ofIds_eq_error_iff (rankC : Nat) {e : ProblemError} :
    Classification.ofIds rankC a' b' = .error e ↔ Classification.ofIds rankC a b = .error e := by
  simp only [Classification.ofIds, Classification.scan_eq, h.length_eq, h.hasRole_iff]
  split
  · exact Iff.rfl
  · simp only [reduceCtorEq]

end UseAlike

end TensorContraction
