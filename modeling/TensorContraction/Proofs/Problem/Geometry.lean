import TensorContraction.Proofs.Index.Census
import TensorContraction.Proofs.Problem.Rules

/-!
# The geometry of products of matrices

The rules of validation compare numbers of indices, bounds on ids and sizes found by
search. This file says what they come to: a problem is accepted if and only if it is a
product of matrices, possibly in a batch, written down without gaps.

**The ids.** `TensorContraction.Problem.IsContraction` says that the ids of the operands
are those of the output, followed by `s` others that both operands use, that no operand
uses an id twice, and that each operand has as many indices of its own as the other. The
rules see `s` as the number of summation pairs, and the ids beyond the output as a list of
that many numbers below a bound: such a list has no gap.

**The sizes.** Every rule on sizes compares two legs. That they all hold means that there
is one extent for each id (`TensorContraction.Problem.IsContraction.validateSizes_iff`).

The theorem is `TensorContraction.Problem.validate_eq_ok_iff`.
-/

namespace TensorContraction

namespace Problem

/-! ### The ids -/

/-- **A contraction without gaps** that sums over `s` indices. -/
structure IsContraction (p : Problem) (s : Nat) : Prop where
  /-- Something is summed over. -/
  sum_pos : 1 ≤ s
  /-- The left operand uses no id twice. -/
  nodupA : p.usedA.Nodup
  /-- The right operand uses no id twice. -/
  nodupB : p.usedB.Nodup
  /-- The ids in use are those of the output and `s` more. -/
  lt_of_used : ∀ id, id ∈ p.usedA ∨ id ∈ p.usedB → id < p.c.rank + s
  /-- What is not in the output is in both operands. -/
  used_beyond : ∀ id, p.c.rank ≤ id → id < p.c.rank + s → id ∈ p.usedA ∧ id ∈ p.usedB
  /-- The operands have equally many indices of their own. -/
  length_own : (ownIds p.c.rank p.usedA p.usedB).length =
    (ownIds p.c.rank p.usedB p.usedA).length
  /-- Each operand has an index of its own. -/
  own_pos : 1 ≤ (ownIds p.c.rank p.usedA p.usedB).length

namespace IsContraction

variable {p : Problem} {s : Nat} (h : p.IsContraction s)
include h

theorem rank_a : p.a.rank = (ownIds p.c.rank p.usedA p.usedB).length + p.batch.length + s := by
  rw [← length_usedA, batch_eq_sharedIds]
  refine length_eq_of_nodup h.nodupA ?_ ?_
  · intro id hid
    exact h.lt_of_used id (.inl hid)
  · intro id hle hlt
    exact (h.used_beyond id hle hlt).1

theorem rank_b : p.b.rank = (ownIds p.c.rank p.usedB p.usedA).length + p.batch.length + s := by
  rw [← length_usedB, batch_eq_sharedIds, sharedIds_comm]
  refine length_eq_of_nodup h.nodupB ?_ ?_
  · intro id hid
    exact h.lt_of_used id (.inr hid)
  · intro id hle hlt
    exact (h.used_beyond id hle hlt).2

/-- The operands have the same rank. -/
theorem rank_eq : p.a.rank = p.b.rank := by
  rw [h.rank_a, h.rank_b, h.length_own]

/-- **The ids that are summed over** are those between the output and the bound. -/
theorem perm_summed : p.summed.Perm (List.range' p.c.rank s) := by
  have hrank := h.rank_a
  refine (List.perm_ext_iff_of_nodup p.nodup_summed List.nodup_range').2 ?_
  intro id
  rw [mem_summed, List.mem_range'_1]
  constructor
  · rintro ⟨hle, -, hA, -⟩
    exact ⟨hle, h.lt_of_used id (.inl hA)⟩
  · rintro ⟨hle, hlt⟩
    exact ⟨hle, by omega, h.used_beyond id hle hlt⟩

/-- **The number of summed indices** is the number of summation pairs. -/
theorem eq_length_summation : s = p.summation.length := by
  rw [← length_summed, h.perm_summed.length_eq, List.length_range']

/-- The rules on counts accept a contraction without gaps. -/
theorem validateIndexCounts : p.validateIndexCounts = .ok () := by
  have hfree := p.length_free
  have hown := h.length_own
  have hpos := h.own_pos
  have hsum := h.sum_pos
  have hlength := h.eq_length_summation
  have hrank := h.rank_a
  refine validateIndexCounts_eq_ok_iff.2 ⟨⟨by omega, by omega⟩, by omega, ?_, by omega⟩
  exact p.length_free_add_batch

/-- The rule on ids accepts a contraction without gaps. -/
theorem validateAssignments : p.validateAssignments = .ok () := by
  refine (validateAssignments_eq_ok_iff h.rank_eq).2 ⟨?_, h.nodupA, h.nodupB⟩
  intro id hid
  have hlt := h.lt_of_used id hid
  have houtput := p.length_free_add_batch
  have hlength := h.eq_length_summation
  rw [maxIndex]
  omega

end IsContraction

/-- **The rules on ids** accept a problem if and only if it is a contraction without gaps. -/
theorem exists_isContraction_iff {p : Problem} :
    (∃ s, p.IsContraction s) ↔
      p.validateRanks = .ok () ∧ p.validateIndexCounts = .ok () ∧
        p.validateAssignments = .ok () := by
  constructor
  · rintro ⟨s, h⟩
    exact ⟨validateRanks_eq_ok_iff.2 h.rank_eq, h.validateIndexCounts, h.validateAssignments⟩
  · rintro ⟨hranks, hcounts, hassignments⟩
    have hrank := validateRanks_eq_ok_iff.1 hranks
    obtain ⟨⟨-, htwo⟩, -, houtput, hsum⟩ := validateIndexCounts_eq_ok_iff.1 hcounts
    obtain ⟨hmax, hnodupA, hnodupB⟩ := (validateAssignments_eq_ok_iff hrank).1 hassignments
    have hlt : ∀ id, id ∈ p.usedA ∨ id ∈ p.usedB → id < p.c.rank + p.summation.length := by
      intro id hid
      have hle := hmax id hid
      rw [maxIndex] at hle
      omega
    -- there are as many summed ids as numbers between the output and the bound
    have hbeyond : ∀ id, p.c.rank ≤ id → id < p.c.rank + p.summation.length →
        id ∈ p.usedA ∧ id ∈ p.usedB := by
      intro id hle hid
      have hsummed : id ∈ p.summed := by
        refine mem_of_length_eq p.nodup_summed ?_ ?_ p.length_summed hle hid
        · intro i hi
          exact ((mem_summed p).1 hi).1
        · intro i hi
          exact hlt i (.inl ((mem_summed p).1 hi).2.2.1)
      exact ((mem_summed p).1 hsummed).2.2
    -- the operands have the same rank and share the batch and the summed indices
    have hA : p.a.rank = (ownIds p.c.rank p.usedA p.usedB).length +
        (sharedIds p.c.rank p.usedA p.usedB).length + p.summation.length := by
      rw [← length_usedA]
      refine length_eq_of_nodup hnodupA ?_ ?_
      · intro id hid
        exact hlt id (.inl hid)
      · intro id hle hid
        exact (hbeyond id hle hid).1
    have hB : p.b.rank = (ownIds p.c.rank p.usedB p.usedA).length +
        (sharedIds p.c.rank p.usedA p.usedB).length + p.summation.length := by
      rw [← length_usedB, sharedIds_comm]
      refine length_eq_of_nodup hnodupB ?_ ?_
      · intro id hid
        exact hlt id (.inr hid)
      · intro id hle hid
        exact (hbeyond id hle hid).2
    have hfree := p.length_free
    exact ⟨p.summation.length, hsum, hnodupA, hnodupB, hlt, hbeyond, by omega, by omega⟩

/-! ### The sizes -/

/-- **An extent for each id**: all dimensions that carry the id have that size. -/
def HasExtents (p : Problem) (extent : Nat → UInt64) : Prop :=
  ∀ leg, leg ∈ p.legsC ∨ leg ∈ p.legsA ∨ leg ∈ p.legsB → leg.size = extent leg.id

/-- Legs with different ids can have any sizes. -/
theorem exists_extent {l : List Leg} (hl : (l.map Leg.id).Nodup) :
    ∃ extent : Nat → UInt64, ∀ leg ∈ l, leg.size = extent leg.id := by
  refine ⟨fun id => ((l.find? fun leg => leg.id == id).map Leg.size).getD 0, fun leg hleg => ?_⟩
  simp only [(find?_key_eq_some_iff Leg.id hl).2 ⟨hleg, rfl⟩, Option.map_some, Option.getD_some]

/-- **The expected size is the extent** of an id, if the legs that it is looked up in carry
the id or the output does. -/
theorem HasExtents.expectedSize {p : Problem} {extent : Nat → UInt64} (h : p.HasExtents extent)
    {other : List Leg} (hother : ∀ leg ∈ other, leg ∈ p.legsA ∨ leg ∈ p.legsB)
    (hnodup : (other.map Leg.id).Nodup) {leg : Leg} (hleg : leg ∈ p.legsA ∨ leg ∈ p.legsB)
    (hbeyond : p.c.rank ≤ leg.id → leg.id ∈ other.map Leg.id) :
    Problem.expectedSize p.c other leg.id = .ok leg.size := by
  rw [expectedSize_eq_ok_iff hnodup]
  have hsize := h leg (.inr hleg)
  by_cases hid : leg.id < p.c.rank
  -- the output has a leg with this id, and one extent
  · have hC : ⟨leg.id, (p.c.dimensions.get ⟨leg.id, hid⟩).size⟩ ∈ p.legsC :=
      mem_legsC.2 ⟨hid, rfl⟩
    have hsizeC := h _ (.inl hC)
    rw [hsize, ← hsizeC]
    exact .inl hC
  -- the other operand has one, with the same extent
  · have hle := Nat.le_of_not_lt hid
    obtain ⟨leg', hleg', hid'⟩ := List.mem_map.1 (hbeyond hle)
    have hsize' := h leg' (.inr (hother leg' hleg'))
    rw [hsize, ← hid', ← hsize']
    exact .inr ⟨hid' ▸ hle, hleg'⟩

/-- **The rule on sizes** accepts a contraction without gaps if and only if there is an
extent for each id. -/
theorem IsContraction.validateSizes_iff {p : Problem} {s : Nat} (h : p.IsContraction s) :
    p.validateSizes = .ok () ↔ ∃ extent, p.HasExtents extent := by
  have hnodupA : (p.legsA.map Leg.id).Nodup := by rw [map_id_legsA]; exact h.nodupA
  have hnodupB : (p.legsB.map Leg.id).Nodup := by rw [map_id_legsB]; exact h.nodupB
  rw [validateSizes_eq_ok_iff]
  constructor
  · rintro ⟨hA, hB⟩
    simp only [expectedSize_eq_ok_iff hnodupA, expectedSize_eq_ok_iff hnodupB] at hA hB
    -- the legs of the output, and those of one operand beyond it, say all sizes
    have hnodup : ((p.legsC ++ p.legsB.filter fun leg => p.c.rank ≤ leg.id).map Leg.id).Nodup := by
      rw [List.map_append, List.nodup_append]
      refine ⟨?_, hnodupB.sublist (List.filter_sublist.map _), ?_⟩
      · rw [map_id_legsC]
        exact List.nodup_range
      · rintro id hC id' hB rfl
        rw [map_id_legsC, List.mem_range] at hC
        obtain ⟨leg, hleg, rfl⟩ := List.mem_map.1 hB
        have hle := of_decide_eq_true (List.mem_filter.1 hleg).2
        omega
    obtain ⟨extent, hextent⟩ := exists_extent hnodup
    have hfiltered : ∀ leg ∈ p.legsB, p.c.rank ≤ leg.id → leg.size = extent leg.id :=
      fun leg hleg hle => hextent leg
        (List.mem_append_right _ (List.mem_filter.2 ⟨hleg, decide_eq_true hle⟩))
    refine ⟨extent, ?_⟩
    rintro leg (hleg | hleg | hleg)
    · exact hextent leg (List.mem_append_left _ hleg)
    · rcases hA leg hleg with hC | ⟨hle, hother⟩
      · exact hextent leg (List.mem_append_left _ hC)
      · exact hfiltered leg hother hle
    · rcases hB leg hleg with hC | ⟨hle, -⟩
      · exact hextent leg (List.mem_append_left _ hC)
      · exact hfiltered leg hleg hle
  · rintro ⟨extent, hextent⟩
    constructor
    · intro leg hleg
      refine hextent.expectedSize (fun _ => .inr) hnodupB (.inl hleg) fun hle => ?_
      have hid : leg.id ∈ p.usedA := map_id_legsA p ▸ List.mem_map_of_mem hleg
      rw [map_id_legsB]
      exact (h.used_beyond leg.id hle (h.lt_of_used leg.id (.inl hid))).2
    · intro leg hleg
      refine hextent.expectedSize (fun _ => .inl) hnodupA (.inr hleg) fun hle => ?_
      have hid : leg.id ∈ p.usedB := map_id_legsB p ▸ List.mem_map_of_mem hleg
      rw [map_id_legsA]
      exact (h.used_beyond leg.id hle (h.lt_of_used leg.id (.inr hid))).1

/-! ### Acceptance -/

/-- **A product of matrices** that the settings allow: a contraction without gaps, on a
supported number of devices, with an extent for each id if sizes are checked. -/
structure IsProduct (p : Problem) (config : ValidationConfig) (s : Nat) : Prop
    extends p.IsContraction s where
  /-- There is a device. -/
  devices_pos : 1 ≤ p.profile.numDevices
  /-- There are not too many devices. -/
  devices_le : p.profile.numDevices ≤ config.maxDevices.toNat
  /-- The sizes agree, if they are compared. -/
  extents : config.checkSizes = true → ∃ extent, p.HasExtents extent

/-- **Validation accepts the products of matrices**, and only them; what they sum over is
the list of summation pairs, and their operands have the same rank. -/
theorem validate_eq_ok_iff (p : Problem) (config : ValidationConfig) :
    (p.validate config = .ok () ↔ ∃ s, p.IsProduct config s) ∧
      ∀ s, p.IsProduct config s → s = p.summation.length ∧ p.a.rank = p.b.rank := by
  constructor
  · rw [validate_eq_ok_iff_rules, validateDevices_eq_ok_iff]
    constructor
    · rintro ⟨hranks, hcounts, hassignments, hsizes, hpos, hle⟩
      obtain ⟨s, h⟩ := exists_isContraction_iff.2 ⟨hranks, hcounts, hassignments⟩
      refine ⟨s, h, hpos, hle, ?_⟩
      intro hcheck
      exact h.validateSizes_iff.1 (hsizes hcheck)
    · rintro ⟨s, h⟩
      obtain ⟨hranks, hcounts, hassignments⟩ := exists_isContraction_iff.1 ⟨s, h.toIsContraction⟩
      refine ⟨hranks, hcounts, hassignments, ?_, h.devices_pos, h.devices_le⟩
      intro hcheck
      exact h.toIsContraction.validateSizes_iff.2 (h.extents hcheck)
  · intro s h
    exact ⟨h.eq_length_summation, h.rank_eq⟩

/-- A batch of two products of matrices, with the summed index last in the left operand
and first in the right one. -/
def batchedProduct : Problem where
  c := .packed .single [4, 8, 2]
  a := .packed .single [2, 4, 3]
  b := .packed .single [3, 8, 2]
  idsA := [2, 0, 3]
  idsB := [3, 1, 2]
  operation := .gemm .single
  profile := ⟨[⟨"gfx803", 64, 1050, 4294967295⟩]⟩
  classification := ⟨[0, 1], [2], [⟨2, 0⟩]⟩
  length_idsA := rfl
  length_idsB := rfl
  classify_eq := rfl

/-- Products in a batch are accepted, and thus have an extent for each id. -/
theorem isProduct_batchedProduct :
    batchedProduct.IsProduct .standard 1 ∧ ∃ extent, batchedProduct.HasExtents extent := by
  obtain ⟨s, h⟩ := (validate_eq_ok_iff batchedProduct .standard).1.1 rfl
  obtain ⟨rfl, -⟩ := (validate_eq_ok_iff batchedProduct .standard).2 s h
  exact ⟨h, h.extents rfl⟩

end Problem

end TensorContraction
