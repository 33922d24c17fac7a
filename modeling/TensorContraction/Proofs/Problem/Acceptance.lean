import TensorContraction.Proofs.Problem.Geometry
import TensorContraction.Proofs.Saturating

/-!
# What accepted problems have in common

Two problems are often to be compared of which one was made from the other: with the operands
exchanged, say, or with their dimensions listed in another order. What has to be compared is
little. Whether a problem is accepted depends on its being a contraction without gaps, on
there being extents, and on the devices
(`TensorContraction.Problem.validate_eq_ok_iff_isContraction`). The operation count of a
contraction with extents depends on these and on the output alone: the sizes of the legs
that are summed over are the extents of the ids beyond the output, in some order
(`TensorContraction.Problem.IsContraction.numFlops_eq`).
-/

namespace TensorContraction

namespace Problem

/-! ### Acceptance -/

/-- **A problem is accepted** if and only if it is a contraction without gaps, has extents if
sizes are checked, and a supported number of devices. -/
theorem validate_eq_ok_iff_isContraction {p : Problem} {config : ValidationConfig} :
    p.validate config = .ok () ↔
      ∃ s, p.IsContraction s ∧ (config.checkSizes = true → ∃ extent, p.HasExtents extent) ∧
        p.validateDevices config.maxDevices = .ok () := by
  rw [validate_eq_ok_iff_rules, ← and_assoc, ← and_assoc, and_assoc (a := p.validateRanks = .ok ()),
    ← exists_isContraction_iff]
  constructor
  · rintro ⟨⟨s, h⟩, hsizes, hdevices⟩
    exact ⟨s, h, fun hcheck => h.validateSizes_iff.1 (hsizes hcheck), hdevices⟩
  · rintro ⟨s, h, hextents, hdevices⟩
    exact ⟨⟨s, h⟩, fun hcheck => h.validateSizes_iff.2 (hextents hcheck), hdevices⟩

/-- **Acceptance carries over** to a problem with the same devices, if what is a contraction
without gaps and has extents does. -/
theorem validate_eq_ok_of {p q : Problem}
    (hcontraction : ∀ s, p.IsContraction s → q.IsContraction s)
    (hextents : ∀ extent, p.HasExtents extent → q.HasExtents extent)
    (hprofile : q.profile = p.profile) {config : ValidationConfig}
    (h : p.validate config = .ok ()) : q.validate config = .ok () := by
  obtain ⟨s, hs, hsizes, hdevices⟩ := validate_eq_ok_iff_isContraction.1 h
  refine validate_eq_ok_iff_isContraction.2 ⟨s, hcontraction s hs, ?_, ?_⟩
  · intro hcheck
    exact (hsizes hcheck).imp hextents
  · rw [validateDevices, hprofile]
    exact hdevices

/-! ### The operation count -/

/-- The sizes of the dimensions of the left operand that are summed over. -/
def summedSizes (p : Problem) : List UInt64 :=
  (p.legsA.filter fun leg => p.c.rank ≤ leg.id).map Leg.size

theorem numFlops_eq (p : Problem) : p.numFlops =
    Saturating.mul (Saturating.mul p.c.dataType.flopsPerMadd p.c.numElements)
      (Saturating.product p.summedSizes) :=
  rfl

/-- The order of the dimensions does not matter to the operation count. -/
theorem numFlops_eq_of_perm {p q : Problem} (hc : q.c = p.c)
    (h : q.summedSizes.Perm p.summedSizes) : q.numFlops = p.numFlops := by
  rw [numFlops_eq, numFlops_eq, hc, Saturating.product_eq_of_perm h]

namespace IsContraction

variable {p : Problem} {s : Nat} {extent : Nat → UInt64}

/-- **The sizes that are summed over** are the extents of the ids beyond the output. -/
theorem perm_summedSizes (h : p.IsContraction s) (hextent : p.HasExtents extent) :
    p.summedSizes.Perm ((List.range' p.c.rank s).map extent) := by
  have hsizes : p.summedSizes =
      ((p.legsA.filter fun leg => p.c.rank ≤ leg.id).map Leg.id).map extent := by
    rw [summedSizes, List.map_map]
    refine List.map_congr_left fun leg hleg => ?_
    exact hextent leg (.inr (.inl (List.mem_filter.1 hleg).1))
  have hids : (p.legsA.filter fun leg => p.c.rank ≤ leg.id).map Leg.id =
      p.usedA.filter fun id => p.c.rank ≤ id := by
    rw [← map_id_legsA, List.filter_map]
    rfl
  rw [hsizes, hids]
  refine List.Perm.map extent ((List.perm_ext_iff_of_nodup (h.nodupA.filter _)
    List.nodup_range').2 fun id => ?_)
  rw [List.mem_filter, decide_eq_true_eq, List.mem_range'_1]
  constructor
  · rintro ⟨hid, hle⟩
    exact ⟨hle, h.lt_of_used id (.inl hid)⟩
  · rintro ⟨hle, hlt⟩
    exact ⟨(h.used_beyond id hle hlt).1, hle⟩

/-- **The operation count of a contraction** with an extent for each id. -/
theorem numFlops_eq (h : p.IsContraction s) (hextent : p.HasExtents extent) : p.numFlops =
    Saturating.mul (Saturating.mul p.c.dataType.flopsPerMadd p.c.numElements)
      (Saturating.product ((List.range' p.c.rank s).map extent)) := by
  rw [Problem.numFlops_eq, Saturating.product_eq_of_perm (h.perm_summedSizes hextent)]

end IsContraction

end Problem

end TensorContraction
