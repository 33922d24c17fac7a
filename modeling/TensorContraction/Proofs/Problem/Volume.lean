import Mathlib.Algebra.BigOperators.Ring.List
import Mathlib.Algebra.GroupWithZero.Nat
import TensorContraction.Proofs.Problem.Acceptance

/-!
# The operation count as a volume

The operation count of a problem is a product of words, taken factor by factor and held at the
greatest word wherever it leaves the range: first the elements of the output, then the
operations of one multiply-add, then the sizes that are summed over. This file says what comes
out, in numbers without a bound. It is the exact product of all these factors, cut at the
greatest word once, for every problem
(`TensorContraction.Problem.toNat_numFlops`).

## One factor for each index

The sizes that are summed over are read off the left operand alone, and its assignment may
repeat an id or use one that is not looked at. For a problem that validation accepts, the
factors become those of the contraction itself. Each id has an extent, the output has those of
the first ids, and what is summed over has those of the rest. The summation pairs then lead to
the same factors through either operand, dimension by dimension.
-/

namespace TensorContraction

namespace Problem

/-- The number of combinations of entries along dimensions of the given sizes. -/
def volume (sizes : List UInt64) : Nat :=
  (sizes.map UInt64.toNat).prod

theorem volume_append (sizes sizes' : List UInt64) :
    volume (sizes ++ sizes') = volume sizes * volume sizes' := by
  rw [volume, List.map_append, List.prod_append, volume, volume]

theorem volume_eq_of_perm {sizes sizes' : List UInt64} (h : sizes.Perm sizes') :
    volume sizes = volume sizes' :=
  (h.map UInt64.toNat).prod_eq

theorem volume_eq_zero_iff {sizes : List UInt64} : volume sizes = 0 ↔ 0 ∈ sizes := by
  rw [volume, List.prod_eq_zero_iff, List.mem_map]
  constructor
  · rintro ⟨size, hsize, hzero⟩
    have hsize' : size = 0 := UInt64.toNat_inj.1 hzero
    exact hsize' ▸ hsize
  · intro h
    exact ⟨0, h, rfl⟩

/-! ### Every problem -/

/-- **The operation count is the exact product**, cut at the greatest word. -/
theorem toNat_numFlops_eq_min (p : Problem) : p.numFlops.toNat =
    min (p.c.dataType.flopsPerMadd.toNat * volume p.c.sizes * volume p.summedSizes)
      (UInt64.size - 1) := by
  rw [numFlops_eq, Saturating.toNat_mul, Saturating.toNat_mul, Tensor.numElements,
    Saturating.toNat_product, Saturating.toNat_product, ← volume, ← volume,
    Saturating.min_mul_min]

/-- **The operation count is zero** if and only if a factor is: no product that has been cut
before hides it. -/
theorem numFlops_eq_zero_iff (p : Problem) :
    p.numFlops = 0 ↔ p.c.dataType.flopsPerMadd = 0 ∨ 0 ∈ p.c.sizes ∨ 0 ∈ p.summedSizes := by
  have hmin (x : Nat) : min x (UInt64.size - 1) = 0 ↔ x = 0 := by
    have hpos : 0 < UInt64.size - 1 := by decide
    omega
  rw [← UInt64.toNat_inj, toNat_numFlops_eq_min, UInt64.toNat_zero, hmin, Nat.mul_eq_zero,
    Nat.mul_eq_zero, volume_eq_zero_iff, volume_eq_zero_iff, or_assoc, ← UInt64.toNat_inj,
    UInt64.toNat_zero]

/-! ### Accepted problems -/

theorem map_size_legs {ids : List UInt64} {t : Tensor} (h : ids.length = t.rank) :
    (legs ids t).map Leg.size = t.sizes := by
  have hlength : ids.length = t.sizes.length := by
    rw [h, Tensor.rank, Tensor.sizes, List.length_map]
  rw [legs, ← List.map_uncurry_zip_eq_zipWith, List.map_map]
  exact List.map_snd_zip (Nat.le_of_eq hlength.symm)

theorem map_size_legsC (p : Problem) : p.legsC.map Leg.size = p.c.sizes := by
  refine List.ext_getElem (by simp [legsC, Tensor.sizes]) fun i hi hi' => ?_
  simp [legsC, Tensor.sizes]

/-- **A dimension has the extent of its id**, if all legs of the operand have theirs. -/
theorem getElem?_sizes_eq {ids : List UInt64} {t : Tensor} (h : ids.length = t.rank)
    {extent : Nat → UInt64} (hextent : ∀ leg ∈ legs ids t, leg.size = extent leg.id)
    {position id : Nat} (hid : (ids.map UInt64.toNat)[position]? = some id) :
    t.sizes[position]? = some (extent id) := by
  rw [← map_id_legs h, List.getElem?_map, Option.map_eq_some_iff] at hid
  obtain ⟨leg, hleg, rfl⟩ := hid
  rw [← map_size_legs h, List.getElem?_map, hleg, Option.map_some,
    hextent leg (List.mem_of_getElem? hleg)]

section

variable {p : Problem} {extent : Nat → UInt64} (hextent : p.HasExtents extent)
include hextent

/-- The sizes of the output are the extents of the first ids. -/
theorem HasExtents.sizes_c : p.c.sizes = (List.range p.c.rank).map extent := by
  rw [← map_size_legsC, ← map_id_legsC, List.map_map]
  exact List.map_congr_left fun leg hleg => hextent leg (.inl hleg)

/-- **The pairs lead to the extents** of the ids that are summed over, through either
operand. -/
theorem HasExtents.mapM_summation :
    p.summation.mapM (fun pair => p.a.sizes[pair.inA]?) = some (p.summed.map extent) ∧
      p.summation.mapM (fun pair => p.b.sizes[pair.inB]?) = some (p.summed.map extent) := by
  rw [summation_eq, List.mapM_map, List.mapM_map]
  constructor
  · refine mapM_eq_some_map fun id hid => ?_
    obtain ⟨-, -, hA, -⟩ := p.mem_summed.1 hid
    exact getElem?_sizes_eq p.length_idsA (fun leg hleg => hextent leg (.inr (.inl hleg)))
      (List.getElem?_idxOf hA)
  · refine mapM_eq_some_map fun id hid => ?_
    obtain ⟨-, -, -, hB⟩ := p.mem_summed.1 hid
    exact getElem?_sizes_eq p.length_idsB (fun leg hleg => hextent leg (.inr (.inr hleg)))
      (List.getElem?_idxOf hB)

variable {s : Nat} (h : p.IsContraction s)
include h

/-- **The volume of a contraction** has one factor for each id. -/
theorem IsContraction.volume_mul_volume : volume p.c.sizes * volume p.summedSizes =
    volume ((List.range (p.c.rank + s)).map extent) := by
  have hrange : List.range (p.c.rank + s) = List.range p.c.rank ++ List.range' p.c.rank s := by
    rw [List.range_eq_range', List.range_eq_range', ← List.range'_append_1, Nat.zero_add]
  rw [hextent.sizes_c, volume_eq_of_perm (h.perm_summedSizes hextent), ← volume_append,
    ← List.map_append, hrange]

end

/-! ### The count -/

/-- **The operation count** of a problem is the exact product of the operations of a
multiply-add, the sizes of the output and the sizes that are summed over, cut at the greatest
word; so it is zero if and only if one of these factors is. If validation accepts the problem
and sizes are checked, there are extents of the ids, and the factors are one for each id in use;
those that are summed over are also found by the summation pairs, through the sizes of `A` or
those of `B`. -/
theorem toNat_numFlops (p : Problem) :
    p.numFlops.toNat =
        min (p.c.dataType.flopsPerMadd.toNat * volume p.c.sizes * volume p.summedSizes)
          (UInt64.size - 1) ∧
      (p.numFlops = 0 ↔
        p.c.dataType.flopsPerMadd = 0 ∨ 0 ∈ p.c.sizes ∨ 0 ∈ p.summedSizes) ∧
      ∀ config, config.checkSizes = true → p.validate config = .ok () →
        (∃ extent, p.HasExtents extent) ∧
          (∀ extent, p.HasExtents extent → p.numFlops.toNat =
            min (p.c.dataType.flopsPerMadd.toNat *
              volume ((List.range (p.c.rank + p.summation.length)).map extent))
              (UInt64.size - 1)) ∧
          ∃ sizesA sizesB,
            p.summation.mapM (fun pair => p.a.sizes[pair.inA]?) = some sizesA ∧
              p.summation.mapM (fun pair => p.b.sizes[pair.inB]?) = some sizesB ∧
              volume sizesA = volume p.summedSizes ∧ volume sizesB = volume p.summedSizes := by
  refine ⟨p.toNat_numFlops_eq_min, p.numFlops_eq_zero_iff, fun config hcheck haccept => ?_⟩
  obtain ⟨s, h, hsizes, -⟩ := validate_eq_ok_iff_isContraction.1 haccept
  obtain ⟨extent, hextent⟩ := hsizes hcheck
  refine ⟨⟨extent, hextent⟩, fun extent' hextent' => ?_, ?_⟩
  · rw [toNat_numFlops_eq_min, Nat.mul_assoc, h.volume_mul_volume hextent',
      h.eq_length_summation]
  · obtain ⟨hA, hB⟩ := hextent.mapM_summation
    -- both lists are the extents of the ids that are summed over
    have hvolume : volume (p.summed.map extent) = volume p.summedSizes :=
      volume_eq_of_perm ((h.perm_summed.map extent).trans (h.perm_summedSizes hextent).symm)
    exact ⟨_, _, hA, hB, hvolume, hvolume⟩

/-- A batch of one product of matrices, with too many operations for a word. -/
def vastProduct : Problem where
  c := .packed .single [4294967296, 4294967296, 1]
  a := .packed .single [4294967296, 1, 3]
  b := .packed .single [4294967296, 1, 3]
  idsA := [0, 2, 3]
  idsB := [1, 2, 3]
  operation := .gemm .single
  profile := .reference
  classification := ⟨[0, 1], [2], [⟨2, 2⟩]⟩
  length_idsA := rfl
  length_idsB := rfl
  classify_eq := rfl

/-- The count of the vast product is the greatest word, and its factors have extents. -/
theorem toNat_numFlops_vastProduct :
    vastProduct.numFlops.toNat = 18446744073709551615 ∧
      (∃ extent, vastProduct.HasExtents extent) ∧
        vastProduct.summation.mapM (fun pair => vastProduct.b.sizes[pair.inB]?) = some [3] := by
  obtain ⟨-, -, haccepted⟩ := vastProduct.toNat_numFlops
  exact ⟨rfl, (haccepted .standard rfl rfl).1, rfl⟩

end Problem

end TensorContraction
