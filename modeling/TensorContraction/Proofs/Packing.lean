import Mathlib.Algebra.BigOperators.Fin
import Mathlib.Algebra.Order.BigOperators.GroupWithZero.List
import Mathlib.Algebra.Order.Ring.Nat
import TensorContraction.Proofs.Saturating
import TensorContraction.Tensor

/-!
# Packed tensors are dense

An entry of a tensor is given by its position along each dimension, and lies as many elements
behind the first one as the strides say (`TensorContraction.Tensor.offset`). Strides are free,
so that entries may share a place and places may be left out. This file says that neither
happens in a packed tensor: its entries take up the places from zero up to the number of
elements, one each, whenever the elements can be counted in a word.

**Strides.** The stride of a dimension is the product of the sizes before it. Products are
held at the greatest word, and a size of zero behind them makes the tensor empty all the same:
then the strides may be wrong, but there is no entry to be misplaced.

**Places.** Where all strides are exact, the offset of an entry is the number whose digits, in
the mixed base of the sizes, are the positions of the entry. Mathlib has the correspondence
between digits and numbers as `finPiFinEquiv`.
-/

namespace TensorContraction

namespace Tensor

/-! ### Entries -/

/-- **An entry**: a position along each dimension. -/
abbrev Entry (t : Tensor) : Type :=
  (k : Fin t.dimensions.length) → Fin t.dimensions[k].size.toNat

/-- **The offset of an entry**: how many elements it lies behind the first one. -/
def offset (t : Tensor) (x : t.Entry) : Nat :=
  ∑ k, (x k).val * t.dimensions[k].stride.toNat

/-- **Exact strides** are the products of the sizes before them. -/
def HasExactStrides (t : Tensor) : Prop :=
  ∀ k : Fin t.dimensions.length, t.dimensions[k].stride.toNat =
    ∏ j : Fin k, t.dimensions[Fin.castLE k.isLt.le j].size.toNat

/-- **With exact strides** the offsets of the entries are all numbers below the product of the
sizes, each of one entry. -/
theorem HasExactStrides.bijOn_offset {t : Tensor} (h : t.HasExactStrides) :
    Set.BijOn t.offset Set.univ
      (Set.Iio (∏ k : Fin t.dimensions.length, t.dimensions[k].size.toNat)) := by
  -- the offset is the number with the positions as its digits
  have hoffset (x : t.Entry) : t.offset x = (finPiFinEquiv x).val := by
    rw [finPiFinEquiv_apply, offset]
    exact Finset.sum_congr rfl fun k _ => by rw [h k]
  refine ⟨fun x _ => ?_, fun x _ y _ hxy => ?_, fun n hn => ?_⟩
  · rw [hoffset]
    exact (finPiFinEquiv x).isLt
  · rw [hoffset, hoffset] at hxy
    exact finPiFinEquiv.injective (Fin.ext hxy)
  · refine ⟨finPiFinEquiv.symm ⟨n, hn⟩, Set.mem_univ _, ?_⟩
    rw [hoffset, Equiv.apply_symm_apply]

/-! ### Packed tensors -/

theorem getElem?_packedFrom (stride : UInt64) (sizes : List UInt64) (k : Nat) :
    (packedFrom stride sizes)[k]? =
      sizes[k]?.map fun size => ⟨(sizes.take k).foldl Saturating.mul stride, size⟩ := by
  induction sizes generalizing stride k with
  | nil => rfl
  | cons size sizes ih =>
    cases k with
    | zero => rfl
    | succ k => exact ih (Saturating.mul stride size) k

variable {ty : DataType} {sizes : List UInt64}

/-- **The dimensions of a packed tensor** have the sizes that are given, and products of these
as strides. -/
theorem dimension?_packed (ty : DataType) (sizes : List UInt64) (k : Nat) :
    (packed ty sizes).dimension? k =
      sizes[k]?.map fun size => ⟨Saturating.product (sizes.take k), size⟩ :=
  getElem?_packedFrom 1 sizes k

theorem sizes_packed (ty : DataType) (sizes : List UInt64) : (packed ty sizes).sizes = sizes := by
  have hall : ∀ (stride : UInt64) (sizes : List UInt64),
      (packedFrom stride sizes).map Dimension.size = sizes := by
    intro stride sizes
    induction sizes generalizing stride with
    | nil => rfl
    | cons size sizes ih => rw [packedFrom, List.map_cons, ih]
  exact hall 1 sizes

theorem rank_packed (ty : DataType) (sizes : List UInt64) :
    (packed ty sizes).rank = sizes.length := by
  rw [rank, ← List.length_map Dimension.size, ← Tensor.sizes, sizes_packed]

/-! ### Sizes and places -/

/-- The number of entries. -/
theorem prod_size (t : Tensor) :
    ∏ k : Fin t.dimensions.length, t.dimensions[k].size.toNat =
      (t.sizes.map UInt64.toNat).prod := by
  rw [Tensor.sizes, List.map_map]
  exact Fin.prod_univ_fun_getElem t.dimensions fun d => d.size.toNat

/-- The number of entries along the first dimensions. -/
theorem prod_size_castLE (t : Tensor) (k : Fin t.dimensions.length) :
    ∏ j : Fin k, t.dimensions[Fin.castLE k.isLt.le j].size.toNat =
      ((t.sizes.take k).map UInt64.toNat).prod := by
  have hlength : (t.dimensions.take k).length = k := List.length_take_of_le k.isLt.le
  rw [Tensor.sizes, ← List.map_take, List.map_map,
    ← Fin.prod_univ_fun_getElem (t.dimensions.take k) (UInt64.toNat ∘ Dimension.size)]
  refine Fintype.prod_equiv (finCongr hlength.symm) _ _ fun j => ?_
  simp

/-- A product of positive sizes is no less than that of the first of them. -/
theorem prod_take_le {sizes : List UInt64} (hpos : ∀ size ∈ sizes, 0 < size.toNat) (k : Nat) :
    ((sizes.take k).map UInt64.toNat).prod ≤ (sizes.map UInt64.toNat).prod := by
  have hdrop : 0 < ((sizes.drop k).map UInt64.toNat).prod :=
    List.prod_pos (List.forall_mem_map.2 fun size hsize => hpos size (List.mem_of_mem_drop hsize))
  calc ((sizes.take k).map UInt64.toNat).prod
      ≤ ((sizes.take k).map UInt64.toNat).prod * ((sizes.drop k).map UInt64.toNat).prod :=
        Nat.le_mul_of_pos_right _ hdrop
    _ = (sizes.map UInt64.toNat).prod := by
        rw [← List.prod_append, ← List.map_append, List.take_append_drop]

/-- **The strides are exact** if there are entries, and no more than a word can count. -/
theorem hasExactStrides_packed (hpos : ∀ size ∈ sizes, 0 < size.toNat)
    (h : (sizes.map UInt64.toNat).prod < UInt64.size) : (packed ty sizes).HasExactStrides := by
  intro k
  have hk : k < sizes.length := by rw [← rank_packed ty sizes]; exact k.isLt
  have hdimension := dimension?_packed ty sizes k
  rw [dimension?, List.getElem?_eq_getElem k.isLt, List.getElem?_eq_getElem hk, Option.map_some,
    Option.some_inj] at hdimension
  have hle := prod_take_le hpos k
  rw [prod_size_castLE, sizes_packed, Fin.getElem_fin, hdimension, Saturating.toNat_product,
    Nat.min_eq_left (by omega)]

theorem toNat_numElements_packed (h : (sizes.map UInt64.toNat).prod < UInt64.size) :
    (packed ty sizes).numElements.toNat = (sizes.map UInt64.toNat).prod := by
  rw [numElements, sizes_packed, Saturating.toNat_product, Nat.min_eq_left (by omega)]

/-- **The entries of a packed tensor** take up the places up to the number of elements. -/
theorem bijOn_offset_packed (h : (sizes.map UInt64.toNat).prod < UInt64.size) :
    Set.BijOn (packed ty sizes).offset Set.univ
      (Set.Iio (packed ty sizes).numElements.toNat) := by
  have hprod := prod_size (packed ty sizes)
  rw [sizes_packed] at hprod
  rw [toNat_numElements_packed h, ← hprod]
  by_cases hpos : ∀ size ∈ sizes, 0 < size.toNat
  · exact (hasExactStrides_packed hpos h).bijOn_offset
  -- a size of zero leaves neither entries nor numbers
  · obtain ⟨k, hk⟩ : ∃ k : Fin (packed ty sizes).dimensions.length,
        (packed ty sizes).dimensions[k].size.toNat = 0 := by
      by_contra! hne
      refine hpos fun size hsize => ?_
      rw [← sizes_packed ty sizes] at hsize
      obtain ⟨d, hd, rfl⟩ := List.mem_map.1 hsize
      obtain ⟨k, hk, rfl⟩ := List.mem_iff_getElem.1 hd
      exact Nat.pos_of_ne_zero (hne ⟨k, hk⟩)
    have hentry : IsEmpty (packed ty sizes).Entry :=
      ⟨fun x => absurd (x k).isLt (by omega)⟩
    have hnone : Set.Iio 0 = (∅ : Set Nat) :=
      Set.eq_empty_of_forall_notMem fun n hn => Nat.not_lt_zero n hn
    rw [Finset.prod_eq_zero (Finset.mem_univ k) hk, hnone, Set.bijOn_empty_iff_left]
    exact Set.univ_eq_empty_iff.2 hentry

/-- **Packed tensors are dense.** A packed tensor has one dimension for each size, with the
product of the sizes before it as its stride, held at the greatest word. If a word can count
the entries, their offsets are the numbers from zero up to the number of elements, each of one
entry. -/
theorem packed_dense (ty : DataType) (sizes : List UInt64) :
    (packed ty sizes).rank = sizes.length ∧
      (∀ k size, sizes[k]? = some size →
        ∃ stride, (packed ty sizes).dimension? k = some ⟨stride, size⟩ ∧
          stride.toNat = min (UInt64.size - 1) ((sizes.take k).map UInt64.toNat).prod) ∧
      ((sizes.map UInt64.toNat).prod < UInt64.size →
        Set.BijOn (packed ty sizes).offset Set.univ
          (Set.Iio (packed ty sizes).numElements.toNat)) := by
  refine ⟨rank_packed ty sizes, fun k size hsize => ?_, bijOn_offset_packed⟩
  refine ⟨Saturating.product (sizes.take k), ?_, ?_⟩
  · rw [dimension?_packed, hsize, Option.map_some]
  · rw [Saturating.toNat_product, Nat.min_comm]

/-- A product of sizes that leaves the range is held there, and a size of zero behind it makes
the tensor empty. Sizes of one take up no places. -/
theorem packed_dense_outOfRange :
    (∃ stride, (packed .single [4294967296, 4294967296, 0]).dimension? 2 = some ⟨stride, 0⟩ ∧
        stride.toNat = 18446744073709551615) ∧
      Set.BijOn (packed .single [4294967296, 4294967296, 0]).offset Set.univ (Set.Iio 0) ∧
      Set.BijOn (packed .single [3, 1, 4]).offset Set.univ (Set.Iio 12) := by
  obtain ⟨-, hdimensions, hempty⟩ := packed_dense .single [4294967296, 4294967296, 0]
  obtain ⟨-, -, hdense⟩ := packed_dense .single [3, 1, 4]
  exact ⟨hdimensions 2 0 rfl, hempty (by decide), hdense (by decide)⟩

end Tensor

end TensorContraction
