import Mathlib.Algebra.BigOperators.Group.List.Basic
import TensorContraction.Saturating

/-!
# Saturating products of lists

A list of words is multiplied from the left, and the product is held at the greatest word at
every step. It makes no difference where it is held: what comes out is the exact product of
all factors, cut at the greatest word once (`TensorContraction.Saturating.toNat_product`).
The order of the factors thus does not matter, even if some of them are zero and come after
the product has left the range (`TensorContraction.Saturating.product_eq_of_perm`).
-/

namespace TensorContraction

namespace Saturating

/-- Cutting a factor does not change a product that is cut. -/
theorem min_min_mul (x y m : Nat) : min (min x m * y) m = min (x * y) m := by
  rcases Nat.le_total x m with h | h
  · rw [Nat.min_eq_left h]
  · rw [Nat.min_eq_right h]
    -- beyond the bound, a product is zero or not below the bound either
    rcases Nat.eq_zero_or_pos y with rfl | hy
    · rw [Nat.mul_zero, Nat.mul_zero]
    · have hm : m ≤ m * y := Nat.le_mul_of_pos_right m hy
      rw [Nat.min_eq_right hm, Nat.min_eq_right (Nat.le_trans hm (Nat.mul_le_mul_right y h))]

/-- Three factors can each be cut at a bound, and once more in between, if the product is
cut at the bound in the end. -/
theorem min_mul_min (f x y m : Nat) :
    min (min (f * min x m) m * min y m) m = min (f * x * y) m :=
  calc min (min (f * min x m) m * min y m) m
    _ = min (f * min x m * min y m) m := min_min_mul _ _ _
    _ = min (min x m * (f * min y m)) m := by rw [Nat.mul_comm f, Nat.mul_assoc]
    _ = min (x * (f * min y m)) m := min_min_mul _ _ _
    _ = min (min y m * (f * x)) m := by rw [← Nat.mul_assoc, Nat.mul_comm x, Nat.mul_comm]
    _ = min (y * (f * x)) m := min_min_mul _ _ _
    _ = min (f * x * y) m := by rw [Nat.mul_comm y]

/-- A product of a list that goes on from a word is the exact product, cut once. -/
theorem toNat_foldl_mul (x : UInt64) (factors : List UInt64) :
    (factors.foldl mul x).toNat =
      min (x.toNat * (factors.map UInt64.toNat).prod) (UInt64.size - 1) := by
  induction factors generalizing x with
  | nil =>
    have hx : x.toNat ≤ UInt64.size - 1 := Nat.le_sub_one_of_lt x.toNat_lt
    rw [List.foldl_nil, List.map_nil, List.prod_nil, Nat.mul_one, Nat.min_eq_left hx]
  | cons y factors ih =>
    rw [List.foldl_cons, ih, toNat_mul, min_min_mul, List.map_cons, List.prod_cons, Nat.mul_assoc]

/-- **A saturating product of a list** is the exact product of its factors, cut at the
greatest word. -/
theorem toNat_product (factors : List UInt64) :
    (product factors).toNat = min (factors.map UInt64.toNat).prod (UInt64.size - 1) := by
  rw [product, toNat_foldl_mul, UInt64.toNat_one, Nat.one_mul]

/-- **The order of the factors does not matter.** -/
theorem product_eq_of_perm {l l' : List UInt64} (h : l.Perm l') : product l = product l' := by
  refine UInt64.toNat_inj.1 ?_
  rw [toNat_product, toNat_product, (h.map UInt64.toNat).prod_eq]

end Saturating

end TensorContraction
