import TensorContraction.Proofs.Index.Alike
import TensorContraction.Proofs.Index.Census
import TensorContraction.Proofs.Index.Sorting

/-!
# What it takes to form a problem

`TensorContraction.Problem.ofDescription` counts the assignments and then classifies the
indices. This file says when it succeeds, as an equivalence
(`TensorContraction.Problem.exists_ofDescription_iff`), and how far that goes. Descriptions
that use ids alike are treated alike (`TensorContraction.Problem.ofDescription_of_useAlike`).

## Where the scan stops

The classification looks at the ids below `rank C + rank A`. The reason that is given for
the bound counts the summed indices: there are no more of them than `A` has dimensions. It
does not count the ids that are *not* summed indices, and it says nothing about where the
numbering goes. Of the ids below the bound, one beyond the output that only one operand uses
is found and refused, and one that both operands use gets its summation pair
(`TensorContraction.Problem.ofDescription_two_sided`). At or above the bound neither happens.
Two kinds of assignments get there: those that leave gaps in the numbering, and those of a
right operand of higher rank than the left one. The second kind needs no gap: a problem can
be formed in which `B` alone runs over an index (`TensorContraction.Problem.slicedProduct`).
-/

namespace TensorContraction

namespace Problem

/-! ### Success -/

section

variable {d : Description} (hA : d.idsA.length = d.a.rank) (hB : d.idsB.length = d.b.rank)
include hA hB

/-- **Once the assignments are counted**, what is left to fail is the classification. -/
theorem ofDescription_eq_error_iff {e : ProblemError} :
    ofDescription d = .error e ↔ d.classify = .error e := by
  rw [ofDescription, dif_pos hA, dif_pos hB]
  split
  · next e' h => simp only [h, Except.error.injEq]
  · next k h => simp only [h, reduceCtorEq]

/-- A classification makes a problem. -/
theorem exists_ofDescription_of_classify {k : Classification} (h : d.classify = .ok k) :
    ∃ p, ofDescription d = .ok p ∧ p.toDescription = d := by
  cases hp : ofDescription d with
  | ok p => exact ⟨p, rfl, toDescription_of_ofDescription hp⟩
  | error e =>
    rw [ofDescription_eq_error_iff hA hB, h] at hp
    cases hp

end

/-- **A problem can be formed** if and only if both operands have as many assignments as
dimensions, and every id below `rank C + rank A` has a role. -/
theorem exists_ofDescription_iff {d : Description} :
    (∃ p, ofDescription d = .ok p) ↔
      d.idsA.length = d.a.rank ∧ d.idsB.length = d.b.rank ∧
        ∀ id < d.c.rank + d.a.rank,
          HasRole d.c.rank (d.idsA.map UInt64.toNat) (d.idsB.map UInt64.toNat) id := by
  constructor
  · rintro ⟨p, hp⟩
    obtain rfl := toDescription_of_ofDescription hp
    exact ⟨p.length_idsA, p.length_idsB, fun _ => p.hasRole⟩
  · rintro ⟨hA, hB, hroles⟩
    rw [← hA, ← List.length_map UInt64.toNat] at hroles
    have hclassify := Classification.ofIds_eq_ok_iff.2 ⟨hroles, rfl⟩
    obtain ⟨p, hp, -⟩ := exists_ofDescription_of_classify hA hB hclassify
    exact ⟨p, hp⟩

/-- **An id without a role** below the bound makes it impossible to form a problem. -/
theorem exists_error_of_not_hasRole {d : Description} {id : Nat}
    (hid : id < d.c.rank + d.a.rank)
    (h : ¬HasRole d.c.rank (d.idsA.map UInt64.toNat) (d.idsB.map UInt64.toNat) id) :
    ∃ e, ofDescription d = .error e := by
  cases hp : ofDescription d with
  | error e => exact ⟨e, rfl⟩
  | ok p => exact absurd ((exists_ofDescription_iff.1 ⟨p, hp⟩).2.2 id hid) h

/-! ### Ids that are used alike -/

section

variable {p q : Problem} (hrank : q.c.rank = p.c.rank)
  (h : UseAlike p.usedA p.usedB q.usedA q.usedB)
include hrank h

theorem free_eq_of_useAlike : q.free = p.free := by
  simp only [free_eq, hrank, h.isFree_iff]

theorem batch_eq_of_useAlike : q.batch = p.batch := by
  simp only [batch_eq, hrank, h.isBatch_iff]

theorem summed_eq_of_useAlike : q.summed = p.summed := by
  have hlength : q.a.rank = p.a.rank := by rw [← length_usedA, h.length_eq, length_usedA]
  simp only [summed, hrank, hlength, h.isSummed_iff]

end

/-- **Descriptions that use ids alike** are refused for the same reason, or are those of
problems with the same indices by role. -/
theorem ofDescription_of_useAlike {d : Description} (d' : Description)
    (hA : d.idsA.length = d.a.rank) (hB : d.idsB.length = d.b.rank)
    (hA' : d'.idsA.length = d'.a.rank) (hB' : d'.idsB.length = d'.b.rank)
    (hrank : d'.c.rank = d.c.rank)
    (h : UseAlike (d.idsA.map UInt64.toNat) (d.idsB.map UInt64.toNat)
      (d'.idsA.map UInt64.toNat) (d'.idsB.map UInt64.toNat)) :
    (∃ e, ofDescription d = .error e ∧ ofDescription d' = .error e) ∨
      ∃ p q, ofDescription d = .ok p ∧ ofDescription d' = .ok q ∧ p.toDescription = d ∧
        q.toDescription = d' ∧ q.free = p.free ∧ q.batch = p.batch ∧ q.summed = p.summed := by
  have herror : ∀ {e}, d'.classify = .error e ↔ d.classify = .error e := by
    intro e
    rw [Description.classify, hrank]
    exact h.ofIds_eq_error_iff d.c.rank
  cases hd : d.classify with
  | error e =>
    refine .inl ⟨e, (ofDescription_eq_error_iff hA hB).2 hd, ?_⟩
    exact (ofDescription_eq_error_iff hA' hB').2 (herror.2 hd)
  | ok k =>
    obtain ⟨k', hd'⟩ : ∃ k', d'.classify = .ok k' := by
      cases hd' : d'.classify with
      | ok k' => exact ⟨k', rfl⟩
      | error e =>
        rw [herror, hd] at hd'
        cases hd'
    obtain ⟨p, hp, rfl⟩ := exists_ofDescription_of_classify hA hB hd
    obtain ⟨q, hq, rfl⟩ := exists_ofDescription_of_classify hA' hB' hd'
    exact .inr ⟨p, q, hp, hq, rfl, rfl, free_eq_of_useAlike hrank h, batch_eq_of_useAlike hrank h,
      summed_eq_of_useAlike hrank h⟩

/-! ### Summation pairs -/

/-- The ids that are summed over have pairs, which hold their first positions. -/
theorem forall₂_summation (p : Problem) :
    p.summed.Forall₂
      (fun id pair => IsFirstAt p.usedA id pair.inA ∧ IsFirstAt p.usedB id pair.inB)
      p.summation := by
  rw [summation_eq, List.forall₂_map_right_iff]
  refine List.forall₂_same.2 fun id hid => ?_
  obtain ⟨-, -, hA, hB⟩ := p.mem_summed.1 hid
  exact ⟨isFirstAt_idxOf hA, isFirstAt_idxOf hB⟩

/-- **A pair stands for an id** that is summed over, and every such id has one. -/
theorem exists_pair_iff {p : Problem} {id : Nat} :
    (∃ pair ∈ p.summation, IsFirstAt p.usedA id pair.inA ∧ IsFirstAt p.usedB id pair.inB) ↔
      id ∈ p.summed := by
  constructor
  · rintro ⟨pair, hpair, ⟨hA, -⟩, -⟩
    rw [summation_eq] at hpair
    obtain ⟨id', hid', rfl⟩ := List.mem_map.1 hpair
    -- the position is that of the id that the pair was made for
    have hA' := (isFirstAt_idxOf (p.mem_summed.1 hid').2.2.1).1
    obtain rfl : id' = id := Option.some.inj (hA'.symm.trans hA)
    exact hid'
  · intro hid
    obtain ⟨-, -, hA, hB⟩ := p.mem_summed.1 hid
    refine ⟨pairOf p.usedA p.usedB id, ?_, isFirstAt_idxOf hA, isFirstAt_idxOf hB⟩
    rw [summation_eq]
    exact List.mem_map_of_mem hid

/-! ### How far ids are looked at -/

/-- **Below the bound, what is not in the output is in both operands**: an id beyond the
output that one operand uses alone makes it impossible to form a problem, and in a problem
every id that is in use there is used by both operands and has a summation pair. No id at or
above the bound has one. -/
theorem ofDescription_two_sided (d : Description) :
    (∀ id, d.c.rank ≤ id → id < d.c.rank + d.a.rank →
      ¬(id ∈ d.idsA.map UInt64.toNat ↔ id ∈ d.idsB.map UInt64.toNat) →
        ∃ e, ofDescription d = .error e) ∧
      ∀ p, ofDescription d = .ok p → ∀ id, d.c.rank ≤ id → id ∈ p.usedA ∨ id ∈ p.usedB →
        (id < d.c.rank + d.a.rank → id ∈ p.usedA ∧ id ∈ p.usedB) ∧
          ((∃ pair ∈ p.summation, IsFirstAt p.usedA id pair.inA ∧ IsFirstAt p.usedB id pair.inB) ↔
            id < d.c.rank + d.a.rank) := by
  constructor
  · intro id hle hlt hone
    refine exists_error_of_not_hasRole hlt fun hrole => hone ?_
    rwa [HasRole, if_neg (Nat.not_lt_of_le hle)] at hrole
  · intro p hp id hle hused
    obtain rfl := toDescription_of_ofDescription hp
    have hboth : id < p.c.rank + p.a.rank → id ∈ p.usedA ∧ id ∈ p.usedB := by
      intro hlt
      have hrole := p.hasRole hlt
      rw [HasRole, if_neg (Nat.not_lt_of_le hle)] at hrole
      exact hused.elim (fun hA => ⟨hA, hrole.1 hA⟩) fun hB => ⟨hrole.2 hB, hB⟩
    refine ⟨hboth, ?_⟩
    rw [exists_pair_iff, p.mem_summed]
    exact ⟨fun h => h.2.1, fun hlt => ⟨hle, hlt, hboth hlt⟩⟩

/-- A vector and a stack of matrices: nothing but the right operand has the index that counts
the matrices. -/
def slicedProduct : Problem where
  c := .packed .single [4]
  a := .packed .single [3]
  b := .packed .single [4, 3, 5]
  idsA := [1]
  idsB := [0, 1, 2]
  operation := .gemm .single
  profile := .reference
  classification := ⟨[0], [], [⟨0, 1⟩]⟩
  length_idsA := rfl
  length_idsB := rfl
  classify_eq := rfl

/-- The id below the bound has a pair, and a second vector over an index of its own would be
refused. -/
theorem ofDescription_slicedProduct :
    (∃ pair ∈ slicedProduct.summation,
        IsFirstAt slicedProduct.usedA 1 pair.inA ∧ IsFirstAt slicedProduct.usedB 1 pair.inB) ∧
      ∃ e, ofDescription { slicedProduct.toDescription with idsA := [0], idsB := [0, 1, 2] } =
        .error e := by
  obtain ⟨-, hpairs⟩ := ofDescription_two_sided slicedProduct.toDescription
  obtain ⟨hrefused, -⟩ :=
    ofDescription_two_sided { slicedProduct.toDescription with idsA := [0], idsB := [0, 1, 2] }
  refine ⟨?_, hrefused 1 (by decide) (by decide) (by decide)⟩
  exact (hpairs slicedProduct rfl 1 (by decide) (.inl (by decide))).2.2 (by decide)

/-- **An index that one operand uses alone**: a problem is formed although `B` runs over an
index that neither the output nor `A` has, and the ids in use leave no gap. -/
theorem ofDescription_slicedProduct_one_sided :
    ofDescription slicedProduct.toDescription = .ok slicedProduct ∧
      slicedProduct.c.rank ≤ 2 ∧ 2 ∈ slicedProduct.usedB ∧ 2 ∉ slicedProduct.usedA ∧
      ¬∃ pair ∈ slicedProduct.summation, slicedProduct.usedB[pair.inB]? = some 2 :=
  ⟨rfl, by decide⟩

end Problem

end TensorContraction
