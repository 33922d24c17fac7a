import Mathlib.Order.Nat
import TensorContraction.Proofs.Problem.Refusals

/-!
# Which dimension is blamed

One error of validation names an operand and a position, and two rules report it: the rule
on ids, for an id that is out of range, and the rule on sizes. They walk in opposite orders.
The first looks at both operands position by position, and at `A` before `B`; between two
positions, it looks for repetitions. The second goes through all of `A`, and then through all of
`B`.

This file says of each position that may be blamed what is wrong there and why nothing else is
blamed instead (`TensorContraction.Problem.Blames`). Repetitions come before no position, since
a problem that passes the rules on ranks and counts has none
(`TensorContraction.Problem.nodup_used_of_counts`).

A dimension of `B` that is summed over is never blamed for its size. The id is that of one
dimension of `A`, which has been compared with the same dimension of `B` before.
-/

namespace TensorContraction

namespace Problem

/-! ### What is wrong at a position -/

/-- **A leg differs** from one of some legs: the id is the same, and the size is not. -/
def DiffersIn (legs : List Leg) (leg : Leg) : Prop :=
  ∃ other ∈ legs, other.id = leg.id ∧ other.size ≠ leg.size

/-- The positions at which the left operand has an id that is out of range. -/
def outOfRangeA (p : Problem) : Set Nat :=
  positionsOf p.usedA fun id => p.maxIndex < id

/-- The positions at which the right operand has an id that is out of range. -/
def outOfRangeB (p : Problem) : Set Nat :=
  positionsOf p.usedB fun id => p.maxIndex < id

/-- The positions at which the left operand has another size than the output, or beyond the
output than the right operand. -/
def clashesA (p : Problem) : Set Nat :=
  positionsOf p.legsA fun leg =>
    DiffersIn p.legsC leg ∨ p.c.rank ≤ leg.id ∧ DiffersIn p.legsB leg

/-- The positions at which the right operand has another size than the output. -/
def clashesB (p : Problem) : Set Nat :=
  positionsOf p.legsB (DiffersIn p.legsC)

/-- **The position that is blamed** in a problem with counts that fit. -/
inductive Blames (p : Problem) (config : ValidationConfig) : Operand → Nat → Prop
  /-- The first position at which an id is out of range, if that of the left operand is. -/
  | rangeA {i : Nat} (h : IsLeast (p.outOfRangeA ∪ p.outOfRangeB) i) (hA : i ∈ p.outOfRangeA) :
    Blames p config .a i
  /-- The first position at which an id is out of range, if that of the left operand is not. -/
  | rangeB {i : Nat} (h : IsLeast (p.outOfRangeA ∪ p.outOfRangeB) i) (hA : i ∉ p.outOfRangeA) :
    Blames p config .b i
  /-- The first position at which the left operand has a wrong size. -/
  | sizeA {i : Nat} (hrange : p.outOfRangeA ∪ p.outOfRangeB = ∅) (hcheck : config.checkSizes = true)
    (h : IsLeast p.clashesA i) : Blames p config .a i
  /-- The first position at which the right operand has a wrong size, if the left operand has
  none. -/
  | sizeB {i : Nat} (hrange : p.outOfRangeA ∪ p.outOfRangeB = ∅) (hcheck : config.checkSizes = true)
    (hA : p.clashesA = ∅) (h : IsLeast p.clashesB i) : Blames p config .b i

/-- A leg with an expected size has another one if and only if it differs from a leg that says
so. -/
theorem expectedSize_ne_iff {p : Problem} {other : List Leg} (hother : (other.map Leg.id).Nodup)
    {leg : Leg} (hleg : ∃ size, expectedSize p.c other leg.id = .ok size) :
    expectedSize p.c other leg.id ≠ .ok leg.size ↔
      DiffersIn p.legsC leg ∨ p.c.rank ≤ leg.id ∧ DiffersIn other leg := by
  obtain ⟨size, hsize⟩ := hleg
  have hiff {size' : UInt64} : expectedSize p.c other leg.id = .ok size' ↔
      ⟨leg.id, size'⟩ ∈ p.legsC ∨ p.c.rank ≤ leg.id ∧ ⟨leg.id, size'⟩ ∈ other :=
    expectedSize_eq_ok_iff hother
  rw [hsize] at hiff ⊢
  constructor
  · intro hne
    have hne' : size ≠ leg.size := fun h => hne (congrArg Except.ok h)
    rcases hiff.1 rfl with hC | ⟨hle, hB⟩
    · exact .inl ⟨_, hC, rfl, hne'⟩
    · exact .inr ⟨hle, _, hB, rfl, hne'⟩
  · rintro (⟨⟨id, size'⟩, hC, rfl, hne⟩ | ⟨hle, ⟨id, size'⟩, hB, rfl, hne⟩) h
    · exact hne (Except.ok.inj ((hiff.2 (.inl hC)).symm.trans h))
    · exact hne (Except.ok.inj ((hiff.2 (.inr ⟨hle, hB⟩)).symm.trans h))

/-! ### The rules -/

section

variable {p : Problem} (hranks : p.validateRanks = .ok ())
  (hcounts : p.validateIndexCounts = .ok ())
include hranks hcounts

/-- **The rule on ids** blames the first position at which an id is out of range. -/
theorem validateAssignments_eq_error_iff {operand : Operand} {i : Nat} :
    p.validateAssignments = .error (.assignmentInvalid operand i) ↔
      IsLeast (p.outOfRangeA ∪ p.outOfRangeB) i ∧
        (operand = .a ∧ i ∈ p.outOfRangeA ∨ operand = .b ∧ i ∉ p.outOfRangeA) := by
  have hlength : p.usedA.length = p.usedB.length := by
    rw [length_usedA, length_usedB, validateRanks_eq_ok_iff.1 hranks]
  obtain ⟨hA, hB⟩ := nodup_used_of_counts hranks hcounts
  have hunion : positionsOf (p.usedA.zip p.usedB)
      (fun pair => p.maxIndex < pair.1 ∨ p.maxIndex < pair.2) = p.outOfRangeA ∪ p.outOfRangeB :=
    positionsOf_zip hlength
  rw [validateAssignments, map_id_legsA, map_id_legsB,
    checkAssignments_eq_error_iff (by rwa [List.map_fst_zip (Nat.le_of_eq hlength)])
      (by rwa [List.map_snd_zip (Nat.le_of_eq hlength.symm)]), hunion]
  -- whether the left operand is blamed is read off the pair, and off the position
  have hmem {j : Nat} {pair : Nat × Nat} (hpair : (p.usedA.zip p.usedB)[j]? = some pair) :
      j ∈ p.outOfRangeA ↔ p.maxIndex < pair.1 := by
    have hfst := (List.getElem?_zip_eq_some.1 hpair).1
    constructor
    · rintro ⟨id, hid, hlt⟩
      rwa [Option.some.inj (hid.symm.trans hfst)] at hlt
    · intro hlt
      exact ⟨pair.1, hfst, hlt⟩
  constructor
  · rintro ⟨j, hleast, pair, hpair, heq⟩
    obtain ⟨rfl, rfl⟩ := ValidationError.assignmentInvalid.inj heq
    rw [Nat.zero_add, hmem hpair]
    refine ⟨hleast, ?_⟩
    by_cases hlt : p.maxIndex < pair.1
    · exact .inl ⟨if_pos hlt, hlt⟩
    · exact .inr ⟨if_neg hlt, hlt⟩
  · rintro ⟨hleast, hoperand⟩
    obtain ⟨pair, hpair, -⟩ := hunion ▸ hleast.1
    rw [hmem hpair] at hoperand
    refine ⟨i, hleast, pair, hpair, ?_⟩
    rw [Nat.zero_add]
    rcases hoperand with ⟨rfl, hlt⟩ | ⟨rfl, hlt⟩
    · rw [if_pos hlt]
    · rw [if_neg hlt]

theorem validateAssignments_eq_ok_iff_outOfRange :
    p.validateAssignments = .ok () ↔ p.outOfRangeA ∪ p.outOfRangeB = ∅ := by
  rw [validateAssignments_eq_ok_iff (validateRanks_eq_ok_iff.1 hranks), Set.union_empty_iff,
    outOfRangeA, outOfRangeB, positionsOf_eq_empty_iff, positionsOf_eq_empty_iff]
  constructor
  · rintro ⟨hle, -⟩
    exact ⟨fun id hid => Nat.not_lt_of_le (hle id (.inl hid)),
      fun id hid => Nat.not_lt_of_le (hle id (.inr hid))⟩
  · rintro ⟨hA, hB⟩
    refine ⟨?_, nodup_used_of_counts hranks hcounts⟩
    rintro id (hid | hid)
    · exact Nat.le_of_not_lt (hA id hid)
    · exact Nat.le_of_not_lt (hB id hid)

/-- **A leg of the left operand** is refused if and only if it differs from the output, or
beyond the output from the right operand. -/
theorem expectedSize_legsA_ne_iff {leg : Leg} (hleg : leg ∈ p.legsA) :
    expectedSize p.c p.legsB leg.id ≠ .ok leg.size ↔
      DiffersIn p.legsC leg ∨ p.c.rank ≤ leg.id ∧ DiffersIn p.legsB leg := by
  refine expectedSize_ne_iff ?_ (exists_expectedSize_legsA hranks hcounts leg hleg)
  rw [map_id_legsB]
  exact (nodup_used_of_counts hranks hcounts).2

/-- **A leg of the right operand** is refused if and only if it differs from the output, once
no leg of the left operand is refused. -/
theorem expectedSize_legsB_ne_iff (hA : p.clashesA = ∅) {leg : Leg} (hleg : leg ∈ p.legsB) :
    expectedSize p.c p.legsA leg.id ≠ .ok leg.size ↔ DiffersIn p.legsC leg := by
  have hnodup : (p.legsA.map Leg.id).Nodup := by
    rw [map_id_legsA]
    exact (nodup_used_of_counts hranks hcounts).1
  rw [expectedSize_ne_iff hnodup (exists_expectedSize_legsB hranks hcounts leg hleg)]
  -- a leg of the left operand that it differed from would have been refused before
  refine or_iff_left ?_
  rintro ⟨hle, other, hother, hid, hne⟩
  refine positionsOf_eq_empty_iff.1 hA other hother (.inr ⟨hid ▸ hle, leg, hleg, ?_⟩)
  exact ⟨hid.symm, hne.symm⟩

/-- **The rule on sizes** blames the first position of the left operand that has a wrong size,
and else the first one of the right operand. -/
theorem validateSizes_eq_error_iff {operand : Operand} {i : Nat} :
    p.validateSizes = .error (.assignmentInvalid operand i) ↔
      operand = .a ∧ IsLeast p.clashesA i ∨
        operand = .b ∧ p.clashesA = ∅ ∧ IsLeast p.clashesB i := by
  have hclashesA : positionsOf p.legsA
      (fun leg => expectedSize p.c p.legsB leg.id ≠ .ok leg.size) = p.clashesA :=
    positionsOf_congr fun leg => expectedSize_legsA_ne_iff hranks hcounts
  have hclashesB (hempty : p.clashesA = ∅) : positionsOf p.legsB
      (fun leg => expectedSize p.c p.legsA leg.id ≠ .ok leg.size) = p.clashesB :=
    positionsOf_congr fun leg => expectedSize_legsB_ne_iff hranks hcounts hempty
  have hokA : checkSizes .a p.c p.legsB 0 p.legsA = .ok () ↔ p.clashesA = ∅ := by
    rw [← hclashesA, positionsOf_eq_empty_iff, checkSizes_eq_ok_iff]
    simp only [ne_eq, Decidable.not_not]
  have hbind : p.validateSizes = (do
      checkSizes .a p.c p.legsB 0 p.legsA
      checkSizes .b p.c p.legsA 0 p.legsB) := by
    rw [validateSizes]
    cases checkSizes .a p.c p.legsB 0 p.legsA <;> rfl
  rw [hbind, check_bind_eq_error_iff, hokA,
    checkSizes_eq_error_iff (exists_expectedSize_legsA hranks hcounts),
    checkSizes_eq_error_iff (exists_expectedSize_legsB hranks hcounts),
    hclashesA]
  simp only [Nat.zero_add, ValidationError.assignmentInvalid.injEq]
  refine or_congr ?_ ?_
  · constructor
    · rintro ⟨j, hleast, rfl, rfl⟩
      exact ⟨rfl, hleast⟩
    · rintro ⟨rfl, hleast⟩
      exact ⟨i, hleast, rfl, rfl⟩
  · constructor
    · rintro ⟨hempty, j, hleast, rfl, rfl⟩
      exact ⟨rfl, hempty, hclashesB hempty ▸ hleast⟩
    · rintro ⟨rfl, hempty, hleast⟩
      exact ⟨hempty, i, (hclashesB hempty).symm ▸ hleast, rfl, rfl⟩

end

/-! ### Validation -/

/-- The first rules report nothing about a position. -/
theorem validateRanks_ne {p : Problem} {operand : Operand} {i : Nat} :
    p.validateRanks ≠ .error (.assignmentInvalid operand i) := by
  intro h
  rw [validateRanks] at h
  split at h <;> cases h

theorem validateIndexCounts_ne {p : Problem} {operand : Operand} {i : Nat} :
    p.validateIndexCounts ≠ .error (.assignmentInvalid operand i) := by
  intro h
  rw [validateIndexCounts] at h
  split_ifs at h <;> cases h

theorem validateDevices_ne {p : Problem} {maxDevices : UInt64} {operand : Operand} {i : Nat} :
    p.validateDevices maxDevices ≠ .error (.assignmentInvalid operand i) := by
  intro h
  rw [validateDevices] at h
  split at h <;> cases h

/-- **Validation blames a position** if and only if ranks and counts fit, and the position is
the one to blame. -/
theorem validate_eq_assignmentInvalid_iff {p : Problem} {config : ValidationConfig}
    {operand : Operand} {i : Nat} :
    p.validate config = .error (.assignmentInvalid operand i) ↔
      p.validateRanks = .ok () ∧ p.validateIndexCounts = .ok () ∧ p.Blames config operand i := by
  rw [validate_eq_error_iff_rules]
  simp only [validateRanks_ne, validateIndexCounts_ne, validateDevices_ne, false_or, and_false,
    or_false]
  refine and_congr_right fun hranks => and_congr_right fun hcounts => ?_
  rw [validateAssignments_eq_error_iff hranks hcounts, validateSizes_eq_error_iff hranks hcounts,
    validateAssignments_eq_ok_iff_outOfRange hranks hcounts]
  constructor
  · rintro (⟨h, ⟨rfl, hA⟩ | ⟨rfl, hA⟩⟩ | ⟨hrange, hcheck, ⟨rfl, h⟩ | ⟨rfl, hA, h⟩⟩)
    · exact .rangeA h hA
    · exact .rangeB h hA
    · exact .sizeA hrange hcheck h
    · exact .sizeB hrange hcheck hA h
  · intro h
    cases h with
    | rangeA h hA => exact .inl ⟨h, .inl ⟨rfl, hA⟩⟩
    | rangeB h hA => exact .inl ⟨h, .inr ⟨rfl, hA⟩⟩
    | sizeA hrange hcheck h => exact .inr ⟨hrange, hcheck, .inl ⟨rfl, h⟩⟩
    | sizeB hrange hcheck hA h => exact .inr ⟨hrange, hcheck, .inr ⟨rfl, hA, h⟩⟩

/-- **What validation blames.** An operand and a position are reported if and only if ranks and
counts fit, and they are those to blame: the first position with an id that is out of range,
and there `A` before `B`; or, if there is none and sizes are checked, the first position of `A`
with a wrong size, or else the first position of `B` whose size is not that of the output. Where
the operands disagree on the size of an index that is summed over, `A` is blamed, for this
position or an earlier one. -/
theorem validate_blames (p : Problem) (config : ValidationConfig) :
    (∀ operand i, p.validate config = .error (.assignmentInvalid operand i) ↔
      p.validateRanks = .ok () ∧ p.validateIndexCounts = .ok () ∧ p.Blames config operand i) ∧
      (p.validateRanks = .ok () → p.validateIndexCounts = .ok () →
        p.outOfRangeA ∪ p.outOfRangeB = ∅ → config.checkSizes = true →
        ∀ i leg, p.legsA[i]? = some leg → p.c.rank ≤ leg.id → DiffersIn p.legsB leg →
          ∃ j ≤ i, p.validate config = .error (.assignmentInvalid .a j)) := by
  refine ⟨fun operand i => validate_eq_assignmentInvalid_iff, ?_⟩
  intro hranks hcounts hrange hcheck i leg hleg hid hdiffers
  have hclash : i ∈ p.clashesA := ⟨leg, hleg, .inr ⟨hid, hdiffers⟩⟩
  classical
  have hleast := Set.Nonempty.isLeast_natFind ⟨i, hclash⟩
  exact ⟨_, hleast.2 hclash,
    validate_eq_assignmentInvalid_iff.2 ⟨hranks, hcounts, .sizeA hrange hcheck hleast⟩⟩

/-- A batch of products whose operands disagree on the size of the index that is summed over;
the right operand also disagrees with the output. -/
def disagreeingProduct : Problem where
  c := .packed .single [4, 8, 5]
  a := .packed .single [3, 5, 4]
  b := .packed .single [9, 7, 5]
  idsA := [3, 2, 0]
  idsB := [1, 3, 2]
  operation := .gemm .single
  profile := .reference
  classification := ⟨[0, 1], [2], [⟨0, 1⟩]⟩
  length_idsA := rfl
  length_idsB := rfl
  classify_eq := rfl

/-- The left operand is blamed, although the right one is wrong at its first position as
well. -/
theorem validate_blames_disagreeingProduct :
    disagreeingProduct.Blames .standard .a 0 ∧
      ∃ j ≤ 0, disagreeingProduct.validate .standard = .error (.assignmentInvalid .a j) := by
  obtain ⟨hblames, hsummed⟩ := validate_blames disagreeingProduct .standard
  have hrange : disagreeingProduct.outOfRangeA ∪ disagreeingProduct.outOfRangeB = ∅ :=
    (validateAssignments_eq_ok_iff_outOfRange rfl rfl).1 rfl
  have hdiffers : DiffersIn disagreeingProduct.legsB ⟨3, 3⟩ :=
    ⟨⟨3, 7⟩, .tail _ (.head _), rfl, by decide⟩
  exact ⟨((hblames .a 0).1 rfl).2.2, hsummed rfl rfl hrange rfl 0 ⟨3, 3⟩ rfl (by decide) hdiffers⟩

end Problem

end TensorContraction
