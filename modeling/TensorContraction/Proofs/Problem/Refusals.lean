import TensorContraction.Proofs.Index.Census
import TensorContraction.Proofs.Problem.Geometry
import TensorContraction.Proofs.Problem.Positions
import TensorContraction.Proofs.Problem.Walks

/-!
# What validation reports

Some errors of `TensorContraction.ValidationError` are there for defence only. A rule that
walks over the assignments would report an id that an operand uses twice, and the rule on
sizes would report an index that one operand sums over alone; but the rules on ranks and on
counts come first, and a problem that passes them has neither.

The reason is that there is no room for either. The two operands have the same rank, and
the counts say that half of the free indices, the batch indices and the summation pairs
make up that rank. Each operand uses its own free indices, the batch indices and the ids
that are summed over, all of which are different. If one operand had fewer own indices than
half of the free ones, the other would have more, and would not have the dimensions for
them. So each has exactly half, all of its dimensions are accounted for, and no dimension is
left for a repetition or for an id beyond the output that the other operand lacks
(`TensorContraction.Problem.perm_usedA`).

What is left for validation to report is `TensorContraction.Problem.IsReported`.
-/

namespace TensorContraction

namespace Problem

/-! ### Counts decide the ids -/

section

variable {p : Problem} (hranks : p.validateRanks = .ok ())
  (hcounts : p.validateIndexCounts = .ok ())
include hranks hcounts

/-- **Both operands have as many indices of their own**, half of the free ones. -/
theorem length_own_of_counts :
    (ownIds p.c.rank p.usedA p.usedB).length = p.free.length / 2 ∧
      (ownIds p.c.rank p.usedB p.usedA).length = p.free.length / 2 := by
  have hrank := validateRanks_eq_ok_iff.1 hranks
  obtain ⟨-, hconsumed, -, -⟩ := validateIndexCounts_eq_ok_iff.1 hcounts
  have hA := length_own_add_shared_add_le p.c.rank p.usedB p.nodup_summed
    (fun id hid => ((mem_summed p).1 hid).1) (fun id hid => ((mem_summed p).1 hid).2.2.1)
  have hB := length_own_add_shared_add_le p.c.rank p.usedA p.nodup_summed
    (fun id hid => ((mem_summed p).1 hid).1) (fun id hid => ((mem_summed p).1 hid).2.2.2)
  have hfree := p.length_free
  rw [length_usedA, ← batch_eq_sharedIds, length_summed] at hA
  rw [length_usedB, sharedIds_comm, ← batch_eq_sharedIds, length_summed] at hB
  omega

/-- **The left operand uses** its own indices, the batch indices and the ids that are summed
over, each once, and no others. -/
theorem perm_usedA :
    (ownIds p.c.rank p.usedA p.usedB ++ sharedIds p.c.rank p.usedA p.usedB ++ p.summed).Perm
      p.usedA := by
  obtain ⟨hown, -⟩ := length_own_of_counts hranks hcounts
  obtain ⟨-, hconsumed, -, -⟩ := validateIndexCounts_eq_ok_iff.1 hcounts
  refine perm_own_shared_append p.nodup_summed (fun id hid => ((mem_summed p).1 hid).1)
    (fun id hid => ((mem_summed p).1 hid).2.2.1) (Nat.le_of_eq ?_)
  rw [length_usedA, hown, ← batch_eq_sharedIds, length_summed, hconsumed]

/-- So does the right operand. -/
theorem perm_usedB :
    (ownIds p.c.rank p.usedB p.usedA ++ sharedIds p.c.rank p.usedB p.usedA ++ p.summed).Perm
      p.usedB := by
  have hrank := validateRanks_eq_ok_iff.1 hranks
  obtain ⟨-, hown⟩ := length_own_of_counts hranks hcounts
  obtain ⟨-, hconsumed, -, -⟩ := validateIndexCounts_eq_ok_iff.1 hcounts
  refine perm_own_shared_append p.nodup_summed (fun id hid => ((mem_summed p).1 hid).1)
    (fun id hid => ((mem_summed p).1 hid).2.2.2) (Nat.le_of_eq ?_)
  rw [length_usedB, hown, sharedIds_comm, ← batch_eq_sharedIds, length_summed, hconsumed, hrank]

/-- No operand uses an id twice. -/
theorem nodup_used_of_counts : p.usedA.Nodup ∧ p.usedB.Nodup := by
  have hnodup : ∀ a b, (ownIds p.c.rank a b ++ sharedIds p.c.rank a b ++ p.summed).Nodup :=
    fun _ _ => nodup_own_shared_append p.nodup_summed fun id hid => ((mem_summed p).1 hid).1
  exact ⟨(perm_usedA hranks hcounts).nodup_iff.1 (hnodup _ _),
    (perm_usedB hranks hcounts).nodup_iff.1 (hnodup _ _)⟩

/-- **What is not in the output is in both operands**, or in none. -/
theorem mem_usedA_iff_mem_usedB {id : Nat} (hid : p.c.rank ≤ id) :
    id ∈ p.usedA ↔ id ∈ p.usedB := by
  -- the first two parts of an operand are in the output
  have hbeyond : ∀ a b, id ∈ ownIds p.c.rank a b ++ sharedIds p.c.rank a b ++ p.summed ↔
      id ∈ p.summed := by
    intro a b
    simp only [List.mem_append, ownIds, sharedIds, List.mem_filter, List.mem_range,
      Nat.not_lt_of_le hid, false_and, false_or]
  rw [← (perm_usedA hranks hcounts).mem_iff, ← (perm_usedB hranks hcounts).mem_iff, hbeyond,
    hbeyond]

/-- **Every leg of the left operand has an expected size.** -/
theorem exists_expectedSize_legsA :
    ∀ leg ∈ p.legsA, ∃ size, expectedSize p.c p.legsB leg.id = .ok size := by
  intro leg hleg
  refine exists_expectedSize fun hid => ?_
  rw [map_id_legsB, ← mem_usedA_iff_mem_usedB hranks hcounts hid, ← map_id_legsA]
  exact List.mem_map_of_mem hleg

/-- So has every leg of the right operand. -/
theorem exists_expectedSize_legsB :
    ∀ leg ∈ p.legsB, ∃ size, expectedSize p.c p.legsA leg.id = .ok size := by
  intro leg hleg
  refine exists_expectedSize fun hid => ?_
  rw [map_id_legsA, mem_usedA_iff_mem_usedB hranks hcounts hid, ← map_id_legsB]
  exact List.mem_map_of_mem hleg

end

/-! ### The rule that refuses -/

variable {p : Problem} {config : ValidationConfig} {e : ValidationError}

/-- **A problem is refused** by the first rule that refuses it. -/
theorem validate_eq_error_iff_rules :
    p.validate config = .error e ↔
      p.validateRanks = .error e ∨ p.validateRanks = .ok () ∧
        (p.validateIndexCounts = .error e ∨ p.validateIndexCounts = .ok () ∧
          (p.validateAssignments = .error e ∨ p.validateAssignments = .ok () ∧
            (config.checkSizes = true ∧ p.validateSizes = .error e ∨
              (config.checkSizes = true → p.validateSizes = .ok ()) ∧
                p.validateDevices config.maxDevices = .error e))) := by
  rw [validate, check_bind_eq_error_iff, check_bind_eq_error_iff, check_bind_eq_error_iff]
  cases config.checkSizes with
  | true =>
    simp only [if_true, forall_const, true_and]
    rw [check_bind_eq_error_iff]
  | false => simp only [Bool.false_eq_true, if_false, false_imp_iff, false_and, false_or, true_and]

/-- **What validation may report** of a problem. -/
inductive IsReported (p : Problem) (config : ValidationConfig) : ValidationError → Prop
  /-- The operands differ in rank. -/
  | ranks (h : p.a.rank ≠ p.b.rank) : IsReported p config (.rankMismatch p.a.rank p.b.rank)
  /-- The free indices do not split evenly, or do not leave one for each operand. -/
  | free (h : p.free.length % 2 = 1 ∨ p.free.length < 2) :
    IsReported p config (.numFreeInvalid p.free.length)
  /-- The indices by role do not account for the dimensions of an operand. -/
  | indices (got : Nat) (h : got ≠ p.a.rank) :
    IsReported p config (.numIndicesMismatch p.a.rank got)
  /-- Nothing is summed over. -/
  | summation (h : p.summation.length = 0) : IsReported p config (.numSummationInvalid 0)
  /-- An id is out of range, or a size disagrees. -/
  | assignment (operand : Operand) (position : Nat) :
    IsReported p config (.assignmentInvalid operand position)
  /-- The number of devices is not supported. -/
  | devices (h : p.profile.numDevices < 1 ∨ config.maxDevices.toNat < p.profile.numDevices) :
    IsReported p config (.numDevicesInvalid p.profile.numDevices config.maxDevices.toNat)

theorem isReported_of_validateRanks (h : p.validateRanks = .error e) : p.IsReported config e := by
  rw [validateRanks] at h
  split at h
  · cases h
  · next hrank =>
    cases h
    exact .ranks hrank

theorem isReported_of_validateIndexCounts (h : p.validateIndexCounts = .error e) :
    p.IsReported config e := by
  rw [validateIndexCounts] at h
  split at h
  · next hfree =>
    cases h
    exact .free (hfree.imp_left Nat.mod_two_ne_zero.1)
  · split at h
    · next hconsumed =>
      cases h
      exact .indices _ hconsumed
    · split at h
      -- the indices of the output are free or batch, and no count is needed to see it
      · next houtput => exact absurd p.length_free_add_batch houtput
      · split at h
        · next hsum =>
          cases h
          rw [Nat.lt_one_iff.1 hsum]
          exact .summation (Nat.lt_one_iff.1 hsum)
        · cases h

theorem isReported_of_validateDevices (h : p.validateDevices config.maxDevices = .error e) :
    p.IsReported config e := by
  rw [validateDevices] at h
  split at h
  · next hdevices =>
    cases h
    exact .devices hdevices
  · cases h

section

variable (hranks : p.validateRanks = .ok ()) (hcounts : p.validateIndexCounts = .ok ())
include hranks hcounts

/-- **The rule on ids** reports a position. -/
theorem exists_eq_of_validateAssignments (h : p.validateAssignments = .error e) :
    ∃ operand i, e = .assignmentInvalid operand i := by
  have hlength : p.usedA.length = p.usedB.length := by
    rw [length_usedA, length_usedB, validateRanks_eq_ok_iff.1 hranks]
  obtain ⟨hA, hB⟩ := nodup_used_of_counts hranks hcounts
  rw [validateAssignments, map_id_legsA, map_id_legsB] at h
  obtain ⟨i, -, pair, -, rfl⟩ := (checkAssignments_eq_error_iff
    (by rwa [List.map_fst_zip (Nat.le_of_eq hlength)])
    (by rwa [List.map_snd_zip (Nat.le_of_eq hlength.symm)])).1 h
  exact ⟨_, _, rfl⟩

/-- **The rule on sizes** reports a position. -/
theorem exists_eq_of_validateSizes (h : p.validateSizes = .error e) :
    ∃ operand i, e = .assignmentInvalid operand i := by
  rw [validateSizes] at h
  split at h
  · next e' hcheck =>
    obtain ⟨i, -, rfl⟩ := (checkSizes_eq_error_iff (exists_expectedSize_legsA hranks hcounts)).1
      hcheck
    cases h
    exact ⟨.a, _, rfl⟩
  · obtain ⟨i, -, rfl⟩ := (checkSizes_eq_error_iff (exists_expectedSize_legsB hranks hcounts)).1 h
    exact ⟨.b, _, rfl⟩

end

/-- **Nothing else is reported.** -/
theorem isReported_of_validate (h : p.validate config = .error e) : p.IsReported config e := by
  rcases validate_eq_error_iff_rules.1 h with h | ⟨hranks, h | ⟨hcounts, h | ⟨-, h | ⟨-, h⟩⟩⟩⟩
  · exact isReported_of_validateRanks h
  · exact isReported_of_validateIndexCounts h
  · obtain ⟨operand, i, rfl⟩ := exists_eq_of_validateAssignments hranks hcounts h
    exact .assignment operand i
  · obtain ⟨operand, i, rfl⟩ := exists_eq_of_validateSizes hranks hcounts h.2
    exact .assignment operand i
  · exact isReported_of_validateDevices h

/-! ### Safety -/

/-- **Validation is safe.** No read is out of range and no number is taken from a lesser
one; neither an id that comes twice nor one that the other operand lacks is ever reported;
and the number of free indices is only reported where they do not split, since the indices
of the output are free or batch. Once ranks and counts fit, the ids do. -/
theorem validate_safe (p : Problem) (config : ValidationConfig) :
    (p.validateByPosition config).run = some (p.validate config) ∧
      (∀ operand id, p.validate config ≠ .error (.assignmentDuplicate operand id)) ∧
      (∀ id, p.validate config ≠ .error (.indexUnassigned id)) ∧
      (∀ n, p.validate config = .error (.numFreeInvalid n) →
        n = p.free.length ∧ (n % 2 = 1 ∨ n < 2)) ∧
      p.free.length + p.batch.length = p.c.rank ∧
      (p.validateRanks = .ok () → p.validateIndexCounts = .ok () →
        1 ≤ p.free.length + p.batch.length + p.summation.length ∧
          p.usedA.Nodup ∧ p.usedB.Nodup ∧
          ∀ id, p.c.rank ≤ id → (id ∈ p.usedA ↔ id ∈ p.usedB)) := by
  refine ⟨p.run_validateByPosition config, ?_, ?_, ?_, p.length_free_add_batch, ?_⟩
  · intro operand id h
    cases isReported_of_validate h
  · intro id h
    cases isReported_of_validate h
  · intro n h
    cases isReported_of_validate h with
    | free hfree => exact ⟨rfl, hfree⟩
  · intro hranks hcounts
    obtain ⟨hA, hB⟩ := nodup_used_of_counts hranks hcounts
    obtain ⟨⟨-, hfree⟩, -⟩ := validateIndexCounts_eq_ok_iff.1 hcounts
    exact ⟨by omega, hA, hB, fun id hid => mem_usedA_iff_mem_usedB hranks hcounts hid⟩

/-- A product whose right operand uses the summed index twice and lacks a free one. -/
def repeatedProduct : Problem where
  c := .packed .single [4, 8, 5]
  a := .packed .single [4, 3, 5]
  b := .packed .single [3, 8, 3]
  idsA := [0, 3, 2]
  idsB := [3, 1, 3]
  operation := .gemm .single
  profile := .reference
  classification := ⟨[0, 1, 2], [], [⟨1, 0⟩]⟩
  length_idsA := rfl
  length_idsB := rfl
  classify_eq := rfl

/-- The repetition is not reported, the odd number of free indices is. A batch of products
passes the counts, and uses no id twice. -/
theorem validate_repeatedProduct :
    repeatedProduct.validate .standard = .error (.numFreeInvalid 3) ∧
      repeatedProduct.free.length % 2 = 1 ∧ batchedProduct.usedA.Nodup ∧
      (3 ∈ batchedProduct.usedA ↔ 3 ∈ batchedProduct.usedB) := by
  obtain ⟨-, -, -, hfree, -⟩ := validate_safe repeatedProduct .standard
  obtain ⟨-, -, -, -, -, hcounts⟩ := validate_safe batchedProduct .standard
  obtain ⟨hlength, hodd⟩ := hfree 3 rfl
  obtain ⟨-, hA, -, hshared⟩ := hcounts rfl rfl
  exact ⟨rfl, hlength ▸ hodd.resolve_right (by decide), hA, hshared 3 (by decide)⟩

end Problem

end TensorContraction
