import TensorContraction.Problem.Formula
import TensorContraction.Problem.Validation
import TensorContraction.Proofs.Index.Partition
import TensorContraction.Proofs.Lookup
import TensorContraction.Proofs.Outcome

/-!
# What the rules of validation ask

Every rule of `TensorContraction.Problem.validate` is a computation that walks over lists
and reports the first thing that is wrong. This file says of each rule what holds when it
reports nothing, as an equivalence, and does not look at how the rules depend on each
other.

The walks forget the positions: a walk over two assignments in step asks of each of them
that it have no repetitions and no id above the bound, and a walk over legs asks that the
size of each leg be the expected one.
-/

namespace TensorContraction

namespace Problem

/-! ### Checks on lists of ids -/

theorem checkNotAgain_eq_ok_iff {a b : Nat} {l : List (Nat × Nat)} :
    checkNotAgain a b l = .ok () ↔ a ∉ l.map Prod.fst ∧ b ∉ l.map Prod.snd := by
  induction l with
  | nil => simp [checkNotAgain]
  | cons pair l ih =>
    obtain ⟨a', b'⟩ := pair
    rw [checkNotAgain, guard_eq_ok_iff, guard_eq_ok_iff, ih, List.map_cons, List.map_cons,
      List.mem_cons, List.mem_cons]
    tauto

/-- **The walk over both assignments** finds nothing if and only if no id is above the
bound, and neither assignment repeats an id. -/
theorem checkAssignments_eq_ok_iff {maxIndex position : Nat} {l : List (Nat × Nat)} :
    checkAssignments maxIndex position l = .ok () ↔
      (∀ pair ∈ l, pair.1 ≤ maxIndex ∧ pair.2 ≤ maxIndex) ∧
        (l.map Prod.fst).Nodup ∧ (l.map Prod.snd).Nodup := by
  induction l generalizing position with
  | nil => simp [checkAssignments]
  | cons pair l ih =>
    obtain ⟨a, b⟩ := pair
    rw [checkAssignments, guard_eq_ok_iff, guard_eq_ok_iff, List.forall_mem_cons, List.map_cons,
      List.map_cons, List.nodup_cons, List.nodup_cons, Nat.not_lt, Nat.not_lt]
    -- the error of the inner walk is passed on, whatever the rest of the outer one says
    have hagain := checkNotAgain_eq_ok_iff (a := a) (b := b) (l := l)
    cases hcheck : checkNotAgain a b l with
    | error e =>
      rw [hcheck] at hagain
      simp only [reduceCtorEq, false_iff] at hagain ⊢
      tauto
    | ok u =>
      rw [hcheck, eq_self, true_iff] at hagain
      simp only [ih]
      tauto

/-! ### Checks on legs -/

theorem map_id_legs {ids : List UInt64} {t : Tensor} (h : ids.length = t.rank) :
    (legs ids t).map Leg.id = ids.map UInt64.toNat := by
  have hlength : ids.length = t.sizes.length := by
    rw [h, Tensor.rank, Tensor.sizes, List.length_map]
  calc (legs ids t).map Leg.id
      = ((ids.zip t.sizes).map Prod.fst).map UInt64.toNat := by
        rw [legs, ← List.map_uncurry_zip_eq_zipWith, List.map_map, List.map_map]
        rfl
    _ = ids.map UInt64.toNat := by rw [List.map_fst_zip (Nat.le_of_eq hlength)]

/-- The legs of an operand carry its ids. -/
@[simp] theorem map_id_legsA (p : Problem) : p.legsA.map Leg.id = p.usedA :=
  map_id_legs p.length_idsA

@[simp] theorem map_id_legsB (p : Problem) : p.legsB.map Leg.id = p.usedB :=
  map_id_legs p.length_idsB

/-- **The legs of the output** are its dimensions, by number. -/
theorem mem_legsC {p : Problem} {leg : Leg} :
    leg ∈ p.legsC ↔ ∃ h : leg.id < p.c.rank, (p.c.dimensions.get ⟨leg.id, h⟩).size = leg.size := by
  obtain ⟨id, size⟩ := leg
  rw [legsC, List.mem_mapIdx]
  constructor
  · rintro ⟨i, hi, heq⟩
    obtain ⟨rfl, rfl⟩ := Leg.mk.inj heq
    have hrank : i < p.c.rank := by rwa [Tensor.sizes, List.length_map] at hi
    exact ⟨hrank, (List.getElem_map Dimension.size).symm⟩
  · rintro ⟨h, hsize⟩
    refine ⟨id, by rwa [Tensor.sizes, List.length_map], congrArg (Leg.mk id) ?_⟩
    exact (List.getElem_map Dimension.size).trans hsize

/-- No two legs of the output are the same dimension. -/
theorem map_id_legsC (p : Problem) : p.legsC.map Leg.id = List.range p.c.rank := by
  refine List.ext_getElem ?_ fun i hi hi' => ?_
  · rw [List.length_map, legsC, List.length_mapIdx, Tensor.sizes, List.length_map,
      List.length_range, Tensor.rank]
  · simp only [legsC, List.getElem_map, List.getElem_mapIdx, List.getElem_range]

/-- **The expected size** of an id is that of the leg which it is compared with: one of
the output, or beyond the output one of the other operand. -/
theorem expectedSize_eq_ok_iff {p : Problem} {other : List Leg}
    (hother : (other.map Leg.id).Nodup) {id : Nat} {size : UInt64} :
    expectedSize p.c other id = .ok size ↔
      ⟨id, size⟩ ∈ p.legsC ∨ p.c.rank ≤ id ∧ ⟨id, size⟩ ∈ other := by
  rw [expectedSize, mem_legsC]
  by_cases hid : id < p.c.rank
  · rw [dif_pos hid]
    constructor
    · intro h
      exact .inl ⟨hid, Except.ok.inj h⟩
    · rintro (⟨_, h⟩ | ⟨hle, -⟩)
      · exact congrArg Except.ok h
      · exact absurd hid (Nat.not_lt_of_le hle)
  · rw [dif_neg hid]
    constructor
    · intro h
      split at h
      · next leg hleg =>
        obtain ⟨hmem, rfl⟩ := (find?_key_eq_some_iff Leg.id hother).1 hleg
        cases h
        exact .inr ⟨Nat.le_of_not_lt hid, hmem⟩
      · cases h
    · rintro (⟨h, -⟩ | ⟨-, h⟩)
      · exact absurd h hid
      · have hfind : (other.find? fun leg => leg.id == id) = some ⟨id, size⟩ :=
          (find?_key_eq_some_iff Leg.id hother).2 ⟨h, rfl⟩
        rw [hfind]

/-- The walk over the legs of an operand finds nothing if and only if each leg has the
size that is expected. -/
theorem checkSizes_eq_ok_iff (operand : Operand) (position : Nat) {c : Tensor}
    {other l : List Leg} :
    checkSizes operand c other position l = .ok () ↔
      ∀ leg ∈ l, expectedSize c other leg.id = .ok leg.size := by
  induction l generalizing position with
  | nil => simp [checkSizes]
  | cons leg l ih =>
    rw [checkSizes, List.forall_mem_cons]
    cases expectedSize c other leg.id with
    | error e => simp
    | ok size =>
      by_cases hsize : size = leg.size
      · simp [hsize, ih]
      · simp [hsize]

/-! ### The rules -/

variable {p : Problem}

theorem validateRanks_eq_ok_iff : p.validateRanks = .ok () ↔ p.a.rank = p.b.rank := by
  rw [validateRanks]
  by_cases h : p.a.rank = p.b.rank
  · simp [h]
  · simp [h]

/-- **The counts that fit**: an even number of free indices, at least two of them, that
account with the other ones for all dimensions, and something to sum over. -/
theorem validateIndexCounts_eq_ok_iff :
    p.validateIndexCounts = .ok () ↔
      (p.free.length % 2 = 0 ∧ 2 ≤ p.free.length) ∧
        p.free.length / 2 + p.batch.length + p.summation.length = p.a.rank ∧
        p.free.length + p.batch.length = p.c.rank ∧ 1 ≤ p.summation.length := by
  rw [validateIndexCounts, guard_eq_ok_iff, guard_eq_ok_iff, guard_eq_ok_iff, guard_eq_ok_iff]
  simp only [ne_eq, not_or, Decidable.not_not, Nat.not_lt, and_true]

/-- **The assignments that fit**, for operands of the same rank: no id is above the bound,
and no operand uses an id twice. -/
theorem validateAssignments_eq_ok_iff (hrank : p.a.rank = p.b.rank) :
    p.validateAssignments = .ok () ↔
      (∀ id, id ∈ p.usedA ∨ id ∈ p.usedB → id ≤ p.maxIndex) ∧ p.usedA.Nodup ∧ p.usedB.Nodup := by
  -- walking in step leaves nothing out, for the assignments have the same length
  have hlength : p.usedA.length = p.usedB.length := by rw [length_usedA, length_usedB, hrank]
  have hfst : (p.usedA.zip p.usedB).map Prod.fst = p.usedA :=
    List.map_fst_zip (Nat.le_of_eq hlength)
  have hsnd : (p.usedA.zip p.usedB).map Prod.snd = p.usedB :=
    List.map_snd_zip (Nat.le_of_eq hlength.symm)
  rw [validateAssignments, checkAssignments_eq_ok_iff, map_id_legsA, map_id_legsB, hfst, hsnd]
  refine and_congr_left' ?_
  constructor
  · rintro h id (hA | hB)
    · rw [← hfst] at hA
      obtain ⟨pair, hpair, rfl⟩ := List.mem_map.1 hA
      exact (h pair hpair).1
    · rw [← hsnd] at hB
      obtain ⟨pair, hpair, rfl⟩ := List.mem_map.1 hB
      exact (h pair hpair).2
  · rintro h ⟨a, b⟩ hpair
    obtain ⟨hA, hB⟩ := List.of_mem_zip hpair
    exact ⟨h a (.inl hA), h b (.inr hB)⟩

/-- **The sizes that fit**: each leg of an operand has the size that the output, or beyond
the output the other operand, says. -/
theorem validateSizes_eq_ok_iff :
    p.validateSizes = .ok () ↔
      (∀ leg ∈ p.legsA, expectedSize p.c p.legsB leg.id = .ok leg.size) ∧
        ∀ leg ∈ p.legsB, expectedSize p.c p.legsA leg.id = .ok leg.size := by
  rw [← checkSizes_eq_ok_iff .a 0, ← checkSizes_eq_ok_iff .b 0, validateSizes]
  cases checkSizes .a p.c p.legsB 0 p.legsA with
  | error e => simp
  | ok u => simp

theorem validateDevices_eq_ok_iff {maxDevices : UInt64} :
    p.validateDevices maxDevices = .ok () ↔
      1 ≤ p.profile.numDevices ∧ p.profile.numDevices ≤ maxDevices.toNat := by
  rw [validateDevices, guard_eq_ok_iff]
  simp only [not_or, Nat.not_lt, and_true]

/-- **A problem is accepted** if and only if all rules that are asked for accept it. -/
theorem validate_eq_ok_iff_rules {config : ValidationConfig} :
    p.validate config = .ok () ↔
      p.validateRanks = .ok () ∧ p.validateIndexCounts = .ok () ∧
        p.validateAssignments = .ok () ∧
        (config.checkSizes = true → p.validateSizes = .ok ()) ∧
        p.validateDevices config.maxDevices = .ok () := by
  rw [validate, check_bind_eq_ok_iff, check_bind_eq_ok_iff, check_bind_eq_ok_iff]
  cases config.checkSizes with
  | true =>
    simp only [if_true, forall_const]
    rw [check_bind_eq_ok_iff]
  | false =>
    simp only [Bool.false_eq_true, if_false, false_imp_iff, true_and]

end Problem

end TensorContraction
