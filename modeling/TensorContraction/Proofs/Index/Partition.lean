import Mathlib.Data.List.Basic
import TensorContraction.Problem.Basic

/-!
# The classification as a partition

The scan of `TensorContraction.Classification.scan` goes from id to id. Seen from the
outside, it does two things: it looks for the first id without a role, and if there is
none it filters the free, the batch and the summed ids out of those that it looks at,
each by a property of the id alone.

`TensorContraction.Classification.scan_eq` says so in one equation. What the
classification of a problem holds is read off from there
(`TensorContraction.Problem.classification_eq`).
-/

namespace TensorContraction

/-! ### Properties of an id -/

section

variable (rankC : Nat) (a b : List Nat) (id : Nat)

/-- An index of the output that exactly one operand uses. -/
def IsFree : Prop :=
  id < rankC ∧ ¬(id ∈ a ↔ id ∈ b)

/-- An index of the output that both operands use. -/
def IsBatch : Prop :=
  id < rankC ∧ id ∈ a ∧ id ∈ b

/-- An index beyond the output that both operands use. -/
def IsSummed : Prop :=
  rankC ≤ id ∧ id ∈ a ∧ id ∈ b

/-- **An id that has a role**: one of the output is used by an operand, and one beyond
the output by both operands or by none. -/
def HasRole : Prop :=
  if id < rankC then id ∈ a ∨ id ∈ b else (id ∈ a ↔ id ∈ b)

instance : Decidable (IsFree rankC a b id) :=
  inferInstanceAs (Decidable (_ ∧ _))

instance : Decidable (IsBatch rankC a b id) :=
  inferInstanceAs (Decidable (_ ∧ _))

instance : Decidable (IsSummed rankC a b id) :=
  inferInstanceAs (Decidable (_ ∧ _))

instance : Decidable (HasRole rankC a b id) :=
  inferInstanceAs (Decidable (if id < rankC then id ∈ a ∨ id ∈ b else (id ∈ a ↔ id ∈ b)))

end

/-- The error of an id without a role. -/
def roleError (rankC id : Nat) : ProblemError :=
  if id < rankC then .indexUnassigned id else .summationAssignmentsInvalid id

/-- The summation pair of an id: the positions at which the operands first use it. -/
def pairOf (a b : List Nat) (id : Nat) : SummationPair :=
  ⟨a.idxOf id, b.idxOf id⟩

/-! ### The role of an id -/

theorem idxOf?_of_mem {l : List Nat} {x : Nat} (h : x ∈ l) : l.idxOf? x = some (l.idxOf x) := by
  induction l with
  | nil => cases h
  | cons y l ih =>
    rw [List.idxOf?_cons, List.idxOf_cons]
    cases hy : y == x with
    | true => rfl
    | false =>
      have hne : x ≠ y := fun heq => by simp [heq] at hy
      rw [ih ((List.mem_cons.1 h).resolve_left hne)]
      rfl

theorem idxOf?_of_notMem {l : List Nat} {x : Nat} (h : x ∉ l) : l.idxOf? x = none :=
  List.idxOf?_eq_none_iff.2 h

section

variable {rankC : Nat} {a b : List Nat} {id : Nat}

/-- **An id without a role** is the only one that is refused. -/
theorem roleOf_of_not_hasRole (h : ¬HasRole rankC a b id) :
    roleOf rankC a b id = .error (roleError rankC id) := by
  unfold HasRole at h
  unfold roleOf roleError
  split
  · next hid =>
    rw [if_pos hid, not_or] at h
    rw [idxOf?_of_notMem h.1, idxOf?_of_notMem h.2]
  · next hid =>
    rw [if_neg hid] at h
    by_cases hA : id ∈ a
    · have hB : id ∉ b := fun hB => h ⟨fun _ => hB, fun _ => hA⟩
      rw [idxOf?_of_mem hA, idxOf?_of_notMem hB]
    · have hB : id ∈ b := by
        by_contra hB
        exact h ⟨fun hA' => absurd hA' hA, fun hB' => absurd hB' hB⟩
      rw [idxOf?_of_notMem hA, idxOf?_of_mem hB]

/-- **An id with a role** goes to the list of its role, if there is one. -/
theorem roleOf_of_hasRole (h : HasRole rankC a b id) :
    ∃ role, roleOf rankC a b id = .ok role ∧
      ∀ k, Classification.add k id role =
        ⟨if IsFree rankC a b id then id :: k.free else k.free,
          if IsBatch rankC a b id then id :: k.batch else k.batch,
          if IsSummed rankC a b id then pairOf a b id :: k.summation else k.summation⟩ := by
  unfold HasRole at h
  unfold roleOf IsFree IsBatch IsSummed pairOf
  by_cases hid : id < rankC <;> by_cases hA : id ∈ a <;> by_cases hB : id ∈ b <;>
    simp only [hid, hA, hB, Nat.not_le_of_lt, Nat.le_of_not_lt, idxOf?_of_mem, idxOf?_of_notMem,
      not_false_eq_true, if_true, if_false, or_false, or_self, iff_true, iff_false,
      not_true_eq_false, and_true, and_false, iff_self] at h ⊢
  all_goals exact ⟨_, rfl, fun _ => rfl⟩

end

/-! ### The scan -/

namespace Classification

variable (rankC : Nat) (a b : List Nat)

/-- The classification of ids that all have roles, in the order in which they are
listed. -/
def ofRange (ids : List Nat) : Classification where
  free := ids.filter fun id => IsFree rankC a b id
  batch := ids.filter fun id => IsBatch rankC a b id
  summation := (ids.filter fun id => IsSummed rankC a b id).map (pairOf a b)

/-- **What the scan does**: it looks for the first id without a role, and if there is
none it sorts the ids by their properties. -/
theorem scan_eq (count id : Nat) :
    scan rankC a b count id =
      match (List.range' id count).find? fun i => !decide (HasRole rankC a b i) with
      | some i => .error (roleError rankC i)
      | none => .ok (ofRange rankC a b (List.range' id count)) := by
  induction count generalizing id with
  | zero => rfl
  | succ count ih =>
    rw [scan, List.range'_succ, List.find?_cons]
    by_cases h : HasRole rankC a b id
    · obtain ⟨role, hrole, hadd⟩ := roleOf_of_hasRole h
      simp only [hrole, ih, h, decide_true, Bool.not_true]
      cases (List.range' (id + 1) count).find? fun i => !decide (HasRole rankC a b i) with
      | some i => rfl
      | none =>
        simp only [Except.map, hadd, ofRange, List.filter_cons, decide_eq_true_eq]
        split <;> split <;> split <;> rfl
    · simp only [roleOf_of_not_hasRole h, h, decide_false, Bool.not_false]

variable {rankC a b} in
/-- **A scan that succeeds**: all ids up to its bound have roles, and are sorted by them. -/
theorem scan_eq_ok_iff {count : Nat} {k : Classification} :
    scan rankC a b count 0 = .ok k ↔
      (∀ id < count, HasRole rankC a b id) ∧ k = ofRange rankC a b (List.range count) := by
  rw [scan_eq, ← List.range_eq_range']
  constructor
  · intro h
    split at h
    · cases h
    · next hnone =>
      refine ⟨fun id hid => ?_, (Except.ok.inj h).symm⟩
      simpa using List.find?_eq_none.1 hnone id (List.mem_range.2 hid)
  · rintro ⟨hroles, rfl⟩
    have hnone : (List.range count).find? (fun i => !decide (HasRole rankC a b i)) = none := by
      refine List.find?_eq_none.2 fun id hid => ?_
      simp [hroles id (List.mem_range.1 hid)]
    rw [hnone]

variable {rankC a b} in
/-- **A classification that succeeds**: all ids up to the bound have roles, and are
sorted by them. -/
theorem ofIds_eq_ok_iff {k : Classification} :
    ofIds rankC a b = .ok k ↔
      (∀ id < rankC + a.length, HasRole rankC a b id) ∧
        k = ofRange rankC a b (List.range (rankC + a.length)) :=
  scan_eq_ok_iff

end Classification

/-! ### Ranges

The ids of the output and those beyond it are two parts of the range that is scanned, and
each of the properties above holds in one of the parts only. -/

section

variable {P : Nat → Bool} {m n : Nat}

theorem filter_range_of_lt (h : ∀ i, P i = true → i < m) :
    (List.range (m + n)).filter P = (List.range m).filter P := by
  have hnil : ((List.range n).map (m + ·)).filter P = [] := by
    refine List.filter_eq_nil_iff.2 fun i hi hP => ?_
    obtain ⟨j, -, rfl⟩ := List.mem_map.1 hi
    have hlt := h (m + j) hP
    omega
  rw [List.range_add, List.filter_append, hnil, List.append_nil]

theorem filter_range_of_le (h : ∀ i, P i = true → m ≤ i) :
    (List.range (m + n)).filter P = ((List.range n).map (m + ·)).filter P := by
  have hnil : (List.range m).filter P = [] := by
    refine List.filter_eq_nil_iff.2 fun i hi hP => ?_
    have hle := h i hP
    have hlt := List.mem_range.1 hi
    omega
  rw [List.range_add, List.filter_append, hnil, List.nil_append]

end

/-! ### The classification of a problem -/

namespace Problem

/-- The ids that the left operand uses, as numbers. -/
def usedA (p : Problem) : List Nat :=
  p.idsA.map UInt64.toNat

/-- The ids that the right operand uses, as numbers. -/
def usedB (p : Problem) : List Nat :=
  p.idsB.map UInt64.toNat

variable (p : Problem)

@[simp] theorem length_usedA : p.usedA.length = p.a.rank := by
  rw [usedA, List.length_map, p.length_idsA]

@[simp] theorem length_usedB : p.usedB.length = p.b.rank := by
  rw [usedB, List.length_map, p.length_idsB]

theorem ofIds_used : Classification.ofIds p.c.rank p.usedA p.usedB = .ok p.classification :=
  p.classify_eq

/-- The classification of a problem sorts the ids below its bound. -/
theorem classification_eq : p.classification =
    .ofRange p.c.rank p.usedA p.usedB (List.range (p.c.rank + p.a.rank)) := by
  rw [(Classification.ofIds_eq_ok_iff.1 p.ofIds_used).2, length_usedA]

/-- **Every id below the bound has a role.** -/
theorem hasRole {id : Nat} (hid : id < p.c.rank + p.a.rank) :
    HasRole p.c.rank p.usedA p.usedB id :=
  (Classification.ofIds_eq_ok_iff.1 p.ofIds_used).1 id (by rwa [length_usedA])

/-- The free indices, among those of the output. -/
theorem free_eq : p.free =
    (List.range p.c.rank).filter fun id => IsFree p.c.rank p.usedA p.usedB id := by
  rw [free, classification_eq]
  exact filter_range_of_lt fun id h => (of_decide_eq_true h).1

/-- The batch indices, among those of the output. -/
theorem batch_eq : p.batch =
    (List.range p.c.rank).filter fun id => IsBatch p.c.rank p.usedA p.usedB id := by
  rw [batch, classification_eq]
  exact filter_range_of_lt fun id h => (of_decide_eq_true h).1

/-- The ids that are summed over, up to the bound. -/
def summed : List Nat :=
  ((List.range p.a.rank).map (p.c.rank + ·)).filter fun id =>
    IsSummed p.c.rank p.usedA p.usedB id

/-- The summation pairs are those of the ids that are summed over. -/
theorem summation_eq : p.summation = p.summed.map (pairOf p.usedA p.usedB) := by
  rw [summation, classification_eq]
  exact congrArg (List.map _) (filter_range_of_le fun id h => (of_decide_eq_true h).1)

theorem length_free_le : p.free.length ≤ p.c.rank := by
  rw [free_eq]
  exact le_of_le_of_eq (List.length_filter_le _ _) List.length_range

theorem length_batch_le : p.batch.length ≤ p.c.rank := by
  rw [batch_eq]
  exact le_of_le_of_eq (List.length_filter_le _ _) List.length_range

theorem length_summation_le : p.summation.length ≤ p.a.rank := by
  rw [summation_eq, List.length_map, summed]
  refine le_of_le_of_eq (List.length_filter_le _ _) ?_
  rw [List.length_map, List.length_range]

end Problem

end TensorContraction
