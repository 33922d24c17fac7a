import Mathlib.Data.List.Nodup
import Mathlib.Data.List.Perm.Basic
import TensorContraction.Proofs.Index.Partition

/-!
# Counting indices

The validation of a problem compares numbers: how many indices have each role, and how
many dimensions the tensors have. This file counts the ids that an operand uses, so that
these numbers can be compared with what the operands are assigned.

The ids below the rank of the output are used by one operand, by the other, or by both
(`TensorContraction.Problem.length_free_add_batch`), and the free indices are those of
one operand and those of the other (`TensorContraction.Problem.length_free`). An operand
that uses no id twice has as many dimensions as ids, and these are its free indices, the
batch indices, and what it has beyond the output
(`TensorContraction.length_eq_of_nodup`). Conversely, an operand of which so many different
ids are known as it has dimensions uses these ids and no others, and none of them twice
(`TensorContraction.perm_own_shared_append`).
-/

namespace TensorContraction

/-! ### Counting by filters -/

/-- Entries of two kinds are counted kind by kind. -/
theorem length_filter_of_or {α : Type} {l : List α} {P Q R : α → Bool}
    (h : ∀ x ∈ l, R x = true ↔ P x = true ∨ Q x = true)
    (hdisjoint : ∀ x ∈ l, P x = true → Q x = false) :
    (l.filter R).length = (l.filter P).length + (l.filter Q).length := by
  induction l with
  | nil => rfl
  | cons x l ih =>
    have hx := h x List.mem_cons_self
    have hxd := hdisjoint x List.mem_cons_self
    have ih := ih (fun y hy => h y (List.mem_cons_of_mem x hy))
      (fun y hy => hdisjoint y (List.mem_cons_of_mem x hy))
    rw [List.filter_cons, List.filter_cons, List.filter_cons]
    cases hP : P x <;> cases hQ : Q x <;> simp_all <;> omega

/-- **A list without repetitions** has as many entries as there are numbers up to a bound
that occur in it. -/
theorem length_eq_length_filter_range {l : List Nat} (hl : l.Nodup) {n : Nat}
    (hn : ∀ x ∈ l, x < n) : l.length = ((List.range n).filter fun i => i ∈ l).length := by
  refine ((List.perm_ext_iff_of_nodup hl (List.nodup_range.filter _)).2 fun x => ?_).length_eq
  rw [List.mem_filter, List.mem_range, decide_eq_true_eq]
  exact ⟨fun hx => ⟨hn x hx, hx⟩, fun hx => hx.2⟩

/-- **A list without repetitions that fills a range**: if it has as many entries as the
range, every number of the range occurs in it. -/
theorem mem_of_length_eq {l : List Nat} (hl : l.Nodup) {m n : Nat} (hm : ∀ x ∈ l, m ≤ x)
    (hn : ∀ x ∈ l, x < m + n) (hlength : l.length = n) {i : Nat} (hi : m ≤ i) (hi' : i < m + n) :
    i ∈ l := by
  -- the list is part of the range and as long as it
  have hsubset : l ⊆ List.range' m n := fun x hx =>
    List.mem_range'_1.2 ⟨hm x hx, hn x hx⟩
  have hperm : l.Perm (List.range' m n) :=
    (List.subperm_of_subset hl hsubset).perm_of_length_le
      (Nat.le_of_eq (by rw [List.length_range', hlength]))
  exact hperm.mem_iff.2 (List.mem_range'_1.2 ⟨hi, hi'⟩)

/-! ### The ids of one operand -/

/-- The indices of the output that the first operand uses and the second does not. -/
def ownIds (rankC : Nat) (a b : List Nat) : List Nat :=
  (List.range rankC).filter fun id => id ∈ a ∧ id ∉ b

/-- The indices of the output that both operands use. -/
def sharedIds (rankC : Nat) (a b : List Nat) : List Nat :=
  (List.range rankC).filter fun id => id ∈ a ∧ id ∈ b

theorem sharedIds_comm (rankC : Nat) (a b : List Nat) :
    sharedIds rankC a b = sharedIds rankC b a := by
  simp only [sharedIds, and_comm]

/-- **The ids of an operand** that uses none of them twice: its own ones, the shared ones,
and those beyond the output, if it uses these without a gap. -/
theorem length_eq_of_nodup {rankC s : Nat} {a b : List Nat} (ha : a.Nodup)
    (hbound : ∀ id ∈ a, id < rankC + s)
    (hbeyond : ∀ id, rankC ≤ id → id < rankC + s → id ∈ a) :
    a.length = (ownIds rankC a b).length + (sharedIds rankC a b).length + s := by
  -- the ids of the output are used by one operand or by both, the others without a gap
  have houtput : ((List.range rankC).filter fun id => id ∈ a).length =
      (ownIds rankC a b).length + (sharedIds rankC a b).length := by
    refine length_filter_of_or (fun id _ => ?_) (fun id _ h => ?_)
    · simp only [decide_eq_true_eq]
      tauto
    · simp only [decide_eq_true_eq, decide_eq_false_iff_not] at h ⊢
      tauto
  have hrest : (((List.range s).map (rankC + ·)).filter fun id => id ∈ a).length = s := by
    rw [List.filter_eq_self.2, List.length_map, List.length_range]
    intro id hid
    obtain ⟨i, hi, rfl⟩ := List.mem_map.1 hid
    have hlt := List.mem_range.1 hi
    exact decide_eq_true (hbeyond _ (by omega) (by omega))
  rw [length_eq_length_filter_range ha hbound, List.range_add, List.filter_append,
    List.length_append, houtput, hrest]

section

variable {rankC : Nat} {a b t : List Nat}

theorem nodup_own_shared_append (hnodup : t.Nodup) (hbeyond : ∀ id ∈ t, rankC ≤ id) :
    (ownIds rankC a b ++ sharedIds rankC a b ++ t).Nodup := by
  have hbelow : ∀ id ∈ ownIds rankC a b ++ sharedIds rankC a b, id < rankC := by
    intro id hid
    rcases List.mem_append.1 hid with hid | hid
    · exact List.mem_range.1 (List.mem_filter.1 hid).1
    · exact List.mem_range.1 (List.mem_filter.1 hid).1
  refine List.nodup_append.2 ⟨List.nodup_append.2 ⟨?_, ?_, ?_⟩, hnodup, ?_⟩
  · exact List.nodup_range.filter _
  · exact List.nodup_range.filter _
  · rintro id hown _ hshared rfl
    have hnot := of_decide_eq_true (List.mem_filter.1 hown).2
    have hboth := of_decide_eq_true (List.mem_filter.1 hshared).2
    exact hnot.2 hboth.2
  · rintro id hid _ ht rfl
    exact absurd (hbelow id hid) (Nat.not_lt_of_le (hbeyond id ht))

theorem own_shared_append_subset (ht : t ⊆ a) :
    ownIds rankC a b ++ sharedIds rankC a b ++ t ⊆ a := by
  refine List.append_subset.2 ⟨List.append_subset.2 ⟨?_, ?_⟩, ht⟩
  · intro id hid
    exact (of_decide_eq_true (List.mem_filter.1 hid).2).1
  · intro id hid
    exact (of_decide_eq_true (List.mem_filter.1 hid).2).1

variable (rankC b) in
/-- The different ids of an operand are no more than its dimensions. -/
theorem length_own_add_shared_add_le (hnodup : t.Nodup) (hbeyond : ∀ id ∈ t, rankC ≤ id)
    (ht : t ⊆ a) :
    (ownIds rankC a b).length + (sharedIds rankC a b).length + t.length ≤ a.length := by
  rw [← List.length_append, ← List.length_append]
  exact (List.subperm_of_subset (nodup_own_shared_append hnodup hbeyond)
    (own_shared_append_subset ht)).length_le

/-- **An operand with no dimensions to spare**: if its own ids, the shared ones and some
beyond the output are as many as its dimensions, it uses these ids, each of them once. -/
theorem perm_own_shared_append (hnodup : t.Nodup) (hbeyond : ∀ id ∈ t, rankC ≤ id) (ht : t ⊆ a)
    (hlength : a.length ≤
      (ownIds rankC a b).length + (sharedIds rankC a b).length + t.length) :
    (ownIds rankC a b ++ sharedIds rankC a b ++ t).Perm a := by
  rw [← List.length_append, ← List.length_append] at hlength
  exact (List.subperm_of_subset (nodup_own_shared_append hnodup hbeyond)
    (own_shared_append_subset ht)).perm_of_length_le hlength

end

/-! ### The indices of a problem -/

namespace Problem

variable (p : Problem)

/-- The free indices are those of one operand and those of the other. -/
theorem length_free : p.free.length =
    (ownIds p.c.rank p.usedA p.usedB).length + (ownIds p.c.rank p.usedB p.usedA).length := by
  rw [free_eq]
  refine length_filter_of_or (fun id hid => ?_) (fun id _ h => ?_)
  · have hlt := List.mem_range.1 hid
    simp only [decide_eq_true_eq]
    unfold IsFree
    tauto
  · simp only [decide_eq_true_eq, decide_eq_false_iff_not] at h ⊢
    tauto

/-- The batch indices are those that the operands share. -/
theorem batch_eq_sharedIds : p.batch = sharedIds p.c.rank p.usedA p.usedB := by
  rw [batch_eq]
  refine List.filter_congr fun id hid => ?_
  simp only [IsBatch, List.mem_range.1 hid, true_and]

/-- **Every dimension of the output is free or batch.** -/
theorem length_free_add_batch : p.free.length + p.batch.length = p.c.rank := by
  have hall : ((List.range p.c.rank).filter fun _ => true).length = p.c.rank := by
    rw [List.filter_eq_self.2 fun _ _ => rfl, List.length_range]
  rw [free_eq, batch_eq, ← length_filter_of_or (R := fun _ => true), hall]
  · intro id hid
    have hlt := List.mem_range.1 hid
    have hrole := p.hasRole (show id < p.c.rank + p.a.rank by omega)
    rw [HasRole, if_pos hlt] at hrole
    simp only [decide_eq_true_eq]
    unfold IsFree IsBatch
    rw [true_iff]
    tauto
  · intro id _ h
    simp only [decide_eq_true_eq, decide_eq_false_iff_not] at h ⊢
    unfold IsFree at h
    unfold IsBatch
    tauto

theorem nodup_summed : p.summed.Nodup :=
  (List.nodup_range.map (fun _ _ h => Nat.add_left_cancel h)).filter _

theorem length_summed : p.summed.length = p.summation.length := by
  rw [summation_eq, List.length_map]

/-- **The ids that are summed over**: those beyond the output that both operands use, as
far as the scan goes. -/
theorem mem_summed {id : Nat} : id ∈ p.summed ↔
    p.c.rank ≤ id ∧ id < p.c.rank + p.a.rank ∧ id ∈ p.usedA ∧ id ∈ p.usedB := by
  rw [summed, List.mem_filter, List.mem_map]
  simp only [List.mem_range, decide_eq_true_eq]
  unfold IsSummed
  constructor
  · rintro ⟨⟨i, hi, rfl⟩, hrank, hA, hB⟩
    exact ⟨hrank, by omega, hA, hB⟩
  · rintro ⟨hrank, hlt, hA, hB⟩
    exact ⟨⟨id - p.c.rank, by omega, by omega⟩, hrank, hA, hB⟩

end Problem

end TensorContraction
