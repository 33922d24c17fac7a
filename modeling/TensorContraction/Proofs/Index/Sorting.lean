import Mathlib.Data.List.Forall2
import Mathlib.Data.List.Nodup
import TensorContraction.Proofs.Index.Partition

/-!
# What a classification tells

`TensorContraction.Classification.scan_eq` says how a classification is computed: by a
search for the first id without a role, and by filters. This file says what it tells, in
terms of the assignments alone.

A classification that succeeds **sorts** the ids
(`TensorContraction.Classification.Sorts`). The free and the batch indices divide those of
the output among them, and beyond the output there is one pair for each id that both
operands use, made of the positions at which they first use it. Assignments may repeat ids,
leave gaps and use ids that no one asks about; the first positions are those of different
ids all the same, so that no position is in two pairs.

A classification that fails **blames** the least id without a role.

The bound on the ids is computed in words. As long as it fits in one, it is the bound of
`TensorContraction.Classification.ofIds`, from which problems are formed
(`TensorContraction.Classification.ofWords_eq_ofIds`).
-/

namespace TensorContraction

/-! ### First positions -/

/-- **The first position** of an id in an assignment. -/
def IsFirstAt (l : List Nat) (id position : Nat) : Prop :=
  l[position]? = some id ∧ ∀ i < position, l[i]? ≠ some id

theorem isFirstAt_idxOf {l : List Nat} {id : Nat} (h : id ∈ l) : IsFirstAt l id (l.idxOf id) := by
  have hlt := List.idxOf_lt_length_of_mem h
  refine ⟨by rw [List.getElem?_eq_getElem hlt, List.getElem_idxOf hlt], fun i hi heq => ?_⟩
  obtain ⟨_, hget⟩ := List.getElem?_eq_some_iff.1 heq
  exact ne_of_beq_false (List.not_of_lt_findIdx (p := (· == id)) hi) hget

/-- Different ids have different first positions. -/
theorem nodup_map_idxOf {l ids : List Nat} (hids : ids.Nodup) (h : ∀ id ∈ ids, id ∈ l) :
    (ids.map fun id => l.idxOf id).Nodup :=
  List.Nodup.map_on (fun id hid _ _ heq => (List.idxOf_inj (h id hid)).1 heq) hids

namespace Classification

/-! ### Sorted ids -/

/-- **A classification that sorts** the ids of an output of rank `rankC` and of operands
that are assigned `a` and `b`. -/
structure Sorts (rankC : Nat) (a b : List Nat) (k : Classification) : Prop where
  /-- The free indices ascend. -/
  free_ascending : k.free.Pairwise (· < ·)
  /-- The batch indices ascend. -/
  batch_ascending : k.batch.Pairwise (· < ·)
  /-- No index is both free and batch. -/
  disjoint : k.free.Disjoint k.batch
  /-- The indices of the output are those that are free or batch. -/
  free_or_batch : ∀ id, id ∈ k.free ∨ id ∈ k.batch ↔ id < rankC
  /-- The batch indices are those that both operands use. -/
  mem_batch : ∀ id < rankC, id ∈ k.batch ↔ id ∈ a ∧ id ∈ b
  /-- There is one summation pair for each id beyond the output that both operands use, by
  ascending id. It holds the first positions of the id. -/
  summation : ∃ ids : List Nat, ids.Pairwise (· < ·) ∧
    (∀ id, id ∈ ids ↔ (rankC ≤ id ∧ id < rankC + a.length) ∧ id ∈ a ∧ id ∈ b) ∧
    ids.Forall₂ (fun id pair => IsFirstAt a id pair.inA ∧ IsFirstAt b id pair.inB) k.summation
  /-- No position of the left operand is in two pairs. -/
  nodup_inA : (k.summation.map SummationPair.inA).Nodup
  /-- No position of the right operand is in two pairs. -/
  nodup_inB : (k.summation.map SummationPair.inB).Nodup
  /-- A pair holds positions of one id. -/
  same_id : ∀ pair ∈ k.summation, ∃ id, a[pair.inA]? = some id ∧ b[pair.inB]? = some id

section

variable {rankC : Nat} {a b : List Nat}

theorem mem_free_ofRange {n id : Nat} :
    id ∈ (ofRange rankC a b (List.range (rankC + n))).free ↔ IsFree rankC a b id := by
  rw [ofRange, List.mem_filter, List.mem_range, decide_eq_true_eq]
  exact ⟨And.right, fun hid => ⟨Nat.lt_add_right n hid.1, hid⟩⟩

theorem mem_batch_ofRange {n id : Nat} :
    id ∈ (ofRange rankC a b (List.range (rankC + n))).batch ↔ IsBatch rankC a b id := by
  rw [ofRange, List.mem_filter, List.mem_range, decide_eq_true_eq]
  exact ⟨And.right, fun hid => ⟨Nat.lt_add_right n hid.1, hid⟩⟩

variable (rankC a b) in
/-- The ids that are summed over, up to the bound. -/
def summedIds : List Nat :=
  (List.range (rankC + a.length)).filter fun id => IsSummed rankC a b id

theorem mem_summedIds {id : Nat} : id ∈ summedIds rankC a b ↔
    (rankC ≤ id ∧ id < rankC + a.length) ∧ id ∈ a ∧ id ∈ b := by
  rw [summedIds, List.mem_filter, List.mem_range, decide_eq_true_eq]
  unfold IsSummed
  tauto

/-- The summation pairs are those of the ids that are summed over. -/
theorem summation_ofRange : (ofRange rankC a b (List.range (rankC + a.length))).summation =
    (summedIds rankC a b).map (pairOf a b) := rfl

theorem isFirstAt_pairOf {id : Nat} (h : id ∈ summedIds rankC a b) :
    IsFirstAt a id (pairOf a b id).inA ∧ IsFirstAt b id (pairOf a b id).inB := by
  obtain ⟨-, hA, hB⟩ := mem_summedIds.1 h
  exact ⟨isFirstAt_idxOf hA, isFirstAt_idxOf hB⟩

/-- **Ids that all have roles are sorted.** -/
theorem sorts_ofRange (h : ∀ id < rankC + a.length, HasRole rankC a b id) :
    (ofRange rankC a b (List.range (rankC + a.length))).Sorts rankC a b := by
  have hascending : (summedIds rankC a b).Pairwise (· < ·) := List.pairwise_lt_range.filter _
  have hnodup : (summedIds rankC a b).Nodup := hascending.imp Nat.ne_of_lt
  refine ⟨List.pairwise_lt_range.filter _, List.pairwise_lt_range.filter _,
    ?disjoint, ?free_or_batch, ?mem_batch, ?summation, ?nodup_inA, ?nodup_inB, ?same_id⟩
  case disjoint =>
    intro id hfree hbatch
    obtain ⟨-, hA, hB⟩ := mem_batch_ofRange.1 hbatch
    exact (mem_free_ofRange.1 hfree).2 (iff_of_true hA hB)
  case free_or_batch =>
    intro id
    rw [mem_free_ofRange, mem_batch_ofRange]
    refine ⟨fun hid => hid.elim And.left And.left, fun hid => ?_⟩
    -- the role of an id of the output is one of the two
    have hrole := h id (Nat.lt_add_right _ hid)
    rw [HasRole, if_pos hid] at hrole
    unfold IsFree IsBatch
    tauto
  case mem_batch =>
    intro id hid
    rw [mem_batch_ofRange]
    exact and_iff_right hid
  case summation =>
    refine ⟨summedIds rankC a b, hascending, fun id => mem_summedIds, ?_⟩
    rw [summation_ofRange, List.forall₂_map_right_iff]
    exact List.forall₂_same.2 fun id hid => isFirstAt_pairOf hid
  case nodup_inA =>
    rw [summation_ofRange, List.map_map]
    exact nodup_map_idxOf hnodup fun id hid => (mem_summedIds.1 hid).2.1
  case nodup_inB =>
    rw [summation_ofRange, List.map_map]
    exact nodup_map_idxOf hnodup fun id hid => (mem_summedIds.1 hid).2.2
  case same_id =>
    intro pair hpair
    rw [summation_ofRange] at hpair
    obtain ⟨id, hid, rfl⟩ := List.mem_map.1 hpair
    obtain ⟨⟨hA, -⟩, ⟨hB, -⟩⟩ := isFirstAt_pairOf hid
    exact ⟨id, hA, hB⟩

/-! ### The id that is blamed -/

/-- **The least id without a role** decides the error. -/
theorem ofIds_eq_error_of_exists (h : ∃ id < rankC + a.length, ¬HasRole rankC a b id) :
    ∃ id < rankC + a.length, ¬HasRole rankC a b id ∧ (∀ i < id, HasRole rankC a b i) ∧
      ofIds rankC a b = .error (roleError rankC id) := by
  rw [ofIds, scan_eq, ← List.range_eq_range']
  cases hfind : (List.range (rankC + a.length)).find? fun i => !decide (HasRole rankC a b i) with
  | none =>
    obtain ⟨id, hlt, hid⟩ := h
    exact absurd (by simpa using List.find?_eq_none.1 hfind id (List.mem_range.2 hlt)) hid
  | some id =>
    obtain ⟨hid, hmem, hleast⟩ := List.find?_range_eq_some.1 hfind
    exact ⟨id, List.mem_range.1 hmem, by simpa using hid, fun i hi => by simpa using hleast i hi,
      rfl⟩

end

/-! ### Words -/

/-- **A bound that fits in a word** is the bound of the classification of problems. -/
theorem ofWords_eq_ofIds {rankC : UInt64} {a : List UInt64} (b : List UInt64)
    (h : rankC.toNat + a.length < UInt64.size) :
    ofWords rankC a b = ofIds rankC.toNat (a.map UInt64.toNat) (b.map UInt64.toNat) := by
  have hlength : (UInt64.ofNat a.length).toNat = a.length :=
    UInt64.toNat_ofNat_of_lt' (Nat.lt_of_le_of_lt (Nat.le_add_left _ _) h)
  rw [ofWords, ofIds, UInt64.toNat_add, hlength, Nat.mod_eq_of_lt h, List.length_map]

/-- **What a classification tells**, for a bound that fits in a word. It is the one that
problems are formed from. If an id below the bound has no role, the least one is blamed,
and otherwise the ids are sorted. -/
theorem ofWords_blames_or_sorts (rankC : UInt64) (a b : List UInt64)
    (h : rankC.toNat + a.length < UInt64.size) :
    let a' := a.map UInt64.toNat
    let b' := b.map UInt64.toNat
    ofWords rankC a b = ofIds rankC.toNat a' b' ∧
      ((∃ id < rankC.toNat + a.length, ¬HasRole rankC.toNat a' b' id) →
        ∃ id < rankC.toNat + a.length, ¬HasRole rankC.toNat a' b' id ∧
          (∀ i < id, HasRole rankC.toNat a' b' i) ∧
          ofWords rankC a b = .error (roleError rankC.toNat id)) ∧
      ((∀ id < rankC.toNat + a.length, HasRole rankC.toNat a' b' id) →
        ∃ k, ofWords rankC a b = .ok k ∧ k.Sorts rankC.toNat a' b') := by
  intro a' b'
  have hlength : a.length = a'.length := (List.length_map _).symm
  rw [ofWords_eq_ofIds b h, hlength]
  refine ⟨rfl, ofIds_eq_error_of_exists, fun hroles => ?_⟩
  exact ⟨_, ofIds_eq_ok_iff.2 ⟨hroles, rfl⟩, sorts_ofRange hroles⟩

/-- Assignments with a repetition, with a gap and with an id that is not looked at are
sorted all the same. Where the operands sum over different ids, the lesser one is
blamed. -/
theorem ofWords_repeated :
    ofWords 2 [0, 4, 3, 4] [3, 4, 1, 9] = .ok ⟨[0, 1], [], [⟨2, 0⟩, ⟨1, 1⟩]⟩ ∧
      Sorts 2 [0, 4, 3, 4] [3, 4, 1, 9] ⟨[0, 1], [], [⟨2, 0⟩, ⟨1, 1⟩]⟩ ∧
      ofWords 2 [0, 3] [1, 2] = .error (.summationAssignmentsInvalid 2) := by
  obtain ⟨-, -, hsorts⟩ := ofWords_blames_or_sorts 2 [0, 4, 3, 4] [3, 4, 1, 9] (by decide)
  obtain ⟨-, hblames, -⟩ := ofWords_blames_or_sorts 2 [0, 3] [1, 2] (by decide)
  obtain ⟨k, hk, hsorted⟩ := hsorts (by decide)
  have hvalue : k = ⟨[0, 1], [], [⟨2, 0⟩, ⟨1, 1⟩]⟩ := Except.ok.inj (hk.symm.trans rfl)
  subst hvalue
  obtain ⟨id, hlt, hid, hleast, herror⟩ := hblames ⟨2, by decide, by decide⟩
  refine ⟨hk, hsorted, ?_⟩
  -- no id below 2 is without a role, and no lesser id than the one that is blamed is
  have h2 : id = 2 := by
    have hle : id ≤ 2 := Nat.le_of_not_lt fun hgt => absurd (hleast 2 hgt) (by decide)
    have hroles : ∀ i < 2, HasRole 2 [0, 3] [1, 2] i := by decide
    have hge : 2 ≤ id := Nat.le_of_not_lt fun hgt => hid (hroles id hgt)
    exact Nat.le_antisymm hle hge
  rw [herror, h2]
  rfl

end Classification

end TensorContraction
