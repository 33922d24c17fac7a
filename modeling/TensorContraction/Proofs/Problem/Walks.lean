import Mathlib.Order.Bounds.Basic
import TensorContraction.Proofs.Problem.Rules

/-!
# What the walks of validation report

Two rules of validation walk along lists and report the position of the first thing that is
wrong. As `TensorContraction.Proofs.Problem.Rules` says when they report nothing, this file says
what they report: the least element of the set of positions at which something is wrong
(`TensorContraction.positionsOf`). A walk counts its positions from wherever it begins, and one
lemma takes the first element off the list for both of them
(`TensorContraction.exists_isLeast_cons_iff`).
-/

namespace TensorContraction

/-! ### Positions -/

section Positions

variable {α : Type}

/-- The positions of a list at which something with a property is found. -/
def positionsOf (l : List α) (P : α → Prop) : Set Nat :=
  {i | ∃ x, l[i]? = some x ∧ P x}

variable {l : List α} {P Q : α → Prop} {i : Nat}

theorem positionsOf_eq_empty_iff : positionsOf l P = ∅ ↔ ∀ x ∈ l, ¬ P x := by
  rw [Set.eq_empty_iff_forall_notMem]
  constructor
  · intro h x hx hP
    obtain ⟨i, hi⟩ := List.mem_iff_getElem?.1 hx
    exact h i ⟨x, hi, hP⟩
  · rintro h i ⟨x, hi, hP⟩
    exact h x (List.mem_of_getElem? hi) hP

theorem positionsOf_congr (h : ∀ x ∈ l, P x ↔ Q x) : positionsOf l P = positionsOf l Q := by
  ext i
  refine exists_congr fun x => and_congr_right fun hi => h x (List.mem_of_getElem? hi)

/-- The positions of either list, if the lists are walked in step. -/
theorem positionsOf_zip {β : Type} {l' : List β} {Q : β → Prop} (h : l.length = l'.length) :
    positionsOf (l.zip l') (fun pair => P pair.1 ∨ Q pair.2) =
      positionsOf l P ∪ positionsOf l' Q := by
  ext i
  constructor
  · rintro ⟨⟨x, y⟩, hi, hP⟩
    obtain ⟨hx, hy⟩ := List.getElem?_zip_eq_some.1 hi
    exact hP.imp (fun hP => ⟨x, hx, hP⟩) (fun hQ => ⟨y, hy, hQ⟩)
  · rintro (⟨x, hx, hP⟩ | ⟨y, hy, hQ⟩)
    · obtain ⟨hi, -⟩ := List.getElem?_eq_some_iff.1 hx
      have hy := List.getElem?_eq_getElem (h ▸ hi : i < l'.length)
      exact ⟨(x, l'[i]), List.getElem?_zip_eq_some.2 ⟨hx, hy⟩, .inl hP⟩
    · obtain ⟨hi, -⟩ := List.getElem?_eq_some_iff.1 hy
      have hx := List.getElem?_eq_getElem (h ▸ hi : i < l.length)
      exact ⟨(l[i], y), List.getElem?_zip_eq_some.2 ⟨hx, hy⟩, .inr hQ⟩

/-- **The first position** of a list is that of its head, or comes behind it. -/
theorem isLeast_positionsOf_cons_iff {x : α} : IsLeast (positionsOf (x :: l) P) i ↔
    P x ∧ i = 0 ∨ ¬ P x ∧ ∃ j, IsLeast (positionsOf l P) j ∧ i = j + 1 := by
  by_cases hx : P x
  · have hzero : IsLeast (positionsOf (x :: l) P) 0 := ⟨⟨x, rfl, hx⟩, fun j _ => Nat.zero_le j⟩
    constructor
    · intro h
      exact .inl ⟨hx, h.unique hzero⟩
    · rintro (⟨-, rfl⟩ | ⟨hnot, -⟩)
      · exact hzero
      · exact absurd hx hnot
  · -- all positions move by one
    have hsucc (j : Nat) : j + 1 ∈ positionsOf (x :: l) P ↔ j ∈ positionsOf l P := by
      rw [positionsOf, positionsOf, Set.mem_ofPred_eq, Set.mem_ofPred_eq, List.getElem?_cons_succ]
    have hzero : 0 ∉ positionsOf (x :: l) P := by
      rintro ⟨y, hy, hP⟩
      obtain rfl : x = y := Option.some.inj hy
      exact hx hP
    constructor
    · rintro ⟨hmem, hlower⟩
      obtain ⟨j, rfl⟩ := Nat.exists_eq_succ_of_ne_zero fun h : i = 0 => hzero (h ▸ hmem)
      refine .inr ⟨hx, j, ⟨(hsucc j).1 hmem, fun k hk => ?_⟩, rfl⟩
      exact Nat.le_of_succ_le_succ (hlower ((hsucc k).2 hk))
    · rintro (⟨hP, -⟩ | ⟨-, j, ⟨hmem, hlower⟩, rfl⟩)
      · exact absurd hP hx
      · refine ⟨(hsucc j).2 hmem, fun k hk => ?_⟩
        obtain ⟨k, rfl⟩ := Nat.exists_eq_succ_of_ne_zero fun h : k = 0 => hzero (h ▸ hk)
        exact Nat.succ_le_succ (hlower ((hsucc k).1 hk))

theorem not_isLeast_positionsOf_nil : ¬ IsLeast (positionsOf ([] : List α) P) i := by
  rintro ⟨⟨x, hx, -⟩, -⟩
  cases hx

/-- **What holds of the first position** of a list holds of its head, or behind it. -/
theorem exists_isLeast_cons_iff {x : α} {R : Nat → Prop} :
    (∃ i, IsLeast (positionsOf (x :: l) P) i ∧ R i) ↔
      P x ∧ R 0 ∨ ¬ P x ∧ ∃ i, IsLeast (positionsOf l P) i ∧ R (i + 1) := by
  simp only [isLeast_positionsOf_cons_iff]
  constructor
  · rintro ⟨i, ⟨hP, rfl⟩ | ⟨hP, j, hj, rfl⟩, hR⟩
    · exact .inl ⟨hP, hR⟩
    · exact .inr ⟨hP, j, hj, hR⟩
  · rintro (⟨hP, hR⟩ | ⟨hP, i, hi, hR⟩)
    · exact ⟨0, .inl ⟨hP, rfl⟩, hR⟩
    · exact ⟨i + 1, .inr ⟨hP, i, hi, rfl⟩, hR⟩

end Positions

namespace Problem

/-! ### The walks -/

/-- **The walk over both assignments**, if they repeat no id, reports the first position with
an id above the bound, and there the left operand if its id is. -/
theorem checkAssignments_eq_error_iff {maxIndex position : Nat} {l : List (Nat × Nat)}
    (hfst : (l.map Prod.fst).Nodup) (hsnd : (l.map Prod.snd).Nodup) {e : ValidationError} :
    checkAssignments maxIndex position l = .error e ↔
      ∃ i, IsLeast (positionsOf l fun pair => maxIndex < pair.1 ∨ maxIndex < pair.2) i ∧
        ∃ pair, l[i]? = some pair ∧
          .assignmentInvalid (if maxIndex < pair.1 then .a else .b) (position + i) = e := by
  induction l generalizing position with
  | nil =>
    refine iff_of_false (fun h => by cases h) ?_
    rintro ⟨i, hleast, -⟩
    exact not_isLeast_positionsOf_nil hleast
  | cons head l ih =>
    obtain ⟨a, b⟩ := head
    obtain ⟨ha, hfst⟩ := List.nodup_cons.1 hfst
    obtain ⟨hb, hsnd⟩ := List.nodup_cons.1 hsnd
    have hrest := @ih (position + 1) hfst hsnd
    rw [exists_isLeast_cons_iff, checkAssignments, checkNotAgain_eq_ok_iff.2 ⟨ha, hb⟩]
    by_cases hA : maxIndex < a
    · simp [hA]
    · by_cases hB : maxIndex < b
      · simp [hA, hB]
      · simp [hA, hB, hrest, Nat.add_comm 1, Nat.add_assoc]

/-- An index of the output has an expected size, and so has one of the other operand. -/
theorem exists_expectedSize {c : Tensor} {other : List Leg} {id : Nat}
    (h : c.rank ≤ id → id ∈ other.map Leg.id) : ∃ size, expectedSize c other id = .ok size := by
  rw [expectedSize]
  split
  · exact ⟨_, rfl⟩
  · next hid =>
    cases hfind : other.find? fun leg => leg.id == id with
    | some leg => exact ⟨leg.size, rfl⟩
    | none =>
      obtain ⟨leg, hleg, rfl⟩ := List.mem_map.1 (h (Nat.le_of_not_lt hid))
      exact absurd (beq_self_eq_true leg.id) (List.find?_eq_none.1 hfind leg hleg)

/-- **The walk over the legs** of an operand, if all of them have an expected size, reports the
first position with another size. -/
theorem checkSizes_eq_error_iff {operand : Operand} {c : Tensor} {other l : List Leg}
    {position : Nat} (hl : ∀ leg ∈ l, ∃ size, expectedSize c other leg.id = .ok size)
    {e : ValidationError} :
    checkSizes operand c other position l = .error e ↔
      ∃ i, IsLeast (positionsOf l fun leg => expectedSize c other leg.id ≠ .ok leg.size) i ∧
        .assignmentInvalid operand (position + i) = e := by
  induction l generalizing position with
  | nil =>
    refine iff_of_false (fun h => by cases h) ?_
    rintro ⟨i, hleast, -⟩
    exact not_isLeast_positionsOf_nil hleast
  | cons leg l ih =>
    obtain ⟨size, hsize⟩ := hl leg List.mem_cons_self
    have hrest := @ih (position + 1) fun leg' hleg' => hl leg' (List.mem_cons_of_mem leg hleg')
    rw [exists_isLeast_cons_iff, checkSizes, hsize]
    by_cases heq : size = leg.size
    · simp [heq, hrest, Nat.add_comm 1, Nat.add_assoc]
    · simp [heq]

end Problem

end TensorContraction
