import Mathlib.Data.Nat.PSub
import TensorContraction.Proofs.Problem.Rules

/-!
# Validation by positions

The rules of `TensorContraction.Problem.validate` walk over lists, and a walk over a list
cannot leave it. This file has the same rules for tensors and assignments that are asked for
their entries **by position**, as arrays are: both assignments for those at one position, a
tensor for the dimension at the position of an assignment, the output for the dimension with
a given id, and the other operand for the dimension at the position that a search has found.
Where there is no such entry, there is no result, and neither is there one where a number
is taken from a lesser one.

That this never happens is `TensorContraction.Problem.run_validateByPosition`: validation by
positions always has a result, which is that of validation. Some of the reads are in range
because of what a problem is, some because of the checks around them – and those of both
assignments in step, and the subtraction before them, only because of the rules that come
first.
-/

namespace TensorContraction

/-! ### Computations that read by position -/

section

variable {ε α : Type}

/-- The entry at a position, if the list has that many. -/
def entry (l : List α) (position : Nat) : ExceptT ε Option α :=
  ExceptT.lift l[position]?

/-- One number taken from another that is no less. -/
def difference (m n : Nat) : ExceptT ε Option Nat :=
  ExceptT.lift (m.psub n)

/-- A computation that reads nothing by position. -/
def unread (x : Except ε α) : ExceptT ε Option α :=
  ExceptT.mk (some x)

namespace Yields

theorem unread (y : Except ε α) : Yields (TensorContraction.unread y) y := rfl

theorem entry {l : List α} {position : Nat} {a : α} (h : l[position]? = some a) :
    Yields (TensorContraction.entry l position : ExceptT ε Option α) (.ok a) := by
  rw [Yields, TensorContraction.entry, h]
  rfl

theorem difference {m n : Nat} (h : n ≤ m) :
    Yields (TensorContraction.difference m n : ExceptT ε Option Nat) (.ok (m - n)) := by
  rw [Yields, TensorContraction.difference, Nat.psub_eq_sub h]
  rfl

end Yields

end

namespace Problem

/-! ### The rules by positions -/

/-- Looks at both assignments at `count` positions from `position` on: neither `a` nor `b` is
the id there. -/
def checkNotAgainByPosition (a b : Nat) (idsA idsB : List Nat) :
    (count position : Nat) → ExceptT ValidationError Option Unit
  | 0, _ => pure ()
  | count + 1, position => do
    let a' ← entry idsA position
    if a = a' then throw (.assignmentDuplicate .a a)
    else
      let b' ← entry idsB position
      if b = b' then throw (.assignmentDuplicate .b b)
      else checkNotAgainByPosition a b idsA idsB count (position + 1)

/-- Looks at both assignments at `count` positions from `position` on: no id there is above
`maxIndex`, and none comes again later in the same operand. -/
def checkAssignmentsByPosition (maxIndex : Nat) (idsA idsB : List Nat) :
    (count position : Nat) → ExceptT ValidationError Option Unit
  | 0, _ => pure ()
  | count + 1, position => do
    let a ← entry idsA position
    if maxIndex < a then throw (.assignmentInvalid .a position)
    else
      let b ← entry idsB position
      if maxIndex < b then throw (.assignmentInvalid .b position)
      else
        checkNotAgainByPosition a b idsA idsB (idsA.length - (position + 1)) (position + 1)
        checkAssignmentsByPosition maxIndex idsA idsB count (position + 1)

/-- The size that an index must have: that of the output's dimension with its number, or
that of the other operand's dimension at the position at which the index is found. -/
def expectedSizeByPosition (c other : Tensor) (otherIds : List Nat) (id : Nat) :
    ExceptT ValidationError Option UInt64 :=
  if id < c.rank then do
    let dimension ← entry c.dimensions id
    return dimension.size
  else
    match otherIds.idxOf? id with
    | some position => do
      let dimension ← entry other.dimensions position
      return dimension.size
    | none => throw (.indexUnassigned id)

/-- Looks at the dimensions of an operand at the positions of its assignment, from `position`
on: each has the size that its index must have. -/
def checkSizesByPosition (operand : Operand) (c t other : Tensor) (otherIds : List Nat) :
    (ids : List Nat) → (position : Nat) → ExceptT ValidationError Option Unit
  | [], _ => pure ()
  | id :: ids, position => do
    let dimension ← entry t.dimensions position
    let size ← expectedSizeByPosition c other otherIds id
    if size = dimension.size then checkSizesByPosition operand c t other otherIds ids (position + 1)
    else throw (.assignmentInvalid operand position)

/-- **Validation by positions.** -/
def validateByPosition (p : Problem) (config : ValidationConfig) :
    ExceptT ValidationError Option Unit := do
  unread p.validateRanks
  unread p.validateIndexCounts
  let maxIndex ← difference (p.free.length + p.batch.length + p.summation.length) 1
  checkAssignmentsByPosition maxIndex p.usedA p.usedB p.usedA.length 0
  if config.checkSizes then
    checkSizesByPosition .a p.c p.a p.b p.usedB p.usedA 0
    checkSizesByPosition .b p.c p.b p.a p.usedA p.usedB 0
  unread (p.validateDevices config.maxDevices)

/-! ### Both assignments in step

What is left of a list from a position on tells the entry at the position, and what is left
from the next one on. -/

section

variable {α : Type} {l rest : List α} {x : α} {position : Nat}

theorem getElem?_of_drop (h : l.drop position = x :: rest) : l[position]? = some x := by
  rw [← Nat.add_zero position, ← List.getElem?_drop, h]
  rfl

theorem drop_succ_of_drop (h : l.drop position = x :: rest) : l.drop (position + 1) = rest := by
  rw [← List.tail_drop, h]
  rfl

end

theorem yields_checkNotAgain {a b : Nat} {idsA idsB restA restB : List Nat} {position : Nat}
    (hA : idsA.drop position = restA) (hB : idsB.drop position = restB)
    (hlength : restA.length = restB.length) :
    Yields (checkNotAgainByPosition a b idsA idsB restA.length position)
      (checkNotAgain a b (restA.zip restB)) := by
  induction restA generalizing position restB with
  | nil => exact .pure ()
  | cons a' restA ih =>
    cases restB with
    | nil => cases hlength
    | cons b' restB =>
      refine .bind_ok (.entry (getElem?_of_drop hA)) (.ite (fun _ => .throw _) fun _ => ?_)
      refine .bind_ok (.entry (getElem?_of_drop hB)) (.ite (fun _ => .throw _) fun _ => ?_)
      exact ih (drop_succ_of_drop hA) (drop_succ_of_drop hB) (Nat.succ.inj hlength)

/-- **Assignments of one length can be read in step.** -/
theorem yields_checkAssignments {maxIndex : Nat} {idsA idsB restA restB : List Nat}
    {position : Nat} (hA : idsA.drop position = restA) (hB : idsB.drop position = restB)
    (hlength : restA.length = restB.length) :
    Yields (checkAssignmentsByPosition maxIndex idsA idsB restA.length position)
      (checkAssignments maxIndex position (restA.zip restB)) := by
  induction restA generalizing position restB with
  | nil => exact .pure ()
  | cons a restA ih =>
    cases restB with
    | nil => cases hlength
    | cons b restB =>
      have hA' := drop_succ_of_drop hA
      have hB' := drop_succ_of_drop hB
      have hlength' : restA.length = restB.length := Nat.succ.inj hlength
      -- the inner loop goes through what is left of the outer one
      have hcount : idsA.length - (position + 1) = restA.length := by
        rw [← hA', List.length_drop]
      have hagain := yields_checkNotAgain (a := a) (b := b) hA' hB' hlength'
      have hwalk : checkAssignments maxIndex position ((a :: restA).zip (b :: restB)) =
          if maxIndex < a then .error (.assignmentInvalid .a position)
          else if maxIndex < b then .error (.assignmentInvalid .b position)
          else checkNotAgain a b (restA.zip restB) >>= fun _ =>
            checkAssignments maxIndex (position + 1) (restA.zip restB) := by
        rw [List.zip_cons_cons, checkAssignments]
        cases checkNotAgain a b (restA.zip restB) <;> rfl
      rw [hwalk]
      refine .bind_ok (.entry (getElem?_of_drop hA)) (.ite (fun _ => .throw _) fun _ => ?_)
      refine .bind_ok (.entry (getElem?_of_drop hB)) (.ite (fun _ => .throw _) fun _ => ?_)
      rw [hcount]
      exact hagain.bind fun _ _ => ih hA' hB' hlength'

/-! ### Sizes -/

/-- The leg with an id is at the position at which the id is found. -/
theorem find?_legs {ids : List UInt64} {dimensions : List Dimension}
    (h : ids.length = dimensions.length) (id : Nat) :
    (List.zipWith (fun id size => Leg.mk id.toNat size) ids (dimensions.map Dimension.size)).find?
        (fun leg => leg.id == id) =
      ((ids.map UInt64.toNat).idxOf? id).bind fun position =>
        dimensions[position]?.map fun dimension => ⟨id, dimension.size⟩ := by
  induction ids generalizing dimensions with
  | nil => rfl
  | cons id' ids ih =>
    cases dimensions with
    | nil => cases h
    | cons dimension dimensions =>
      rw [List.map_cons, List.map_cons, List.zipWith_cons_cons, List.find?_cons, List.idxOf?_cons]
      cases hid : id'.toNat == id with
      | true => simp [beq_iff_eq.1 hid]
      | false =>
        rw [ih (Nat.succ.inj h)]
        cases (ids.map UInt64.toNat).idxOf? id with
        | none => rfl
        | some position => rfl

/-- **An expected size can be read**: an id of the output is the number of one of its
dimensions, and the position of an id in an assignment is that of a dimension. -/
theorem yields_expectedSize {c other : Tensor} {otherIds : List UInt64}
    (h : otherIds.length = other.rank) (id : Nat) :
    Yields (expectedSizeByPosition c other (otherIds.map UInt64.toNat) id)
      (expectedSize c (legs otherIds other) id) := by
  rw [expectedSizeByPosition, expectedSize]
  by_cases hid : id < c.rank
  · rw [if_pos hid, dif_pos hid]
    exact .bind_ok (.entry (List.getElem?_eq_getElem hid)) (.pure _)
  · rw [if_neg hid, dif_neg hid, legs, Tensor.sizes, find?_legs h]
    cases hfind : (otherIds.map UInt64.toNat).idxOf? id with
    | none => exact .throw _
    | some position =>
      have hlt : position < other.dimensions.length := by
        obtain ⟨hlt, -⟩ := List.findIdx?_eq_some_iff_getElem.1 hfind
        rwa [List.length_map, h] at hlt
      have hentry := List.getElem?_eq_getElem hlt
      simp only [Option.bind_some, hentry, Option.map_some]
      exact .bind_ok (.entry hentry) (.pure _)

/-- **The sizes of an operand can be read**, for an assignment to each of its dimensions. -/
theorem yields_checkSizes {operand : Operand} {c t other : Tensor} {otherIds : List Nat}
    {otherLegs : List Leg}
    (hexpected : ∀ id,
      Yields (expectedSizeByPosition c other otherIds id) (expectedSize c otherLegs id))
    {ids : List UInt64} {dimensions : List Dimension} {position : Nat}
    (hdimensions : t.dimensions.drop position = dimensions)
    (hlength : ids.length = dimensions.length) :
    Yields (checkSizesByPosition operand c t other otherIds (ids.map UInt64.toNat) position)
      (checkSizes operand c otherLegs position
        (List.zipWith (fun id size => ⟨id.toNat, size⟩) ids (dimensions.map Dimension.size))) := by
  induction ids generalizing position dimensions with
  | nil => exact .pure ()
  | cons id ids ih =>
    cases dimensions with
    | nil => cases hlength
    | cons dimension dimensions =>
      have hwalk : checkSizes operand c otherLegs position
          (List.zipWith (fun id size => ⟨id.toNat, size⟩) (id :: ids)
            ((dimension :: dimensions).map Dimension.size)) =
          (expectedSize c otherLegs id.toNat >>= fun size =>
            if size = dimension.size then
              checkSizes operand c otherLegs (position + 1)
                (List.zipWith (fun id size => ⟨id.toNat, size⟩) ids
                  (dimensions.map Dimension.size))
            else .error (.assignmentInvalid operand position)) := by
        rw [List.map_cons, List.zipWith_cons_cons, checkSizes]
        cases expectedSize c otherLegs id.toNat <;> rfl
      rw [hwalk]
      refine .bind_ok (.entry (getElem?_of_drop hdimensions)) ((hexpected _).bind fun _ _ => ?_)
      exact .ite (fun _ => ih (drop_succ_of_drop hdimensions) (Nat.succ.inj hlength))
        fun _ => .throw _

/-! ### The rules together -/

variable (p : Problem)

/-- The assignments can be read in step once the ranks are known to agree, and there is a
greatest id once there are known to be indices. -/
theorem yields_validateAssignments (hranks : p.validateRanks = .ok ())
    (hcounts : p.validateIndexCounts = .ok ()) :
    Yields (do
      let maxIndex ← difference (p.free.length + p.batch.length + p.summation.length) 1
      checkAssignmentsByPosition maxIndex p.usedA p.usedB p.usedA.length 0)
      p.validateAssignments := by
  have hrank := validateRanks_eq_ok_iff.1 hranks
  obtain ⟨⟨-, hfree⟩, -⟩ := validateIndexCounts_eq_ok_iff.1 hcounts
  have hlength : p.usedA.length = p.usedB.length := by rw [length_usedA, length_usedB, hrank]
  rw [validateAssignments, map_id_legsA, map_id_legsB]
  exact .bind_ok (.difference (by omega)) (yields_checkAssignments rfl rfl hlength)

theorem yields_validateSizes :
    Yields (do
      checkSizesByPosition .a p.c p.a p.b p.usedB p.usedA 0
      checkSizesByPosition .b p.c p.b p.a p.usedA p.usedB 0)
      p.validateSizes := by
  have hsizes : p.validateSizes =
      (checkSizes .a p.c p.legsB 0 p.legsA >>= fun _ => checkSizes .b p.c p.legsA 0 p.legsB) := by
    rw [validateSizes]
    cases checkSizes .a p.c p.legsB 0 p.legsA <;> rfl
  have hA : Yields (checkSizesByPosition .a p.c p.a p.b p.usedB p.usedA 0)
      (checkSizes .a p.c p.legsB 0 p.legsA) :=
    yields_checkSizes (yields_expectedSize p.length_idsB) rfl p.length_idsA
  have hB : Yields (checkSizesByPosition .b p.c p.b p.a p.usedA p.usedB 0)
      (checkSizes .b p.c p.legsA 0 p.legsB) :=
    yields_checkSizes (yields_expectedSize p.length_idsA) rfl p.length_idsB
  rw [hsizes]
  exact hA.bind fun _ _ => hB

/-- **Validation by positions has a result**, which is that of validation: no position is out
of range, and nothing is taken from a lesser number. -/
theorem run_validateByPosition (config : ValidationConfig) :
    (p.validateByPosition config).run = some (p.validate config) := by
  change Yields (p.validateByPosition config) (p.validate config)
  rw [validateByPosition, validate]
  refine (Yields.unread _).bind fun _ hranks => (Yields.unread _).bind fun _ hcounts => ?_
  rw [← bind_assoc]
  refine (p.yields_validateAssignments hranks hcounts).bind fun _ _ => ?_
  cases config.checkSizes with
  | true =>
    simp only [if_true]
    rw [← bind_assoc]
    exact p.yields_validateSizes.bind fun _ _ => .unread _
  | false => exact .unread _

end Problem

end TensorContraction
